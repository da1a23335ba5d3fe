import SensorFusion.Lib.Machine
import SensorFusion.Wire.Codec

/-!
# Reading frames from a stream

`read_frames` pulls a header and then a body from an `asyncio.StreamReader` with
`readexactly`, yields the body, and starts over.  Between two reads the event
loop may feed any number of bytes, so the generator is modelled as a machine
whose labels are the transport feeding a segment, the transport reporting
end-of-file, and the event loop giving the generator a turn.

The whole argument is one invariant, `Session.Conserved`: the bytes fed so far
are the frames of the payloads yielded so far, then whatever the generator holds
of the frame it is working on, then the reader's buffer.  A generator that cannot
move holds a `LengthPrefix.Short` remainder, so what it has yielded is decided by
the bytes fed and by nothing else.
-/

namespace SensorFusion.Wire

/-! ## `asyncio.StreamReader` -/

/-- The two parts of a `StreamReader` that `readexactly` looks at. -/
structure StreamReader where
  buffer : Bytes
  eof : Bool
deriving DecidableEq, Repr

/-- How a `readexactly` comes out: the bytes, `IncompleteReadError` with the bytes
that were left at end-of-file, or a wait for more data. -/
inductive Read where
  | ready (data : Bytes)
  | incomplete (received : Bytes)
  | wait
deriving DecidableEq, Repr

/-- `readexactly(n)` waits until `n` bytes are buffered and returns exactly those;
at end-of-file it takes what there is and raises. -/
def StreamReader.readexactly (n : ℕ) (r : StreamReader) : Read × StreamReader :=
  if n ≤ r.buffer.length then (.ready (r.buffer.take n), { r with buffer := r.buffer.drop n })
  else if r.eof then (.incomplete r.buffer, { r with buffer := [] })
  else (.wait, r)

/-! ## `read_frames` -/

/-- Which of the two `readexactly` calls of `read_frames` is next. -/
inductive Awaiting where
  | header
  | body (length : ℕ)
deriving DecidableEq, Repr

/-- How many bytes the next `readexactly` asks for. -/
def Awaiting.expected : Awaiting → ℕ
  | .header => HEADER_LEN
  | .body length => length

@[simp] theorem Awaiting.expected_header : Awaiting.header.expected = Wire.header.size := rfl

@[simp] theorem Awaiting.expected_body (n : ℕ) : (Awaiting.body n).expected = n := rfl

/-- `asyncio.IncompleteReadError`. -/
structure IncompleteReadError where
  received : Bytes
  expected : ℕ
deriving DecidableEq, Repr

/-- One `read_frames` generator on one stream.  `fed` is ghost: it collects every
byte the transport has fed. -/
structure Session where
  reader : StreamReader
  awaiting : Awaiting
  raised : Option IncompleteReadError
  yielded : List Bytes
  fed : Bytes
deriving DecidableEq, Repr

/-- What can happen to the stream and its generator. -/
inductive Event where
  | feed_data (segment : Bytes)
  | feed_eof
  | resume
deriving DecidableEq, Repr

namespace Session

/-- A fresh stream and a generator that has not been asked for anything. -/
def start : Session := ⟨⟨[], false⟩, .header, none, [], []⟩

/-- Give the generator a turn: run it up to the end of its next `readexactly`. -/
def resume (s : Session) : Session :=
  match s.raised with
  | some _ => s
  | none =>
      match s.reader.readexactly s.awaiting.expected with
      | (.wait, _) => s
      | (.incomplete received, r) =>
          { s with reader := r, raised := some ⟨received, s.awaiting.expected⟩ }
      | (.ready data, r) =>
          match s.awaiting with
          | .header => { s with reader := r, awaiting := .body (header.unpack data) }
          | .body _ => { s with reader := r, awaiting := .header, yielded := s.yielded ++ [data] }

/-- The machine: `feed_data` after `feed_eof` is refused, as asyncio asserts. -/
def step : Machine Session Event
  | s, .feed_data segment =>
      if s.reader.eof then none
      else some { s with
        reader := { s.reader with buffer := s.reader.buffer ++ segment }
        fed := s.fed ++ segment }
  | s, .feed_eof => some { s with reader := { s.reader with eof := true } }
  | s, .resume => some s.resume

/-! ## Conservation of bytes -/

/-- The header bytes the generator has consumed for the frame it is reading. -/
def held (s : Session) : Bytes :=
  match s.awaiting with
  | .header => []
  | .body length => header.pack length

/-- The bytes not yet accounted for by a yielded frame: the held header, then
the bytes of a read cut short by end-of-file, then the buffer. -/
def rest (s : Session) : Bytes :=
  s.held ++ ((s.raised.map IncompleteReadError.received).getD [] ++ s.reader.buffer)

/-- The invariant of the generator: the bytes fed are the yielded frames followed
by the rest, every announced length fits, and a read only comes up short at
end-of-file with a short rest. -/
structure Conserved (s : Session) : Prop where
  fed_eq : s.fed = header.frames s.yielded ++ s.rest
  fits : ∀ p ∈ s.yielded, header.Fits p
  body_lt : ∀ n, s.awaiting = .body n → n < header.limit
  raised_eof : s.raised.isSome → s.reader.eof = true
  raised_short : s.raised.isSome → header.Short s.rest

theorem conserved_start : start.Conserved where
  fed_eq := rfl
  fits := by simp [start]
  body_lt := by simp [start]
  raised_eof := by simp [start]
  raised_short := by simp [start]

/-- The rest is short when the next read cannot be filled from the buffer. -/
theorem Conserved.short_rest {s : Session} (h : s.Conserved) (hr : s.raised = none)
    (hlt : s.reader.buffer.length < s.awaiting.expected) : header.Short s.rest := by
  rw [rest, held, hr]
  cases ha : s.awaiting with
  | header =>
      rw [ha] at hlt
      exact Or.inl (by simpa using hlt)
  | body n =>
      rw [ha] at hlt
      have hlen := header.length_pack n
      have hn : header.unpack (header.pack n) = n := header.unpack_pack n (h.body_lt n ha)
      refine Or.inr ⟨by simp [hlen], ?_⟩
      rw [← hlen, List.take_left' rfl, hn, List.length_append, Nat.add_sub_cancel_left]
      simpa using hlt

/-! ### What one turn of the generator does -/

/-- A turn changes nothing when the generator has raised, or when it waits. -/
theorem resume_of_raised {s : Session} {e : IncompleteReadError} (h : s.raised = some e) :
    s.resume = s := by
  rw [resume, h]

theorem resume_wait {s : Session} (hr : s.raised = none) (he : s.reader.eof = false)
    (hlt : s.reader.buffer.length < s.awaiting.expected) : s.resume = s := by
  rw [resume, hr]
  simp [StreamReader.readexactly, Nat.not_le.mpr hlt, he]

theorem resume_incomplete {s : Session} (hr : s.raised = none) (he : s.reader.eof = true)
    (hlt : s.reader.buffer.length < s.awaiting.expected) :
    s.resume = { s with
      reader := { s.reader with buffer := [] }
      raised := some ⟨s.reader.buffer, s.awaiting.expected⟩ } := by
  rw [resume, hr]
  simp [StreamReader.readexactly, Nat.not_le.mpr hlt, he]

theorem resume_header {s : Session} (hr : s.raised = none) (ha : s.awaiting = .header)
    (hle : HEADER_LEN ≤ s.reader.buffer.length) :
    s.resume = { s with
      reader := { s.reader with buffer := s.reader.buffer.drop HEADER_LEN }
      awaiting := .body (header.unpack (s.reader.buffer.take HEADER_LEN)) } := by
  rw [resume, hr]
  simp [StreamReader.readexactly, ha, Awaiting.expected, hle]

theorem resume_body {s : Session} {n : ℕ} (hr : s.raised = none) (ha : s.awaiting = .body n)
    (hle : n ≤ s.reader.buffer.length) :
    s.resume = { s with
      reader := { s.reader with buffer := s.reader.buffer.drop n }
      awaiting := .header
      yielded := s.yielded ++ [s.reader.buffer.take n] } := by
  rw [resume, hr]
  simp [StreamReader.readexactly, ha, Awaiting.expected, hle]

/-- A turn keeps every byte accounted for. -/
theorem Conserved.resume {s : Session} (h : s.Conserved) : s.resume.Conserved := by
  cases hr : s.raised with
  | some e => rw [resume_of_raised hr]; exact h
  | none =>
      rcases Nat.lt_or_ge s.reader.buffer.length s.awaiting.expected with hlt | hle
      · cases he : s.reader.eof with
        | false => rw [resume_wait hr he hlt]; exact h
        | true =>
            have hrest : s.resume.rest = s.rest := by
              rw [resume_incomplete hr he hlt]
              simp [rest, held, hr]
            refine ⟨?_, ?_, ?_, ?_, ?_⟩
            · rw [hrest, resume_incomplete hr he hlt]; exact h.fed_eq
            · rw [resume_incomplete hr he hlt]; exact h.fits
            · rw [resume_incomplete hr he hlt]; exact h.body_lt
            · rw [resume_incomplete hr he hlt]; exact fun _ ↦ he
            · intro _; rw [hrest]; exact h.short_rest hr hlt
      · cases ha : s.awaiting with
        | header =>
            -- The header bytes move from the buffer to the held length.
            rw [ha] at hle
            have hlen : (s.reader.buffer.take HEADER_LEN).length = header.size :=
              List.length_take_of_le hle
            rw [resume_header hr ha hle]
            refine ⟨?_, h.fits, ?_, ?_, ?_⟩
            · have hfed := h.fed_eq
              simp only [rest, held, ha, hr, Option.map_none, Option.getD_none,
                List.nil_append] at hfed ⊢
              rw [hfed, header.pack_unpack _ hlen, List.take_append_drop]
            · intro n hn
              cases hn
              exact header.unpack_lt _ hlen
            · simp [hr]
            · simp [hr]
        | body n =>
            -- The held length and the body together become a yielded frame.
            rw [ha] at hle
            have hlen : (s.reader.buffer.take n).length = n := List.length_take_of_le hle
            rw [resume_body hr ha hle]
            refine ⟨?_, ?_, by simp, by simp [hr], by simp [hr]⟩
            · have hfed := h.fed_eq
              simp only [rest, held, ha, hr, Option.map_none, Option.getD_none,
                List.nil_append] at hfed ⊢
              rw [hfed, LengthPrefix.frames_append, LengthPrefix.frames_cons,
                LengthPrefix.frames_nil, LengthPrefix.frame, hlen]
              simp [List.take_append_drop]
            · intro p hp
              rcases List.mem_append.mp hp with hp | hp
              · exact h.fits p hp
              · rw [List.mem_singleton.mp hp, LengthPrefix.Fits, hlen]
                exact h.body_lt n ha

/-- Every label keeps every byte accounted for. -/
theorem Conserved.step {s s' : Session} {e : Event} (h : s.Conserved)
    (hs : Session.step s e = some s') : s'.Conserved := by
  cases e with
  | resume => cases hs; exact h.resume
  | feed_eof =>
      cases hs
      exact ⟨h.fed_eq, h.fits, h.body_lt, fun _ ↦ rfl, h.raised_short⟩
  | feed_data segment =>
      simp only [Session.step] at hs
      split at hs
      · cases hs
      · rename_i heof
        cases hs
        -- Nothing is fed after end-of-file, so no read has come up short yet.
        have hr : s.raised = none := by
          cases hr : s.raised with
          | none => rfl
          | some e => exact absurd (h.raised_eof (by simp [hr])) heof
        refine ⟨?_, h.fits, h.body_lt, by simp [hr], by simp [hr]⟩
        have hfed := h.fed_eq
        simp only [rest, held, hr, Option.map_none, Option.getD_none, List.nil_append] at hfed ⊢
        rw [hfed]
        simp

/-- The bytes are accounted for in every state of every schedule. -/
theorem conserved_run {s : Session} {evs : List Event} (h : step.run start evs = some s) :
    s.Conserved :=
  Machine.invariant (I := Conserved) (fun _ _ _ hc hs ↦ hc.step hs) conserved_start h

end Session

end SensorFusion.Wire
