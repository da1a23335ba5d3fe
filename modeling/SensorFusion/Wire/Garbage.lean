import SensorFusion.Wire.Delivery

/-!
# Reading a stream that is not a stream of frames

`read_frames` on any bytes at all, followed by end-of-file.  The bytes split in one way
only into frames and a rest that is too short to hold another one.  The frames come out,
and then the read that runs into the rest raises.  A frame has a header at least, so the
number of reads is bounded by the number of bytes, whatever lengths the headers announce.
-/

namespace SensorFusion.Wire.Session

@[simp] theorem eof_resume (s : Session) : s.resume.reader.eof = s.reader.eof := by
  rcases hr : s.reader.readexactly s.awaiting.expected with ⟨o, r⟩
  have hr' : r.eof = s.reader.eof := by
    rw [StreamReader.readexactly] at hr
    split at hr
    · cases hr; rfl
    · split at hr
      · cases hr; rfl
      · cases hr; rfl
  rw [resume, hr]
  split
  · rfl
  · cases o with
    | wait => rfl
    | incomplete received => exact hr'
    | ready data =>
        dsimp only
        split
        · exact hr'
        · exact hr'

@[simp] theorem eof_turns (k : ℕ) (s : Session) : (turns k s).reader.eof = s.reader.eof := by
  induction k with
  | zero => rfl
  | succ k ih => rw [turns, eof_resume, ih]

/-- Frames have at least a header each. -/
theorem size_mul_length_le (ps : List Bytes) :
    header.size * ps.length ≤ (header.frames ps).length := by
  induction ps with
  | nil => exact Nat.zero_le _
  | cons p ps ih =>
      rw [LengthPrefix.frames_cons, List.length_append, LengthPrefix.length_frame, List.length_cons,
        Nat.mul_succ]
      omega

/-- Two reads for every header that was fed. -/
theorem Conserved.work_le {s : Session} (h : s.Conserved) :
    s.work ≤ 2 * (s.fed.length / HEADER_LEN) := by
  have hsize : HEADER_LEN = 4 := rfl
  have hframes := size_mul_length_le s.yielded
  rw [show header.size = 4 from rfl] at hframes
  have hfed := congrArg List.length h.fed_eq
  rw [List.length_append] at hfed
  rw [work, hsize]
  cases ha : s.awaiting with
  | header =>
      dsimp only
      omega
  | body n =>
      have hpack : (header.pack n).length = 4 := header.length_pack n
      have hheld : s.held = header.pack n := by rw [held, ha]
      rw [rest, List.length_append, hheld] at hfed
      dsimp only
      omega

/-- At end-of-file every turn finishes a read or raises. -/
theorem Conserved.resume_eof {s : Session} (h : s.Conserved) (he : s.reader.eof = true) :
    s.resume.raised.isSome ∨ s.resume.work = s.work + 1 := by
  cases hr : s.raised with
  | some e =>
      rw [resume_of_raised hr, hr]
      exact Or.inl rfl
  | none =>
      rcases Nat.lt_or_ge s.reader.buffer.length s.awaiting.expected with hlt | hle
      · rw [resume_incomplete hr he hlt]
        exact Or.inl rfl
      · rcases h.work_resume with hone | ⟨-, hshort⟩
        · exact Or.inr hone
        · -- the read can be filled, so it is finished
          refine Or.inr ?_
          cases ha : s.awaiting with
          | header =>
              rw [ha] at hle
              rw [resume_header hr ha hle]
              simp [work, ha]
          | body n =>
              rw [ha] at hle
              rw [resume_body hr ha hle]
              simp [work, ha]
              omega

theorem raised_resume {s : Session} (h : s.raised.isSome) : s.resume = s := by
  obtain ⟨e, he⟩ := Option.isSome_iff_exists.mp h
  exact resume_of_raised he

theorem Conserved.turns_eof {s : Session} (h : s.Conserved) (he : s.reader.eof = true) (k : ℕ) :
    (Session.turns k s).raised.isSome ∨ (Session.turns k s).work = s.work + k := by
  induction k with
  | zero => exact Or.inr rfl
  | succ k ih =>
      rw [Session.turns]
      rcases ih with hraised | hwork
      · rw [raised_resume hraised]
        exact Or.inl hraised
      · rcases (h.turns k).resume_eof (by rwa [eof_turns]) with hraised | hnext
        · exact Or.inl hraised
        · exact Or.inr (by rw [hnext, hwork]; rfl)

/-- At end-of-file the generator has raised after two turns for every header there was
room for, and one more. -/
theorem Conserved.raised_turns {s : Session} (h : s.Conserved) (he : s.reader.eof = true) :
    (Session.turns (2 * (s.fed.length / HEADER_LEN) + 1) s).raised.isSome := by
  rcases h.turns_eof he (2 * (s.fed.length / HEADER_LEN) + 1) with hraised | hwork
  · exact hraised
  · have hle := (h.turns (2 * (s.fed.length / HEADER_LEN) + 1)).work_le
    rw [fed_turns] at hle
    omega

end SensorFusion.Wire.Session

namespace SensorFusion.Wire

open Session

/-- Bytes split in one way only into frames and a short rest. -/
theorem frames_append_short_inj {ps qs : List Bytes} {r r' : Bytes}
    (hps : ∀ p ∈ ps, header.Fits p) (hqs : ∀ q ∈ qs, header.Fits q) (hr : header.Short r)
    (hr' : header.Short r') (h : header.frames ps ++ r = header.frames qs ++ r') : ps = qs := by
  have hpq : ps <+: qs := hr'.isPrefix_of_frames hqs hps ⟨r, h⟩
  have hqp : qs <+: ps := hr.isPrefix_of_frames hps hqs ⟨r', h.symm⟩
  exact hpq.eq_of_length (le_antisymm hpq.length_le hqp.length_le)

/-- **Any bytes.**  At every moment the payloads that have come out encode to an initial
part of the bytes fed.  Once the stream has ended, the generator raises after finitely
many turns and stays there; by then the payloads that came out encode to all of the bytes
but a short rest, and they are the only ones that do. -/
theorem read_frames_any {evs : List Event} {s : Session} (hrun : step.run start evs = some s) :
    (∃ sent, encodeAll s.yielded = .ok sent ∧ sent <+: s.fed) ∧
    (s.reader.eof = true → ∃ t e sent rest,
      t = turns (2 * (s.fed.length / HEADER_LEN) + 1) s ∧ t.raised = some e ∧ t.resume = t ∧
      encodeAll t.yielded = .ok sent ∧ s.fed = sent ++ rest ∧ header.Short rest ∧
      ∀ ps sent' rest', encodeAll ps = .ok sent' → s.fed = sent' ++ rest' → header.Short rest' →
        ps = t.yielded) := by
  have hc := conserved_run hrun
  constructor
  · refine ⟨header.frames s.yielded, encodeAll_eq_ok_iff.mpr ⟨hc.fits, rfl⟩, ?_⟩
    rw [hc.fed_eq]
    exact List.prefix_append _ _
  · intro he
    have hraised := hc.raised_turns he
    have ht := hc.turns (2 * (s.fed.length / HEADER_LEN) + 1)
    have hfed := fed_turns (2 * (s.fed.length / HEADER_LEN) + 1) s
    generalize htdef : turns (2 * (s.fed.length / HEADER_LEN) + 1) s = t at hraised ht hfed
    obtain ⟨e, hexc⟩ := Option.isSome_iff_exists.mp hraised
    have hshort := ht.raised_short hraised
    refine ⟨t, e, header.frames t.yielded, t.rest, rfl, hexc, raised_resume hraised,
      encodeAll_eq_ok_iff.mpr ⟨ht.fits, rfl⟩, by rw [← hfed]; exact ht.fed_eq, hshort, ?_⟩
    intro ps sent' rest' hsent hsplit hrest
    obtain ⟨hps, rfl⟩ := encodeAll_eq_ok_iff.mp hsent
    refine frames_append_short_inj hps ht.fits hrest hshort ?_
    rw [← hsplit, ← hfed]
    exact ht.fed_eq

/-- A frame of no bytes, then a header that announces more than follows. -/
theorem read_frames_any_truncated : ∃ t e,
    t = turns 5 ⟨⟨[0, 0, 0, 0, 9, 0, 0, 0, 1], true⟩, .header, none, [],
      [0, 0, 0, 0, 9, 0, 0, 0, 1]⟩ ∧
    t.raised = some e ∧ t.yielded = [[]] := by
  have hrun : step.run start [.feed_data [0, 0, 0, 0, 9], .feed_data [0, 0, 0, 1], .feed_eof] =
      some ⟨⟨[0, 0, 0, 0, 9, 0, 0, 0, 1], true⟩, .header, none, [], [0, 0, 0, 0, 9, 0, 0, 0, 1]⟩ :=
    rfl
  obtain ⟨t, e, sent, rest, ht, hexc, -, -, -, -, hunique⟩ := (read_frames_any hrun).2 rfl
  exact ⟨t, e, ht, hexc, (hunique [[]] [0, 0, 0, 0] [9, 0, 0, 0, 1] rfl rfl (by decide)).symm⟩

end SensorFusion.Wire
