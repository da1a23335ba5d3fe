import SensorFusion.Wire.Reader

/-!
# Frames are delivered whole, in order and at once

What `read_frames` yields from a stream of encoded payloads.  A generator that is
given turns makes progress, one `readexactly` a turn, until its remainder is
`Short`; and with a short remainder it has yielded every frame fed so far.  Two
turns a frame are therefore enough to have the first `i` payloads out as soon as
the bytes of their frames are in.
-/

namespace SensorFusion.Wire.Session

/-- The `readexactly` calls a generator has finished: two for every yielded
frame, one more when it holds a header. -/
def work (s : Session) : ℕ :=
  2 * s.yielded.length + match s.awaiting with
    | .header => 0
    | .body _ => 1

/-- A generator that has done `2 * i` reads has yielded `i` frames. -/
theorem le_length_yielded {s : Session} {i : ℕ} (h : 2 * i ≤ s.work) : i ≤ s.yielded.length := by
  rw [work] at h
  split at h <;> omega

theorem two_mul_length_yielded_le (s : Session) : 2 * s.yielded.length ≤ s.work :=
  Nat.le_add_right _ _

@[simp] theorem fed_resume (s : Session) : s.resume.fed = s.fed := by
  rw [resume]
  split
  · rfl
  · split
    · rfl
    · rfl
    · split <;> rfl

/-- Give the generator `k` turns with nothing fed in between. -/
def turns : ℕ → Session → Session
  | 0, s => s
  | k + 1, s => (turns k s).resume

@[simp] theorem fed_turns (k : ℕ) (s : Session) : (turns k s).fed = s.fed := by
  induction k with
  | zero => rfl
  | succ k ih => rw [turns, fed_resume, ih]

theorem Conserved.turns {s : Session} (h : s.Conserved) (k : ℕ) : (turns k s).Conserved := by
  induction k with
  | zero => exact h
  | succ k ih => exact ih.resume

/-- A turn finishes at most one read, and finishes one exactly when the rest is
not too short. -/
theorem Conserved.work_resume {s : Session} (h : s.Conserved) :
    s.resume.work = s.work + 1 ∨ s.resume.work = s.work ∧ header.Short s.rest := by
  cases hr : s.raised with
  | some e =>
      rw [resume_of_raised hr]
      exact Or.inr ⟨rfl, h.raised_short (by simp [hr])⟩
  | none =>
      rcases Nat.lt_or_ge s.reader.buffer.length s.awaiting.expected with hlt | hle
      · refine Or.inr ⟨?_, h.short_rest hr hlt⟩
        cases he : s.reader.eof with
        | false => rw [resume_wait hr he hlt]
        | true => rw [resume_incomplete hr he hlt]; rfl
      · refine Or.inl ?_
        cases ha : s.awaiting with
        | header =>
            rw [ha] at hle
            rw [resume_header hr ha hle]
            simp [work, ha]
        | body n =>
            rw [ha] at hle
            rw [resume_body hr ha hle]
            simp [work, ha]
            omega

/-- With the frames of `qs` all fed, a generator whose rest is short has yielded
`qs`. -/
theorem Conserved.isPrefix_of_short {s : Session} (h : s.Conserved) (hshort : header.Short s.rest)
    {qs : List Bytes} (hqs : ∀ q ∈ qs, header.Fits q) (hfed : header.frames qs <+: s.fed) :
    qs <+: s.yielded := by
  rw [h.fed_eq] at hfed
  exact hshort.isPrefix_of_frames h.fits hqs hfed

/-- With the frames of `qs` all fed, `k` turns finish `k` reads or all the reads
that `qs` needs. -/
theorem Conserved.work_turns {s : Session} (h : s.Conserved) {qs : List Bytes}
    (hqs : ∀ q ∈ qs, header.Fits q) (hfed : header.frames qs <+: s.fed) (k : ℕ) :
    min k (2 * qs.length) ≤ (Session.turns k s).work := by
  induction k with
  | zero => simp
  | succ k ih =>
      have hc := h.turns k
      rw [Session.turns]
      rcases hc.work_resume with hone | ⟨hsame, hshort⟩
      · omega
      · -- No read finished: the rest is short, so all of `qs` is out already.
        rw [hsame]
        have hfed' : header.frames qs <+: (Session.turns k s).fed := by rwa [fed_turns]
        have hlen := (hc.isPrefix_of_short hshort hqs hfed').length_le
        have htwo := two_mul_length_yielded_le (Session.turns k s)
        omega

/-- What has been yielded is always an initial part of the payloads being sent. -/
theorem Conserved.yielded_isPrefix {s : Session} (h : s.Conserved) {ps : List Bytes}
    (hps : ∀ p ∈ ps, header.Fits p) (hfed : s.fed <+: header.frames ps) : s.yielded <+: ps := by
  have hpre : header.frames s.yielded <+: s.fed := by
    rw [h.fed_eq]
    exact List.prefix_append _ _
  exact LengthPrefix.isPrefix_of_frames h.fits hps (hpre.trans hfed)

/-- Two turns a frame deliver every frame fed. -/
theorem Conserved.take_isPrefix_yielded {s : Session} (h : s.Conserved) {ps : List Bytes}
    (hps : ∀ p ∈ ps, header.Fits p) (hfed : s.fed <+: header.frames ps) {i : ℕ}
    (hi : header.frames (ps.take i) <+: s.fed) :
    ps.take i <+: (Session.turns (2 * i) s).yielded := by
  have htake : ∀ q ∈ ps.take i, header.Fits q := fun q hq ↦ hps q (List.mem_of_mem_take hq)
  have hwork := h.work_turns htake hi (2 * i)
  have hyielded : (Session.turns (2 * i) s).yielded <+: ps :=
    (h.turns _).yielded_isPrefix hps (by rwa [fed_turns])
  have hlen : (ps.take i).length ≤ (Session.turns (2 * i) s).yielded.length := by
    apply le_length_yielded
    have hle : (ps.take i).length ≤ i := List.length_take_le i ps
    omega
  exact List.prefix_of_prefix_length_le (List.take_prefix i ps) hyielded hlen

/-- Once every frame is fed, two turns a frame deliver exactly the payloads. -/
theorem Conserved.yielded_eq {s : Session} (h : s.Conserved) {ps : List Bytes}
    (hps : ∀ p ∈ ps, header.Fits p) (hfed : s.fed = header.frames ps) :
    (Session.turns (2 * ps.length) s).yielded = ps := by
  have hpre : header.frames (ps.take ps.length) <+: s.fed := by rw [List.take_length, hfed]
  have htake := h.take_isPrefix_yielded hps (by rw [hfed]) hpre
  rw [List.take_length] at htake
  have hyielded : (Session.turns (2 * ps.length) s).yielded <+: ps :=
    (h.turns _).yielded_isPrefix hps (by rw [fed_turns, hfed])
  exact hyielded.eq_of_length (le_antisymm hyielded.length_le htake.length_le)

end SensorFusion.Wire.Session

namespace SensorFusion.Wire

open Session

/-- **Wire framing.**  Let every payload of `ps` fit in 32 bits, and `bytes` be
what `encode` makes of them.  However those bytes are cut into segments and
however the generator's turns fall between the segments, `read_frames` yields an
initial part of `ps`; as soon as the bytes of the first `i` frames are in, the
next `2 * i` turns have `ps.take i` out; and once all of `bytes` is in, exactly
`ps` comes out.  A payload that does not fit is refused, not sent with a wrapped
length. -/
theorem read_frames_encodeAll (ps : List Bytes) (hps : ∀ p ∈ ps, p.length < 2 ^ 32) :
    (∃ bytes, encodeAll ps = .ok bytes ∧
      ∀ (evs : List Event) (s : Session), step.run start evs = some s → s.fed <+: bytes →
        s.yielded <+: ps ∧
        (∀ i sent, encodeAll (ps.take i) = .ok sent → sent <+: s.fed →
          ps.take i <+: (turns (2 * i) s).yielded) ∧
        (s.fed = bytes → (turns (2 * ps.length) s).yielded = ps)) ∧
    (∀ p : Bytes, 2 ^ 32 ≤ p.length → encode p = .error (.requiresUInt32 p.length)) := by
  refine ⟨⟨header.frames ps, encodeAll_eq_ok_iff.mpr ⟨hps, rfl⟩, fun evs s hrun hfed ↦ ?_⟩,
    fun p hp ↦ encode_of_not_fits hp⟩
  have hc := conserved_run hrun
  refine ⟨hc.yielded_isPrefix hps hfed, fun i sent hsent hpre ↦ ?_,
    fun hall ↦ hc.yielded_eq hps hall⟩
  obtain ⟨-, rfl⟩ := encodeAll_eq_ok_iff.mp hsent
  exact hc.take_isPrefix_yielded hps hfed hpre

/-- An empty payload and one that looks like a header, fed in two segments that
split the second header: both come out. -/
theorem read_frames_encodeAll_two :
    ∃ s, step.run start [.feed_data [0, 0, 0, 0, 4, 0], .resume, .resume, .resume,
        .feed_data [0, 0, 0, 0, 0, 1], .resume] = some s ∧
      (turns 4 s).yielded = [[], [0, 0, 0, 1]] := by
  obtain ⟨⟨bytes, hbytes, h⟩, -⟩ := read_frames_encodeAll [[], [0, 0, 0, 1]] (by decide)
  have hb : bytes = [0, 0, 0, 0, 4, 0, 0, 0, 0, 0, 0, 1] := by cases hbytes; decide
  subst hb
  have hout := h [.feed_data [0, 0, 0, 0, 4, 0], .resume, .resume, .resume,
    .feed_data [0, 0, 0, 0, 0, 1], .resume] _ rfl (by decide)
  exact ⟨_, rfl, hout.2.2 (by decide)⟩

end SensorFusion.Wire
