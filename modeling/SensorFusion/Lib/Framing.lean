import Mathlib.Data.List.Infix
import Mathlib.Data.List.Basic

/-!
# Length-prefix framing

A *length prefix* is a fixed-size header that announces how many symbols follow.
Putting the header in front of a payload gives a frame, and frames form a prefix
code: a concatenation of frames can be cut back into payloads in one way only,
reading from the left.  Nothing here says how the cutting is done.  What a reader
needs is collected in two lemmas:

* `LengthPrefix.isPrefix_of_frames` -- payloads whose frames make up an
  initial part of a stream of frames are an initial part of its payloads;
* `LengthPrefix.Short.isPrefix_of_frames` -- if what is left of a stream
  after some frames is too short to hold another frame, then every sequence of
  frames the stream begins with has already been cut off.

The symbols, the header size and the largest announced length are parameters.
-/

namespace SensorFusion

universe u

/-- A codec for fixed-size headers announcing lengths below `limit`. -/
structure LengthPrefix (β : Type u) where
  /-- The number of symbols in a header. -/
  size : ℕ
  /-- Headers announce lengths strictly below this bound. -/
  limit : ℕ
  /-- The header announcing a length. -/
  pack : ℕ → List β
  /-- The length a header announces. -/
  unpack : List β → ℕ
  size_pos : 0 < size
  length_pack : ∀ n, (pack n).length = size
  unpack_pack : ∀ n, n < limit → unpack (pack n) = n
  pack_unpack : ∀ h, h.length = size → pack (unpack h) = h
  unpack_lt : ∀ h, h.length = size → unpack h < limit

namespace LengthPrefix

variable {β : Type u} (C : LengthPrefix β)

/-- The frame of a payload: its header, then the payload. -/
def frame (p : List β) : List β := C.pack p.length ++ p

/-- The frames of a list of payloads, back to back. -/
def frames (ps : List (List β)) : List β := ps.flatMap C.frame

/-- A payload short enough for its length to be announced. -/
def Fits (p : List β) : Prop := p.length < C.limit

instance (p : List β) : Decidable (C.Fits p) := inferInstanceAs (Decidable (_ < _))

@[simp] theorem frames_nil : C.frames [] = [] := rfl

@[simp] theorem frames_cons (p : List β) (ps : List (List β)) :
    C.frames (p :: ps) = C.frame p ++ C.frames ps := rfl

@[simp] theorem frames_append (ps qs : List (List β)) :
    C.frames (ps ++ qs) = C.frames ps ++ C.frames qs := by
  simp [frames]

@[simp] theorem length_frame (p : List β) : (C.frame p).length = C.size + p.length := by
  simp [frame, C.length_pack]

theorem frame_ne_nil (p : List β) : C.frame p ≠ [] := by
  have h := C.length_frame p
  have hpos := C.size_pos
  intro hnil
  rw [hnil, List.length_nil] at h
  omega

variable {C}

/-- Frames are self-delimiting: two streams that agree and begin with a frame
each begin with the same frame. -/
theorem frame_append_inj {p q r r' : List β} (hp : C.Fits p) (hq : C.Fits q)
    (h : C.frame p ++ r = C.frame q ++ r') : p = q ∧ r = r' := by
  simp only [frame, List.append_assoc] at h
  have hlen : (C.pack p.length).length = (C.pack q.length).length := by
    rw [C.length_pack, C.length_pack]
  obtain ⟨hhead, htail⟩ := List.append_inj h hlen
  have hpq : p.length = q.length := by
    rw [← C.unpack_pack _ hp, hhead, C.unpack_pack _ hq]
  exact List.append_inj htail hpq

/-- Payloads whose frames are an initial part of a stream of frames are an
initial part of the stream's payloads. -/
theorem isPrefix_of_frames {ps qs : List (List β)} (hps : ∀ p ∈ ps, C.Fits p)
    (hqs : ∀ q ∈ qs, C.Fits q) (h : C.frames ps <+: C.frames qs) : ps <+: qs := by
  induction ps generalizing qs with
  | nil => exact List.nil_prefix
  | cons p ps ih =>
      obtain ⟨r, hr⟩ := h
      cases qs with
      | nil =>
          have hnil : C.frame p ++ (C.frames ps ++ r) = [] := by simpa using hr
          exact absurd (List.append_eq_nil_iff.mp hnil).1 (C.frame_ne_nil p)
      | cons q qs =>
          rw [frames_cons, frames_cons, List.append_assoc] at hr
          obtain ⟨rfl, htail⟩ := frame_append_inj (hps p (by simp)) (hqs q (by simp)) hr
          have hps' : ∀ x ∈ ps, C.Fits x := fun x hx ↦ hps x (List.mem_cons_of_mem _ hx)
          have hqs' : ∀ x ∈ qs, C.Fits x := fun x hx ↦ hqs x (List.mem_cons_of_mem _ hx)
          exact List.cons_prefix_cons.mpr ⟨rfl, ih hps' hqs' ⟨r, htail⟩⟩

/-- What is left of a stream is *short* when it does not hold a whole frame:
either not even a header, or a header announcing more than what follows it. -/
def Short (C : LengthPrefix β) (r : List β) : Prop :=
  r.length < C.size ∨
    (C.size ≤ r.length ∧ r.length - C.size < C.unpack (r.take C.size))

instance (r : List β) : Decidable (C.Short r) := inferInstanceAs (Decidable (_ ∨ _))

theorem Short.not_frame_isPrefix {r p : List β} (h : C.Short r) (hp : C.Fits p) :
    ¬ C.frame p <+: r := by
  rintro ⟨t, rfl⟩
  have hhead : (C.frame p ++ t).take C.size = C.pack p.length := by
    rw [frame, List.append_assoc, ← C.length_pack p.length, List.take_left]
  rcases h with hlt | ⟨_, hlt⟩
  · rw [List.length_append, length_frame] at hlt
    omega
  · rw [hhead, C.unpack_pack _ hp, List.length_append, length_frame] at hlt
    omega

/-- If a stream is the frames of `ps` followed by a short rest, every sequence of
frames it begins with is an initial part of `ps`. -/
theorem Short.isPrefix_of_frames {ps qs : List (List β)} {r : List β} (h : C.Short r)
    (hps : ∀ p ∈ ps, C.Fits p) (hqs : ∀ q ∈ qs, C.Fits q)
    (hpre : C.frames qs <+: C.frames ps ++ r) : qs <+: ps := by
  induction qs generalizing ps with
  | nil => exact List.nil_prefix
  | cons q qs ih =>
      obtain ⟨t, ht⟩ := hpre
      rw [frames_cons, List.append_assoc] at ht
      cases ps with
      | nil =>
          have hr : C.frame q <+: r := ⟨C.frames qs ++ t, by simpa using ht⟩
          exact absurd hr (h.not_frame_isPrefix (hqs q (by simp)))
      | cons p ps =>
          rw [frames_cons, List.append_assoc] at ht
          obtain ⟨rfl, htail⟩ := frame_append_inj (hqs q (by simp)) (hps p (by simp)) ht
          have hps' : ∀ x ∈ ps, C.Fits x := fun x hx ↦ hps x (List.mem_cons_of_mem _ hx)
          have hqs' : ∀ x ∈ qs, C.Fits x := fun x hx ↦ hqs x (List.mem_cons_of_mem _ hx)
          exact List.cons_prefix_cons.mpr ⟨rfl, ih hps' hqs' ⟨t, htail⟩⟩

end LengthPrefix

end SensorFusion
