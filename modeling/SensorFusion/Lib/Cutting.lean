import Mathlib.Data.List.Infix
import Mathlib.Data.Nat.Init

/-!
# Cutting a stream into messages

A *cutter* looks at what there is of a stream and either cuts a message off its front, or
wants more of it, or gives up.  What it has decided once, it decides with more of the stream
as well.  So a reader that asks its cutter again whenever another piece of the stream has
arrived gets the messages that it would get with the whole stream in hand, however the
stream was broken into pieces: `Cutter.messages` is that reader, and the pieces do not occur
in it.
-/

namespace SensorFusion

universe u v

/-- What there is to say about the front of a stream. -/
inductive Cut (α : Type u) (ε : Type v)
  | more
  | message (message rest : List α)
  | failed (e : ε)

structure Cutter (α : Type u) (ε : Type v) where
  cut : List α → Cut α ε
  /-- Something is cut off. -/
  shorter : ∀ s m rest, cut s = .message m rest → rest.length < s.length
  message_append : ∀ s m rest t, cut s = .message m rest → cut (s ++ t) = .message m (rest ++ t)
  failed_append : ∀ s e t, cut s = .failed e → cut (s ++ t) = .failed e

namespace Cutter

variable {α : Type u} {ε : Type v} (C : Cutter α ε)

/-- `messages`, but at most `n` of them. -/
def messagesWithin : ℕ → List α → List (List α) × Option ε × List α
  | 0, s => ([], none, s)
  | n + 1, s =>
      match C.cut s with
      | .more => ([], none, s)
      | .message m rest => ((messagesWithin n rest).1.cons m, (messagesWithin n rest).2)
      | .failed e => ([], some e, s)

/-- The messages of a stream, why the cutter gave up, if it did, and what is left. -/
def messages (s : List α) : List (List α) × Option ε × List α :=
  C.messagesWithin (s.length + 1) s

variable {C} {s t m rest : List α} {e : ε}

/-- A stream holds no more messages than symbols. -/
theorem messagesWithin_eq (n : ℕ) (h : s.length < n) : C.messagesWithin n s = C.messages s := by
  induction n using Nat.strong_induction_on generalizing s with
  | _ n ih =>
    obtain ⟨k, rfl⟩ : ∃ k, n = k + 1 := Nat.exists_eq_add_one.mpr (Nat.zero_lt_of_lt h)
    rw [messages, messagesWithin, messagesWithin]
    cases hcut : C.cut s with
    | more => rfl
    | failed e => rfl
    | message m rest =>
        have hshort := C.shorter s m rest hcut
        have hk : C.messagesWithin k rest = C.messages rest := ih k (Nat.lt_succ_self k) (by omega)
        have hs : C.messagesWithin s.length rest = C.messages rest := by
          rcases Nat.lt_or_ge s.length (k + 1) with hlt | hge
          · exact ih s.length hlt hshort
          · omega
        dsimp only
        rw [hk, hs]

theorem messages_of_more (h : C.cut s = .more) : C.messages s = ([], none, s) := by
  rw [messages, messagesWithin, h]

theorem messages_of_failed (h : C.cut s = .failed e) : C.messages s = ([], some e, s) := by
  rw [messages, messagesWithin, h]

theorem messages_of_message (h : C.cut s = .message m rest) :
    C.messages s = (m :: (C.messages rest).1, (C.messages rest).2) := by
  rw [messages, messagesWithin, h]
  dsimp only
  rw [messagesWithin_eq _ (C.shorter s m rest h)]

/-- What comes later in the stream changes nothing in the messages that are there already. -/
theorem messages_append (s t : List α) :
    (C.messages s).1 <+: (C.messages (s ++ t)).1 := by
  induction hn : s.length using Nat.strong_induction_on generalizing s with
  | _ n ih =>
    cases hcut : C.cut s with
    | more =>
        rw [messages_of_more hcut]
        exact List.nil_prefix
    | failed e =>
        rw [messages_of_failed hcut]
        exact List.nil_prefix
    | message m rest =>
        rw [messages_of_message hcut, messages_of_message (C.message_append s m rest t hcut)]
        have hshort : rest.length < n := hn ▸ C.shorter s m rest hcut
        exact List.cons_prefix_cons.mpr ⟨rfl, ih _ hshort rest rfl⟩

/-- A stream that is made of messages is cut into them, and then cut on. -/
theorem messages_flatMap {β : Type*} {frame payload : β → List α}
    (ps : List β) (hps : ∀ p ∈ ps, ∀ t, C.cut (frame p ++ t) = .message (payload p) t)
    (t : List α) :
    C.messages (ps.flatMap frame ++ t) =
      (ps.map payload ++ (C.messages t).1, (C.messages t).2) := by
  induction ps with
  | nil => rfl
  | cons p ps ih =>
      rw [List.flatMap_cons, List.append_assoc,
        messages_of_message (hps p List.mem_cons_self _),
        ih fun q hq ↦ hps q (List.mem_cons_of_mem p hq)]
      rfl

end Cutter

end SensorFusion
