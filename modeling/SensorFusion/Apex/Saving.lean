import SensorFusion.Apex.Database
import Mathlib.Data.List.Basic

/-!
# The thread that saves

`SqliteThread` saves what other threads add to a list.  `add` appends under a lock, but the
thread takes the list over without it: an `add` that has got hold of the list before may
append to it when it is being gone through already.  Every interleaving is a run of
`thread`.  What is added is saved in order and at most once, and lost only if an `append` comes
so late that the list that it appends to has been gone through to its end.
-/

namespace SensorFusion

namespace Apex

namespace Sqlite

inductive Item
  | connection (conn : ConnectionRecord)
  | message (msg : StoredRecord)
  | disconnection (disconn : DisconnectionRecord)
  /-- `None`. -/
  | stop
  deriving DecidableEq

/-- What an operation saves. -/
def Operation.items : Operation → List Item
  | .connection conn => [.connection conn]
  | .messages _ msg_list => msg_list.map .message
  | .disconnection disconn => [.disconnection disconn]
  | .rollover => []

/-! ## Chunks -/

/-- `range(0, len(items), chunk_size)`, and a slice from each. -/
def chunks {α : Type*} (chunk_size : ℕ) (items : List α) : List (List α) :=
  (List.range' 0 ((items.length + chunk_size - 1) / chunk_size) chunk_size).map fun items_start ↦
    (items.drop items_start).take chunk_size

theorem flatten_slices {α : Type*} (chunk_size start count : ℕ) (items : List α) :
    ((List.range' start count chunk_size).map fun items_start ↦
      (items.drop items_start).take chunk_size).flatten =
        (items.drop start).take (count * chunk_size) := by
  induction count generalizing start with
  | zero => simp
  | succ count ih =>
      rw [List.range'_succ, List.map_cons, List.flatten_cons, ih, Nat.succ_mul, Nat.add_comm
        (count * chunk_size), List.take_add, List.drop_drop]

theorem flatten_chunks {α : Type*} {chunk_size : ℕ} (hpos : 0 < chunk_size) (items : List α) :
    (chunks chunk_size items).flatten = items := by
  rw [chunks, flatten_slices, List.drop_zero, List.take_of_length_le]
  have hdiv := Nat.div_add_mod (items.length + chunk_size - 1) chunk_size
  have hmod := Nat.mod_lt (items.length + chunk_size - 1) hpos
  rw [Nat.mul_comm] at hdiv
  omega

theorem length_of_mem_chunks {α : Type*} {chunk_size : ℕ} {items chunk : List α}
    (h : chunk ∈ chunks chunk_size items) : chunk.length ≤ chunk_size := by
  obtain ⟨items_start, -, rfl⟩ := List.mem_map.mp h
  exact List.length_take_le _ _

/-! ## The thread -/

inductive Phase
  | waiting
  /-- It has left `with self.condition`. -/
  | awake
  /-- It goes through `last_pending`. -/
  | saving
  | exited
  deriving DecidableEq

/-- The list that an `add` has got hold of: the one that is `self.pending` now, or the one
that the thread has taken since. -/
inductive Held
  | current
  | taken
  deriving DecidableEq

structure SqliteThread where
  pending : List Item
  /-- What has not been read yet of the list that the thread goes through. -/
  last_pending : List Item
  /-- The messages of the group that is being read. -/
  items : List StoredRecord
  phase : Phase
  /-- There is one `add` at a time: it holds the lock. -/
  adding : Option Held
  deriving DecidableEq

namespace SqliteThread

def start : SqliteThread := ⟨[], [], [], .waiting, none⟩

/-- The messages of the group are saved, in chunks. -/
def insert (timenow : ℕ → ℤ) (t : SqliteThread) : List Operation :=
  (chunks 50 t.items).zipIdx.map fun chunk ↦ .messages (timenow chunk.2) chunk.1

/-- The next item of the list is read, or its end.  A group of messages is saved when it is
complete, anything else at once. -/
def read (timenow : ℕ → ℤ) (t : SqliteThread) : SqliteThread × List Operation :=
  match t.last_pending with
  | [] => ({ t with items := [], phase := .waiting }, t.insert timenow)
  | .message msg :: rest => ({ t with last_pending := rest, items := t.items ++ [msg] }, [])
  | .connection conn :: rest =>
      ({ t with last_pending := rest, items := [] }, t.insert timenow ++ [.connection conn])
  | .disconnection disconn :: rest =>
      ({ t with last_pending := rest, items := [] }, t.insert timenow ++ [.disconnection disconn])
  | .stop :: rest =>
      ({ t with last_pending := rest, items := [], phase := .exited }, t.insert timenow)

end SqliteThread

/-- What happens in the thread and in those that add. -/
inductive Label
  /-- `self.pending` in `add`, with the lock. -/
  | load
  /-- The list is appended to, and the lock is released. -/
  | append (item : Item)
  /-- The thread has got the lock back from `wait`, and goes on; it may be time for a
  rollover. -/
  | wake (rollover : Bool)
  /-- There is nothing pending. -/
  | skip
  /-- `self.pending = []`. -/
  | take
  | read (timenow : ℕ → ℤ)

def thread : Machine SqliteThread Label
  | t, .load => if t.adding = none then some { t with adding := some .current } else none
  | t, .append item =>
      match t.adding with
      | none => none
      | some .current => some { t with pending := t.pending ++ [item], adding := none }
      | some .taken =>
          if t.phase = .saving then
            some { t with last_pending := t.last_pending ++ [item], adding := none }
          else some { t with adding := none }
  | t, .wake _ =>
      if t.phase = .waiting ∧ t.adding = none then some { t with phase := .awake } else none
  | t, .skip =>
      if t.phase = .awake ∧ t.pending = [] then some { t with phase := .waiting } else none
  | t, .take =>
      if t.phase = .awake ∧ t.pending ≠ [] then
        some { t with
          pending := []
          last_pending := t.pending
          phase := .saving
          adding := t.adding.map fun _ ↦ .taken }
      else none
  | t, .read timenow => if t.phase = .saving then some (t.read timenow).1 else none

/-- What the thread does to the database. -/
def performed (t : SqliteThread) : Label → List Operation
  | .wake true => [.rollover]
  | .read timenow => (t.read timenow).2
  | _ => []

def added : Label → List Item
  | .append item => [item]
  | _ => []

/-- It is appended to a list that has been gone through. -/
def Late (t : SqliteThread) : Label → Prop
  | .append _ => t.adding = some .taken ∧ t.phase ≠ .saving
  | _ => False

instance (t : SqliteThread) (l : Label) : Decidable (Late t l) := by
  cases l <;> unfold Late <;> infer_instance

/-- What is added in time. -/
def kept (t : SqliteThread) (l : Label) : List Item := if Late t l then [] else added l

/-! ## What is where -/

/-- The items `kept` are saved, or being read, or pending, in this order. -/
structure Holds (t : SqliteThread) (operations : List Operation) (kept : List Item) : Prop where
  order : operations.flatMap Operation.items ++ t.items.map .message ++
    (if t.phase = .exited then [.stop] else []) ++ t.last_pending ++ t.pending = kept
  idle : t.phase = .waiting ∨ t.phase = .awake → t.items = [] ∧ t.last_pending = []
  exited : t.phase = .exited → t.items = []
  taken : t.adding = some .taken → t.phase ≠ .awake ∧ t.pending = []
  size : ∀ saved_timestamp msg_list, .messages saved_timestamp msg_list ∈ operations →
    msg_list.length ≤ 50

theorem items_insert (timenow : ℕ → ℤ) (t : SqliteThread) :
    (t.insert timenow).flatMap Operation.items = t.items.map .message := by
  have hflat : ∀ (lists : List (List StoredRecord)) (n : ℕ),
      ((lists.zipIdx n).map fun chunk ↦ Operation.messages (timenow chunk.2) chunk.1).flatMap
        Operation.items = lists.flatten.map .message := by
    intro lists
    induction lists with
    | nil => exact fun _ ↦ rfl
    | cons list lists ih =>
        intro n
        rw [List.zipIdx_cons, List.map_cons, List.flatMap_cons, ih, List.flatten_cons,
          List.map_append]
        rfl
  rw [SqliteThread.insert, hflat, flatten_chunks (by decide)]

theorem size_insert {timenow : ℕ → ℤ} {t : SqliteThread} {saved_timestamp : ℤ}
    {msg_list : List StoredRecord}
    (h : .messages saved_timestamp msg_list ∈ t.insert timenow) : msg_list.length ≤ 50 := by
  obtain ⟨⟨chunk, n⟩, hmem, heq⟩ := List.mem_map.mp h
  cases heq
  exact length_of_mem_chunks (List.fst_mem_of_mem_zipIdx hmem)

theorem holds_start : Holds .start [] [] where
  order := rfl
  idle _ := ⟨rfl, rfl⟩
  exited _ := rfl
  taken h := nomatch h
  size _ _ h := nomatch h

section Steps

variable {t t' : SqliteThread} {operations : List Operation} {items : List Item}

theorem Holds.size_read (h : Holds t operations items) (timenow : ℕ → ℤ) {last : List Operation}
    (hlast : ∀ saved_timestamp msg_list, .messages saved_timestamp msg_list ∉ last)
    (saved_timestamp : ℤ) (msg_list : List StoredRecord)
    (hmem : .messages saved_timestamp msg_list ∈ operations ++ (t.insert timenow ++ last)) :
    msg_list.length ≤ 50 := by
  rw [List.mem_append, List.mem_append] at hmem
  rcases hmem with hmem | hmem | hmem
  · exact h.size _ _ hmem
  · exact size_insert hmem
  · exact absurd hmem (hlast _ _)

/-- The group is saved, and the item after it. -/
theorem Holds.read_one (h : Holds t operations items) (hphase : t.phase = .saving)
    (timenow : ℕ → ℤ) {item : Item} {rest : List Item} (hlast : t.last_pending = item :: rest)
    {operation : Operation} (hitems : operation.items = [item])
    (hne : ∀ saved_timestamp msg_list, operation ≠ .messages saved_timestamp msg_list) :
    Holds { t with last_pending := rest, items := [] }
      (operations ++ (t.insert timenow ++ [operation])) items where
  order := by
    have horder := h.order
    rw [hphase, if_neg (by decide), List.append_nil, hlast] at horder
    simpa [List.flatMap_append, items_insert, hitems, hphase] using horder
  idle hidle := by
    dsimp only at hidle
    rw [hphase] at hidle
    exact hidle.elim nofun nofun
  exited _ := rfl
  taken := h.taken
  size := h.size_read timenow fun _ _ hmem ↦ hne _ _ (List.mem_singleton.mp hmem).symm

/-- The group is saved, and the thread stops reading. -/
theorem Holds.read_last (h : Holds t operations items) (hphase : t.phase = .saving)
    (timenow : ℕ → ℤ) {rest : List Item} {phase : Phase}
    (hlast : t.last_pending = (if phase = .exited then [.stop] else []) ++ rest)
    (hidle : phase = .waiting ∨ phase = .awake → rest = []) (hawake : phase ≠ .awake) :
    Holds { t with last_pending := rest, items := [], phase := phase }
      (operations ++ t.insert timenow) items where
  order := by
    have horder := h.order
    rw [hphase, if_neg (by decide), List.append_nil, hlast] at horder
    simpa [List.flatMap_append, items_insert] using horder
  idle h := ⟨rfl, hidle h⟩
  exited _ := rfl
  taken htaken := ⟨hawake, (h.taken htaken).2⟩
  size := by
    have hsize := h.size_read timenow fun _ _ ↦ List.not_mem_nil
    rwa [List.append_nil] at hsize

theorem Holds.read (h : Holds t operations items) (hphase : t.phase = .saving)
    (timenow : ℕ → ℤ) :
    Holds (t.read timenow).1 (operations ++ (t.read timenow).2) items := by
  unfold SqliteThread.read
  split
  · rename_i hlast
    have hread := @Holds.read_last t operations items h hphase timenow [] .waiting hlast
      (fun _ ↦ rfl) nofun
    rwa [← hlast] at hread
  · rename_i msg rest hlast
    have horder := h.order
    rw [hphase, if_neg (by decide), List.append_nil, hlast] at horder
    refine ⟨?_, fun hidle ↦ ?_, fun hexited ↦ ?_, h.taken, ?_⟩
    · simpa [hphase] using horder
    · dsimp only at hidle
      rw [hphase] at hidle
      exact hidle.elim nofun nofun
    · exact absurd (hphase.symm.trans hexited) (by decide)
    · rw [List.append_nil]
      exact h.size
  · rename_i hlast
    exact h.read_one hphase timenow hlast rfl fun _ _ ↦ nofun
  · rename_i hlast
    exact h.read_one hphase timenow hlast rfl fun _ _ ↦ nofun
  · rename_i hlast
    exact h.read_last hphase timenow hlast (fun hidle ↦ hidle.elim nofun nofun) nofun

theorem Holds.append (h : Holds t operations items) {item : Item}
    (hstep : thread t (.append item) = some t') :
    Holds t' operations (items ++ kept t (.append item)) := by
  simp only [thread] at hstep
  split at hstep
  · cases hstep
  · rename_i hadding
    cases hstep
    have hlate : ¬ Late t (.append item) := by
      rw [Late, hadding]
      exact fun hlate ↦ nomatch hlate.1
    rw [kept, if_neg hlate]
    refine ⟨?_, h.idle, h.exited, nofun, h.size⟩
    rw [← h.order]
    simp [added]
  · rename_i hadding
    obtain ⟨hawake, hpending⟩ := h.taken hadding
    split at hstep
    · rename_i hphase
      cases hstep
      have hlate : ¬ Late t (.append item) := fun hlate ↦ hlate.2 hphase
      rw [kept, if_neg hlate]
      refine ⟨?_, fun hidle ↦ ?_, h.exited, nofun, h.size⟩
      · rw [← h.order]
        simp [added, hpending]
      · dsimp only at hidle
        rw [hphase] at hidle
        exact hidle.elim nofun nofun
    · rename_i hphase
      cases hstep
      have hlate : Late t (.append item) := ⟨hadding, hphase⟩
      rw [kept, if_pos hlate, List.append_nil]
      exact ⟨h.order, h.idle, h.exited, nofun, h.size⟩

theorem Holds.step (h : Holds t operations items) {l : Label} (hstep : thread t l = some t') :
    Holds t' (operations ++ performed t l) (items ++ kept t l) := by
  have hnil : items ++ [] = items := List.append_nil items
  cases l with
  | append item =>
      show Holds t' (operations ++ []) _
      rw [List.append_nil]
      exact h.append hstep
  | load =>
      obtain ⟨hadding, hstep⟩ := Option.ite_none_right_eq_some.mp hstep
      cases hstep
      show Holds _ (operations ++ []) (items ++ [])
      rw [List.append_nil, hnil]
      exact ⟨h.order, h.idle, h.exited, nofun, h.size⟩
  | wake rolls =>
      obtain ⟨⟨hphase, hadding⟩, hstep⟩ := Option.ite_none_right_eq_some.mp hstep
      cases hstep
      show Holds _ _ (items ++ [])
      have hitems : (performed t (.wake rolls)).flatMap Operation.items = [] := by
        cases rolls <;> rfl
      have horder := h.order
      rw [hphase, if_neg (by decide)] at horder
      refine ⟨?_, fun _ ↦ h.idle (Or.inl hphase), nofun, fun htaken ↦ ?_, ?_⟩
      · rw [List.flatMap_append, hitems, List.append_nil, hnil]
        exact horder
      · exact absurd (hadding.symm.trans htaken) nofun
      · intro saved_timestamp msg_list hmem
        rcases List.mem_append.mp hmem with hmem | hmem
        · exact h.size _ _ hmem
        · cases rolls with
          | false => exact absurd hmem List.not_mem_nil
          | true => exact absurd (List.mem_singleton.mp hmem) nofun
  | skip =>
      obtain ⟨⟨hphase, hpending⟩, hstep⟩ := Option.ite_none_right_eq_some.mp hstep
      cases hstep
      show Holds _ (operations ++ []) (items ++ [])
      have horder := h.order
      rw [hphase, if_neg (by decide)] at horder
      rw [List.append_nil, hnil]
      exact ⟨horder, fun _ ↦ h.idle (Or.inr hphase), nofun,
        fun htaken ↦ ⟨nofun, (h.taken htaken).2⟩, h.size⟩
  | take =>
      obtain ⟨⟨hphase, hpending⟩, hstep⟩ := Option.ite_none_right_eq_some.mp hstep
      cases hstep
      show Holds _ (operations ++ []) (items ++ [])
      obtain ⟨-, hlast⟩ := h.idle (Or.inr hphase)
      have horder := h.order
      rw [hphase, if_neg (by decide), hlast, List.append_nil, List.append_nil] at horder
      rw [List.append_nil, hnil]
      refine ⟨?_, fun hidle ↦ hidle.elim nofun nofun, nofun, fun _ ↦ ⟨nofun, rfl⟩, h.size⟩
      simpa using horder
  | read timenow =>
      obtain ⟨hphase, hstep⟩ := Option.ite_none_right_eq_some.mp hstep
      cases hstep
      show Holds _ _ (items ++ [])
      rw [hnil]
      exact h.read hphase timenow

theorem Holds.run (h : Holds t operations items) {labels : List Label}
    (hrun : thread.run t labels = some t') :
    Holds t' (operations ++ thread.outputs performed t labels)
      (items ++ thread.outputs kept t labels) := by
  induction labels generalizing t operations items with
  | nil =>
      cases hrun
      rwa [Machine.outputs, Machine.outputs, List.append_nil, List.append_nil]
  | cons l labels ih =>
      obtain ⟨t₁, hstep, hrun⟩ := Machine.run_cons_eq_some.mp hrun
      rw [Machine.outputs_cons hstep, Machine.outputs_cons hstep, ← List.append_assoc,
        ← List.append_assoc]
      exact ih (h.step hstep) hrun

/-- Nothing is kept that is not added, and in the same order. -/
theorem kept_sublist (t : SqliteThread) (labels : List Label) :
    (thread.outputs kept t labels).Sublist (labels.flatMap added) := by
  induction labels generalizing t with
  | nil => exact List.Sublist.refl []
  | cons l labels ih =>
      rw [Machine.outputs, List.flatMap_cons]
      refine List.Sublist.append ?_ ?_
      · rw [kept]
        split
        · exact List.nil_sublist _
        · exact List.Sublist.refl _
      · cases thread t l with
        | none => exact List.nil_sublist _
        | some t' => exact ih t'

theorem kept_of_meets {t t' : SqliteThread} {labels : List Label}
    (hmeets : thread.Meets (fun t l ↦ ¬ Late t l) t labels)
    (hrun : thread.run t labels = some t') :
    thread.outputs kept t labels = labels.flatMap added := by
  induction labels generalizing t with
  | nil => rfl
  | cons l labels ih =>
      obtain ⟨t₁, hstep, hrun⟩ := Machine.run_cons_eq_some.mp hrun
      obtain ⟨hnot, hmeets⟩ := (Machine.meets_cons hstep).mp hmeets
      rw [Machine.outputs_cons hstep, ih hmeets hrun, List.flatMap_cons, kept, if_neg hnot]

end Steps

/-- Whatever the interleaving, what is saved are items that were added, in the order in which
they were added and none of them twice, and at most fifty messages at a time.  If no `append`
comes too late, then nothing is lost: the items are saved, or in the group that is being
read, or pending, and those after a `stop` are not saved any more. -/
theorem saved_in_order {labels : List Label} {t : SqliteThread}
    (hrun : thread.run .start labels = some t) :
    ((thread.outputs performed .start labels).flatMap Operation.items).Sublist
        (labels.flatMap added) ∧
      (∀ saved_timestamp msg_list,
        .messages saved_timestamp msg_list ∈ thread.outputs performed .start labels →
          msg_list.length ≤ 50) ∧
      (thread.Meets (fun t l ↦ ¬ Late t l) .start labels →
        (thread.outputs performed .start labels).flatMap Operation.items ++
          t.items.map .message ++ (if t.phase = .exited then [.stop] else []) ++
          t.last_pending ++ t.pending = labels.flatMap added ∧
        (t.phase = .waiting → t.pending = [] →
          (thread.outputs performed .start labels).flatMap Operation.items =
            labels.flatMap added)) := by
  have hholds := holds_start.run hrun
  rw [List.nil_append, List.nil_append] at hholds
  refine ⟨?_, hholds.size, fun hmeets ↦ ?_⟩
  · refine List.Sublist.trans ?_ (kept_sublist .start labels)
    rw [← hholds.order]
    simp only [List.append_assoc]
    exact List.sublist_append_left _ _
  · have horder := hholds.order
    rw [kept_of_meets hmeets hrun] at horder
    refine ⟨horder, fun hphase hpending ↦ ?_⟩
    obtain ⟨hitems, hlast⟩ := hholds.idle (Or.inl hphase)
    rw [hitems, hlast, hpending, hphase, if_neg (by decide)] at horder
    simpa using horder

/-- A message is appended to the list that the thread has taken in the meantime, while it reads
it. -/
def racing : List Label :=
  [.load, .append (.connection ⟨1, "Child", "edge:14000", 0⟩), .wake false, .load, .take,
    .read fun _ ↦ 0, .append (.message (stored 1 "registration" (some ⟨"edge"⟩))),
    .read fun _ ↦ 0, .read fun _ ↦ 0]

theorem saved_in_order_racing :
    ∃ t, thread.run .start racing = some t ∧
      (thread.outputs performed .start racing).flatMap Operation.items =
        racing.flatMap added := by
  obtain ⟨t, ht⟩ : ∃ t, thread.run .start racing = some t :=
    Option.isSome_iff_exists.mp (by decide +kernel)
  have hphase : (thread.run .start racing).map (fun t ↦ (t.phase, t.pending)) =
      some (.waiting, []) := by decide +kernel
  rw [ht, Option.map_some, Option.some_inj, Prod.mk.injEq] at hphase
  have hmeets : thread.Meets (fun t l ↦ ¬ Late t l) .start racing := by
    simp [racing, Machine.Meets, Late, thread, SqliteThread.start, SqliteThread.read]
  exact ⟨t, ht, ((saved_in_order ht).2.2 hmeets).2 hphase.1 hphase.2⟩

/-! ## What a connection says after some items -/

/-- The connection that an item is about. -/
def Item.about (c : ℕ) : Item → Bool
  | .connection conn => conn.id = c
  | .message msg => msg.connection_id = c
  | .disconnection disconn => disconn.connection_id = c
  | .stop => false

/-- An item is about one connection at most. -/
theorem Item.about_ne {item : Item} {c c' : ℕ} (h : item.about c = true) (hne : c' ≠ c) :
    item.about c' = false := by
  cases item with
  | connection conn => exact decide_eq_false fun heq ↦ hne (heq.symm.trans (of_decide_eq_true h))
  | message msg => exact decide_eq_false fun heq ↦ hne (heq.symm.trans (of_decide_eq_true h))
  | disconnection disconn =>
      exact decide_eq_false fun heq ↦ hne (heq.symm.trans (of_decide_eq_true h))
  | stop => rfl

def Item.connection_id? : Item → Option ℕ
  | .connection conn => some conn.id
  | _ => none

def Item.message_id? : Item → Option ℕ
  | .message msg => some msg.received.message_id
  | _ => none

/-- The row that is inserted for a connection. -/
def ConnectionRecord.row (conn : ConnectionRecord) : Connection where
  client_type := conn.type
  peer := conn.peer
  connect_time := conn.time
  disconnect_time := none
  disconnect_reason := none
  recent := .nothing

/-- The row of the connection `c` after an item. -/
def entry (c : ℕ) (row : Option Connection) (item : Item) : Option Connection :=
  if item.about c then
    match item with
    | .connection conn => some conn.row
    | .message msg => row.map fun row ↦ { row with recent := row.recent.note msg }
    | .disconnection disconn => row.map fun row ↦
        { row with
          disconnect_reason := some disconn.reason
          disconnect_time := some disconn.time }
    | .stop => row
  else row

theorem foldl_entry_filter (c : ℕ) (items : List Item) (row : Option Connection) :
    items.foldl (entry c) row = (items.filter (Item.about c)).foldl (entry c) row := by
  rw [List.foldl_filter]
  refine List.foldl_ext _ _ _ fun row item _ ↦ ?_
  by_cases habout : item.about c = true
  · rw [if_pos habout]
  · rw [if_neg habout]
    exact if_neg habout

/-- The messages of an open connection. -/
theorem foldl_entry_messages (c : ℕ) {msgs : List StoredRecord}
    (hmsgs : ∀ msg ∈ msgs, msg.connection_id = c) (row : Connection) :
    (msgs.map Item.message).foldl (entry c) (some row) =
      some { row with recent := msgs.foldl Recent.note row.recent } := by
  induction msgs generalizing row with
  | nil => rfl
  | cons msg msgs ih =>
      have hentry : entry c (some row) (.message msg) =
          some { row with recent := row.recent.note msg } :=
        if_pos (decide_eq_true (hmsgs msg List.mem_cons_self))
      rw [List.map_cons, List.foldl_cons, hentry,
        ih fun msg' hmsg' ↦ hmsgs msg' (List.mem_cons_of_mem msg hmsg')]
      rfl

section Entry

variable {db db' : Database}

theorem foldl_entry_filter_messages (c : ℕ) (msgs : List StoredRecord) (row : Option Connection) :
    (msgs.map Item.message).foldl (entry c) row = row.map fun row ↦
      { row with recent := (msgs.filter (·.connection_id = c)).foldl Recent.note row.recent } := by
  have hfilter : (msgs.map Item.message).filter (Item.about c) =
      (msgs.filter (·.connection_id = c)).map Item.message := List.filter_map
  rw [foldl_entry_filter, hfilter]
  cases row with
  | some row =>
      exact foldl_entry_messages c
        (fun msg hmsg ↦ of_decide_eq_true (List.mem_filter.mp hmsg).2) row
  | none =>
      induction msgs.filter (·.connection_id = c) with
      | nil => rfl
      | cons msg msgs ih =>
          have hentry : entry c none (.message msg) = none := by
            rw [entry]
            split <;> rfl
          rw [List.map_cons, List.foldl_cons, hentry]
          exact ih

/-- What an operation makes of a connection is what its items make of it, one by one. -/
theorem get?_operation {operation : Operation} (hop : operation ≠ .rollover)
    (hstep : saver db operation = some db') (c : ℕ) :
    db'.connections.get? c = operation.items.foldl (entry c) (db.connections.get? c) := by
  cases operation with
  | connection conn =>
      obtain ⟨connections, hnew, rfl⟩ := Option.map_eq_some_iff.mp hstep
      obtain ⟨-, rfl⟩ := Dict.insertNew_eq_some.mp hnew
      show Dict.get? _ _ = entry c _ _
      rw [Dict.get?_set, entry]
      by_cases hc : c = conn.id
      · rw [if_pos hc]
        exact (if_pos (decide_eq_true hc.symm)).symm
      · rw [if_neg hc]
        exact (if_neg fun habout ↦ hc (of_decide_eq_true habout).symm).symm
  | messages saved_timestamp msgs =>
      obtain ⟨messages, -, rfl⟩ := Option.map_eq_some_iff.mp hstep
      show (update_connection_multi msgs db.connections).get? c = _
      rw [get?_update_connection_multi, Operation.items, foldl_entry_filter_messages]
  | disconnection disconn =>
      cases hstep
      show (update_disconnection disconn db).connections.get? c = entry c _ _
      rw [update_disconnection, Dict.get?_updateRow, entry]
      by_cases hc : c = disconn.connection_id
      · rw [if_pos hc]
        exact (if_pos (decide_eq_true hc.symm)).symm
      · rw [if_neg hc]
        exact (if_neg fun habout ↦ hc (of_decide_eq_true habout).symm).symm
  | rollover => exact absurd rfl hop

theorem get?_operations {operations : List Operation} (hops : .rollover ∉ operations)
    (hrun : saver.run db operations = some db') (c : ℕ) :
    db'.connections.get? c =
      (operations.flatMap Operation.items).foldl (entry c) (db.connections.get? c) := by
  induction operations generalizing db with
  | nil =>
      cases hrun
      rfl
  | cons operation operations ih =>
      obtain ⟨db₁, hstep, hrun⟩ := Machine.run_cons_eq_some.mp hrun
      rw [List.mem_cons, not_or] at hops
      rw [ih hops.2 hrun, get?_operation (Ne.symm hops.1) hstep, List.flatMap_cons,
        List.foldl_append]

/-! ## Items that can be saved -/

/-- The primary keys of the items are different. -/
structure Savable (items : List Item) : Prop where
  connection_ids : (items.filterMap Item.connection_id?).Nodup
  message_ids : (items.filterMap Item.message_id?).Nodup

theorem Savable.sublist {items items' : List Item} (h : Savable items')
    (hsub : items.Sublist items') : Savable items where
  connection_ids := h.connection_ids.sublist (hsub.filterMap _)
  message_ids := h.message_ids.sublist (hsub.filterMap _)

/-- No item has a primary key that is in use. -/
structure Fresh (db : Database) (items : List Item) : Prop where
  connections : ∀ id ∈ items.filterMap Item.connection_id?, id ∉ db.connections
  messages : ∀ id ∈ items.filterMap Item.message_id?, id ∉ db.messages

/-- Fresh after an operation that has not put in any of their keys. -/
theorem Fresh.of_step {items : List Item} (h : Fresh db items)
    (hconnections : ∀ c, c ∈ db'.connections → c ∈ db.connections ∨
      c ∉ items.filterMap Item.connection_id?)
    (hmessages : ∀ id, id ∈ db'.messages → id ∈ db.messages ∨
      id ∉ items.filterMap Item.message_id?) : Fresh db' items where
  connections c hc hmem := (hconnections c hmem).elim (h.connections c hc) fun hnot ↦ hnot hc
  messages id hid hmem := (hmessages id hmem).elim (h.messages id hid) fun hnot ↦ hnot hid

theorem mem_update_connection_multi {msgs : List StoredRecord} {connections : Dict ℕ Connection}
    {c : ℕ} : c ∈ update_connection_multi msgs connections ↔ c ∈ connections := by
  rw [← Dict.get?_isSome_iff, get?_update_connection_multi, Option.isSome_map, Dict.get?_isSome_iff]

theorem mem_updateRow {k c : ℕ} {f : Connection → Connection} {connections : Dict ℕ Connection} :
    c ∈ connections.updateRow k f ↔ c ∈ connections := by
  rw [← Dict.get?_isSome_iff, Dict.get?_updateRow]
  split
  · rw [Option.isSome_map, Dict.get?_isSome_iff]
  · exact Dict.get?_isSome_iff

/-- Items with different primary keys can be saved, and what comes after them stays fresh. -/
theorem exists_step {operation : Operation} {items : List Item}
    (hsavable : Savable (operation.items ++ items)) (hfresh : Fresh db (operation.items ++ items)) :
    ∃ db', saver db operation = some db' ∧ Fresh db' items := by
  have hids := hsavable.connection_ids
  have hmids := hsavable.message_ids
  rw [List.filterMap_append, List.nodup_append'] at hids hmids
  have hrest : Fresh db items :=
    ⟨fun c hc ↦ hfresh.connections c
        (by rw [List.filterMap_append]; exact List.mem_append_right _ hc),
      fun id hid ↦ hfresh.messages id
        (by rw [List.filterMap_append]; exact List.mem_append_right _ hid)⟩
  cases operation with
  | connection conn =>
      have hnew : conn.id ∉ db.connections := hfresh.connections conn.id List.mem_cons_self
      refine ⟨_, Option.map_eq_some_iff.mpr ⟨_, Dict.insertNew_eq_some.mpr ⟨hnew, rfl⟩, rfl⟩,
        hrest.of_step (fun c hc ↦ ?_) fun id hid ↦ Or.inl hid⟩
      rcases Dict.mem_set.mp hc with rfl | hc
      · exact Or.inr (hids.2.2 List.mem_cons_self)
      · exact Or.inl hc
  | messages saved_timestamp msgs =>
      have hitems : (Operation.messages saved_timestamp msgs).items.filterMap Item.message_id? =
          (msgs.map (record_to_message saved_timestamp)).map Prod.fst := by
        rw [Operation.items, List.filterMap_map, List.map_map]
        exact congrFun (List.filterMap_eq_map
          (f := fun msg : StoredRecord ↦ msg.received.message_id)) msgs
      rw [hitems] at hmids
      obtain ⟨messages, hinsert⟩ := Dict.insertAll_of_fresh hmids.1 fun row hrow ↦
        hfresh.messages row.1 (by
          rw [List.filterMap_append, hitems]
          exact List.mem_append_left _ (List.mem_map_of_mem hrow))
      refine ⟨_, Option.map_eq_some_iff.mpr ⟨messages, hinsert, rfl⟩,
        hrest.of_step (fun c hc ↦ Or.inl (mem_update_connection_multi.mp hc)) fun id hid ↦ ?_⟩
      obtain ⟨message, hmessage⟩ := Dict.mem_iff_get?.mp hid
      rcases (Dict.get?_insertAll hinsert id message).mp hmessage with hold | hnew
      · exact Or.inl (Dict.mem_iff_get?.mpr ⟨message, hold⟩)
      · exact Or.inr (hmids.2.2 (List.mem_map_of_mem hnew))
  | disconnection disconn =>
      exact ⟨_, rfl, hrest.of_step (fun c hc ↦ Or.inl (mem_updateRow.mp hc))
        fun id hid ↦ Or.inl hid⟩
  | rollover =>
      refine ⟨_, rfl, hrest.of_step (fun c hc ↦ Or.inl ?_) fun id hid ↦ Or.inl ?_⟩
      · obtain ⟨row, hrow⟩ := Dict.mem_iff_get?.mp hc
        exact Dict.mem_iff_get?.mpr ⟨row, ((get?_rollover_connections c row).mp hrow).1⟩
      · obtain ⟨message, hmessage⟩ := Dict.mem_iff_get?.mp hid
        exact Dict.mem_iff_get?.mpr ⟨message, ((get?_rollover_messages id message).mp hmessage).1⟩

theorem exists_run {operations : List Operation}
    (hsavable : Savable (operations.flatMap Operation.items))
    (hfresh : Fresh db (operations.flatMap Operation.items)) :
    ∃ db', saver.run db operations = some db' := by
  induction operations generalizing db with
  | nil => exact ⟨db, rfl⟩
  | cons operation operations ih =>
      rw [List.flatMap_cons] at hsavable hfresh
      obtain ⟨db₁, hstep, hfresh'⟩ := exists_step hsavable hfresh
      obtain ⟨db', hrun⟩ := ih (hsavable.sublist (List.sublist_append_right _ _)) hfresh'
      exact ⟨db', Machine.run_cons_eq_some.mpr ⟨db₁, hstep, hrun⟩⟩

theorem fresh_empty (items : List Item) : Fresh .empty items :=
  ⟨fun c _ ↦ Dict.notMem_empty c, fun id _ ↦ Dict.notMem_empty id⟩

/-- The items without the rollovers between them. -/
theorem items_unrolled (operations : List Operation) :
    (unrolled operations).flatMap Operation.items = operations.flatMap Operation.items := by
  induction operations with
  | nil => rfl
  | cons operation operations ih =>
      by_cases hop : operation = .rollover
      · subst hop
        exact ih
      · rw [unrolled_cons hop, List.flatMap_cons, List.flatMap_cons, ih]

/-- However the items are grouped and wherever the database rolls over, it takes items with
different primary keys.  Of a connection that is open after them it has the row that they
make. -/
theorem exists_saved {operations : List Operation}
    (hsavable : Savable (operations.flatMap Operation.items)) :
    ∃ db, saver.run .empty operations = some db ∧ ∀ c row, row.disconnect_time = none →
      (db.connections.get? c = some row ↔
        (operations.flatMap Operation.items).foldl (entry c) none = some row) := by
  rw [← items_unrolled] at hsavable ⊢
  obtain ⟨full, hfull⟩ := exists_run hsavable (fresh_empty _)
  obtain ⟨db, hrun, hwithin, -⟩ := within_run (within_refl .empty) complete_empty hfull
  have hops : .rollover ∉ unrolled operations := fun hmem ↦
    of_decide_eq_true (List.mem_filter.mp hmem).2 rfl
  refine ⟨db, hrun, fun c row hopen ↦ ?_⟩
  have hget : full.connections.get? c =
      ((unrolled operations).flatMap Operation.items).foldl (entry c) none :=
    get?_operations hops hfull c
  rw [← hget]
  exact ⟨hwithin.connections c row, fun hrow ↦ hwithin.covers c row hrow hopen⟩

end Entry

end Sqlite

end Apex

end SensorFusion
