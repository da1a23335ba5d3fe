import Mathlib.Data.List.Basic
import SensorFusion.Lib.Machine
import SensorFusion.Python.Float
import SensorFusion.Python.Text
import SensorFusion.Wire.Codec

/-!
# The regression runner

`POST /run` marks the run as running, removes the old result file and leaves the rest to a
task, which spawns pytest under `_lock` and marks the run as done when it is through
(`tests/server.py`).  The service is a machine whose labels are a request, and the task going
on from one await to the next.

A process outlives its task when `communicate` raises.  It is counted until it exits.
-/

namespace SensorFusion.Regression

open Wire (Bytes)

inductive Status where
  | idle
  | running
  | done
deriving DecidableEq, Repr

/-- What `tail` is made of. -/
inductive Tail where
  | text (s : String)
  /-- The last bytes of the output, which are shown decoded. -/
  | output (stdout : Bytes)
deriving DecidableEq

/-- `_state`. -/
structure RunState where
  status : Status
  run_id : Option Text
  started_at : Option ℚ
  ended_at : Option ℚ
  duration_s : Option ℚ
  exit_code : Option ℤ
  tail : Tail
deriving DecidableEq

/-- Where a task of `_run_pytest` stands. -/
inductive Phase where
  /-- Created, or waiting for `_lock`. -/
  | pending
  | spawning
  | communicating
deriving DecidableEq, Repr

/-- A task of `_run_pytest`. -/
structure Task where
  run_id : Text
  phase : Phase
deriving DecidableEq

structure Runner where
  state : RunState
  tasks : List Task
  /-- `_lock` is held. -/
  locked : Bool
  /-- How many pytest processes there are. -/
  alive : ℕ
deriving DecidableEq

/-- How the removal of the old result file turns out. -/
inductive Unlink where
  | removed
  | not_found
  /-- Another exception than `FileNotFoundError`. -/
  | failed (exc : String)
deriving DecidableEq

/-- How `/run` is answered. -/
inductive Reply where
  | conflict
  | started (state : RunState)
  | raised (exc : String)
deriving DecidableEq

/-- What can happen.  A request reads the clock twice and draws two random bytes. -/
inductive Label where
  | run (now started : ℚ) (random : UInt8 × UInt8) (unlink : Unlink)
  | acquire (i : ℕ)
  | spawned (i : ℕ) (o : Except String Unit) (now : ℚ)
  | communicated (i : ℕ) (o : Except String (ℤ × Bytes)) (now : ℚ)
  /-- A process exits that no task waits for. -/
  | exited

namespace Runner

def boot : Runner where
  state := ⟨.idle, none, none, none, none, none, .text ""⟩
  tasks := []
  locked := false
  alive := 0

/-- `run`. -/
def run (s : Runner) (now started : ℚ) (random : UInt8 × UInt8) (unlink : Unlink) :
    Reply × Runner :=
  if s.state.status = .running then (.conflict, s)
  else
    let run_id := (toString ⌊now⌋).toList ++ '-' :: Text.hex [random.1, random.2]
    let state : RunState := ⟨.running, some run_id, some started, none, none, none, .text ""⟩
    let s := { s with state := state }
    match unlink with
    | .failed exc => (.raised exc, s)
    | .removed | .not_found =>
        (.started state, { s with tasks := s.tasks ++ [⟨run_id, .pending⟩] })

/-- The `finally` block of `_run_pytest`, and the release of the lock.  `started_at` has been
set by the request. -/
def finish (s : Runner) (i : ℕ) (exit_code : ℤ) (tail : Tail) (now : ℚ) : Runner := { s with
  state := { s.state with
    status := .done
    ended_at := some now
    duration_s := s.state.started_at.map fun started ↦ roundTo 2 (now - started)
    exit_code := some exit_code
    tail := tail }
  tasks := s.tasks.eraseIdx i
  locked := false }

/-- A task goes on to another phase. -/
def advance (s : Runner) (i : ℕ) (t : Task) (phase : Phase) : Runner :=
  { s with tasks := s.tasks.set i { t with phase := phase } }

/-- How many tasks wait for their process. -/
def communicating (s : Runner) : ℕ := s.tasks.countP fun t ↦ t.phase = .communicating

/-- The last 4096 bytes. -/
def lastBytes (stdout : Bytes) : Bytes := stdout.drop (stdout.length - 4096)

/-- The service. -/
def step : Machine Runner Label
  | s, .run now started random unlink => some (s.run now started random unlink).2
  | s, .acquire i =>
      match s.tasks[i]? with
      | some t =>
          if t.phase = .pending ∧ s.locked = false then
            some { s.advance i t .spawning with locked := true }
          else none
      | none => none
  | s, .spawned i o now =>
      match s.tasks[i]? with
      | some t =>
          if t.phase = .spawning then
            match o with
            | .ok () => some { s.advance i t .communicating with alive := s.alive + 1 }
            | .error exc => some (s.finish i (-1) (.text ("runner error: " ++ exc)) now)
          else none
      | none => none
  | s, .communicated i o now =>
      match s.tasks[i]? with
      | some t =>
          if t.phase = .communicating then
            match o with
            | .ok (returncode, stdout) =>
                some ({ s with alive := s.alive - 1 }.finish i returncode
                  (.output (lastBytes stdout)) now)
            | .error exc => some (s.finish i (-1) (.text ("runner error: " ++ exc)) now)
          else none
      | none => none
  | s, .exited => if s.communicating < s.alive then some { s with alive := s.alive - 1 } else none

/-- The run is marked as running exactly when one task is there, there is at most one
process, and without a task a request is accepted. -/
structure Good (s : Runner) : Prop where
  running : s.state.status = .running ↔ ∃ t, s.tasks = [t]
  single : s.alive ≤ 1
  accepts : s.tasks = [] → ∀ now started random unlink,
    (s.run now started random unlink).1 ≠ .conflict

/-- The old result file can be removed or is not there, when a request gets as far as that,
and when a process is spawned there are none but those that tasks wait for. -/
def Clean (s : Runner) : Label → Prop
  | .run _ _ _ (.failed _) => s.state.status = .running
  | .spawned _ (.ok ()) _ => s.alive ≤ s.communicating
  | _ => True

/-! ## What is always so -/

/-- There is no task, or there is one, in a run that is marked as running. -/
inductive Held (s : Runner) : Prop where
  | idle (htasks : s.tasks = [])
  | busy (t : Task) (htasks : s.tasks = [t]) (hrunning : s.state.status = .running)
      (halive : t.phase = .communicating → 0 < s.alive)

variable {s s' : Runner}

theorem conflict_iff {now started : ℚ} {random : UInt8 × UInt8} {unlink : Unlink} :
    (s.run now started random unlink).1 = .conflict ↔ s.state.status = .running := by
  unfold run
  split
  · rename_i h
    exact iff_of_true rfl h
  · rename_i h
    cases unlink with
    | removed => exact iff_of_false nofun h
    | not_found => exact iff_of_false nofun h
    | failed exc => exact iff_of_false nofun h

/-- The last part of `Good` follows from the first. -/
theorem good_iff : s.Good ↔ (s.state.status = .running ↔ ∃ t, s.tasks = [t]) ∧ s.alive ≤ 1 := by
  constructor
  · intro h
    exact ⟨h.running, h.single⟩
  · rintro ⟨hrunning, hsingle⟩
    refine ⟨hrunning, hsingle, fun hnone _ _ _ _ hconflict ↦ ?_⟩
    obtain ⟨t, ht⟩ := hrunning.mp (conflict_iff.mp hconflict)
    rw [hnone] at ht
    cases ht

/-- A task that is found is the only one. -/
theorem Held.of_getElem? (h : s.Held) {i : ℕ} {t : Task} (ht : s.tasks[i]? = some t) :
    i = 0 ∧ s.tasks = [t] ∧ s.state.status = .running ∧
      (t.phase = .communicating → 0 < s.alive) := by
  cases h with
  | idle htasks =>
      rw [htasks] at ht
      cases ht
  | busy t' htasks hrunning halive =>
      rw [htasks] at ht ⊢
      cases i with
      | zero =>
          cases ht
          exact ⟨rfl, rfl, hrunning, halive⟩
      | succ i => cases ht

/-- A runner that is not running has no task. -/
theorem Held.tasks_eq_nil (h : s.Held) (hstatus : s.state.status ≠ .running) : s.tasks = [] := by
  cases h with
  | idle htasks => exact htasks
  | busy _ _ hrunning => exact absurd hrunning hstatus

/-- No task waits for a process while the only one spawns it. -/
theorem communicating_of_spawning {t : Task} (htasks : s.tasks = [t])
    (hphase : t.phase = .spawning) : s.communicating = 0 := by
  rw [communicating, htasks, List.countP_singleton, if_neg]
  rw [hphase]
  decide

/-! ## What a step does -/

/-- A request that is accepted leaves a task, unless the removal fails. -/
theorem run_accepted (h : s.state.status ≠ .running) (now started : ℚ) (random : UInt8 × UInt8)
    (unlink : Unlink) :
    (s.run now started random unlink).2.state.status = .running ∧
      (s.run now started random unlink).2.alive = s.alive ∧
      ((¬ s.Clean (.run now started random unlink) ∧
          (s.run now started random unlink).2.tasks = s.tasks) ∨
        (s.Clean (.run now started random unlink) ∧ ∃ t : Task, t.phase = .pending ∧
          (s.run now started random unlink).2.tasks = s.tasks ++ [t])) := by
  rw [run, if_neg h]
  cases unlink with
  | removed => exact ⟨rfl, rfl, .inr ⟨trivial, _, rfl, rfl⟩⟩
  | not_found => exact ⟨rfl, rfl, .inr ⟨trivial, _, rfl, rfl⟩⟩
  | failed exc => exact ⟨rfl, rfl, .inl ⟨h, rfl⟩⟩

theorem step_acquire {i : ℕ} (h : step s (.acquire i) = some s') :
    ∃ t, s.tasks[i]? = some t ∧ s' = { s.advance i t .spawning with locked := true } := by
  simp only [step] at h
  split at h
  · split at h
    · cases h
      exact ⟨_, ‹_›, rfl⟩
    · cases h
  · cases h

theorem step_spawned {i : ℕ} {o : Except String Unit} {now : ℚ}
    (h : step s (.spawned i o now) = some s') :
    ∃ t, s.tasks[i]? = some t ∧ t.phase = .spawning ∧
      ((o = .ok () ∧ s' = { s.advance i t .communicating with alive := s.alive + 1 }) ∨
        ∃ exc, o = .error exc ∧ s' = s.finish i (-1) (.text ("runner error: " ++ exc)) now) := by
  simp only [step] at h
  split at h
  · split at h
    · cases o with
      | ok u =>
          cases h
          exact ⟨_, ‹_›, ‹_›, .inl ⟨rfl, rfl⟩⟩
      | error exc =>
          cases h
          exact ⟨_, ‹_›, ‹_›, .inr ⟨exc, rfl, rfl⟩⟩
    · cases h
  · cases h

theorem step_communicated {i : ℕ} {o : Except String (ℤ × Bytes)} {now : ℚ}
    (h : step s (.communicated i o now) = some s') :
    ∃ t, s.tasks[i]? = some t ∧ t.phase = .communicating ∧ ∃ alive exit_code tail,
      alive ≤ s.alive ∧ s' = { s with alive := alive }.finish i exit_code tail now := by
  simp only [step] at h
  split at h
  · split at h
    · cases o with
      | ok out =>
          cases h
          exact ⟨_, ‹_›, ‹_›, _, _, _, Nat.sub_le _ _, rfl⟩
      | error exc =>
          cases h
          exact ⟨_, ‹_›, ‹_›, _, _, _, le_rfl, rfl⟩
    · cases h
  · cases h

theorem step_exited (h : step s .exited = some s') :
    s.communicating < s.alive ∧ s' = { s with alive := s.alive - 1 } := by
  simp only [step] at h
  split at h
  · cases h
    exact ⟨‹_›, rfl⟩
  · cases h

/-- When its task is through, nothing is left to do. -/
theorem finish_idle {t : Task} (ht : s.tasks = [t]) (exit_code : ℤ) (tail : Tail) (now : ℚ) :
    (s.finish 0 exit_code tail now).tasks = [] ∧
      (s.finish 0 exit_code tail now).state.status ≠ .running := by
  rw [finish, ht]
  exact ⟨rfl, nofun⟩

theorem finish_good {t : Task} (ht : s.tasks = [t]) (halive : s.alive ≤ 1) (exit_code : ℤ)
    (tail : Tail) (now : ℚ) : (s.finish 0 exit_code tail now).Good := by
  obtain ⟨hnone, hdone⟩ := finish_idle ht exit_code tail now
  refine good_iff.mpr ⟨iff_of_false hdone ?_, halive⟩
  rw [hnone]
  exact nofun

theorem held_step (s : Runner) (l : Label) (s' : Runner) (h : s.Held)
    (hs : step s l = some s') : s'.Held := by
  cases l with
  | run now started random unlink =>
      cases hs
      by_cases hstatus : s.state.status = .running
      · rwa [run, if_pos hstatus]
      · have hnone := h.tasks_eq_nil hstatus
        obtain ⟨hrunning, -, ⟨-, htasks⟩ | ⟨-, t, hphase, htasks⟩⟩ :=
          run_accepted hstatus now started random unlink
        · exact .idle (htasks.trans hnone)
        · refine .busy t (by rw [htasks, hnone]; rfl) hrunning fun hcomm ↦ ?_
          rw [hphase] at hcomm
          cases hcomm
  | acquire i =>
      obtain ⟨t, ht, rfl⟩ := step_acquire hs
      obtain ⟨rfl, htasks, hrunning, -⟩ := h.of_getElem? ht
      exact .busy { t with phase := .spawning } (by rw [advance, htasks]; rfl) hrunning nofun
  | spawned i o now =>
      obtain ⟨t, ht, -, hcase⟩ := step_spawned hs
      obtain ⟨rfl, htasks, hrunning, -⟩ := h.of_getElem? ht
      rcases hcase with ⟨-, rfl⟩ | ⟨exc, -, rfl⟩
      · exact .busy _ (by rw [advance, htasks]; rfl) hrunning fun _ ↦ Nat.succ_pos _
      · exact .idle (finish_idle htasks _ _ _).1
  | communicated i o now =>
      obtain ⟨t, ht, -, alive, exit_code, tail, -, rfl⟩ := step_communicated hs
      obtain ⟨rfl, htasks, -⟩ := h.of_getElem? ht
      exact .idle (finish_idle (s := { s with alive := alive }) htasks _ _ _).1
  | exited =>
      obtain ⟨hfree, rfl⟩ := step_exited hs
      cases h with
      | idle htasks => exact .idle htasks
      | busy t htasks hrunning halive =>
          refine .busy t htasks hrunning fun hcomm ↦ ?_
          have hone : s.communicating = 1 := by
            rw [communicating, htasks, List.countP_singleton, if_pos (decide_eq_true hcomm)]
          rw [hone] at hfree
          exact Nat.sub_pos_of_lt hfree

/-! ## The run -/

/-- From a good state, a step is clean exactly when it leads to a good state. -/
theorem clean_iff_good (s : Runner) (l : Label) (s' : Runner) (h : s.Held) (hgood : s.Good)
    (hs : step s l = some s') : s.Clean l ↔ s'.Good := by
  cases l with
  | run now started random unlink =>
      cases hs
      by_cases hstatus : s.state.status = .running
      · rw [run, if_pos hstatus]
        refine iff_of_true ?_ hgood
        cases unlink with
        | removed => trivial
        | not_found => trivial
        | failed exc => exact hstatus
      · have hnone := h.tasks_eq_nil hstatus
        obtain ⟨hrunning, halive, ⟨hfailed, htasks⟩ | ⟨hclean, t, -, htasks⟩⟩ :=
          run_accepted hstatus now started random unlink
        · refine iff_of_false hfailed fun hgood' ↦ ?_
          obtain ⟨t, ht⟩ := hgood'.running.mp hrunning
          rw [htasks, hnone] at ht
          cases ht
        · refine iff_of_true hclean (good_iff.mpr ⟨iff_of_true hrunning ?_, ?_⟩)
          · exact ⟨t, by rw [htasks, hnone]; rfl⟩
          · exact halive.trans_le hgood.single
  | acquire i =>
      obtain ⟨t, ht, rfl⟩ := step_acquire hs
      obtain ⟨rfl, htasks, hrunning, -⟩ := h.of_getElem? ht
      refine iff_of_true trivial (good_iff.mpr ⟨iff_of_true hrunning ?_, hgood.single⟩)
      exact ⟨_, by rw [advance, htasks]; rfl⟩
  | spawned i o now =>
      obtain ⟨t, ht, hphase, hcase⟩ := step_spawned hs
      obtain ⟨rfl, htasks, hrunning, -⟩ := h.of_getElem? ht
      rcases hcase with ⟨rfl, rfl⟩ | ⟨exc, rfl, rfl⟩
      · have hwaiting := communicating_of_spawning htasks hphase
        constructor
        · intro hclean
          have hnone : s.alive ≤ 0 := hclean.trans_eq hwaiting
          refine good_iff.mpr ⟨iff_of_true hrunning ?_, Nat.succ_le_succ hnone⟩
          exact ⟨_, by rw [advance, htasks]; rfl⟩
        · intro hgood'
          exact (Nat.succ_le_succ_iff.mp hgood'.single).trans_eq hwaiting.symm
      · exact iff_of_true trivial (finish_good htasks hgood.single _ _ _)
  | communicated i o now =>
      obtain ⟨t, ht, -, alive, exit_code, tail, hle, rfl⟩ := step_communicated hs
      obtain ⟨rfl, htasks, -⟩ := h.of_getElem? ht
      exact iff_of_true trivial
        (finish_good (s := { s with alive := alive }) htasks (hle.trans hgood.single) _ _ _)
  | exited =>
      obtain ⟨-, rfl⟩ := step_exited hs
      refine iff_of_true trivial (good_iff.mpr ⟨hgood.running, ?_⟩)
      exact (Nat.sub_le _ _).trans hgood.single

end Runner

/-- The runner is in a good state throughout a run if and only if all its steps are clean. -/
theorem good_iff_clean {ls : List Label} {s : Runner} (hrun : Runner.step.run .boot ls = some s) :
    Runner.step.Always Runner.Good .boot ls ↔ Runner.step.Meets Runner.Clean .boot ls := by
  refine Machine.always_iff_meets_of_invariant Runner.held_step Runner.clean_iff_good (.idle rfl)
    (Runner.good_iff.mpr ⟨iff_of_false nofun nofun, Nat.zero_le 1⟩) hrun

/-- Two runs one after the other; pytest cannot be spawned the second time. -/
def twoRuns : List Label :=
  [.run 0 0 (0, 1) .not_found, .acquire 0, .run 1 1 (0, 2) .removed, .spawned 0 (.ok ()) 1,
    .communicated 0 (.ok (0, [])) 60, .run 70 70 (0, 3) .removed, .acquire 0,
    .spawned 0 (.error "No such file or directory: 'pytest'") 71]

theorem good_twoRuns : ∃ s, Runner.step.run .boot twoRuns = some s ∧
    Runner.step.Always Runner.Good .boot twoRuns := by
  refine ⟨_, rfl, (good_iff_clean rfl).mpr ?_⟩
  refine (Machine.meets_cons rfl).mpr ⟨trivial, (Machine.meets_cons rfl).mpr ⟨trivial,
    (Machine.meets_cons rfl).mpr ⟨trivial, (Machine.meets_cons rfl).mpr ⟨?_,
    (Machine.meets_cons rfl).mpr ⟨trivial, (Machine.meets_cons rfl).mpr ⟨trivial,
    (Machine.meets_cons rfl).mpr ⟨trivial, (Machine.meets_cons rfl).mpr ⟨trivial, trivial⟩⟩⟩⟩⟩⟩⟩⟩
  exact Nat.zero_le _

/-- The old result file cannot be removed: the run is marked as running for good. -/
theorem unlink_fails_sticks : ∃ s,
    Runner.step.run .boot [.run 0 0 (0, 1) (.failed "Operation not permitted")] = some s ∧
    s.tasks = [] ∧ (s.run 1 1 (0, 2) .removed).1 = .conflict ∧
    ¬ Runner.step.Always Runner.Good .boot
      [.run 0 0 (0, 1) (.failed "Operation not permitted")] := by
  refine ⟨_, rfl, rfl, rfl, fun h ↦ ?_⟩
  have hgood := h _ _ List.prefix_rfl rfl
  exact hgood.accepts rfl 1 1 (0, 2) .removed rfl

end SensorFusion.Regression
