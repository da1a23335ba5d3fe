import SensorFusion.Lib.Files

/-!
# File operations

The operations of `os`, `shutil` and `pathlib` as programs on a file system, and for each of
them what it leaves alone and what it carries from one run to another.  Directories may be
made along a path that leads up again, so that a program may make one where it does not mean
to; `Makes` says what making one directory comes to.
-/

namespace SensorFusion

namespace Act

open Files (AgreeOn)

variable {α : Type}

/-! ## Operations -/

/-- `os.mkdir`. -/
def mkdir (p : Path) : Act Unit := fun fs ↦
  if fs.has p then (.error .file_exists, fs)
  else if fs.isDir p.dropLast then (.ok (), fs.set p .dir)
  else (.error .not_found, fs)

/-- One directory on the way to another. -/
def ensureDir (p : Path) : Act Unit := fun fs ↦
  if fs.isDir p then (.ok (), fs)
  else if fs.has p then (.error .not_a_directory, fs)
  else mkdir p fs

/-- `p.mkdir(parents=True)`: the directories on the way, from the top, then the last one. -/
def mkdirParents (p : Path) : Act Unit := do
  each ensureDir p.dropLast.inits.tail
  mkdir p

/-- `os.mkdir` of a path that is not resolved. -/
def mkdirAt (r : Route) : Act Unit := fun fs ↦
  if fs.walks r.base r.parts = false then (.error .not_found, fs)
  else if r.parts = [] ∨ r.parts.getLast? = some "..".toList then (.error .file_exists, fs)
  else mkdir r.loc fs

/-- `os.makedirs(head)` where the parts before have been dealt with: nothing if it exists, and
a `FileExistsError` is passed over. -/
def makeHead (r : Route) : Act Unit := fun fs ↦
  if fs.hasAt r then (.ok (), fs)
  else
    match mkdirAt r fs with
    | (.error .file_exists, fs) => (.ok (), fs)
    | res => res

/-- `os.makedirs`. -/
def makedirs (r : Route) : Act Unit := do
  each (fun heads ↦ makeHead ⟨r.base, heads⟩) r.parts.dropLast.inits.tail
  mkdirAt r

/-- `shutil.rmtree`. -/
def rmtree (p : Path) : Act Unit := fun fs ↦
  if fs.has p = false then (.error .not_found, fs)
  else if fs.isDir p then (.ok (), fs.keep fun q ↦ ¬ p <+: q)
  else (.error .not_a_directory, fs)

/-- `if p.exists(): shutil.rmtree(p)`; there is nothing below a path that does not exist. -/
def clear (p : Path) : Act Unit := fun fs ↦
  if fs.has p then rmtree p fs else (.ok (), fs.keep fun q ↦ ¬ p <+: q)

/-- `p.write_text` and the like. -/
def write (p : Path) (content : List UInt8) : Act Unit := fun fs ↦
  if fs.isDir p then (.error .is_a_directory, fs)
  else if fs.isDir p.dropLast then (.ok (), fs.set p (.file content))
  else (.error .not_found, fs)

/-- `shutil.copy2`. -/
def copy2 (src dst : Path) : Act Unit := fun fs ↦
  match fs.get? src with
  | some (.file content) => write dst content fs
  | some .dir => (.error .is_a_directory, fs)
  | none => (.error .not_found, fs)

/-- The loop of `shutil.copytree`, over what was in the directory before `dst` was made.  A
directory that `dst` is then found in is copied again and again, until that fails; what this
leaves below `dst` is not modelled. -/
def copyEntries (snapshot : Files) (src dst : Path) : Act Unit := fun fs ↦
  if src <+: dst ∧ snapshot.has (dst.take (src.length + 1)) then (.error .too_deep, fs)
  else (.ok (), snapshot.graft src dst fs)

/-- `shutil.copytree`. -/
def copytree (src dst : Route) : Act Unit := fun fs ↦
  if fs.isDirAt src then
    (do
      makedirs dst
      copyEntries fs src.loc dst.loc : Act Unit) fs
  else (.error .not_found, fs)

/-- `os.rename`, to a path that is free. -/
def rename (src dst : Path) : Act Unit := fun fs ↦
  if fs.has src = false then (.error .not_found, fs)
  else if fs.has dst then (.error .file_exists, fs)
  else (.ok (), fs.graft src dst (fs.keep fun q ↦ ¬ src <+: q))

/-- A command that reads and writes below its working directory; it says whether it has
succeeded. -/
def command (cwd : Path) (run : (Path → Option Node) → Bool × List (Path × Node)) :
    Act Unit := fun fs ↦
  let out := run fun rel ↦ fs.get? (cwd ++ rel)
  let fs := out.2.foldl (fun fs w ↦ fs.set (cwd ++ w.1) w.2) fs
  if out.1 then (.ok (), fs) else (.error (.exception "CalledProcessError".toList), fs)

/-- `if not p.exists(): p.write_text("")`. -/
def touch (p : Path) : Act Unit := fun fs ↦ if fs.has p then (.ok (), fs) else write p [] fs

/-- An empty file of one name in a directory and all those below it. -/
def touchBelow (name : Text) (p : Path) : Act Unit := fun fs ↦
  each (fun d ↦ touch (d ++ [name])) (p :: fs.subdirs p) fs

/-! ### Making one directory -/

theorem isDir_root (fs : Files) : fs.isDir [] = true := decide_eq_true (.inl rfl)

theorem isDir_set {fs : Files} {p q : Path} {node : Node} (h : fs.isDir q = true)
    (hnode : q = p → node = .dir) : Files.isDir (fs.set p node) q = true := by
  rw [Files.isDir, decide_eq_true_iff] at h ⊢
  refine h.imp_right fun hget ↦ ?_
  by_cases hqp : q = p
  · rw [hqp, Dict.get?_set_self, hnode hqp]
  · rwa [Dict.get?_set_ne _ _ hqp]

theorem isDir_set_self (fs : Files) (p : Path) : Files.isDir (fs.set p .dir) p = true :=
  decide_eq_true (.inr (Dict.get?_set_self _ _ _))

theorem has_set {fs : Files} {p q : Path} {node : Node} (h : fs.has p = true) :
    Files.has (fs.set q node) p = true := by
  rw [Files.has, decide_eq_true_iff] at h ⊢
  exact h.imp_right fun hmem ↦ Dict.mem_set.mpr (.inr hmem)

/-- All that a program can do is to make one directory that is not there; it cannot even do
that unless `c` holds, and if it succeeds then the directory is made. -/
structure Makes (c : Prop) (p : Path) (m : Act Unit) : Prop where
  state : ∀ fs, (m fs).2 = fs ∨ fs.has p = false ∧ (m fs).2 = fs.set p .dir
  pos : c → ∀ fs, (m fs).1 = .ok () → fs.has p = false → (m fs).2 = fs.set p .dir
  neg : ¬ c → ∀ fs, (m fs).2 = fs

namespace Makes

variable {c : Prop} {p : Path} {m : Act Unit}

theorem agreeOn (h : Makes c p m) {P : Path → Prop} {fs : Files} (hp : P p → fs.has p = true) :
    AgreeOn P (m fs).2 fs := by
  intro q hq
  rcases h.state fs with heq | ⟨hfree, heq⟩
  · rw [heq]
  · have hne : q ≠ p := by
      rintro rfl
      rw [hp hq] at hfree
      cases hfree
    rw [heq, Dict.get?_set_ne _ _ hne]

theorem leaves (h : Makes c p m) {P : Path → Prop} (hp : ¬ P p) : Leaves P m :=
  fun _ ↦ h.agreeOn fun hP ↦ absurd hP hp

theorem has (h : Makes c p m) {fs : Files} {q : Path} (hq : fs.has q = true) :
    (m fs).2.has q = true := by
  rcases h.state fs with heq | ⟨-, heq⟩
  · rwa [heq]
  · rw [heq]
    exact has_set hq

theorem get?_ne (h : Makes c p m) (fs : Files) {q : Path} (hq : q ≠ p) :
    (m fs).2.get? q = fs.get? q := by
  rcases h.state fs with heq | ⟨-, heq⟩
  · rw [heq]
  · rw [heq, Dict.get?_set_ne _ _ hq]

theorem isDir (h : Makes c p m) {fs : Files} {q : Path} (hq : fs.isDir q = true) :
    (m fs).2.isDir q = true := by
  rcases h.state fs with heq | ⟨-, heq⟩
  · rwa [heq]
  · rw [heq]
    exact isDir_set hq fun _ ↦ rfl

theorem carries (h : Makes c p m) (A : Path → Prop) : Carries A A m := by
  intro fs gs u v fs' gs' hA hf hg
  refine ⟨rfl, fun q hq ↦ ?_⟩
  have hfs : (m fs).2 = fs' := by rw [hf]
  have hgs : (m gs).2 = gs' := by rw [hg]
  rw [← hfs, ← hgs]
  by_cases hqp : q = p
  · subst hqp
    by_cases hc : c
    · cases hhas : fs.has q with
      | false =>
          have hhas' : gs.has q = false := (hA.has_eq hq).symm.trans hhas
          rw [h.pos hc fs (by rw [hf]) hhas, h.pos hc gs (by rw [hg]) hhas', Dict.get?_set_self,
            Dict.get?_set_self]
      | true =>
          have hhas' : gs.has q = true := (hA.has_eq hq).symm.trans hhas
          have hsame (fs : Files) (hhas : fs.has q = true) : (m fs).2 = fs := by
            rcases h.state fs with heq | ⟨hfree, -⟩
            · exact heq
            · rw [hhas] at hfree
              cases hfree
          rw [hsame fs hhas, hsame gs hhas', hA q hq]
    · rw [h.neg hc, h.neg hc, hA q hq]
  · rw [h.get?_ne fs hqp, h.get?_ne gs hqp, hA q hq]

end Makes

theorem mkdir_eq_ok {p : Path} {fs fs' : Files} {u : Unit} (h : mkdir p fs = (.ok u, fs')) :
    fs.has p = false ∧ fs' = fs.set p .dir := by
  rw [mkdir] at h
  split at h
  · cases h
  · rename_i hfree
    split at h
    · cases h
      exact ⟨Bool.eq_false_of_not_eq_true hfree, rfl⟩
    · cases h

theorem mkdir_isDir {p : Path} {fs fs' : Files} {u : Unit} (h : mkdir p fs = (.ok u, fs')) :
    fs'.isDir p = true := by
  rw [(mkdir_eq_ok h).2]
  exact isDir_set_self fs p

theorem makes_mkdir (p : Path) : Makes True p (mkdir p) := by
  refine ⟨fun fs ↦ ?_, fun _ fs hok hfree ↦ ?_, fun h ↦ absurd trivial h⟩
  · rw [mkdir]
    split
    · exact .inl rfl
    · rename_i hfree
      split
      · exact .inr ⟨Bool.eq_false_of_not_eq_true hfree, rfl⟩
      · exact .inl rfl
  · rw [mkdir, hfree] at hok ⊢
    split at hok
    · cases hok
    · split at hok
      · rename_i hdir
        rw [if_neg Bool.false_ne_true, if_pos hdir]
      · cases hok

theorem has_of_isDir {fs : Files} {p : Path} (h : fs.isDir p = true) : fs.has p = true := by
  rw [Files.isDir, decide_eq_true_iff] at h
  rw [Files.has, decide_eq_true_iff]
  exact h.imp_right fun hget ↦ Dict.mem_iff_get?.mpr ⟨_, hget⟩

theorem makes_ensureDir (p : Path) : Makes True p (ensureDir p) := by
  have h := makes_mkdir p
  refine ⟨fun fs ↦ ?_, fun _ fs hok hfree ↦ ?_, fun h ↦ absurd trivial h⟩
  · rw [ensureDir]
    split
    · exact .inl rfl
    · split
      · exact .inl rfl
      · exact h.state fs
  · have hdir : fs.isDir p ≠ true := fun hdir ↦ by
      rw [has_of_isDir hdir] at hfree
      cases hfree
    rw [ensureDir, if_neg hdir, hfree, if_neg Bool.false_ne_true] at hok ⊢
    exact h.pos trivial fs hok hfree

/-- The last part of a route leads down. -/
def Down (r : Route) : Prop := ¬ (r.parts = [] ∨ r.parts.getLast? = some "..".toList)

theorem makes_mkdirAt (r : Route) : Makes (Down r) r.loc (mkdirAt r) := by
  have h := makes_mkdir r.loc
  refine ⟨fun fs ↦ ?_, fun hdown fs hok hfree ↦ ?_, fun hup fs ↦ ?_⟩
  · rw [mkdirAt]
    split
    · exact .inl rfl
    · split
      · exact .inl rfl
      · exact h.state fs
  · rw [mkdirAt] at hok ⊢
    split at hok
    · cases hok
    · rename_i hwalks
      rw [if_neg hwalks, if_neg hdown] at *
      exact h.pos trivial fs hok hfree
  · rw [mkdirAt]
    split
    · rfl
    · rw [if_pos (not_not.mp hup)]

/-- Something is there already, or the route leads up. -/
theorem mkdirAt_file_exists {r : Route} {fs fs' : Files}
    (h : mkdirAt r fs = (.error .file_exists, fs')) :
    fs' = fs ∧ (Down r → fs.has r.loc = true) := by
  rw [mkdirAt] at h
  split at h
  · cases h
  · split at h
    · rename_i hup
      cases h
      exact ⟨rfl, fun hdown ↦ absurd hup hdown⟩
    · rw [mkdir] at h
      split at h
      · rename_i hhas
        cases h
        exact ⟨rfl, fun _ ↦ hhas⟩
      · split at h <;> cases h

theorem makes_makeHead (r : Route) : Makes (Down r) r.loc (makeHead r) := by
  have h := makes_mkdirAt r
  have hstate (fs : Files) : (makeHead r fs).2 = fs ∨ (makeHead r fs).2 = (mkdirAt r fs).2 := by
    rw [makeHead]
    split
    · exact .inl rfl
    · split
      · rename_i hexists
        exact .inl (mkdirAt_file_exists hexists).1
      · exact .inr rfl
  refine ⟨fun fs ↦ ?_, fun hdown fs hok hfree ↦ ?_, fun hup fs ↦ ?_⟩
  · rcases hstate fs with heq | heq
    · exact .inl heq
    · rw [heq]
      exact h.state fs
  · have hno : fs.hasAt r ≠ true := by
      rw [Files.hasAt, hfree, Bool.and_false]
      exact Bool.false_ne_true
    rw [makeHead, if_neg hno] at hok ⊢
    split at hok
    · rename_i hexists
      rw [(mkdirAt_file_exists hexists).2 hdown] at hfree
      cases hfree
    · exact h.pos hdown fs hok hfree
  · rcases hstate fs with heq | heq
    · exact heq
    · rw [heq, h.neg hup]

/-! ### Making several directories -/

theorem mem_tail_inits {parts heads : List Text} :
    heads ∈ parts.inits.tail ↔ heads ≠ [] ∧ heads <+: parts := by
  cases parts with
  | nil =>
      rw [List.prefix_nil]
      exact iff_of_false List.not_mem_nil fun h ↦ h.1 h.2
  | cons part parts =>
      rw [List.inits_cons, List.tail_cons, List.mem_map]
      constructor
      · rintro ⟨rest, hrest, rfl⟩
        exact ⟨List.cons_ne_nil _ _, List.cons_prefix_cons.mpr ⟨rfl, (List.mem_inits _ _).mp hrest⟩⟩
      · rintro ⟨hne, hpre⟩
        obtain ⟨head, rest, rfl⟩ := List.exists_cons_of_ne_nil hne
        obtain ⟨rfl, hrest⟩ := List.cons_prefix_cons.mp hpre
        exact ⟨rest, (List.mem_inits _ _).mpr hrest, rfl⟩

theorem prefix_dropLast {p q : Path} (h : q <+: p) (hne : q ≠ p) : q <+: p.dropLast := by
  obtain ⟨rest, rfl⟩ := h
  have hrest : rest ≠ [] := by
    rintro rfl
    exact hne (List.append_nil q).symm
  rw [List.dropLast_append_of_ne_nil hrest]
  exact List.prefix_append _ _

theorem carries_mkdirParents (A : Path → Prop) (p : Path) : Carries A A (mkdirParents p) :=
  (carries_each (fun q ↦ (makes_ensureDir q).carries A) _).bind fun _ ↦ (makes_mkdir p).carries A

theorem carries_makedirs (A : Path → Prop) (r : Route) : Carries A A (makedirs r) :=
  (carries_each (fun heads ↦ (makes_makeHead ⟨r.base, heads⟩).carries A) _).bind fun _ ↦
    (makes_mkdirAt r).carries A

theorem leaves_mkdirParents {P : Path → Prop} {p : Path} (h : ∀ q, q <+: p → ¬ P q) :
    Leaves P (mkdirParents p) := by
  refine (leaves_each fun q hq ↦ (makes_ensureDir q).leaves (h q ?_)).bind fun _ ↦
    (makes_mkdir p).leaves (h p List.prefix_rfl)
  exact (mem_tail_inits.mp hq).2.trans (List.dropLast_prefix p)

/-- What is there stays, where each program makes one directory. -/
theorem has_each {β : Type} {c : β → Prop} {loc : β → Path} {f : β → Act Unit}
    (hf : ∀ x, Makes (c x) (loc x) (f x)) {xs : List β} {fs fs' : Files} {u : Unit}
    (h : each f xs fs = (.ok u, fs')) {p : Path} (hp : fs.has p = true) : fs'.has p = true := by
  induction xs generalizing fs with
  | nil =>
      cases h
      exact hp
  | cons x xs ih =>
      obtain ⟨_, fs₁, hfirst, hrest⟩ := bind_ok_iff.mp h
      have hp₁ := (hf x).has hp
      rw [hfirst] at hp₁
      exact ih hrest hp₁

/-- Nothing is changed where all there is to make is there. -/
theorem agreeOn_each {β : Type} {c : β → Prop} {loc : β → Path} {f : β → Act Unit}
    (hf : ∀ x, Makes (c x) (loc x) (f x)) {P : Path → Prop} {xs : List β} {fs : Files}
    (h : ∀ x ∈ xs, P (loc x) → fs.has (loc x) = true) : AgreeOn P (each f xs fs).2 fs := by
  induction xs generalizing fs with
  | nil => exact fun _ _ ↦ rfl
  | cons x xs ih =>
      obtain ⟨hx, hxs⟩ := List.forall_mem_cons.mp h
      refine agreeOn_bind ((hf x).agreeOn hx) fun _ fs₁ hrun ↦ ih fun y hy hP ↦ ?_
      have hhas := (hf x).has (hxs y hy hP)
      rwa [hrun] at hhas

/-- Only what the route leads through is made, where it is not there. -/
theorem agreeOn_makedirs {P : Path → Prop} {r : Route} {fs : Files}
    (h : ∀ p ∈ r.through, P p → fs.has p = true) : AgreeOn P (makedirs r fs).2 fs := by
  have hheads {heads : List Text} (hne : heads ≠ []) (hpre : heads <+: r.parts) :
      P (Route.loc ⟨r.base, heads⟩) → fs.has (Route.loc ⟨r.base, heads⟩) = true :=
    h _ (List.mem_map_of_mem (mem_tail_inits.mpr ⟨hne, hpre⟩))
  have hmakes (heads : List Text) := makes_makeHead ⟨r.base, heads⟩
  refine agreeOn_bind (agreeOn_each hmakes fun heads hmem ↦ ?_) fun _ fs₁ hrun ↦ ?_
  · obtain ⟨hne, hpre⟩ := mem_tail_inits.mp hmem
    exact hheads hne (hpre.trans (List.dropLast_prefix _))
  · by_cases hempty : r.parts = []
    · rw [(makes_mkdirAt r).neg fun hdown ↦ hdown (.inl hempty)]
      exact fun _ _ ↦ rfl
    · exact (makes_mkdirAt r).agreeOn fun hP ↦
        has_each hmakes hrun (hheads hempty List.prefix_rfl hP)

/-- `os.makedirs` does not succeed at what is there. -/
theorem makedirs_free {r : Route} {fs fs' : Files} {u : Unit} (h : makedirs r fs = (.ok u, fs')) :
    fs.has r.loc = false := by
  obtain ⟨_, fs₁, hheads, hlast⟩ := bind_ok_iff.mp h
  rw [Bool.eq_false_iff]
  intro hhas
  rw [mkdirAt] at hlast
  split at hlast
  · cases hlast
  · split at hlast
    · cases hlast
    · rw [mkdir,
        if_pos (has_each (fun heads ↦ makes_makeHead ⟨r.base, heads⟩) hheads hhas)] at hlast
      cases hlast

theorem ensureDir_isDir {p : Path} {fs fs' : Files} {u : Unit} (h : ensureDir p fs = (.ok u, fs')) :
    fs'.isDir p = true := by
  rw [ensureDir] at h
  split at h
  · rename_i hdir
    cases h
    exact hdir
  · split at h
    · cases h
    · exact mkdir_isDir h

theorem isDir_each_ensureDir {ps : List Path} {fs fs' : Files} {u : Unit}
    (h : each ensureDir ps fs = (.ok u, fs')) {p : Path} (hp : p ∈ ps ∨ fs.isDir p = true) :
    fs'.isDir p = true := by
  induction ps generalizing fs with
  | nil =>
      cases h
      exact hp.resolve_left List.not_mem_nil
  | cons q ps ih =>
      obtain ⟨_, fs₁, hfirst, hrest⟩ := bind_ok_iff.mp h
      refine ih hrest ?_
      rcases hp with hp | hp
      · rcases List.mem_cons.mp hp with rfl | hp
        · exact .inr (ensureDir_isDir hfirst)
        · exact .inl hp
      · have hstill := (makes_ensureDir q).isDir hp
        rw [hfirst] at hstill
        exact .inr hstill

/-- All that is on the way to a directory that has been made is a directory. -/
theorem mkdirParents_isDir {p q : Path} {fs fs' : Files} {u : Unit}
    (h : mkdirParents p fs = (.ok u, fs')) (hq : q <+: p) : fs'.isDir q = true := by
  obtain ⟨_, fs₁, hheads, hlast⟩ := bind_ok_iff.mp h
  by_cases hqp : q = p
  · rw [hqp]
    exact mkdir_isDir hlast
  · have hdir : fs₁.isDir q = true := by
      by_cases hroot : q = []
      · rw [hroot]
        exact isDir_root fs₁
      · have hmem := mem_tail_inits.mpr ⟨hroot, prefix_dropLast hq hqp⟩
        exact isDir_each_ensureDir hheads (.inl hmem)
    have hstill := (makes_mkdir p).isDir hdir
    rwa [hlast] at hstill

/-! ### Removing -/

theorem rmtree_eq_ok {p : Path} {fs fs' : Files} {u : Unit} (h : rmtree p fs = (.ok u, fs')) :
    fs' = fs.keep fun q ↦ ¬ p <+: q := by
  rw [rmtree] at h
  split at h
  · cases h
  · split at h
    · cases h
      rfl
    · cases h

theorem clear_eq_ok {p : Path} {fs fs' : Files} {u : Unit} (h : clear p fs = (.ok u, fs')) :
    fs' = fs.keep fun q ↦ ¬ p <+: q := by
  rw [clear] at h
  split at h
  · exact rmtree_eq_ok h
  · cases h
    rfl

theorem carries_keep {A : Path → Prop} {p : Path} {m : Act Unit}
    (h : ∀ {fs fs' u}, m fs = (.ok u, fs') → fs' = fs.keep fun q ↦ ¬ p <+: q) :
    Carries A (fun q ↦ A q ∨ p <+: q) m := by
  intro fs gs u v fs' gs' hA hf hg
  refine ⟨rfl, fun q hq ↦ ?_⟩
  rw [h hf, h hg, Dict.get?_keep, Dict.get?_keep]
  by_cases hpq : p <+: q
  · rw [if_neg (not_not.mpr hpq), if_neg (not_not.mpr hpq)]
  · rw [if_pos hpq, if_pos hpq, hA q (hq.resolve_right hpq)]

theorem carries_rmtree {A : Path → Prop} (p : Path) :
    Carries A (fun q ↦ A q ∨ p <+: q) (rmtree p) := carries_keep rmtree_eq_ok

/-- Whether there was something to clear does not matter afterwards. -/
theorem carries_clear {A : Path → Prop} (p : Path) :
    Carries A (fun q ↦ A q ∨ p <+: q) (clear p) := carries_keep clear_eq_ok

theorem leaves_rmtree {P : Path → Prop} {p : Path} (h : ∀ q, P q → ¬ p <+: q) :
    Leaves P (rmtree p) := by
  intro fs q hq
  rw [rmtree]
  split
  · rfl
  · split
    · exact (Dict.get?_keep _ _ _).trans (if_pos (h q hq))
    · rfl

theorem leaves_clear {P : Path → Prop} {p : Path} (h : ∀ q, P q → ¬ p <+: q) :
    Leaves P (clear p) := by
  intro fs q hq
  rw [clear]
  split
  · exact leaves_rmtree h fs q hq
  · exact (Dict.get?_keep _ _ _).trans (if_pos (h q hq))

/-! ### Writing -/

theorem AgreeOn_set {A : Path → Prop} {fs gs : Files} (h : AgreeOn A fs gs) (p : Path)
    (node : Node) :
    AgreeOn A (fs.set p node) (gs.set p node) := by
  intro q hq
  rw [Dict.get?_set, Dict.get?_set, h q hq]

theorem write_eq_ok {p : Path} {content : List UInt8} {fs fs' : Files} {u : Unit}
    (h : write p content fs = (.ok u, fs')) : fs' = fs.set p (.file content) := by
  rw [write] at h
  split at h
  · cases h
  · split at h
    · cases h
      rfl
    · cases h

theorem leaves_write {P : Path → Prop} {p : Path} (content : List UInt8) (h : ¬ P p) :
    Leaves P (write p content) := by
  intro fs q hq
  have hne : q ≠ p := fun hqp ↦ h (hqp ▸ hq)
  rw [write]
  split
  · rfl
  · split
    · exact Dict.get?_set_ne _ _ hne
    · rfl

theorem copy2_eq_ok {src dst : Path} {fs fs' : Files} {u : Unit}
    (h : copy2 src dst fs = (.ok u, fs')) :
    ∃ content, fs.get? src = some (.file content) ∧ fs' = fs.set dst (.file content) := by
  rw [copy2] at h
  split at h
  · rename_i content hsrc
    exact ⟨content, hsrc, write_eq_ok h⟩
  · cases h
  · cases h

theorem carries_copy2 {A : Path → Prop} {src : Path} (dst : Path) (hsrc : A src) :
    Carries A A (copy2 src dst) := by
  intro fs gs u v fs' gs' hA hf hg
  obtain ⟨content, hfs, rfl⟩ := copy2_eq_ok hf
  obtain ⟨content', hgs, rfl⟩ := copy2_eq_ok hg
  rw [hA src hsrc, hgs] at hfs
  cases hfs
  exact ⟨rfl, AgreeOn_set hA dst _⟩

theorem leaves_copy2 {P : Path → Prop} (src : Path) {dst : Path} (h : ¬ P dst) :
    Leaves P (copy2 src dst) := by
  intro fs
  rw [copy2]
  split
  · exact leaves_write _ h fs
  · exact fun _ _ ↦ rfl
  · exact fun _ _ ↦ rfl

/-! ### Copying a directory -/

theorem copyEntries_eq_ok {snapshot fs fs' : Files} {src dst : Path} {u : Unit}
    (h : copyEntries snapshot src dst fs = (.ok u, fs')) : fs' = snapshot.graft src dst fs := by
  rw [copyEntries] at h
  split at h
  · cases h
  · cases h
    rfl

/-- A copy is made of what is copied. -/
theorem carries_copytree {A : Path → Prop} {src : Route} (dst : Route)
    (hsrc : ∀ rel, A (src.loc ++ rel)) : Carries A A (copytree src dst) := by
  intro fs gs u v fs' gs' hA hf hg
  have hcopy {fs fs' : Files} {u : Unit} (h : copytree src dst fs = (.ok u, fs')) :
      ∃ fs₁, makedirs dst fs = (.ok (), fs₁) ∧ fs' = fs.graft src.loc dst.loc fs₁ := by
    rw [copytree] at h
    split at h
    · obtain ⟨_, fs₁, hmake, hcopy⟩ := bind_ok_iff.mp h
      exact ⟨fs₁, hmake, copyEntries_eq_ok hcopy⟩
    · cases h
  obtain ⟨fs₁, hmakef, rfl⟩ := hcopy hf
  obtain ⟨gs₁, hmakeg, rfl⟩ := hcopy hg
  obtain ⟨-, hA₁⟩ := carries_makedirs A dst _ _ _ _ _ _ hA hmakef hmakeg
  refine ⟨rfl, fun q hq ↦ ?_⟩
  by_cases hdst : dst.loc <+: q
  · obtain ⟨rel, rfl⟩ := hdst
    rw [Files.get?_graft, Files.get?_graft, hA _ (hsrc rel), hA₁ _ hq]
  · rw [Files.get?_graft_of_not_prefix _ _ hdst, Files.get?_graft_of_not_prefix _ _ hdst, hA₁ q hq]

/-- A copy changes what is made on the way to it, and what is below it. -/
theorem leaves_copytree {P : Path → Prop} (src : Route) {dst : Route} {fs : Files}
    (hmake : AgreeOn P (makedirs dst fs).2 fs)
    (hbelow : fs.has dst.loc = false → ∀ p, P p → ¬ dst.loc <+: p) :
    AgreeOn P (copytree src dst fs).2 fs := by
  rw [copytree]
  split
  · rcases hrun : makedirs dst fs with ⟨res, fs₁⟩
    rw [hrun] at hmake
    cases res with
    | error exc =>
        rw [bind_of_error hrun]
        exact hmake
    | ok u =>
        rw [bind_of_ok hrun, copyEntries]
        have hfree := hbelow (makedirs_free hrun)
        split
        · exact hmake
        · intro p hp
          exact (Files.get?_graft_of_not_prefix _ _ (hfree p hp) _).trans (hmake p hp)
  · exact fun _ _ ↦ rfl

/-- What `os.makedirs` has made is still there after the copy. -/
theorem has_copytree {src dst : Route} {fs : Files} (hsrc : fs.isDirAt src = true) {p : Path}
    (hp : (makedirs dst fs).2.has p = true) : (copytree src dst fs).2.has p = true := by
  rw [copytree, if_pos hsrc]
  rcases hrun : makedirs dst fs with ⟨res, fs₁⟩
  rw [hrun] at hp
  cases res with
  | error exc =>
      rw [bind_of_error hrun]
      exact hp
  | ok u =>
      rw [bind_of_ok hrun, copyEntries]
      split
      · exact hp
      · rw [Files.has, decide_eq_true_iff] at hp ⊢
        exact hp.imp_right fun hmem ↦ Dict.mem_update.mpr (.inr hmem)

/-! ### A command -/

theorem get?_foldl_set_of_not_prefix {cwd p : Path} (h : ¬ cwd <+: p) (writes : List (Path × Node))
    (fs : Files) :
    Dict.get? (writes.foldl (fun fs w ↦ fs.set (cwd ++ w.1) w.2) fs) p = fs.get? p := by
  induction writes generalizing fs with
  | nil => rfl
  | cons w writes ih =>
      have hne : p ≠ cwd ++ w.1 := fun hp ↦ h (hp ▸ List.prefix_append _ _)
      rw [List.foldl_cons, ih, Dict.get?_set_ne _ _ hne]

theorem AgreeOn_foldl_set {A : Path → Prop} {fs gs : Files} (h : AgreeOn A fs gs) (cwd : Path)
    (writes : List (Path × Node)) :
    AgreeOn A (writes.foldl (fun fs w ↦ fs.set (cwd ++ w.1) w.2) fs)
      (writes.foldl (fun fs w ↦ fs.set (cwd ++ w.1) w.2) gs) := by
  induction writes generalizing fs gs with
  | nil => exact h
  | cons w writes ih => exact ih (AgreeOn_set h _ _)

theorem carries_command {A : Path → Prop} {cwd : Path} (h : ∀ rel, A (cwd ++ rel))
    (run : (Path → Option Node) → Bool × List (Path × Node)) : Carries A A (command cwd run) := by
  intro fs gs u v fs' gs' hA hf hg
  have hview : (fun rel ↦ fs.get? (cwd ++ rel)) = fun rel ↦ gs.get? (cwd ++ rel) :=
    funext fun rel ↦ hA _ (h rel)
  simp only [command, hview] at hf
  simp only [command] at hg
  split at hf
  · rename_i hok
    rw [if_pos hok] at hg
    cases hf
    cases hg
    exact ⟨rfl, AgreeOn_foldl_set hA _ _⟩
  · cases hf

theorem leaves_command {P : Path → Prop} {cwd : Path} (h : ∀ p, P p → ¬ cwd <+: p)
    (run : (Path → Option Node) → Bool × List (Path × Node)) :
    Leaves P (command cwd run) := by
  intro fs p hp
  rw [command]
  split
  · exact get?_foldl_set_of_not_prefix (h p hp) _ _
  · exact get?_foldl_set_of_not_prefix (h p hp) _ _

/-! ### Renaming -/

theorem rename_eq_ok {src dst : Path} {fs fs' : Files} {u : Unit}
    (h : rename src dst fs = (.ok u, fs')) :
    fs' = fs.graft src dst (fs.keep fun q ↦ ¬ src <+: q) := by
  rw [rename] at h
  split at h
  · cases h
  · split at h
    · cases h
    · cases h
      rfl

/-- What is renamed is afterwards where it has been renamed to. -/
theorem carries_rename {A : Path → Prop} {src : Path} (dst : Path) (hsrc : ∀ rel, A (src ++ rel)) :
    Carries A A (rename src dst) := by
  intro fs gs u v fs' gs' hA hf hg
  refine ⟨rfl, fun q hq ↦ ?_⟩
  rw [rename_eq_ok hf, rename_eq_ok hg]
  by_cases hdst : dst <+: q
  · obtain ⟨rel, rfl⟩ := hdst
    rw [Files.get?_graft, Files.get?_graft, Dict.get?_keep, Dict.get?_keep, hA _ (hsrc rel),
      hA _ hq]
  · rw [Files.get?_graft_of_not_prefix _ _ hdst, Files.get?_graft_of_not_prefix _ _ hdst,
      Dict.get?_keep, Dict.get?_keep, hA q hq]

/-! ### Empty files -/

/-- Empty files have been made where nothing was. -/
structure Touched (qs : List Path) (fs fs' : Files) : Prop where
  kept : ∀ q node, fs.get? q = some node → fs'.get? q = some node
  added : ∀ q ∈ qs, fs.get? q = none → fs'.get? q = some (.file [])
  others : ∀ q, q ∉ qs → fs'.get? q = fs.get? q

theorem Touched.cons {p : Path} {qs : List Path} {fs fs₁ fs' : Files} (h : Touched [p] fs fs₁)
    (h' : Touched qs fs₁ fs') : Touched (p :: qs) fs fs' where
  kept q node hq := h'.kept q node (h.kept q node hq)
  added := by
    intro q hq hnone
    by_cases hqp : q = p
    · exact h'.kept q _ (h.added q (List.mem_singleton.mpr hqp) hnone)
    · refine h'.added q ((List.mem_cons.mp hq).resolve_left hqp) ?_
      rwa [h.others q fun hq ↦ hqp (List.mem_singleton.mp hq)]
  others := by
    intro q hq
    obtain ⟨hqp, hqs⟩ := not_or.mp (mt List.mem_cons.mpr hq)
    rw [h'.others q hqs, h.others q fun hq ↦ hqp (List.mem_singleton.mp hq)]

theorem touched_touch {p : Path} (hp : p ≠ []) {fs fs' : Files} {u : Unit}
    (h : touch p fs = (.ok u, fs')) : Touched [p] fs fs' := by
  rw [touch] at h
  split at h
  · rename_i hhas
    cases h
    rw [Files.has, decide_eq_true_iff] at hhas
    refine ⟨fun _ _ hq ↦ hq, fun q hq hnone ↦ ?_, fun _ _ ↦ rfl⟩
    rw [List.mem_singleton.mp hq] at hnone
    exact absurd (hhas.resolve_left hp) (Dict.get?_eq_none_iff.mp hnone)
  · rename_i hno
    cases write_eq_ok h
    refine ⟨fun q node hq ↦ ?_, fun q hq _ ↦ ?_, fun q hq ↦ ?_⟩
    · have hne : q ≠ p := by
        rintro rfl
        refine hno ?_
        rw [Files.has, decide_eq_true_iff]
        exact .inr (Dict.mem_iff_get?.mpr ⟨node, hq⟩)
      rwa [Dict.get?_set_ne _ _ hne]
    · rw [List.mem_singleton.mp hq, Dict.get?_set_self]
    · exact Dict.get?_set_ne _ _ fun hqp ↦ hq (List.mem_singleton.mpr hqp)

theorem touched_each {name : Text} {ps : List Path} {fs fs' : Files} {u : Unit}
    (h : each (fun d ↦ touch (d ++ [name])) ps fs = (.ok u, fs')) :
    Touched (ps.map (· ++ [name])) fs fs' := by
  induction ps generalizing fs with
  | nil =>
      cases h
      exact ⟨fun _ _ hq ↦ hq, fun _ hq ↦ absurd hq List.not_mem_nil, fun _ _ ↦ rfl⟩
  | cons p ps ih =>
      obtain ⟨_, fs₁, hfirst, hrest⟩ := bind_ok_iff.mp h
      have hpath := List.append_ne_nil_of_right_ne_nil p (List.cons_ne_nil name [])
      exact (touched_touch hpath hfirst).cons (ih hrest)

theorem mem_subdirs {p q : Path} {fs : Files} :
    q ∈ fs.subdirs p ↔ p <+: q ∧ q ≠ p ∧ fs.get? q = some .dir := by
  rw [Files.subdirs, List.mem_filterMap]
  constructor
  · rintro ⟨⟨q', node⟩, ha, hq⟩
    split at hq
    · rename_i hdir
      obtain ⟨hpre, hne, rfl⟩ := hdir
      cases hq
      exact ⟨hpre, hne, Dict.get?_eq_some_iff.mpr ha⟩
    · cases hq
  · rintro ⟨hpre, hne, hget⟩
    exact ⟨(q, .dir), Dict.get?_eq_some_iff.mp hget, if_pos ⟨hpre, hne, rfl⟩⟩

/-- Which empty files are made depends on what is there alone. -/
theorem carries_touchBelow (name : Text) (p : Path) :
    Carries (fun q ↦ p <+: q) (fun q ↦ p <+: q) (touchBelow name p) := by
  intro fs gs u v fs' gs' hA hf hg
  have hmem (q : Path) : q ∈ (p :: fs.subdirs p).map (· ++ [name]) ↔
      q ∈ (p :: gs.subdirs p).map (· ++ [name]) := by
    have hdirs (d : Path) : d ∈ p :: fs.subdirs p ↔ d ∈ p :: gs.subdirs p := by
      rw [List.mem_cons, List.mem_cons, mem_subdirs, mem_subdirs]
      refine or_congr_right (and_congr_right fun hpre ↦ ?_)
      rw [hA d hpre]
    simp only [List.mem_map, hdirs]
  have htf := touched_each hf
  have htg := touched_each hg
  refine ⟨rfl, fun q hq ↦ ?_⟩
  cases hget : fs.get? q with
  | some node => rw [htf.kept q node hget, htg.kept q node ((hA q hq).symm.trans hget)]
  | none =>
      have hget' : gs.get? q = none := (hA q hq).symm.trans hget
      by_cases hqs : q ∈ (p :: fs.subdirs p).map (· ++ [name])
      · rw [htf.added q hqs hget, htg.added q ((hmem q).mp hqs) hget']
      · rw [htf.others q hqs, htg.others q fun h ↦ hqs ((hmem q).mpr h), hget, hget']

/-- Afterwards there is a file of the name in every directory. -/
theorem touchBelow_has {name : Text} {p : Path} {fs fs' : Files} {u : Unit}
    (h : touchBelow name p fs = (.ok u, fs')) {d : Path}
    (hd : d = p ∨ p <+: d ∧ fs'.get? d = some .dir) : d ++ [name] ∈ fs' := by
  have ht := touched_each h
  have hbefore : d ∈ p :: fs.subdirs p := by
    by_cases hdp : d = p
    · exact List.mem_cons.mpr (.inl hdp)
    · obtain ⟨hpre, hdir⟩ := hd.resolve_left hdp
      refine List.mem_cons_of_mem _ (mem_subdirs.mpr ⟨hpre, hdp, ?_⟩)
      cases hget : fs.get? d with
      | some node => rw [← hdir, ht.kept d node hget]
      | none =>
          -- only files are made
          by_cases hqs : d ∈ (p :: fs.subdirs p).map (· ++ [name])
          · rw [ht.added d hqs hget] at hdir
            cases hdir
          · rw [ht.others d hqs, hget] at hdir
            cases hdir
  have hmem : d ++ [name] ∈ (p :: fs.subdirs p).map (· ++ [name]) := List.mem_map_of_mem hbefore
  rw [Dict.mem_iff_get?]
  cases hget : fs.get? (d ++ [name]) with
  | some node => exact ⟨node, ht.kept _ node hget⟩
  | none => exact ⟨_, ht.added _ hmem hget⟩

/-- Nothing is made elsewhere. -/
theorem touchBelow_others {name : Text} {p : Path} {fs fs' : Files} {u : Unit}
    (h : touchBelow name p fs = (.ok u, fs')) {q : Path} (hq : ¬ p <+: q) :
    fs'.get? q = fs.get? q := by
  refine (touched_each h).others q fun hmem ↦ ?_
  obtain ⟨d, hd, rfl⟩ := List.mem_map.mp hmem
  have hpre : p <+: d := by
    rcases List.mem_cons.mp hd with rfl | hd
    · exact List.prefix_rfl
    · exact (mem_subdirs.mp hd).1
  exact hq (hpre.trans (List.prefix_append _ _))

end Act

end SensorFusion
