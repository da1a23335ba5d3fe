import Mathlib.Data.Char
import Mathlib.Data.List.Infix
import Mathlib.Data.List.Lex
import Mathlib.Data.List.Sort
import SensorFusion.Lib.Dict
import SensorFusion.Python.Text

/-!
# Programs on a file system

A file system without links, and without limits on names, is a dictionary from absolute paths
to nodes.  A program on it (`Act`) may raise, and then keeps what it has done so far.

Three rules are enough to reason about such programs without running them.  `Leaves` is the
rule of the footprint: what a program, whether it raises or not, does not touch.  `Keeps` is
the rule of the invariant.  `Carries` is the rule of two runs: from file systems that agree on
some paths, two runs that both succeed end in file systems that agree on some paths.  All of
them go through a bind.
-/

namespace SensorFusion

/-- An absolute path, by its parts. -/
abbrev Path := List Text

inductive Node where
  | dir
  | file (content : List UInt8)
deriving DecidableEq

/-- A file system, without its root. -/
abbrev Files := Dict Path Node

/-- What an operation of the system raises, or a program. -/
inductive Fault where
  | not_found
  | file_exists
  | not_a_directory
  | is_a_directory
  | too_deep
  | exception (text : Text)
deriving DecidableEq

/-! ## Routes

A path that is not resolved may lead up again. -/

/-- A directory, and parts that lead from it to somewhere else. -/
structure Route where
  base : Path
  parts : List Text
deriving DecidableEq

/-- One part of a route. -/
def descend (cur : Path) (part : Text) : Path :=
  if part = "..".toList then cur.dropLast else cur ++ [part]

/-- Where a route leads to, if every part of it exists. -/
def Route.loc (r : Route) : Path := r.parts.foldl descend r.base

/-- The paths that a route leads through. -/
def Route.through (r : Route) : List Path :=
  r.parts.inits.tail.map fun heads ↦ Route.loc ⟨r.base, heads⟩

/-- The directories that there are if a route leads to one. -/
def Route.needs (r : Route) : List Path :=
  r.parts.inits.flatMap fun heads ↦ (Route.loc ⟨r.base, heads⟩).inits

namespace Files

/-! ## Looking -/

def has (fs : Files) (p : Path) : Bool := p = [] ∨ p ∈ fs

def isDir (fs : Files) (p : Path) : Bool := p = [] ∨ fs.get? p = some .dir

/-- All that a route leads through are directories. -/
def walks (fs : Files) : Path → List Text → Bool
  | _, [] => true
  | cur, part :: parts => fs.isDir cur && walks fs (descend cur part) parts

def hasAt (fs : Files) (r : Route) : Bool := fs.walks r.base r.parts && fs.has r.loc

def isDirAt (fs : Files) (r : Route) : Bool := fs.walks r.base r.parts && fs.isDir r.loc

/-- The names in a directory. -/
def entries (fs : Files) (p : Path) : List Text :=
  fs.keys.filterMap fun q ↦ if q.dropLast = p then q.getLast? else none

/-- `sorted(p.glob("*" + suffix))`, by names. -/
def glob (suffix : Text) (p : Path) (fs : Files) : List Text :=
  ((fs.entries p).filter fun name ↦ suffix <:+ name).insertionSort (· ≤ ·)

/-- The directories below a path. -/
def subdirs (p : Path) (fs : Files) : List Path :=
  fs.items.filterMap fun a ↦ if p <+: a.1 ∧ a.1 ≠ p ∧ a.2 = .dir then some a.1 else none

/-- Where a path below `src` is below `dst`. -/
def rebase (src dst p : Path) : Option Path :=
  if src <+: p then some (dst ++ p.drop src.length) else none

theorem rebase_eq_some_iff {src dst p q : Path} :
    rebase src dst p = some q ↔ ∃ rel, p = src ++ rel ∧ q = dst ++ rel := by
  rw [rebase]
  constructor
  · intro h
    split at h
    · rename_i hp
      obtain ⟨rel, rfl⟩ := hp
      rw [List.drop_left] at h
      exact ⟨rel, rfl, (Option.some.inj h).symm⟩
    · cases h
  · rintro ⟨rel, rfl, rfl⟩
    rw [if_pos (List.prefix_append _ _), List.drop_left]

theorem rebase_inj {src dst p p' q : Path} (h : q ∈ rebase src dst p) (h' : q ∈ rebase src dst p') :
    p = p' := by
  obtain ⟨rel, rfl, hq⟩ := rebase_eq_some_iff.mp h
  obtain ⟨rel', rfl, hq'⟩ := rebase_eq_some_iff.mp h'
  rw [List.append_cancel_left (hq.symm.trans hq')]

/-- What is below `src`, as it would be below `dst`. -/
def subtree (src dst : Path) (fs : Files) : Files where
  items := fs.items.filterMap fun a ↦ (rebase src dst a.1).map fun p ↦ (p, a.2)
  nodup := by
    have hkeys := fs.nodup.filterMap fun p p' _ ↦ @rebase_inj src dst p p' _
    rw [List.filterMap_map] at hkeys
    rw [List.map_filterMap]
    simpa only [Option.map_map, Function.comp_def, Option.map_id'] using hkeys

/-- Put what is below `src` in `snapshot` below `dst`. -/
def graft (snapshot : Files) (src dst : Path) (fs : Files) : Files :=
  fs.update (snapshot.subtree src dst)

/-- Two file systems agree on some paths. -/
def AgreeOn (A : Path → Prop) (fs gs : Files) : Prop := ∀ p, A p → fs.get? p = gs.get? p

variable {A : Path → Prop} {fs gs : Files}

theorem get?_subtree (src dst rel : Path) (fs : Files) :
    (fs.subtree src dst).get? (dst ++ rel) = fs.get? (src ++ rel) := by
  ext v
  rw [Dict.get?_eq_some_iff, Dict.get?_eq_some_iff, subtree, List.mem_filterMap]
  constructor
  · rintro ⟨⟨p, node⟩, ha, hp⟩
    obtain ⟨q, hq, heq⟩ := Option.map_eq_some_iff.mp hp
    cases heq
    obtain ⟨rel', rfl, hrel⟩ := rebase_eq_some_iff.mp hq
    rwa [List.append_cancel_left hrel]
  · intro ha
    refine ⟨_, ha, Option.map_eq_some_iff.mpr ⟨dst ++ rel, ?_, rfl⟩⟩
    exact rebase_eq_some_iff.mpr ⟨rel, rfl, rfl⟩

theorem notMem_subtree {src dst p : Path} (h : ¬ dst <+: p) (fs : Files) :
    p ∉ fs.subtree src dst := by
  intro hp
  obtain ⟨a, ha, rfl⟩ := List.mem_map.mp hp
  obtain ⟨b, -, hb⟩ := List.mem_filterMap.mp ha
  obtain ⟨q, hq, rfl⟩ := Option.map_eq_some_iff.mp hb
  obtain ⟨rel, -, rfl⟩ := rebase_eq_some_iff.mp hq
  exact h (List.prefix_append _ _)

theorem get?_graft (snapshot : Files) (src dst rel : Path) (fs : Files) :
    (graft snapshot src dst fs).get? (dst ++ rel) =
      (snapshot.get? (src ++ rel) <|> fs.get? (dst ++ rel)) := by
  rw [graft, Dict.get?_update, get?_subtree]

theorem get?_graft_of_not_prefix (snapshot : Files) (src : Path) {dst p : Path} (h : ¬ dst <+: p)
    (fs : Files) : (graft snapshot src dst fs).get? p = fs.get? p :=
  Dict.get?_update_of_notMem (notMem_subtree h snapshot)

/-! ## What is seen depends on what is there -/

theorem AgreeOn.mono {B : Path → Prop} (h : AgreeOn A fs gs) (hBA : ∀ p, B p → A p) :
    AgreeOn B fs gs := fun p hp ↦ h p (hBA p hp)

theorem AgreeOn.mem_iff (h : AgreeOn A fs gs) {p : Path} (hp : A p) : p ∈ fs ↔ p ∈ gs := by
  rw [← Dict.get?_isSome_iff, ← Dict.get?_isSome_iff, h p hp]

theorem AgreeOn.has_eq (h : AgreeOn A fs gs) {p : Path} (hp : A p) : fs.has p = gs.has p := by
  unfold has
  simp only [h.mem_iff hp]

theorem entry_eq_some_iff {p q : Path} {name : Text} :
    (if q.dropLast = p then q.getLast? else none) = some name ↔ q = p ++ [name] := by
  constructor
  · intro h
    split at h
    · rename_i hp
      obtain ⟨rest, rfl⟩ := List.getLast?_eq_some_iff.mp h
      rw [List.dropLast_concat] at hp
      rw [hp]
    · cases h
  · rintro rfl
    rw [List.dropLast_concat, if_pos rfl, List.getLast?_concat]

theorem mem_entries {p : Path} {name : Text} : name ∈ fs.entries p ↔ p ++ [name] ∈ fs := by
  rw [entries, List.mem_filterMap, Dict.mem_def]
  simp only [entry_eq_some_iff, exists_eq_right]

theorem nodup_entries (fs : Files) (p : Path) : (fs.entries p).Nodup := by
  refine fs.nodup_keys.filterMap fun q q' name hq hq' ↦ ?_
  rw [entry_eq_some_iff.mp hq, entry_eq_some_iff.mp hq']

/-- A sorted list of names depends on what there is alone. -/
theorem AgreeOn.glob_eq (h : AgreeOn A fs gs) {p : Path} (hp : ∀ name, A (p ++ [name]))
    (suffix : Text) : glob suffix p fs = glob suffix p gs := by
  have hentries : (fs.entries p).Perm (gs.entries p) := by
    refine (List.perm_ext_iff_of_nodup (nodup_entries fs p) (nodup_entries gs p)).mpr fun name ↦ ?_
    rw [mem_entries, mem_entries, h.mem_iff (hp name)]
  have hsorted (fs : Files) : (glob suffix p fs).Pairwise (· ≤ ·) := List.pairwise_insertionSort _ _
  refine List.Perm.eq_of_pairwise (fun _ _ _ _ ↦ le_antisymm) (hsorted fs) (hsorted gs) ?_
  exact (List.perm_insertionSort _ _).trans
    ((hentries.filter _).trans (List.perm_insertionSort _ _).symm)

end Files

/-! ## Programs -/

/-- A program, which may raise. -/
def Act (α : Type) := Files → Except Fault α × Files

namespace Act

open Files (AgreeOn)

variable {α β : Type}

instance : Monad Act where
  pure a := fun fs ↦ (.ok a, fs)
  bind m k := fun fs ↦
    match m fs with
    | (.ok a, fs) => k a fs
    | (.error exc, fs) => (.error exc, fs)

def raise (exc : Fault) : Act α := fun fs ↦ (.error exc, fs)

def look (f : Files → α) : Act α := fun fs ↦ (.ok (f fs), fs)

def require (cond : Files → Bool) (exc : Fault) : Act Unit := fun fs ↦
  if cond fs then (.ok (), fs) else (.error exc, fs)

/-- A program for each of a list, in order. -/
def each (f : β → Act Unit) : List β → Act Unit
  | [] => pure ()
  | x :: xs => do
      f x
      each f xs

theorem bind_of_ok {m : Act α} {k : α → Act β} {fs fs' : Files} {a : α} (h : m fs = (.ok a, fs')) :
    (m >>= k) fs = k a fs' := by
  show (match m fs with
    | (.ok a, fs) => k a fs
    | (.error exc, fs) => (.error exc, fs)) = k a fs'
  rw [h]

theorem bind_of_error {m : Act α} {k : α → Act β} {fs fs' : Files} {exc : Fault}
    (h : m fs = (.error exc, fs')) : (m >>= k) fs = (.error exc, fs') := by
  show (match m fs with
    | (.ok a, fs) => k a fs
    | (.error exc, fs) => (.error exc, fs)) = (.error exc, fs')
  rw [h]

/-- A bind that succeeds has succeeded at both of its parts. -/
theorem bind_ok_iff {m : Act α} {k : α → Act β} {fs fs' : Files} {b : β} :
    (m >>= k) fs = (.ok b, fs') ↔ ∃ a fs₁, m fs = (.ok a, fs₁) ∧ k a fs₁ = (.ok b, fs') := by
  rcases hm : m fs with ⟨res, fs₁⟩
  cases res with
  | error exc =>
      rw [bind_of_error hm]
      constructor
      · intro h
        cases h
      · rintro ⟨a, fs₂, h, -⟩
        cases h
  | ok a =>
      rw [bind_of_ok hm]
      constructor
      · intro h
        exact ⟨a, fs₁, rfl, h⟩
      · rintro ⟨a', fs₂, h, hk⟩
        cases h
        exact hk

theorem each_concat {f : β → Act Unit} {xs : List β} {x : β} {fs fs₁ fs' : Files}
    (h : each f xs fs = (.ok (), fs₁)) (hx : f x fs₁ = (.ok (), fs')) :
    each f (xs ++ [x]) fs = (.ok (), fs') := by
  induction xs generalizing fs with
  | nil =>
      cases h
      exact bind_of_ok hx
  | cons y ys ih =>
      obtain ⟨_, fs₂, hy, hys⟩ := bind_ok_iff.mp h
      exact (bind_of_ok hy).trans (ih hys)

/-! ### The footprint -/

section Leaves

variable {P : Path → Prop}

/-- A program leaves the paths `P` as they are, even when it raises. -/
def Leaves (P : Path → Prop) (m : Act α) : Prop := ∀ fs, AgreeOn P (m fs).2 fs

theorem agreeOn_bind {m : Act α} {k : α → Act β} {fs : Files} (hm : AgreeOn P (m fs).2 fs)
    (hk : ∀ a fs₁, m fs = (.ok a, fs₁) → AgreeOn P (k a fs₁).2 fs₁) :
    AgreeOn P ((m >>= k) fs).2 fs := by
  rcases hrun : m fs with ⟨res, fs₁⟩
  rw [hrun] at hm
  cases res with
  | error exc =>
      rw [bind_of_error hrun]
      exact hm
  | ok a =>
      rw [bind_of_ok hrun]
      exact fun p hp ↦ (hk a fs₁ hrun p hp).trans (hm p hp)

theorem Leaves.bind {m : Act α} {k : α → Act β} (hm : Leaves P m) (hk : ∀ a, Leaves P (k a)) :
    Leaves P (m >>= k) := fun fs ↦ agreeOn_bind (hm fs) fun a fs₁ _ ↦ hk a fs₁

theorem leaves_each {f : β → Act Unit} {xs : List β} (h : ∀ x ∈ xs, Leaves P (f x)) :
    Leaves P (each f xs) := by
  induction xs with
  | nil => exact fun _ _ _ ↦ rfl
  | cons x xs ih =>
      obtain ⟨hx, hxs⟩ := List.forall_mem_cons.mp h
      exact hx.bind fun _ ↦ ih hxs

theorem leaves_pure (a : α) : Leaves P (pure a : Act α) := fun _ _ _ ↦ rfl

theorem leaves_raise (exc : Fault) : Leaves P (raise exc : Act α) := fun _ _ _ ↦ rfl

theorem leaves_look (f : Files → α) : Leaves P (look f) := fun _ _ _ ↦ rfl

theorem leaves_require (cond : Files → Bool) (exc : Fault) : Leaves P (require cond exc) := by
  intro fs p _
  rw [require]
  split <;> rfl

end Leaves

/-! ### The invariant -/

section Keeps

variable {I : Files → Prop}

/-- A program keeps an invariant, even when it raises. -/
def Keeps (I : Files → Prop) (m : Act α) : Prop := ∀ fs, I fs → I (m fs).2

theorem keeps_pure (a : α) : Keeps I (pure a : Act α) := fun _ h ↦ h

theorem Keeps.bind {m : Act α} {k : α → Act β} (hm : Keeps I m) (hk : ∀ a, Keeps I (k a)) :
    Keeps I (m >>= k) := by
  intro fs hfs
  have hafter := hm fs hfs
  rcases hrun : m fs with ⟨res, fs₁⟩
  rw [hrun] at hafter
  cases res with
  | error exc =>
      rw [bind_of_error hrun]
      exact hafter
  | ok a =>
      rw [bind_of_ok hrun]
      exact hk a fs₁ hafter

theorem keeps_each {f : β → Act Unit} (h : ∀ x, Keeps I (f x)) (xs : List β) :
    Keeps I (each f xs) := by
  induction xs with
  | nil => exact keeps_pure ()
  | cons x xs ih => exact (h x).bind fun _ ↦ ih

end Keeps

/-! ### Two runs -/

section Carries

variable {A B C : Path → Prop}

/-- Two runs that begin with agreement on `A` and succeed come to the same and end with
agreement on `B`. -/
def Carries (A B : Path → Prop) (m : Act α) : Prop :=
  ∀ fs gs a b fs' gs', AgreeOn A fs gs → m fs = (.ok a, fs') → m gs = (.ok b, gs') →
    a = b ∧ AgreeOn B fs' gs'

theorem carries_pure (a : α) : Carries A A (pure a : Act α) := by
  intro fs gs b c fs' gs' h hf hg
  cases hf
  cases hg
  exact ⟨rfl, h⟩

theorem carries_raise (exc : Fault) : Carries A B (raise exc : Act α) := by
  intro fs gs b c fs' gs' h hf
  cases hf

theorem carries_look {f : Files → α} (hf : ∀ fs gs, AgreeOn A fs gs → f fs = f gs) :
    Carries A A (look f) := by
  intro fs gs b c fs' gs' h hfs hgs
  cases hfs
  cases hgs
  exact ⟨hf fs gs h, h⟩

theorem require_eq_ok {cond : Files → Bool} {exc : Fault} {fs fs' : Files} {u : Unit} :
    require cond exc fs = (.ok u, fs') ↔ cond fs = true ∧ fs' = fs := by
  rw [require]
  split
  · rename_i h
    constructor
    · intro hok
      cases hok
      exact ⟨h, rfl⟩
    · rintro ⟨-, rfl⟩
      rfl
  · rename_i h
    constructor
    · intro hok
      cases hok
    · rintro ⟨h', -⟩
      exact absurd h' h

/-- What is required may be different in the two runs. -/
theorem carries_require (cond : Files → Bool) (exc : Fault) : Carries A A (require cond exc) := by
  intro fs gs b c fs' gs' h hf hg
  obtain ⟨-, rfl⟩ := require_eq_ok.mp hf
  obtain ⟨-, rfl⟩ := require_eq_ok.mp hg
  exact ⟨rfl, h⟩

theorem Carries.bind {m : Act α} {k : α → Act β} (hm : Carries A B m)
    (hk : ∀ a, Carries B C (k a)) : Carries A C (m >>= k) := by
  intro fs gs b c fs' gs' h hf hg
  obtain ⟨a, fs₁, hfm, hfk⟩ := bind_ok_iff.mp hf
  obtain ⟨a', gs₁, hgm, hgk⟩ := bind_ok_iff.mp hg
  obtain ⟨rfl, h₁⟩ := hm _ _ _ _ _ _ h hfm hgm
  exact hk a _ _ _ _ _ _ h₁ hfk hgk

theorem carries_each {f : β → Act Unit} (h : ∀ x, Carries A A (f x)) (xs : List β) :
    Carries A A (each f xs) := by
  induction xs with
  | nil => exact carries_pure ()
  | cons x xs ih => exact (h x).bind fun _ ↦ ih

theorem Carries.mono {A' B' : Path → Prop} {m : Act α} (hm : Carries A B m)
    (hA : ∀ p, A p → A' p) (hB : ∀ p, B' p → B p) : Carries A' B' m := by
  intro fs gs a b fs' gs' h hf hg
  obtain ⟨hab, h'⟩ := hm _ _ _ _ _ _ (h.mono hA) hf hg
  exact ⟨hab, h'.mono hB⟩

end Carries

end Act

end SensorFusion
