import Mathlib.Data.List.Dedup
import SensorFusion.Lib.FileOps

/-!
# What there is on a file system

Whatever exists is in a directory (`Rooted`), and the operations keep it so.  Of a route that
leads to a directory this says more: all that it leads through is there, and all that this is
in.

In a file system that has directories only (`Bare`) a directory can be made wherever a route
leads, so that what `os.makedirs` leaves behind is known there.
-/

namespace SensorFusion

namespace Files

def Rooted (fs : Files) : Prop := ∀ p ∈ fs, fs.isDir p.dropLast = true

structure Bare (fs : Files) : Prop where
  rooted : fs.Rooted
  dirs : ∀ p ∈ fs, fs.isDir p = true

/-- A file system of some directories. -/
def ofDirs (ps : List Path) : Files where
  items := ps.dedup.map fun p ↦ (p, .dir)
  nodup := by
    rw [List.map_map]
    exact (List.map_id _).symm ▸ List.nodup_dedup ps

variable {fs : Files}

/-! ## What a route needs -/

theorem isDir_iff {p : Path} : fs.isDir p = true ↔ p = [] ∨ fs.get? p = some .dir :=
  decide_eq_true_iff

theorem has_iff {p : Path} : fs.has p = true ↔ p = [] ∨ p ∈ fs := decide_eq_true_iff

theorem Rooted.isDir_of_prefix (h : fs.Rooted) {p q : Path} (hp : fs.isDir p = true)
    (hq : q <+: p) : fs.isDir q = true := by
  induction p using List.reverseRecOn with
  | nil =>
      rw [List.prefix_nil.mp hq]
      exact hp
  | append_singleton p part ih =>
      rcases List.prefix_concat_iff.mp hq with rfl | hq
      · exact hp
      · have hmem : p ++ [part] ∈ fs := by
          have hget := (isDir_iff.mp hp).resolve_left (List.concat_ne_nil part p)
          exact Dict.mem_iff_get?.mpr ⟨_, hget⟩
        have hparent := h _ hmem
        rw [List.dropLast_concat] at hparent
        exact ih hparent hq

theorem isDirAt_iff {base : Path} {parts : List Text} :
    fs.isDirAt ⟨base, parts⟩ = true ↔
      ∀ heads, heads <+: parts → fs.isDir (Route.loc ⟨base, heads⟩) = true := by
  induction parts generalizing base with
  | nil =>
      constructor
      · intro h heads hpre
        rw [List.prefix_nil.mp hpre]
        exact h
      · intro h
        exact h [] List.prefix_rfl
  | cons part parts ih =>
      have hstep : fs.isDirAt ⟨base, part :: parts⟩ =
          (fs.isDir base && fs.isDirAt ⟨descend base part, parts⟩) := Bool.and_assoc _ _ _
      rw [hstep, Bool.and_eq_true, ih]
      constructor
      · rintro ⟨hbase, hrest⟩ heads hpre
        cases heads with
        | nil => exact hbase
        | cons head heads =>
            obtain ⟨rfl, htail⟩ := List.cons_prefix_cons.mp hpre
            exact hrest heads htail
      · intro h
        refine ⟨h [] (List.nil_prefix), fun heads hpre ↦ ?_⟩
        exact h (part :: heads) (List.cons_prefix_cons.mpr ⟨rfl, hpre⟩)

theorem walks_iff {base : Path} {parts : List Text} {part : Text} :
    fs.walks base (parts ++ [part]) = true ↔ fs.isDirAt ⟨base, parts⟩ = true := by
  induction parts generalizing base with
  | nil => exact iff_of_eq (congrArg (· = true) (Bool.and_true _))
  | cons head parts ih =>
      have hstep : fs.isDirAt ⟨base, head :: parts⟩ =
          (fs.isDir base && fs.isDirAt ⟨descend base head, parts⟩) := Bool.and_assoc _ _ _
      rw [hstep, List.cons_append, walks, Bool.and_eq_true, Bool.and_eq_true, ih]

/-- What a route ends with is found when all before is a directory. -/
theorem hasAt_concat_iff {base : Path} {parts : List Text} {part : Text} :
    fs.hasAt ⟨base, parts ++ [part]⟩ = true ↔
      (∀ heads, heads <+: parts → fs.isDir (Route.loc ⟨base, heads⟩) = true) ∧
        fs.has (Route.loc ⟨base, parts ++ [part]⟩) = true := by
  rw [hasAt, Bool.and_eq_true, walks_iff, isDirAt_iff]

theorem mem_needs {r : Route} {p : Path} :
    p ∈ r.needs ↔ ∃ heads, heads <+: r.parts ∧ p <+: Route.loc ⟨r.base, heads⟩ := by
  rw [Route.needs, List.mem_flatMap]
  simp only [List.mem_inits]

theorem through_subset_needs (r : Route) : r.through ⊆ r.needs := by
  intro p hp
  obtain ⟨heads, hheads, rfl⟩ := List.mem_map.mp hp
  exact mem_needs.mpr ⟨heads, (Act.mem_tail_inits.mp hheads).2, List.prefix_rfl⟩

/-- A route that does not lead up stays below its base. -/
theorem prefix_loc {base : Path} {parts : List Text} (h : "..".toList ∉ parts) :
    base <+: Route.loc ⟨base, parts⟩ := by
  induction parts generalizing base with
  | nil => exact List.prefix_rfl
  | cons part parts ih =>
      obtain ⟨hpart, hparts⟩ := not_or.mp (mt List.mem_cons.mpr h)
      have hdown : descend base part = base ++ [part] := if_neg fun heq ↦ hpart heq.symm
      refine (List.prefix_append base [part]).trans ?_
      rw [← hdown]
      exact ih hparts

/-- All that a route to a directory needs is there. -/
theorem Rooted.isDir_of_needs (h : fs.Rooted) {r : Route} (hr : fs.isDirAt r = true) {p : Path}
    (hp : p ∈ r.needs) : fs.isDir p = true := by
  obtain ⟨heads, hpre, hp⟩ := mem_needs.mp hp
  exact h.isDir_of_prefix (isDirAt_iff.mp hr heads hpre) hp

theorem isDirAt_of_needs {r : Route} (h : ∀ p ∈ r.needs, fs.isDir p = true) :
    fs.isDirAt r = true :=
  isDirAt_iff.mpr fun heads hpre ↦ h _ (mem_needs.mpr ⟨heads, hpre, List.prefix_rfl⟩)

/-! ## Well-formed file systems -/

theorem Rooted.set (h : fs.Rooted) {p : Path} {node : Node} (hp : fs.isDir p.dropLast = true)
    (hnode : fs.isDir p = true → node = .dir) : Rooted (fs.set p node) := by
  intro q hq
  have hparent : fs.isDir q.dropLast = true := by
    rcases Dict.mem_set.mp hq with rfl | hq
    · exact hp
    · exact h q hq
  exact Act.isDir_set hparent fun hqp ↦ hnode (hqp ▸ hparent)

theorem isDir_set_file {p : Path} (hp : p ≠ []) (content : List UInt8) {q : Path} :
    isDir (fs.set p (.file content)) q = true ↔ q ≠ p ∧ fs.isDir q = true := by
  rw [isDir_iff, isDir_iff]
  by_cases hqp : q = p
  · rw [hqp, Dict.get?_set_self]
    refine iff_of_false ?_ fun h ↦ h.1 rfl
    rintro (hroot | hdir)
    · exact hp hroot
    · cases hdir
  · rw [Dict.get?_set_ne _ _ hqp, and_iff_right hqp]

theorem mem_keep {P : Path → Prop} [DecidablePred P] {p : Path} :
    p ∈ Dict.keep P fs ↔ P p ∧ p ∈ fs := by
  rw [← Dict.get?_isSome_iff, Dict.get?_keep, ← Dict.get?_isSome_iff]
  split
  · rename_i hp
    exact (and_iff_right hp).symm
  · rename_i hp
    exact iff_of_false Bool.false_ne_true fun h ↦ hp h.1

theorem isDir_keep {p q : Path} :
    isDir (fs.keep fun q ↦ ¬ p <+: q) q = true ↔ q = [] ∨ ¬ p <+: q ∧ fs.isDir q = true := by
  rw [isDir_iff, isDir_iff, Dict.get?_keep]
  by_cases hroot : q = []
  · exact iff_of_true (.inl hroot) (.inl hroot)
  · rw [or_iff_right hroot, or_iff_right hroot, or_iff_right hroot]
    split
    · rename_i hpq
      exact (and_iff_right hpq).symm
    · rename_i hpq
      exact iff_of_false (fun h ↦ Option.some_ne_none _ h.symm) fun h ↦ hpq h.1

theorem Rooted.keep (h : fs.Rooted) (p : Path) : Rooted (fs.keep fun q ↦ ¬ p <+: q) := by
  intro q hq
  obtain ⟨hpq, hq⟩ := mem_keep.mp hq
  exact isDir_keep.mpr (.inr ⟨fun hp ↦ hpq (hp.trans (List.dropLast_prefix q)), h q hq⟩)

theorem Bare.set (h : fs.Bare) {p : Path} (hp : fs.isDir p.dropLast = true) :
    Bare (fs.set p .dir) where
  rooted := h.rooted.set hp fun _ ↦ rfl
  dirs q hq := by
    rcases Dict.mem_set.mp hq with rfl | hq
    · exact Act.isDir_set_self fs q
    · exact Act.isDir_set (h.dirs q hq) fun _ ↦ rfl

theorem Bare.keep (h : fs.Bare) (p : Path) : Bare (fs.keep fun q ↦ ¬ p <+: q) where
  rooted := h.rooted.keep p
  dirs q hq := by
    obtain ⟨hpq, hq⟩ := mem_keep.mp hq
    exact isDir_keep.mpr (.inr ⟨hpq, h.dirs q hq⟩)

theorem Bare.isDir_of_has (h : fs.Bare) {p : Path} (hp : fs.has p = true) : fs.isDir p = true := by
  rcases has_iff.mp hp with rfl | hmem
  · exact Act.isDir_root fs
  · exact h.dirs p hmem

theorem mem_ofDirs {ps : List Path} {p : Path} : p ∈ ofDirs ps ↔ p ∈ ps := by
  rw [Dict.mem_def, Dict.keys, ofDirs, List.map_map, List.mem_map]
  constructor
  · rintro ⟨q, hq, rfl⟩
    exact List.mem_dedup.mp hq
  · intro hp
    exact ⟨p, List.mem_dedup.mpr hp, rfl⟩

theorem isDir_ofDirs {ps : List Path} {p : Path} (hp : p ∈ ps) : (ofDirs ps).isDir p = true := by
  have hmem : (p, Node.dir) ∈ (ofDirs ps).items :=
    List.mem_map_of_mem (List.mem_dedup.mpr hp)
  exact isDir_iff.mpr (.inr (Dict.get?_eq_some_iff.mpr hmem))

/-- Where a route leads, and nothing else. -/
theorem bare_ofDirs (r : Route) : Bare (ofDirs r.needs) where
  rooted p hp := by
    obtain ⟨heads, hpre, hle⟩ := mem_needs.mp (mem_ofDirs.mp hp)
    exact isDir_ofDirs (mem_needs.mpr ⟨heads, hpre, (List.dropLast_prefix p).trans hle⟩)
  dirs _ hp := isDir_ofDirs (mem_ofDirs.mp hp)

end Files

namespace Act

open Files (Rooted)

theorem rooted_mkdir (p : Path) : Keeps Rooted (mkdir p) := by
  intro fs h
  rw [mkdir]
  split
  · exact h
  · split
    · rename_i hparent
      exact h.set hparent fun _ ↦ rfl
    · exact h

theorem rooted_ensureDir (p : Path) : Keeps Rooted (ensureDir p) := by
  intro fs h
  rw [ensureDir]
  split
  · exact h
  · split
    · exact h
    · exact rooted_mkdir p fs h

theorem rooted_mkdirParents (p : Path) : Keeps Rooted (mkdirParents p) :=
  (keeps_each rooted_ensureDir _).bind fun _ ↦ rooted_mkdir p

theorem rooted_clear (p : Path) : Keeps Rooted (clear p) := by
  intro fs h
  rw [clear]
  split
  · rw [rmtree]
    split
    · exact h
    · split
      · exact h.keep p
      · exact h
  · exact h.keep p

theorem rooted_copy2 (src dst : Path) : Keeps Rooted (copy2 src dst) := by
  have hwrite (content : List UInt8) : Keeps Rooted (write dst content) := by
    intro fs h
    rw [write]
    split
    · exact h
    · rename_i hno
      split
      · rename_i hparent
        exact h.set hparent fun hdir ↦ absurd hdir hno
      · exact h
  intro fs h
  rw [copy2]
  split
  · exact hwrite _ fs h
  · exact h
  · exact h

/-! ### Where there are directories only -/

open Files (AgreeOn Bare)

/-- A program has succeeded, and has only added directories. -/
structure Grows (m : Act Unit) (fs fs' : Files) : Prop where
  eq_ok : m fs = (.ok (), fs')
  bare : Bare fs'
  isDir : ∀ p, fs.isDir p = true → fs'.isDir p = true

theorem Grows.bind {m m' : Act Unit} {fs fs₁ fs' : Files} (h : Grows m fs fs₁)
    (h' : Grows m' fs₁ fs') : Grows (m >>= fun _ ↦ m') fs fs' where
  eq_ok := (bind_of_ok h.eq_ok).trans h'.eq_ok
  bare := h'.bare
  isDir p hp := h'.isDir p (h.isDir p hp)

theorem grows_refl {m : Act Unit} {fs : Files} (h : Bare fs) (hm : m fs = (.ok (), fs)) :
    Grows m fs fs := ⟨hm, h, fun _ hp ↦ hp⟩

theorem grows_mkdir {fs : Files} (h : Bare fs) {p : Path} (hfree : fs.has p = false)
    (hp : fs.isDir p.dropLast = true) : Grows (mkdir p) fs (fs.set p .dir) where
  eq_ok := by rw [mkdir, hfree, if_neg Bool.false_ne_true, if_pos hp]
  bare := h.set hp
  isDir _ hq := isDir_set hq fun _ ↦ rfl

theorem grows_ensureDir {fs : Files} (h : Bare fs) {p : Path} (hp : fs.isDir p.dropLast = true) :
    ∃ fs', Grows (ensureDir p) fs fs' ∧ fs'.isDir p = true := by
  cases hhas : fs.has p with
  | true =>
      have hdir := h.isDir_of_has hhas
      exact ⟨fs, grows_refl h (if_pos hdir), hdir⟩
  | false =>
      have hno : ¬ fs.isDir p = true := fun hdir ↦ by
        rw [has_of_isDir hdir] at hhas
        cases hhas
      obtain ⟨hok, hbare, hgrows⟩ := grows_mkdir h hhas hp
      refine ⟨_, ⟨?_, hbare, hgrows⟩, isDir_set_self fs p⟩
      rw [ensureDir, if_neg hno, hhas, if_neg Bool.false_ne_true, hok]

theorem clear_bare {fs : Files} (h : Bare fs) (p : Path) :
    clear p fs = (.ok (), fs.keep fun q ↦ ¬ p <+: q) := by
  rw [clear]
  split
  · rename_i hhas
    rw [rmtree, hhas, if_neg Bool.noConfusion, if_pos (h.isDir_of_has hhas)]
  · rfl

theorem tail_inits_concat (parts : List Text) (part : Text) :
    (parts ++ [part]).inits.tail = parts.inits.tail ++ [parts ++ [part]] := by
  rw [List.inits_append]
  cases parts <;> rfl

theorem grows_each_nil {β : Type} {f : β → Act Unit} {fs : Files} (h : Bare fs) :
    Grows (each f []) fs fs := grows_refl h rfl

theorem Grows.each_concat {β : Type} {f : β → Act Unit} {xs : List β} {x : β} {fs fs₁ fs' : Files}
    (h : Grows (each f xs) fs fs₁) (hx : Grows (f x) fs₁ fs') :
    Grows (each f (xs ++ [x])) fs fs' where
  eq_ok := Act.each_concat h.eq_ok hx.eq_ok
  bare := hx.bare
  isDir p hp := hx.isDir p (h.isDir p hp)

/-- By induction from the top: each directory is made in the one before. -/
theorem grows_ensureDirs {fs : Files} (h : Bare fs) (p : Path) :
    ∃ fs', Grows (each ensureDir p.inits.tail) fs fs' ∧ fs'.isDir p = true := by
  induction p using List.reverseRecOn with
  | nil => exact ⟨fs, grows_each_nil h, isDir_root fs⟩
  | append_singleton p part ih =>
      obtain ⟨fs₁, hgrows, hparent⟩ := ih
      have hin : fs₁.isDir (p ++ [part]).dropLast = true := by
        rw [List.dropLast_concat]
        exact hparent
      obtain ⟨fs', hlast, hdir⟩ := grows_ensureDir hgrows.bare hin
      refine ⟨fs', ?_, hdir⟩
      rw [tail_inits_concat]
      exact hgrows.each_concat hlast

theorem grows_mkdirParents {fs : Files} (h : Bare fs) {p : Path} (hfree : fs.has p = false) :
    ∃ fs', Grows (mkdirParents p) fs fs' := by
  obtain ⟨fs₁, hgrows, hparent⟩ := grows_ensureDirs h p.dropLast
  have hkept : AgreeOn (· = p) fs₁ fs := by
    have hleaves : Leaves (· = p) (each ensureDir p.dropLast.inits.tail) := by
      refine leaves_each fun q hq ↦ (makes_ensureDir q).leaves ?_
      rintro rfl
      obtain ⟨hne, hpre⟩ := mem_tail_inits.mp hq
      have hle := hpre.length_le
      have hpos := List.length_pos_iff.mpr hne
      rw [List.length_dropLast] at hle
      omega
    have hfs₁ := hleaves fs
    rwa [hgrows.eq_ok] at hfs₁
  have hfree₁ : fs₁.has p = false := (hkept.has_eq rfl).trans hfree
  exact ⟨_, hgrows.bind (grows_mkdir hgrows.bare hfree₁ hparent)⟩

theorem loc_concat (base : Path) (parts : List Text) (part : Text) :
    Route.loc ⟨base, parts ++ [part]⟩ = descend (Route.loc ⟨base, parts⟩) part :=
  List.foldl_append

/-- The last step of a route leads to a directory, which is made if it is not there. -/
theorem grows_mkdirAt {fs : Files} (h : Bare fs) {base : Path} {parts : List Text}
    (hparts : fs.isDirAt ⟨base, parts⟩ = true) (part : Text) :
    (fs.has (Route.loc ⟨base, parts ++ [part]⟩) = true ∧
        mkdirAt ⟨base, parts ++ [part]⟩ fs = (.error .file_exists, fs)) ∨
      fs.has (Route.loc ⟨base, parts ++ [part]⟩) = false ∧
        Grows (mkdirAt ⟨base, parts ++ [part]⟩) fs
          (fs.set (Route.loc ⟨base, parts ++ [part]⟩) .dir) := by
  have hdir := Files.isDirAt_iff.mp hparts parts List.prefix_rfl
  have hwalks : ¬ fs.walks base (parts ++ [part]) = false := by
    rw [Files.walks_iff.mpr hparts]
    exact Bool.noConfusion
  have hup : (parts ++ [part] = [] ∨ (parts ++ [part]).getLast? = some "..".toList) ↔
      part = "..".toList := by
    rw [List.getLast?_concat, or_iff_right (List.concat_ne_nil part parts), Option.some_inj]
  cases hhas : fs.has (Route.loc ⟨base, parts ++ [part]⟩) with
  | true =>
      refine .inl ⟨rfl, ?_⟩
      rw [mkdirAt, if_neg hwalks]
      split
      · rfl
      · rw [mkdir, if_pos hhas]
  | false =>
      have hdown : part ≠ "..".toList := by
        rintro rfl
        -- up from a directory there is one
        have hparent : fs.isDir (Route.loc ⟨base, parts⟩).dropLast = true :=
          h.rooted.isDir_of_prefix hdir (List.dropLast_prefix _)
        rw [loc_concat, descend, if_pos rfl, has_of_isDir hparent] at hhas
        cases hhas
      have hloc : (Route.loc ⟨base, parts ++ [part]⟩).dropLast = Route.loc ⟨base, parts⟩ := by
        rw [loc_concat, descend, if_neg hdown, List.dropLast_concat]
      obtain ⟨hok, hbare, hgrows⟩ := grows_mkdir h hhas (hloc ▸ hdir)
      refine .inr ⟨rfl, ?_, hbare, hgrows⟩
      rw [mkdirAt, if_neg hwalks, if_neg (mt hup.mp hdown), hok]

theorem isDirAt_concat {fs fs' : Files} {base : Path} {parts : List Text} {part : Text}
    (hparts : fs.isDirAt ⟨base, parts⟩ = true)
    (hgrows : ∀ p, fs.isDir p = true → fs'.isDir p = true)
    (hlast : fs'.isDir (Route.loc ⟨base, parts ++ [part]⟩) = true) :
    fs'.isDirAt ⟨base, parts ++ [part]⟩ = true := by
  refine Files.isDirAt_iff.mpr fun heads hpre ↦ ?_
  rcases List.prefix_concat_iff.mp hpre with rfl | hpre
  · exact hlast
  · exact hgrows _ (Files.isDirAt_iff.mp hparts heads hpre)

theorem grows_makeHead {fs : Files} (h : Bare fs) {base : Path} {parts : List Text}
    (hparts : fs.isDirAt ⟨base, parts⟩ = true) (part : Text) :
    ∃ fs', Grows (makeHead ⟨base, parts ++ [part]⟩) fs fs' ∧
      fs'.isDirAt ⟨base, parts ++ [part]⟩ = true := by
  have hwalks : fs.walks base (parts ++ [part]) = true := Files.walks_iff.mpr hparts
  rcases grows_mkdirAt h hparts part with ⟨hhas, -⟩ | ⟨hfree, hgrows⟩
  · have hhasAt : fs.hasAt ⟨base, parts ++ [part]⟩ = true := by
      rw [Files.hasAt, hwalks, hhas]
      rfl
    exact ⟨fs, grows_refl h (if_pos hhasAt),
      isDirAt_concat hparts (fun _ hp ↦ hp) (h.isDir_of_has hhas)⟩
  · have hno : ¬ fs.hasAt ⟨base, parts ++ [part]⟩ = true := by
      rw [Files.hasAt, hfree, Bool.and_false]
      exact Bool.false_ne_true
    refine ⟨_, ⟨?_, hgrows.bare, hgrows.isDir⟩,
      isDirAt_concat hparts hgrows.isDir (isDir_set_self fs _)⟩
    rw [makeHead, if_neg hno, hgrows.eq_ok]

theorem grows_makeHeads {fs : Files} (h : Bare fs) {base : Path} (hbase : fs.isDir base = true)
    (parts : List Text) :
    ∃ fs', Grows (each (fun heads ↦ makeHead ⟨base, heads⟩) parts.inits.tail) fs fs' ∧
      fs'.isDirAt ⟨base, parts⟩ = true := by
  induction parts using List.reverseRecOn with
  | nil => exact ⟨fs, grows_each_nil h, hbase⟩
  | append_singleton parts part ih =>
      obtain ⟨fs₁, hgrows, hparts⟩ := ih
      obtain ⟨fs', hlast, hdir⟩ := grows_makeHead hgrows.bare hparts part
      refine ⟨fs', ?_, hdir⟩
      rw [tail_inits_concat]
      exact hgrows.each_concat hlast

/-- Whether it succeeds or not, `os.makedirs` makes all that the route leads through. -/
theorem makedirs_isDir {fs : Files} (h : Bare fs) {r : Route} (hbase : fs.isDir r.base = true)
    {p : Path} (hp : p ∈ r.through) : (makedirs r fs).2.isDir p = true := by
  obtain ⟨base, parts⟩ := r
  obtain ⟨heads, hheads, rfl⟩ := List.mem_map.mp hp
  obtain ⟨hne, hpre⟩ := mem_tail_inits.mp hheads
  rcases List.eq_nil_or_concat' parts with rfl | ⟨init, last, rfl⟩
  · exact absurd (List.prefix_nil.mp hpre) hne
  obtain ⟨fs₁, hgrows, hinit⟩ := grows_makeHeads h hbase init
  have hrun : makedirs ⟨base, init ++ [last]⟩ fs = mkdirAt ⟨base, init ++ [last]⟩ fs₁ := by
    rw [makedirs, List.dropLast_concat]
    exact bind_of_ok hgrows.eq_ok
  rw [hrun]
  have hlast := grows_mkdirAt hgrows.bare hinit last
  rcases List.prefix_concat_iff.mp hpre with rfl | hpre
  · rcases hlast with ⟨hhas, heq⟩ | ⟨-, hgrows'⟩
    · rw [heq]
      exact hgrows.bare.isDir_of_has hhas
    · rw [hgrows'.eq_ok]
      exact isDir_set_self fs₁ _
  · have hdir := Files.isDirAt_iff.mp hinit heads hpre
    exact (makes_mkdirAt _).isDir hdir

end Act

end SensorFusion
