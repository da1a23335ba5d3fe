import SensorFusion.ProtoGen.Generate

/-!
# A run that fails

A run that fails before it installs anything should leave the package as it is.  It does,
unless the copy of the version directory is made inside the package: a version may lead out of
`_stage`.  Which versions do so depends on what must be there when the copy is reached, and no
copy is when a version has a null character.
-/

namespace SensorFusion.ProtoGen

open Act Files

variable {tools : Tools} {proto_dir output_dir : Path} {version lang : Text} {fs fs' : Files}

/-! ## Staging -/

theorem leaves_stageShared :
    Leaves (fun p ↦ pkgDir output_dir <+: p) (stageShared proto_dir output_dir) := by
  have hpkg (p : Path) (hp : p <+: stagePkg output_dir) : ¬ pkgDir output_dir <+: p :=
    fun h ↦ pkgDir_not_prefix_stagePkg output_dir (h.trans hp)
  have hstaged : ¬ pkgDir output_dir <+: stagePkg output_dir ++ [OPTIONS] := fun h ↦
    stageRoot_not_inside output_dir h
      ((List.prefix_append _ [PACKAGE]).trans (List.prefix_append _ [OPTIONS]))
  refine (leaves_clear fun p hp ↦ stageRoot_not_inside output_dir hp).bind fun _ ↦ ?_
  refine (leaves_mkdirParents hpkg).bind fun _ ↦ (leaves_look _).bind fun found ↦ ?_
  split
  · exact (leaves_copy2 _ hstaged).bind fun _ ↦ leaves_pure _
  · exact leaves_pure _

/-- What is known when the version directory is to be copied. -/
structure Staged (proto_dir output_dir : Path) (fs : Files) : Prop where
  rooted : fs.Rooted
  shared : fs.isDir (proto_dir ++ [OPTIONS]) = false
  stage : ∀ p, p <+: stagePkg output_dir → fs.isDir p = true
  below : ∀ p, stageRoot output_dir <+: p → fs.isDir p = true → p <+: stagePkg output_dir

/-- A new `_stage` holds `_stage/sapient_msg` and nothing else. -/
theorem mkdirParents_below {fs₁ fs₂ : Files} {u : Unit}
    (hrun : mkdirParents (stagePkg output_dir) fs₁ = (.ok u, fs₂))
    (hclear : ∀ p, stageRoot output_dir <+: p → fs₁.get? p = none) {p : Path}
    (hp : stageRoot output_dir <+: p) (hdir : fs₂.isDir p = true) : p <+: stagePkg output_dir := by
  by_contra hout
  have hroot : p ≠ [] := fun h ↦ hout (h ▸ List.nil_prefix)
  have hleaves :
      Leaves (fun q ↦ ¬ q <+: stagePkg output_dir) (mkdirParents (stagePkg output_dir)) :=
    leaves_mkdirParents fun q hq h ↦ h hq
  have hsame := hleaves fs₁ p hout
  rw [hrun, hclear p hp] at hsame
  rw [isDir_iff, or_iff_right hroot, show fs₂.get? p = none from hsame] at hdir
  cases hdir

theorem staged_of_ok (h : fs.Rooted) {sources : List Text}
    (hrun : stageShared proto_dir output_dir fs = (.ok sources, fs')) :
    Staged proto_dir output_dir fs' := by
  obtain ⟨_, fs₁, hclear, hrest⟩ := bind_ok_iff.mp hrun
  obtain ⟨_, fs₂, hmake, hrest⟩ := bind_ok_iff.mp hrest
  obtain ⟨found, _, hlook, hrest⟩ := bind_ok_iff.mp hrest
  cases hlook
  have hrooted : fs₂.Rooted := by
    have h₁ := rooted_clear (stageRoot output_dir) fs h
    rw [hclear] at h₁
    have h₂ := rooted_mkdirParents (stagePkg output_dir) fs₁ h₁
    rwa [hmake] at h₂
  have hbelow (p : Path) (hp : stageRoot output_dir <+: p) (hdir : fs₂.isDir p = true) :
      p <+: stagePkg output_dir := by
    refine mkdirParents_below hmake (fun q hq ↦ ?_) hp hdir
    rw [clear_eq_ok hclear, Dict.get?_keep, if_neg (not_not.mpr hq)]
  split at hrest
  · obtain ⟨_, fs₃, hcopy, hpure⟩ := bind_ok_iff.mp hrest
    cases hpure
    have hrooted₃ :=
      rooted_copy2 (proto_dir ++ [OPTIONS]) (stagePkg output_dir ++ [OPTIONS]) fs₂ hrooted
    rw [hcopy] at hrooted₃
    obtain ⟨content, hshared, rfl⟩ := copy2_eq_ok hcopy
    have hdir {p : Path} :=
      @isDir_set_file fs₂ _ (List.concat_ne_nil OPTIONS (stagePkg output_dir)) content p
    refine ⟨hrooted₃, ?_, fun p hp ↦ hdir.mpr ⟨?_, mkdirParents_isDir hmake hp⟩,
      fun p hp h ↦ hbelow p hp (hdir.mp h).2⟩
    · refine Bool.eq_false_of_not_eq_true fun h ↦ ?_
      have hget := (isDir_iff.mp (hdir.mp h).2).resolve_left (List.concat_ne_nil _ _)
      rw [hshared] at hget
      cases hget
    · rintro rfl
      have hle := hp.length_le
      rw [List.length_append] at hle
      exact absurd hle (Nat.not_succ_le_self _)
  · rename_i hno
    cases hrest
    refine ⟨hrooted, ?_, fun p hp ↦ mkdirParents_isDir hmake hp, hbelow⟩
    exact Bool.eq_false_of_not_eq_true fun hdir ↦ hno (has_of_isDir hdir)

/-! ## What must be there -/

/-- What there is when the version directory is copied, whatever else there is. -/
def Needed (proto_dir output_dir : Path) (version : Text) (p : Path) : Prop :=
  p ∈ (join proto_dir version).needs ∨ p <+: stagePkg output_dir

/-- The copy cannot be reached, or what it leads through in the package must be there. -/
def Confined (proto_dir output_dir : Path) (version : Text) : Prop :=
  '\x00' ∈ version ∨ Needed proto_dir output_dir version (proto_dir ++ [OPTIONS]) ∨
    (∃ p, Needed proto_dir output_dir version p ∧ stageRoot output_dir <+: p ∧
      ¬ p <+: stagePkg output_dir) ∨
    ∀ p ∈ (join (stagePkg output_dir) version).through, pkgDir output_dir <+: p →
      Needed proto_dir output_dir version p

theorem versionExists_iff :
    versionExists proto_dir version fs = true ↔
      '\x00' ∉ version ∧ fs.isDirAt (join proto_dir version) = true := by
  rw [versionExists, Bool.and_eq_true, decide_eq_true_iff]

theorem Staged.isDir_of_needed (h : Staged proto_dir output_dir fs)
    (hversion : fs.isDirAt (join proto_dir version) = true) {p : Path}
    (hp : Needed proto_dir output_dir version p) : fs.isDir p = true :=
  hp.elim (h.rooted.isDir_of_needs hversion) (h.stage p)

/-- A copy that is reached leads through nothing new in the package. -/
theorem Staged.through (h : Staged proto_dir output_dir fs) (hname : '\x00' ∉ version)
    (hversion : fs.isDirAt (join proto_dir version) = true)
    (hconf : Confined proto_dir output_dir version) {p : Path}
    (hp : p ∈ (join (stagePkg output_dir) version).through) (hpkg : pkgDir output_dir <+: p) :
    fs.has p = true := by
  rcases hconf with hnull | hshared | ⟨q, hq, hstage, hout⟩ | hthrough
  · exact absurd hnull hname
  · have hdir := h.isDir_of_needed hversion hshared
    rw [h.shared] at hdir
    cases hdir
  · exact absurd (h.below q hstage (h.isDir_of_needed hversion hq)) hout
  · exact has_of_isDir (h.isDir_of_needed hversion (hthrough p hp hpkg))

theorem join_base (base : Path) (p : Text) : (join base p).base <+: base := by
  rw [join]
  split
  · exact List.nil_prefix
  · exact List.prefix_rfl

theorem loc_mem_through {r : Route} (h : r.parts ≠ []) : r.loc ∈ r.through :=
  List.mem_map_of_mem (mem_tail_inits.mpr ⟨h, List.prefix_rfl⟩)

/-- What the copy is made in is not a directory that the package is in, nor in the package. -/
theorem Staged.copy_outside (h : Staged proto_dir output_dir fs)
    (hthrough : ∀ p ∈ (join (stagePkg output_dir) version).through, pkgDir output_dir <+: p →
      fs.has p = true)
    (hfree : fs.has (join (stagePkg output_dir) version).loc = false) {p : Path}
    (hp : pkgDir output_dir <+: p) : ¬ (join (stagePkg output_dir) version).loc <+: p := by
  intro hloc
  have hout : ¬ (join (stagePkg output_dir) version).loc <+: stagePkg output_dir := fun hpre ↦ by
    rw [has_of_isDir (h.stage _ hpre)] at hfree
    cases hfree
  have hparts : (join (stagePkg output_dir) version).parts ≠ [] := fun hnil ↦ by
    refine hout ?_
    rw [Route.loc, hnil]
    exact join_base _ _
  have hin : pkgDir output_dir <+: (join (stagePkg output_dir) version).loc := by
    rcases List.prefix_or_prefix_of_prefix hp hloc with hin | hle
    · exact hin
    · rcases List.prefix_concat_iff.mp hle with heq | hle
      · rw [heq]
        exact List.prefix_rfl
      · exact absurd (hle.trans ((List.prefix_append _ _).trans (List.prefix_append _ _))) hout
  rw [hthrough _ (loc_mem_through hparts) hin] at hfree
  cases hfree

theorem Staged.compile_unchanged (h : Staged proto_dir output_dir fs) (hname : '\x00' ∉ version)
    (hconf : Confined proto_dir output_dir version) (target : Text) (sources : List Text) :
    AgreeOn (fun p ↦ pkgDir output_dir <+: p)
      (compile tools proto_dir output_dir version target sources fs).2 fs := by
  have hcopy : AgreeOn (fun p ↦ pkgDir output_dir <+: p)
      (copytree (join proto_dir version) (join (stagePkg output_dir) version) fs).2 fs := by
    cases hversion : fs.isDirAt (join proto_dir version) with
    | false =>
        rw [copytree, hversion, if_neg Bool.false_ne_true]
        exact fun _ _ ↦ rfl
    | true =>
        have hthrough (p : Path) := h.through hname hversion hconf (p := p)
        exact leaves_copytree _ (agreeOn_makedirs hthrough) fun hfree p ↦
          h.copy_outside hthrough hfree
  refine agreeOn_bind hcopy fun _ fs₁ _ ↦ ?_
  exact (leaves_look _).bind (fun names ↦ leaves_command (fun p hp ↦
    stageRoot_not_inside output_dir hp) _) fs₁

theorem prepare_unchanged (tools : Tools) (lang : Text) (hfs : fs.Rooted)
    (hconf : Confined proto_dir output_dir version) :
    AgreeOn (fun p ↦ pkgDir output_dir <+: p)
      (prepare tools proto_dir output_dir version lang fs).2 fs := by
  cases htarget : TARGETS.get? lang with
  | none =>
      rw [prepare, htarget]
      exact leaves_raise _ fs
  | some target =>
      rw [prepare, htarget]
      refine agreeOn_bind (leaves_require _ _ fs) fun _ fs₁ hrequire ↦ ?_
      obtain ⟨hversion, rfl⟩ := require_eq_ok.mp hrequire
      refine agreeOn_bind (leaves_stageShared fs₁) fun sources fs₂ hstage ↦ ?_
      exact (staged_of_ok hfs hstage).compile_unchanged (versionExists_iff.mp hversion).1 hconf
        target sources

/-! ## Where the package changes -/

/-- A compiler that fails. -/
def failing : Tools where
  repr s := s
  protoc _ _ := (false, [])

/-- Among directories only, staging makes `_stage/sapient_msg` and keeps what is elsewhere. -/
theorem stageShared_bare (hfs : fs.Bare) (hshared : proto_dir ++ [OPTIONS] ∉ fs)
    (hout : ¬ proto_dir ++ [OPTIONS] <+: stagePkg output_dir) :
    ∃ fs', stageShared proto_dir output_dir fs = (.ok [], fs') ∧ fs'.Bare ∧
      (∀ p, p <+: stagePkg output_dir → fs'.isDir p = true) ∧
      ∀ p, ¬ stageRoot output_dir <+: p → fs.isDir p = true → fs'.isDir p = true := by
  have hclear := clear_bare hfs (stageRoot output_dir)
  have hfree :
      ¬ Files.has (fs.keep fun p ↦ ¬ stageRoot output_dir <+: p) (stagePkg output_dir) = true := by
    have hroot : stagePkg output_dir ≠ [] := List.concat_ne_nil _ _
    rw [has_iff, or_iff_right hroot, mem_keep]
    exact fun h ↦ h.1 (List.prefix_append _ _)
  obtain ⟨fs', hgrows⟩ :=
    grows_mkdirParents (hfs.keep (stageRoot output_dir)) (Bool.eq_false_of_not_eq_true hfree)
  have hno : ¬ fs'.has (proto_dir ++ [OPTIONS]) = true := by
    have hleaves : Leaves (· = proto_dir ++ [OPTIONS]) (mkdirParents (stagePkg output_dir)) :=
      leaves_mkdirParents fun q hq heq ↦ hout (heq ▸ hq)
    have hsame := hleaves (fs.keep fun p ↦ ¬ stageRoot output_dir <+: p)
    rw [hgrows.eq_ok] at hsame
    rw [has_iff, or_iff_right (List.concat_ne_nil _ _), hsame.mem_iff rfl, mem_keep]
    exact fun h ↦ hshared h.2
  refine ⟨fs', ?_, hgrows.bare, fun p hp ↦ mkdirParents_isDir hgrows.eq_ok hp, fun p hp hdir ↦ ?_⟩
  · refine (bind_of_ok hclear).trans ((bind_of_ok hgrows.eq_ok).trans ((bind_of_ok rfl).trans ?_))
    rw [if_neg hno]
    rfl
  · exact hgrows.isDir p (isDir_keep.mpr (.inr ⟨hp, hdir⟩))

theorem compile_failing (hversion : fs.isDirAt (join proto_dir version) = true) {p : Path}
    (hp : (makedirs (join (stagePkg output_dir) version) fs).2.has p = true) (target : Text)
    (sources : List Text) :
    ∃ exc fs', compile failing proto_dir output_dir version target sources fs = (.error exc, fs') ∧
      fs'.has p = true := by
  have hcopy := has_copytree hversion hp
  rcases hrun : copytree (join proto_dir version) (join (stagePkg output_dir) version) fs with
    ⟨res, fs₁⟩
  rw [hrun] at hcopy
  cases res with
  | error exc => exact ⟨exc, fs₁, bind_of_error hrun, hcopy⟩
  | ok u => exact ⟨_, fs₁, (bind_of_ok hrun).trans rfl, hcopy⟩

/-- Where nothing is but the version directory, a version that is not confined makes a directory
in the package. -/
theorem confined_of_unchanged
    (h : ∀ fs : Files, fs.Rooted → ∀ exc fs',
      prepare failing proto_dir output_dir version "python".toList fs = (.error exc, fs') →
        AgreeOn (fun p ↦ pkgDir output_dir <+: p) fs' fs) :
    Confined proto_dir output_dir version := by
  by_contra hconf
  obtain ⟨hname, hrest⟩ := not_or.mp hconf
  obtain ⟨hshared, hrest⟩ := not_or.mp hrest
  obtain ⟨hbelow, hthrough⟩ := not_or.mp hrest
  obtain ⟨p, hthrough⟩ := not_forall.mp hthrough
  obtain ⟨hp, hthrough⟩ := Classical.not_imp.mp hthrough
  obtain ⟨hpkg, hnew⟩ := Classical.not_imp.mp hthrough
  have hfs := bare_ofDirs (join proto_dir version)
  have hnotMem : proto_dir ++ [OPTIONS] ∉ ofDirs (join proto_dir version).needs :=
    fun hmem ↦ hshared (.inl (mem_ofDirs.mp hmem))
  obtain ⟨fs₁, hstage, hbare, hpre, hkept⟩ :=
    stageShared_bare hfs hnotMem fun hle ↦ hshared (.inr hle)
  have hversion : (ofDirs (join proto_dir version).needs).isDirAt (join proto_dir version) = true :=
    isDirAt_of_needs fun q hq ↦ isDir_ofDirs hq
  have hversion₁ : fs₁.isDirAt (join proto_dir version) = true := by
    refine isDirAt_of_needs fun q hq ↦ ?_
    by_cases hin : q <+: stagePkg output_dir
    · exact hpre q hin
    · have hout : ¬ stageRoot output_dir <+: q := fun hroot ↦ hbelow ⟨q, .inl hq, hroot, hin⟩
      exact hkept q hout (isDir_ofDirs hq)
  have hmade : (makedirs (join (stagePkg output_dir) version) fs₁).2.has p = true :=
    has_of_isDir (makedirs_isDir hbare (hpre _ (join_base _ _)) hp)
  obtain ⟨exc, fs', hrun, hhas⟩ := compile_failing hversion₁ hmade "--python_out=.".toList []
  have hprepare : prepare failing proto_dir output_dir version "python".toList
      (ofDirs (join proto_dir version).needs) = (.error exc, fs') := by
    exact (bind_of_ok (if_pos (versionExists_iff.mpr ⟨hname, hversion⟩))).trans
      ((bind_of_ok hstage).trans hrun)
  have hsame := h _ hfs.rooted exc fs' hprepare
  have hroot : p ≠ [] := fun hnil ↦ List.concat_ne_nil _ _ (List.prefix_nil.mp (hnil ▸ hpkg))
  rw [has_iff, or_iff_right hroot, hsame.mem_iff hpkg, mem_ofDirs] at hhas
  exact hnew (.inl hhas)

/-! ## Generation -/

/-- The package depends on the sources alone, is complete after a run that succeeds, and as it
was after a run that fails before it installs anything. -/
structure Generates (proto_dir output_dir : Path) (version : Text) : Prop where
  inputs : ∀ tools lang, Carries (Input proto_dir version) (fun p ↦ pkgDir output_dir <+: p)
    (generate tools proto_dir output_dir version lang)
  complete : ∀ tools lang fs fs' pkg,
    generate tools proto_dir output_dir version lang fs = (.ok pkg, fs') →
      (∀ d, d = pkgDir output_dir ∨ pkgDir output_dir <+: d ∧ fs'.get? d = some .dir →
        d ++ [INIT] ∈ fs') ∧
      ∀ p, stageRoot output_dir <+: p → p ∉ fs'
  unchanged : ∀ tools lang (fs : Files) fs' exc, fs.Rooted →
    prepare tools proto_dir output_dir version lang fs = (.error exc, fs') →
      AgreeOn (fun p ↦ pkgDir output_dir <+: p) fs' fs

/-- A plain version does not lead out of the directory it is staged in. -/
theorem confined_of_plain (h : "..".toList ∉ (join proto_dir version).parts) :
    Confined proto_dir output_dir version := by
  refine .inr (.inr (.inr fun p hp hpkg ↦ ?_))
  by_cases habs : version.head? = some '/'
  · have hsame : join (stagePkg output_dir) version = join proto_dir version := by
      rw [join, join, if_pos habs, if_pos habs]
    rw [hsame] at hp
    exact .inl (through_subset_needs _ hp)
  · obtain ⟨heads, hheads, rfl⟩ := List.mem_map.mp hp
    have hbase : (join (stagePkg output_dir) version).base = stagePkg output_dir := if_neg habs
    have hplain : "..".toList ∉ heads := fun hmem ↦ h ((mem_tail_inits.mp hheads).2.subset hmem)
    have hstage : stageRoot output_dir <+: Route.loc ⟨stagePkg output_dir, heads⟩ :=
      (List.prefix_append _ _).trans (prefix_loc hplain)
    rw [hbase] at hpkg
    exact absurd hstage (stageRoot_not_inside output_dir hpkg)

theorem generates_iff_confined (proto_dir output_dir : Path) (version : Text) :
    Generates proto_dir output_dir version ↔ Confined proto_dir output_dir version := by
  constructor
  · intro h
    exact confined_of_unchanged fun fs hfs exc fs' ↦ h.unchanged failing _ fs fs' exc hfs
  · intro hconf
    refine ⟨fun tools lang ↦ carries_generate tools proto_dir output_dir version lang,
      fun tools lang fs fs' pkg h ↦ ⟨fun d ↦ generate_init h, fun p ↦ generate_no_stage h⟩,
      fun tools lang fs fs' exc hfs h ↦ ?_⟩
    have hsame := prepare_unchanged tools lang hfs hconf
    rwa [h] at hsame

/-- Two versions of proto sources, and a package of an earlier run. -/
def earlier : Files where
  items := [(["a".toList], .dir), (["a".toList, "b".toList], .dir), ([PACKAGE], .dir),
    ([PACKAGE, "x".toList], .dir), ([PACKAGE, "x".toList, "a.proto".toList], .file []),
    (["o".toList], .dir), (["o".toList, PACKAGE], .dir), (["o".toList, PACKAGE, INIT], .file [])]
  nodup := by decide

/-- A version that leads out of `_stage` into the package of the earlier run. -/
theorem version_into_package :
    ¬ Generates ["a".toList, "b".toList] ["o".toList] "../../sapient_msg/x".toList := by
  intro h
  have hrooted : earlier.Rooted := by
    show ∀ p ∈ earlier.keys, earlier.isDir p.dropLast = true
    decide
  have hfails : (prepare failing ["a".toList, "b".toList] ["o".toList]
      "../../sapient_msg/x".toList "python".toList earlier).1 =
      .error (.exception "CalledProcessError".toList) := by
    rfl
  have hsame := h.unchanged failing "python".toList earlier _ _ hrooted (Prod.ext hfails rfl)
  have hx := hsame ["o".toList, PACKAGE, "x".toList] (by decide)
  revert hx
  decide +kernel

end SensorFusion.ProtoGen
