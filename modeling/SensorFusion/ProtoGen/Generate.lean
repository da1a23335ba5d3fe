import SensorFusion.Lib.FileTrees

/-!
# Generation of the message bindings

`generate` stages the proto sources below `_stage`, runs protoc there, and puts what it has
written in the place of the package (`sapient_proto_to_msg.py`).  Two runs that see the same
sources and succeed leave the same package, whatever there was before.
-/

namespace SensorFusion.ProtoGen

open Act Files

def TARGETS : Dict Text Text := Dict.ofList [("python".toList, "--python_out=.".toList)]

def PACKAGE : Text := "sapient_msg".toList

def OPTIONS : Text := "proto_options.proto".toList

def INIT : Text := "__init__.py".toList

/-- What is not part of the script. -/
structure Tools where
  /-- `repr` of a text. -/
  repr : Text → Text
  /-- `grpc_tools.protoc` with some arguments: what it writes below its working directory, from
  what is there. -/
  protoc : List Text → (Path → Option Node) → Bool × List (Path × Node)

/-- `base / p`.  What leads up is kept, and an absolute path takes the place of the base. -/
def join (base : Path) (p : Text) : Route where
  base := if p.head? = some '/' then [] else base
  parts := (Text.split '/' p).filter fun part ↦ part ≠ [] ∧ part ≠ ".".toList

/-- `version_dir.is_dir()`.  No path with a null character is a directory.  The two directories
are resolved, and have none. -/
def versionExists (proto_dir : Path) (version : Text) (fs : Files) : Bool :=
  decide ('\x00' ∉ version) && fs.isDirAt (join proto_dir version)

/-- `str` of a path. -/
def str (r : Route) : Text := (r.base ++ r.parts).flatMap fun part ↦ '/' :: part

def pkgDir (output_dir : Path) : Path := output_dir ++ [PACKAGE]

def stageRoot (output_dir : Path) : Path := output_dir ++ ["_stage".toList]

def stagePkg (output_dir : Path) : Path := stageRoot output_dir ++ [PACKAGE]

variable (tools : Tools) (proto_dir output_dir : Path) (version lang : Text)

/-- A new `_stage`, with the shared source if there is one. -/
def stageShared : Act (List Text) := do
  clear (stageRoot output_dir)
  mkdirParents (stagePkg output_dir)
  if ← look fun fs ↦ fs.has (proto_dir ++ [OPTIONS]) then
    copy2 (proto_dir ++ [OPTIONS]) (stagePkg output_dir ++ [OPTIONS])
    pure [PACKAGE ++ '/' :: OPTIONS]
  else
    pure []

/-- The sources of the version are staged, and protoc is run. -/
def compile (target : Text) (sources : List Text) : Act Unit := do
  copytree (join proto_dir version) (join (stagePkg output_dir) version)
  let names ← look (glob ".proto".toList (join proto_dir version).loc)
  command (stageRoot output_dir)
    (tools.protoc (["--proto_path=.".toList, target] ++ sources ++
      names.map fun name ↦ PACKAGE ++ '/' :: version ++ '/' :: name))

/-- `generate`, as far as the protoc run. -/
def prepare : Act Unit :=
  match TARGETS.get? lang with
  | none =>
      raise (.exception ("ValueError: unknown lang ".toList ++ tools.repr lang ++
        "; known: ['python']".toList))
  | some target => do
      require (versionExists proto_dir version)
        (.exception ("FileNotFoundError: no such version dir: ".toList ++
          str (join proto_dir version)))
      let sources ← stageShared proto_dir output_dir
      compile tools proto_dir output_dir version target sources

/-- `generate`, after the protoc run. -/
def install : Act Path := do
  clear (pkgDir output_dir)
  rename (stagePkg output_dir) (pkgDir output_dir)
  rmtree (stageRoot output_dir)
  touchBelow INIT (pkgDir output_dir)
  pure (pkgDir output_dir)

def generate : Act Path := do
  prepare tools proto_dir output_dir version lang
  install output_dir

/-! ## Where things are -/

theorem stageRoot_not_inside {p : Path} (h : pkgDir output_dir <+: p) :
    ¬ stageRoot output_dir <+: p := by
  intro h'
  have hlen : (pkgDir output_dir).length = (stageRoot output_dir).length := by
    rw [pkgDir, stageRoot, List.length_append, List.length_append]
    rfl
  have heq := List.append_cancel_left
    ((List.prefix_of_prefix_length_le h h' hlen.le).eq_of_length hlen)
  exact absurd heq (by decide)

theorem pkgDir_not_prefix_stagePkg : ¬ pkgDir output_dir <+: stagePkg output_dir :=
  fun h ↦ stageRoot_not_inside output_dir h (List.prefix_append _ _)

/-! ## Two runs -/

/-- What the sources of a version are. -/
def Input (p : Path) : Prop := p = proto_dir ++ [OPTIONS] ∨ (join proto_dir version).loc <+: p

theorem carries_stageShared {A : Path → Prop} (hshared : A (proto_dir ++ [OPTIONS])) :
    Carries A (fun p ↦ A p ∨ stageRoot output_dir <+: p) (stageShared proto_dir output_dir) := by
  refine (carries_clear _).bind fun _ ↦ (carries_mkdirParents _ _).bind fun _ ↦ ?_
  refine (carries_look fun fs gs h ↦ h.has_eq (.inl hshared)).bind fun found ↦ ?_
  split
  · exact (carries_copy2 _ (.inl hshared)).bind fun _ ↦ carries_pure _
  · exact carries_pure _

theorem carries_compile {A : Path → Prop}
    (hversion : ∀ rel, A ((join proto_dir version).loc ++ rel))
    (hstage : ∀ rel, A (stageRoot output_dir ++ rel)) (target : Text) (sources : List Text) :
    Carries A A (compile tools proto_dir output_dir version target sources) := by
  refine (carries_copytree _ hversion).bind fun _ ↦ ?_
  refine (carries_look fun fs gs h ↦ h.glob_eq (fun name ↦ hversion [name]) _).bind fun names ↦ ?_
  exact carries_command hstage _

theorem carries_prepare :
    Carries (Input proto_dir version)
      (fun p ↦ Input proto_dir version p ∨ stageRoot output_dir <+: p)
      (prepare tools proto_dir output_dir version lang) := by
  rw [prepare]
  split
  · exact carries_raise _
  · refine (carries_require _ _).bind fun _ ↦ ?_
    refine (carries_stageShared proto_dir output_dir (.inl rfl)).bind fun sources ↦ ?_
    exact carries_compile tools proto_dir output_dir version
      (fun rel ↦ .inl (.inr (List.prefix_append _ rel)))
      (fun rel ↦ .inr (List.prefix_append _ rel)) _ _

theorem carries_install {A : Path → Prop} (hstage : ∀ rel, A (stageRoot output_dir ++ rel)) :
    Carries A (fun p ↦ pkgDir output_dir <+: p) (install output_dir) := by
  have hpkg (rel : Path) : A (stagePkg output_dir ++ rel) := by
    rw [stagePkg, List.append_assoc]
    exact hstage _
  refine (carries_clear (pkgDir output_dir)).bind fun _ ↦ ?_
  refine (carries_rename _ fun rel ↦ .inl (hpkg rel)).bind fun _ ↦ ?_
  refine ((carries_rmtree _).mono (fun _ h ↦ h) fun p hp ↦ .inl (.inr hp)).bind fun _ ↦ ?_
  exact (carries_touchBelow INIT (pkgDir output_dir)).bind fun _ ↦ carries_pure _

/-- The package depends on the sources alone. -/
theorem carries_generate :
    Carries (Input proto_dir version) (fun p ↦ pkgDir output_dir <+: p)
      (generate tools proto_dir output_dir version lang) :=
  (carries_prepare tools proto_dir output_dir version lang).bind fun _ ↦
    carries_install output_dir fun rel ↦ .inr (List.prefix_append _ rel)

/-! ## What a run that succeeds leaves -/

variable {tools proto_dir output_dir version lang} {fs fs' : Files} {pkg : Path}

theorem generate_touched
    (h : generate tools proto_dir output_dir version lang fs = (.ok pkg, fs')) :
    ∃ fs₁ : Files, touchBelow INIT (pkgDir output_dir)
      (fs₁.keep fun p ↦ ¬ stageRoot output_dir <+: p) = (.ok (), fs') := by
  obtain ⟨_, _, -, hinstall⟩ := bind_ok_iff.mp h
  obtain ⟨_, _, -, hrest⟩ := bind_ok_iff.mp hinstall
  obtain ⟨_, fs₁, -, hrest⟩ := bind_ok_iff.mp hrest
  obtain ⟨_, _, hremove, hrest⟩ := bind_ok_iff.mp hrest
  obtain ⟨_, _, htouch, hpure⟩ := bind_ok_iff.mp hrest
  cases hpure
  cases rmtree_eq_ok hremove
  exact ⟨fs₁, htouch⟩

theorem generate_init (h : generate tools proto_dir output_dir version lang fs = (.ok pkg, fs'))
    {d : Path} (hd : d = pkgDir output_dir ∨ pkgDir output_dir <+: d ∧ fs'.get? d = some .dir) :
    d ++ [INIT] ∈ fs' := by
  obtain ⟨_, htouch⟩ := generate_touched h
  exact touchBelow_has htouch hd

theorem generate_no_stage (h : generate tools proto_dir output_dir version lang fs = (.ok pkg, fs'))
    {p : Path} (hp : stageRoot output_dir <+: p) : p ∉ fs' := by
  obtain ⟨fs₁, htouch⟩ := generate_touched h
  rw [← Dict.get?_eq_none_iff,
    touchBelow_others htouch fun hpkg ↦ stageRoot_not_inside output_dir hpkg hp, Dict.get?_keep,
    if_neg (not_not.mpr hp)]

end SensorFusion.ProtoGen
