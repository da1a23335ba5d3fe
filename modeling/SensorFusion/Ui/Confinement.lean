import SensorFusion.Lib.FileTrees
import SensorFusion.ProtoGen.Generate
import SensorFusion.Python.Lines
import SensorFusion.Ui.Rendering

/-!
# Which files a template name reads

`get_template` joins the name that a client sends to the directory of the templates
(`message/templates.py`).  A name may lead up, down and to another root, and what it finds
depends on every directory on its way.  `Confined` is the statement of two runs that only the
directory of the templates matters.  It holds of the names whose way leaves neither that
directory nor those that it is in.

The file systems have no links and no limit on the length of a name, and every entry of them can
be read.
-/

namespace SensorFusion.Ui

open Files (AgreeOn)
open ProtoGen (join str)

def TEMPLATES_DIR : Path := ["app".toList, "data".toList, "templates".toList]

def SUFFIX : Text := ".json".toList

/-- What `get_template` raises. -/
inductive ReadError where
  /-- `FileNotFoundError`. -/
  | not_found (text : Text)
  /-- `IsADirectoryError`. -/
  | is_a_directory (path : Text)
  /-- Another exception. -/
  | exception (exc : String)
deriving DecidableEq

/-- `TEMPLATES_DIR / f"{name}.json"`. -/
def templatePath (name : Text) : Route := join TEMPLATES_DIR (name ++ SUFFIX)

/-- `path.exists()`.  No path with a null character exists. -/
def templateExists (name : Text) (fs : Files) : Bool :=
  decide ('\x00' ∉ name) && fs.hasAt (templatePath name)

section Reading

variable (decode : List UInt8 → Except String Text)

/-- `path.read_text()`, of a path that exists.  What the bytes of a file read as, or the text of
the exception, is `decode`. -/
def readText (path : Route) (fs : Files) : Except ReadError Text :=
  match fs.get? path.loc with
  | some (.file content) => (decode content).mapError .exception
  | _ => .error (.is_a_directory (str path))

/-- `get_template`. -/
def getTemplate (name : Text) (fs : Files) : Except ReadError Text :=
  if templateExists name fs then readText decode (templatePath name) fs
  else .error (.not_found ("template not found: ".toList ++ name))

variable {M : Type}

/-- What `validate` and a step of a flow try: the text that is sent along, or the template with
the name, is rendered.  A name that is missing is formatted as `None`. -/
def renderRequest (env : Env M) (node_id : Text) (gps_override : Option (Coordinate → SignedFloat))
    (fetched : Fetched) (raw_json template_name : Option Text) (fs : Files) :
    Except (ReadError ⊕ String) M := do
  let text ←
    match raw_json with
    | some text => pure text
    | none => (getTemplate decode (template_name.getD "None".toList) fs).mapError .inl
  (render env node_id gps_override fetched text).mapError .inr

end Reading

/-! ## Confinement -/

/-- The directory of the templates, and what is directly inside. -/
def InTemplates (p : Path) : Prop := p = TEMPLATES_DIR ∨ ∃ part, p = TEMPLATES_DIR ++ [part]

/-- What a name reads, and what a rendering of it comes to, depends on the directory of the
templates only. -/
def Confined (decode : List UInt8 → Except String Text) (name : Text) : Prop :=
  ∀ fs gs : Files, fs.Rooted → gs.Rooted → AgreeOn InTemplates fs gs →
    getTemplate decode name fs = getTemplate decode name gs ∧
    ∀ (M : Type) (env : Env M) node_id gps_override fetched,
      renderRequest decode env node_id gps_override fetched none (some name) fs =
        renderRequest decode env node_id gps_override fetched none (some name) gs

/-- A route visits nothing but the directory of the templates, what it is in, and what is
directly inside. -/
def Stays (r : Route) : Prop :=
  ∀ heads, heads <+: r.parts → ∃ part, Route.loc ⟨r.base, heads⟩ <+: TEMPLATES_DIR ++ [part]

/-! ## The way to a file -/

theorem suffix_ne {part p : Text} (h : ¬ SUFFIX <:+ p) : part ++ SUFFIX ≠ p := by
  rintro rfl
  exact h (List.suffix_append _ _)

/-- The last part of the path to a template is the name of a file with the suffix. -/
theorem templatePath_parts (name : Text) :
    ∃ heads part, (templatePath name).parts = heads ++ [part ++ SUFFIX] := by
  obtain ⟨parts, part, -, hsplit⟩ := Text.split_append_of_notMem (by decide : '/' ∉ SUFFIX) name
  have hkeep : part ++ SUFFIX ≠ [] ∧ part ++ SUFFIX ≠ ".".toList :=
    ⟨suffix_ne (by decide), suffix_ne (by decide)⟩
  refine ⟨parts.filter fun part ↦ part ≠ [] ∧ part ≠ ".".toList, part, ?_⟩
  rw [templatePath, join]
  simp only
  rw [hsplit, List.filter_append, List.filter_singleton, decide_eq_true hkeep, cond_true]

theorem templatePath_loc {name : Text} {heads : List Text} {part : Text}
    (h : (templatePath name).parts = heads ++ [part ++ SUFFIX]) :
    (templatePath name).loc = Route.loc ⟨(templatePath name).base, heads⟩ ++ [part ++ SUFFIX] := by
  rw [Route.loc, h, List.foldl_append]
  exact if_neg (suffix_ne (by decide))

/-- The path to a template is neither the directory of the templates nor above it. -/
theorem loc_not_prefix {name : Text} : ¬ (templatePath name).loc <+: TEMPLATES_DIR := by
  obtain ⟨heads, part, hparts⟩ := templatePath_parts name
  rw [templatePath_loc hparts]
  intro hpre
  have hmem : part ++ SUFFIX ∈ TEMPLATES_DIR :=
    hpre.subset (List.mem_append_right _ (List.mem_singleton.mpr rfl))
  simp only [TEMPLATES_DIR, List.mem_cons, List.not_mem_nil, or_false] at hmem
  rcases hmem with h | h | h
  · exact suffix_ne (by decide) h
  · exact suffix_ne (by decide) h
  · exact suffix_ne (by decide) h

/-! ## Names that stay -/

section Stays

variable {name : Text} {fs gs : Files}

theorem Stays.loc (h : Stays (templatePath name)) :
    ∃ part, (templatePath name).loc = TEMPLATES_DIR ++ [part] := by
  obtain ⟨part, hpre⟩ := h _ List.prefix_rfl
  rcases List.prefix_concat_iff.mp hpre with heq | hpre
  · exact ⟨part, heq⟩
  · exact absurd hpre loc_not_prefix

theorem inTemplates_dir : InTemplates TEMPLATES_DIR := .inl rfl

theorem isDir_congr (h : AgreeOn InTemplates fs gs) {p : Path} (hp : InTemplates p)
    (hdir : fs.isDir p = true) : gs.isDir p = true := by
  rw [Files.isDir_iff] at hdir ⊢
  rwa [← h p hp]

theorem templateExists_congr (hfs : fs.Rooted) (hgs : gs.Rooted) (h : AgreeOn InTemplates fs gs)
    (hstays : Stays (templatePath name)) (hex : templateExists name fs = true) :
    templateExists name gs = true := by
  obtain ⟨heads, part, hparts⟩ := templatePath_parts name
  obtain ⟨file, hfile⟩ := hstays.loc
  have hpath : templatePath name = ⟨(templatePath name).base, heads ++ [part ++ SUFFIX]⟩ := by
    rw [← hparts]
  rw [templateExists, Bool.and_eq_true, hpath, Files.hasAt_concat_iff, ← hpath, hfile] at hex ⊢
  obtain ⟨hname, hdirs, hhas⟩ := hex
  have hmem : TEMPLATES_DIR ++ [file] ∈ fs :=
    (Files.has_iff.mp hhas).resolve_left (List.concat_ne_nil _ _)
  -- What is read lies in the directory of the templates, so that this is there in both.
  have htemplates : gs.isDir TEMPLATES_DIR = true := by
    have hdir := hfs _ hmem
    rw [List.dropLast_concat] at hdir
    exact isDir_congr h inTemplates_dir hdir
  refine ⟨hname, fun heads' hpre ↦ ?_, ?_⟩
  · obtain ⟨part', hpre'⟩ := hstays heads' (hpre.trans (hparts ▸ List.prefix_append _ _))
    rcases List.prefix_concat_iff.mp hpre' with heq | hpre'
    · exact isDir_congr h (.inr ⟨part', heq⟩) (hdirs heads' hpre)
    · exact hgs.isDir_of_prefix htemplates hpre'
  · exact Files.has_iff.mpr (.inr ((h.mem_iff (.inr ⟨file, rfl⟩)).mp hmem))

theorem getTemplate_congr (decode : List UInt8 → Except String Text) (hfs : fs.Rooted)
    (hgs : gs.Rooted) (h : AgreeOn InTemplates fs gs) (hstays : Stays (templatePath name)) :
    getTemplate decode name fs = getTemplate decode name gs := by
  have hex : templateExists name fs = templateExists name gs :=
    Bool.eq_iff_iff.mpr ⟨templateExists_congr hfs hgs h hstays,
      templateExists_congr hgs hfs (fun p hp ↦ (h p hp).symm) hstays⟩
  obtain ⟨file, hfile⟩ := hstays.loc
  rw [getTemplate, getTemplate, hex, readText, readText, hfile, h _ (.inr ⟨file, rfl⟩)]

end Stays

theorem getTemplate_of_null {decode : List UInt8 → Except String Text} {name : Text}
    (h : '\x00' ∈ name) (fs : Files) :
    getTemplate decode name fs = .error (.not_found ("template not found: ".toList ++ name)) := by
  rw [getTemplate, templateExists, decide_eq_false (not_not_intro h), Bool.false_and,
    if_neg Bool.false_ne_true]

/-- A rendering sees the files through the template only. -/
theorem renderRequest_congr {decode : List UInt8 → Except String Text} {name : Text}
    {fs gs : Files} (h : getTemplate decode name fs = getTemplate decode name gs) {M : Type}
    (env : Env M) (node_id : Text) (gps_override : Option (Coordinate → SignedFloat))
    (fetched : Fetched) :
    renderRequest decode env node_id gps_override fetched none (some name) fs =
      renderRequest decode env node_id gps_override fetched none (some name) gs := by
  simp only [renderRequest, Option.getD_some, h]

theorem Confined.of_getTemplate {decode : List UInt8 → Except String Text} {name : Text}
    (h : ∀ fs gs : Files, fs.Rooted → gs.Rooted → AgreeOn InTemplates fs gs →
      getTemplate decode name fs = getTemplate decode name gs) : Confined decode name :=
  fun fs gs hfs hgs hagree ↦ ⟨h fs gs hfs hgs hagree, fun _ env node_id gps_override fetched ↦
    renderRequest_congr (h fs gs hfs hgs hagree) env node_id gps_override fetched⟩

/-! ## Names that leave -/

section Leaves

variable {decode : List UInt8 → Except String Text} {name : Text} {fs : Files}

/-- Where all that a name needs is a directory, so is what it reads. -/
theorem getTemplate_of_dirs (hname : '\x00' ∉ name)
    (h : ∀ p ∈ (templatePath name).needs, fs.isDir p = true) :
    getTemplate decode name fs = .error (.is_a_directory (str (templatePath name))) := by
  obtain ⟨hwalks, hloc⟩ := (Bool.and_eq_true _ _).mp (Files.isDirAt_of_needs h)
  have hex : templateExists name fs = true := by
    rw [templateExists, Files.hasAt, hwalks, Act.has_of_isDir hloc, decide_eq_true hname]
    rfl
  have hget : fs.get? (templatePath name).loc = some .dir :=
    (Files.isDir_iff.mp hloc).resolve_left fun hroot ↦ loc_not_prefix (hroot ▸ List.nil_prefix)
  rw [getTemplate, if_pos hex, readText, hget]

/-- Nothing is found by a way through a place that is not there. -/
theorem templateExists_keep {heads : List Text} (hpre : heads <+: (templatePath name).parts)
    (hroot : Route.loc ⟨(templatePath name).base, heads⟩ ≠ []) :
    templateExists name
      (fs.keep fun q ↦ ¬ Route.loc ⟨(templatePath name).base, heads⟩ <+: q) = false := by
  obtain ⟨init, part, hparts⟩ := templatePath_parts name
  have hpath : templatePath name = ⟨(templatePath name).base, init ++ [part ++ SUFFIX]⟩ := by
    rw [← hparts]
  rw [hparts, List.prefix_concat_iff] at hpre
  rw [templateExists, Bool.and_eq_false_iff]
  refine .inr (Bool.eq_false_iff.mpr fun hhas ↦ ?_)
  generalize hp : Route.loc ⟨(templatePath name).base, heads⟩ = p at hroot hhas
  rw [hpath, Files.hasAt_concat_iff] at hhas
  rcases hpre with rfl | hpre
  · rw [hp] at hhas
    have hmem := (Files.has_iff.mp hhas.2).resolve_left hroot
    exact (Files.mem_keep.mp hmem).1 List.prefix_rfl
  · have hdir := hhas.1 heads hpre
    rw [hp, Files.isDir_keep] at hdir
    exact (hdir.resolve_left hroot).1 List.prefix_rfl

/-- A place on the way that is elsewhere can be taken away, with all that is below. -/
theorem stays_of_confined (h : Confined decode name) (hname : '\x00' ∉ name) :
    Stays (templatePath name) := by
  intro heads hpre
  by_contra hout
  rw [not_exists] at hout
  have hroot : Route.loc ⟨(templatePath name).base, heads⟩ ≠ [] := fun hnil ↦
    hout [] (hnil ▸ List.nil_prefix)
  have hbare := Files.bare_ofDirs (templatePath name)
  have hagree : AgreeOn InTemplates (Files.ofDirs (templatePath name).needs)
      ((Files.ofDirs (templatePath name).needs).keep
        fun q ↦ ¬ Route.loc ⟨(templatePath name).base, heads⟩ <+: q) := by
    intro q hq
    rw [Dict.get?_keep, if_pos]
    intro hle
    rcases hq with rfl | ⟨part, rfl⟩
    · exact hout [] (hle.trans (List.prefix_append _ _))
    · exact hout part hle
  have heq := (h _ _ hbare.rooted (hbare.rooted.keep _) hagree).1
  rw [getTemplate_of_dirs hname fun _ ↦ Files.isDir_ofDirs, getTemplate,
    templateExists_keep hpre hroot, if_neg Bool.false_ne_true] at heq
  cases heq

end Leaves

/-! ## Which names are confined -/

/-- The names that `list_templates` gives, which have no slash, stay. -/
theorem stays_of_notMem {name : Text} (h : '/' ∉ name) : Stays (templatePath name) := by
  have hslash : '/' ∉ name ++ SUFFIX := by
    rw [List.mem_append, not_or]
    exact ⟨h, by decide⟩
  have hhead : (name ++ SUFFIX).head? ≠ some '/' := fun heq ↦ hslash (List.mem_of_head? heq)
  have hkeep : name ++ SUFFIX ≠ [] ∧ name ++ SUFFIX ≠ ".".toList :=
    ⟨suffix_ne (by decide), suffix_ne (by decide)⟩
  have hpath : templatePath name = ⟨TEMPLATES_DIR, [name ++ SUFFIX]⟩ := by
    rw [templatePath, join, if_neg hhead, Text.split_of_notMem hslash, List.filter_singleton,
      decide_eq_true hkeep, cond_true]
  rw [hpath]
  intro heads hpre
  refine ⟨name ++ SUFFIX, ?_⟩
  rcases List.prefix_concat_iff.mp (show heads <+: [] ++ [name ++ SUFFIX] from hpre) with rfl | hnil
  · have hdown : descend TEMPLATES_DIR (name ++ SUFFIX) = TEMPLATES_DIR ++ [name ++ SUFFIX] :=
      if_neg (suffix_ne (by decide))
    exact hdown ▸ List.prefix_rfl
  · rw [List.prefix_nil.mp hnil]
    exact List.prefix_append _ _

/-- A name is confined exactly when it has a null character or its way stays at the directory
of the templates. -/
theorem confined_iff (decode : List UInt8 → Except String Text) (name : Text) :
    Confined decode name ↔ '\x00' ∈ name ∨ Stays (templatePath name) := by
  constructor
  · intro h
    by_cases hname : '\x00' ∈ name
    · exact .inl hname
    · exact .inr (stays_of_confined h hname)
  · rintro (hname | hstays)
    · refine .of_getTemplate fun fs gs _ _ _ ↦ ?_
      rw [getTemplate_of_null hname, getTemplate_of_null hname]
    · exact .of_getTemplate fun fs gs hfs hgs h ↦ getTemplate_congr decode hfs hgs h hstays

/-- A name leads to the result of a run that has been saved. -/
theorem runs_not_confined :
    ¬ Confined (fun _ ↦ .ok []) "../runs/20260101T000000Z/result".toList := by
  intro h
  obtain ⟨part, hpre⟩ := stays_of_confined h (by decide) ["..".toList, "runs".toList] (by decide)
  exact absurd hpre (by simp [Route.loc, descend, TEMPLATES_DIR, templatePath, join])

end SensorFusion.Ui
