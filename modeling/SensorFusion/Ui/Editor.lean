import SensorFusion.Lib.Dict
import SensorFusion.Lib.Machine

/-!
# The template editor

The panel has one text area for all templates.  `setEditorTemplate` puts its text aside in
`editBuffer` under the name of the template that is left, and shows the text that was put
aside for the new one or asks the server for it; the answer of the server is shown whenever
it arrives.  A run of the editor is a list of clicks, edits and answers, so that every order
in which the answers can come back is a run.

Every text carries the template it was loaded or typed for.  The page does not know it: it
is what the statements are about, and no step depends on it.  What the page itself puts into
the editor, such as the text about a load that failed, is the text of no template.
-/

namespace SensorFusion

namespace Ui

namespace Editor

/-- The name of a template is the stem of its file, and not empty. -/
abbrev Name := {s : String // s ≠ ""}

/-- A text of the editor, with the template it was loaded or typed for. -/
structure Body where
  text : String
  template : Option Name
  deriving DecidableEq

/-- The state of the page.  `inFlight` holds the templates whose text is asked for, in the
order of the requests. -/
structure State where
  currentTemplate : Option Name
  editor : Body
  editBuffer : Dict Name Body
  inFlight : List Name
  deriving DecidableEq

/-- The page as it is loaded. -/
def State.init : State where
  currentTemplate := none
  editor := ⟨"", none⟩
  editBuffer := ∅
  inFlight := []

/-! ## `editBuffer`, an object -/

/-- The names that every object inherits from `Object.prototype`. -/
def inherited : List String :=
  ["constructor", "hasOwnProperty", "isPrototypeOf", "propertyIsEnumerable",
    "toLocaleString", "toString", "valueOf", "__defineGetter__", "__defineSetter__",
    "__lookupGetter__", "__lookupSetter__", "__proto__"]

/-- What a text area shows for an inherited value. -/
def inheritedText (name : String) : String :=
  if name = "__proto__" then "[object Object]"
  else if name = "constructor" then "function Object() \x7b [native code] \x7d"
  else "function " ++ name ++ "() \x7b [native code] \x7d"

/-- `editBuffer[name] = text`.  The setter of `__proto__` does nothing with a text. -/
def assign (editBuffer : Dict Name Body) (name : Name) (body : Body) : Dict Name Body :=
  if name.val = "__proto__" then editBuffer else editBuffer.set name body

/-! ## The functions of the page -/

/-- `editBuffer[currentTemplate] = $("#editor").value`, if there is a current template. -/
def snapshot (s : State) : State :=
  match s.currentTemplate with
  | none => s
  | some name => { s with editBuffer := assign s.editBuffer name s.editor }

/-- `reloadFromDisk`, until it waits for the answer. -/
def reloadFromDisk (s : State) : State :=
  match s.currentTemplate with
  | none => s
  | some name =>
      { s with editBuffer := s.editBuffer.erase name, inFlight := s.inFlight ++ [name] }

/-- The editor shows `name`: the text put aside for it, or what the page inherits under its
name, or nothing new until the server has answered. -/
def showTemplate (s : State) (name : Name) : State :=
  match s.editBuffer.get? name with
  | some body => { s with editor := body }
  | none =>
      if name.val ∈ inherited then { s with editor := ⟨inheritedText name.val, none⟩ }
      else reloadFromDisk s

/-- `setEditorTemplate`. -/
def setEditorTemplate (s : State) (name : Name) : State :=
  let left := if s.currentTemplate = some name then s else snapshot s
  showTemplate { left with currentTemplate := some name } name

/-- How a request for a template ends: with its text, with an error status, or with none of
them (no connection, or a body that is not JSON). -/
inductive Answer
  | ok (raw : String)
  | status (code : ℕ)
  | rejected
  deriving DecidableEq

/-- The end of `reloadFromDisk` for `name`.  It does not look at `currentTemplate`. -/
def answered (s : State) (name : Name) : Answer → State
  | .ok raw => { s with editor := ⟨raw, some name⟩ }
  | .status code => { s with editor := ⟨"// load failed: " ++ toString code, none⟩ }
  | .rejected => s

/-- The user changes the text of the editor.  What is typed over a part of a text is an edit
to that text; a text that is typed into an empty editor, or replaces all of it, is typed for
the current template. -/
def edit (s : State) (text : String) (replaced : Bool) : State :=
  if replaced = true ∨ s.editor.text = "" then { s with editor := ⟨text, s.currentTemplate⟩ }
  else { s with editor := ⟨text, s.editor.template⟩ }

/-- `runFlow`, until it posts its request. -/
def runFlow (s : State) (steps : List Name) : State :=
  if steps = [] then s else snapshot s

/-- The texts that the steps of a flow carry.  An inherited value is not a text. -/
def flowBodies (s : State) (steps : List Name) : List (Name × Body) :=
  steps.filterMap fun name ↦ (s.editBuffer.get? name).map (Prod.mk name)

/-- The text that `buildSendBody` posts.  The button is off while there is no template. -/
def buildSendBody (s : State) : List (Name × Body) :=
  match s.currentTemplate with
  | none => []
  | some name => [(name, s.editor)]

/-! ## Runs -/

/-- What can happen on the page. -/
inductive Event
  /-- A click on a template, or the first template of a loaded list. -/
  | select (name : Name)
  | edit (text : String) (replaced : Bool)
  | reload
  /-- The `i`-th of the outstanding requests ends. -/
  | response (i : ℕ) (answer : Answer)
  | run (steps : List Name)
  | send
  deriving DecidableEq

/-- The page, one event at a time. -/
def page : Machine State Event
  | s, .select name => some (setEditorTemplate s name)
  | s, .edit text replaced => some (edit s text replaced)
  | s, .reload => some (reloadFromDisk s)
  | s, .response i answer => s.inFlight[i]?.map fun name ↦
      answered { s with inFlight := s.inFlight.eraseIdx i } name answer
  | s, .run steps => some (runFlow s steps)
  | s, .send => some s

/-- The texts that an event posts to `/api/run`, each under the name of a template. -/
def posted : State → Event → List (Name × Body)
  | s, .run steps => flowBodies (runFlow s steps) steps
  | s, .send => buildSendBody s
  | _, _ => []

/-! ## Whose text is where -/

/-- Every text that is put aside is the text of the template it is put aside for. -/
def Buffered (editBuffer : Dict Name Body) : Prop :=
  ∀ name body, editBuffer.get? name = some body → body.template = some name

/-- With no answer outstanding, the editor shows the text of the current template; and
`editBuffer` holds no text of another template at any time. -/
structure Belongs (s : State) : Prop where
  editor : s.inFlight = [] → ∀ name, s.currentTemplate = some name →
    s.editor.template = some name
  editBuffer : Buffered s.editBuffer

/-- The text that is posted under a name is the text of that template, or there is none yet. -/
def OwnName (post : Name × Body) : Prop :=
  post.2.template = some post.1 ∨ post.2 = State.init.editor

instance (post : Name × Body) : Decidable (OwnName post) :=
  inferInstanceAs (Decidable (_ ∨ _))

/-- If there is a current template, the editor shows its text, so that `snapshot` may put
it aside.  For `__proto__` nothing is put aside. -/
def Shown (s : State) : Prop :=
  ∀ name, s.currentTemplate = some name → name.val ≠ "__proto__" →
    s.editor.template = some name

/-- With this answer for `name` the editor shows the text of the current template.  The text
about an error status is the text of no template. -/
def Answer.Settles (s : State) (name current : Name) : Answer → Prop
  | .ok _ => name = current
  | .status _ => False
  | .rejected => s.editor.template = some current

/-- What an event must meet for the texts to stay with their templates:

* a template is left for another, and a flow is run, while the editor shows the text of the
  current template;
* a template under whose name the page inherits a value is selected when its text was put
  aside, or while an answer is outstanding;
* the last answer that is outstanding brings the text of the current template, or leaves in
  the editor what it finds there and finds the text of the current template;
* `Send` is pressed over the text of the current template, or before any text is shown. -/
def Fits (s : State) : Event → Prop
  | .select name => (s.currentTemplate ≠ some name → Shown s) ∧
      (s.inFlight = [] → name ∈ s.editBuffer ∨ name.val ∉ inherited)
  | .response _ answer => ∀ name current, s.inFlight = [name] →
      s.currentTemplate = some current → answer.Settles s name current
  | .run steps => steps ≠ [] → Shown s
  | .send => ∀ current, s.currentTemplate = some current → OwnName (current, s.editor)
  | _ => True

theorem buffered_empty : Buffered ∅ := fun _ _ h ↦ nomatch h

theorem buffered_erase {b : Dict Name Body} (h : Buffered b) (name : Name) :
    Buffered (b.erase name) := by
  intro t body ht
  exact h t body (Dict.get?_erase_eq_some_iff.mp ht).2

theorem buffered_assign_iff {b : Dict Name Body} (h : Buffered b) {name : Name} {body : Body} :
    Buffered (assign b name body) ↔ (name.val ≠ "__proto__" → body.template = some name) := by
  rw [assign]
  split
  · rename_i hname
    exact iff_of_true h fun hne ↦ absurd hname hne
  · rename_i hname
    constructor
    · intro hb _
      exact hb name body (Dict.get?_set_self b name body)
    · intro hbody t v ht
      rw [Dict.get?_set] at ht
      split at ht
      · rename_i heq
        cases ht
        rw [heq]
        exact hbody hname
      · exact h t v ht

theorem buffered_snapshot_iff {s : State} (h : Buffered s.editBuffer) :
    Buffered (snapshot s).editBuffer ↔ Shown s := by
  rw [snapshot, Shown]
  cases hc : s.currentTemplate with
  | none => exact iff_of_true h nofun
  | some name =>
      show Buffered (assign s.editBuffer name s.editor) ↔ _
      rw [buffered_assign_iff h]
      constructor
      · rintro hs _ ⟨⟩
        exact hs
      · intro hs
        exact hs name rfl

@[simp] theorem snapshot_currentTemplate (s : State) :
    (snapshot s).currentTemplate = s.currentTemplate := by
  unfold snapshot
  split <;> rfl

@[simp] theorem snapshot_editor (s : State) : (snapshot s).editor = s.editor := by
  unfold snapshot
  split <;> rfl

@[simp] theorem snapshot_inFlight (s : State) : (snapshot s).inFlight = s.inFlight := by
  unfold snapshot
  split <;> rfl

/-- A template that is left is the only one whose text is put aside. -/
theorem mem_snapshot {s : State} {name : Name} (h : s.currentTemplate ≠ some name) :
    name ∈ (snapshot s).editBuffer ↔ name ∈ s.editBuffer := by
  rw [snapshot]
  cases hc : s.currentTemplate with
  | none => rfl
  | some left =>
      show name ∈ assign s.editBuffer left s.editor ↔ _
      rw [assign]
      split
      · rfl
      · have hne : name ≠ left := by
          rintro rfl
          exact h hc
        rw [Dict.mem_set, or_iff_right hne]

/-! ## What each event does -/

theorem belongs_init : Belongs .init where
  editor := nofun
  editBuffer := buffered_empty

/-- A request that is outstanding leaves only `editBuffer` to be looked at. -/
theorem belongs_iff_of_inFlight {s : State} (h : s.inFlight ≠ []) :
    Belongs s ↔ Buffered s.editBuffer := by
  constructor
  · exact Belongs.editBuffer
  · intro hb
    exact ⟨fun hnone ↦ absurd hnone h, hb⟩

theorem belongs_reloadFromDisk {s : State} (h : Belongs s) : Belongs (reloadFromDisk s) := by
  rw [reloadFromDisk]
  split
  · exact h
  · rename_i name _
    rw [belongs_iff_of_inFlight (List.concat_ne_nil name s.inFlight)]
    exact buffered_erase h.editBuffer name

theorem belongs_showTemplate_iff {s : State} {name : Name} (h : Buffered s.editBuffer)
    (hc : s.currentTemplate = some name) :
    Belongs (showTemplate s name) ↔
      (s.inFlight = [] → name ∈ s.editBuffer ∨ name.val ∉ inherited) := by
  rw [showTemplate, Dict.mem_iff_get?]
  cases hget : s.editBuffer.get? name with
  | some body =>
      refine iff_of_true ⟨fun _ t ht ↦ ?_, h⟩ fun _ ↦ Or.inl ⟨body, rfl⟩
      change s.currentTemplate = some t at ht
      rw [hc] at ht
      cases ht
      exact h name body hget
  | none =>
      simp only [reduceCtorEq, exists_false, false_or]
      by_cases hinh : name.val ∈ inherited
      · -- the editor shows a value that is no template's text
        rw [if_pos hinh]
        constructor
        · intro hb hidle
          exact nomatch hb.editor hidle name hc
        · intro hbusy
          exact ⟨fun hidle ↦ absurd hinh (hbusy hidle), h⟩
      · rw [if_neg hinh, reloadFromDisk, hc]
        refine iff_of_true ?_ fun _ ↦ hinh
        exact (belongs_iff_of_inFlight (List.concat_ne_nil name s.inFlight)).mpr
          (buffered_erase h name)

/-- Nothing that is put aside changes when a template is shown. -/
theorem showTemplate_editBuffer {s : State} {name : Name} (hc : s.currentTemplate = some name) :
    (showTemplate s name).editBuffer = s.editBuffer := by
  rw [showTemplate]
  cases hget : s.editBuffer.get? name with
  | some body => rfl
  | none =>
      dsimp only
      by_cases hinh : name.val ∈ inherited
      · rw [if_pos hinh]
      · rw [if_neg hinh, reloadFromDisk, hc]
        exact Dict.erase_of_notMem (Dict.get?_eq_none_iff.mp hget)

theorem setEditorTemplate_self {s : State} {name : Name} (h : s.currentTemplate = some name) :
    setEditorTemplate s name = showTemplate s name := by
  unfold setEditorTemplate
  rw [if_pos h, ← h]

theorem setEditorTemplate_other {s : State} {name : Name} (h : s.currentTemplate ≠ some name) :
    setEditorTemplate s name =
      showTemplate { snapshot s with currentTemplate := some name } name := by
  unfold setEditorTemplate
  rw [if_neg h]

theorem belongs_setEditorTemplate_iff {s : State} (h : Belongs s) (name : Name) :
    Belongs (setEditorTemplate s name) ↔ Fits s (.select name) := by
  rw [Fits]
  by_cases hc : s.currentTemplate = some name
  · rw [setEditorTemplate_self hc, and_iff_right fun hne ↦ absurd hc hne]
    exact belongs_showTemplate_iff h.editBuffer hc
  · rw [setEditorTemplate_other hc, forall_prop_of_true hc]
    by_cases hs : Shown s
    · have hb : Buffered (snapshot s).editBuffer := (buffered_snapshot_iff h.editBuffer).mpr hs
      rw [and_iff_right hs, ← mem_snapshot hc, ← snapshot_inFlight s]
      exact belongs_showTemplate_iff (s := { snapshot s with currentTemplate := some name }) hb rfl
    · refine iff_of_false (fun hb ↦ hs ?_) fun hf ↦ hs hf.1
      apply (buffered_snapshot_iff h.editBuffer).mp
      have hbuffer := hb.editBuffer
      rwa [showTemplate_editBuffer rfl] at hbuffer

/-- An edit keeps a text with the current template: it is the one that the text was
loaded for, or the one that a new text is typed for. -/
theorem belongs_edit {s : State} (h : Belongs s) (text : String) (replaced : Bool) :
    Belongs (edit s text replaced) := by
  rw [edit]
  split
  · exact ⟨fun _ name hname ↦ hname, h.editBuffer⟩
  · exact ⟨h.editor, h.editBuffer⟩

theorem belongs_answered_iff {s : State} (h : Buffered s.editBuffer) (name : Name)
    (answer : Answer) :
    Belongs (answered s name answer) ↔
      (s.inFlight = [] → ∀ current, s.currentTemplate = some current →
        answer.Settles s name current) := by
  cases answer with
  | ok raw =>
      constructor
      · intro hb hidle current hcurrent
        exact Option.some.inj (hb.editor hidle current hcurrent)
      · intro hlast
        exact ⟨fun hidle current hcurrent ↦ congrArg some (hlast hidle current hcurrent), h⟩
  | status code =>
      constructor
      · intro hb hidle current hcurrent
        exact Option.some_ne_none _ (hb.editor hidle current hcurrent).symm
      · intro hlast
        exact ⟨fun hidle current hcurrent ↦ (hlast hidle current hcurrent).elim, h⟩
  | rejected =>
      constructor
      · intro hb
        exact hb.editor
      · intro hlast
        exact ⟨hlast, h⟩

theorem eraseIdx_eq_nil_iff {l : List Name} {i : ℕ} {name : Name} (h : l[i]? = some name) :
    l.eraseIdx i = [] ↔ l = [name] := by
  rw [List.eraseIdx_eq_nil_iff]
  constructor
  · rintro (rfl | ⟨hlength, rfl⟩)
    · cases h
    · obtain ⟨a, rfl⟩ := List.length_eq_one_iff.mp hlength
      cases h
      rfl
  · rintro rfl
    refine Or.inr ⟨rfl, ?_⟩
    have := (List.getElem?_eq_some_iff.mp h).1
    simpa using this

/-- The texts of a flow are those that are put aside. -/
theorem ownName_flowBodies {s : State} (h : Buffered s.editBuffer) (steps : List Name) :
    ∀ post ∈ flowBodies s steps, OwnName post := by
  intro post hpost
  obtain ⟨t, -, ht⟩ := List.mem_filterMap.mp hpost
  obtain ⟨body, hbody, rfl⟩ := Option.map_eq_some_iff.mp ht
  exact Or.inl (h t body hbody)

theorem belongs_runFlow_iff {s : State} (h : Belongs s) (steps : List Name) :
    Belongs (runFlow s steps) ↔ Fits s (.run steps) := by
  rw [Fits, runFlow]
  by_cases hsteps : steps = []
  · rw [if_pos hsteps]
    exact iff_of_true h fun hne ↦ absurd hsteps hne
  · rw [if_neg hsteps, forall_prop_of_true hsteps, ← buffered_snapshot_iff h.editBuffer]
    constructor
    · exact Belongs.editBuffer
    · intro hb
      refine ⟨fun hidle name hname ↦ ?_, hb⟩
      rw [snapshot_inFlight] at hidle
      rw [snapshot_currentTemplate] at hname
      rw [snapshot_editor]
      exact h.editor hidle name hname

theorem ownName_buildSendBody_iff (s : State) :
    (∀ post ∈ buildSendBody s, OwnName post) ↔ Fits s .send := by
  rw [buildSendBody, Fits]
  cases hc : s.currentTemplate with
  | none => exact iff_of_true (fun _ h ↦ nomatch h) nofun
  | some current => simp

/-- An event meets the condition exactly when the page after it, and what it posts, is
right. -/
theorem fits_iff {s s' : State} {e : Event} (h : Belongs s) (hstep : page s e = some s') :
    Fits s e ↔ Belongs s' ∧ ∀ post ∈ posted s e, OwnName post := by
  cases e with
  | select name =>
      cases hstep
      rw [← belongs_setEditorTemplate_iff h]
      exact (and_iff_left fun _ ho ↦ nomatch ho).symm
  | edit text replaced =>
      cases hstep
      exact iff_of_true trivial ⟨belongs_edit h text replaced, fun _ ho ↦ nomatch ho⟩
  | reload =>
      cases hstep
      exact iff_of_true trivial ⟨belongs_reloadFromDisk h, fun _ ho ↦ nomatch ho⟩
  | response i answer =>
      obtain ⟨name, hname, rfl⟩ := Option.map_eq_some_iff.mp hstep
      have hiff := belongs_answered_iff (s := { s with inFlight := s.inFlight.eraseIdx i })
        h.editBuffer name answer
      refine Iff.trans ?_ (hiff.symm.trans (and_iff_left fun _ ho ↦ nomatch ho).symm)
      simp only [Fits, eraseIdx_eq_nil_iff hname]
      constructor
      · intro hf hlast current hcurrent
        exact hf name current hlast hcurrent
      · intro hf name' current hlast hcurrent
        -- the request that ended is the only one that was outstanding
        have hsame : name' = name := by
          rw [hlast] at hname
          exact (List.mem_singleton.mp (List.mem_of_getElem? hname)).symm
        subst hsame
        exact hf hlast current hcurrent
  | run steps =>
      cases hstep
      rw [← belongs_runFlow_iff h]
      refine (and_iff_left_of_imp fun hb ↦ ?_).symm
      exact ownName_flowBodies hb.editBuffer steps
  | send =>
      cases hstep
      rw [← ownName_buildSendBody_iff]
      exact (and_iff_right h).symm

/-- The texts stay with their templates, on the page and in what it posts, exactly in the
runs every event of which meets the condition. -/
theorem bodies_keep_templates_iff {es : List Event} {s : State}
    (h : page.run .init es = some s) :
    page.Always Belongs .init es ∧ (∀ post ∈ page.outputs posted .init es, OwnName post) ↔
      page.Meets Fits .init es :=
  Machine.always_iff_meets (fun _ _ _ ↦ fits_iff) belongs_init h

/-! ## A user who waits -/

/-- The answer brings a text. -/
def Answer.isOk : Answer → Bool
  | .ok _ => true
  | _ => false

/-- The user leaves a template, runs a flow and sends only while no answer is outstanding;
every answer brings a text; and no template has an inherited name. -/
def Waits (s : State) : Event → Prop
  | .select name => name.val ∉ inherited ∧ (s.inFlight = [] ∨ s.currentTemplate = some name)
  | .response _ answer => answer.isOk = true
  | .run _ => s.inFlight = []
  | .send => s.inFlight = []
  | _ => True

instance (s : State) : (e : Event) → Decidable (Waits s e)
  | .select name => inferInstanceAs
      (Decidable (name.val ∉ inherited ∧ (s.inFlight = [] ∨ s.currentTemplate = some name)))
  | .edit _ _ => inferInstanceAs (Decidable True)
  | .reload => inferInstanceAs (Decidable True)
  | .response _ answer => inferInstanceAs (Decidable (answer.isOk = true))
  | .run _ => inferInstanceAs (Decidable (s.inFlight = []))
  | .send => inferInstanceAs (Decidable (s.inFlight = []))

/-- Only the text of the current template is asked for. -/
def Asks (s : State) : Prop := ∀ name ∈ s.inFlight, s.currentTemplate = some name

theorem fits_of_waits {s : State} (h : Belongs s) (hasks : Asks s) {e : Event}
    (hw : Waits s e) : Fits s e := by
  cases e with
  | select name =>
      refine ⟨fun hne current hcurrent _ ↦ ?_, fun _ ↦ Or.inr hw.1⟩
      exact h.editor (hw.2.resolve_right hne) current hcurrent
  | edit text replaced => trivial
  | reload => trivial
  | response i answer =>
      intro name current hlast hcurrent
      have hname := hasks name (hlast ▸ List.mem_singleton_self name)
      rw [hcurrent] at hname
      cases answer with
      | ok raw => exact (Option.some.inj hname).symm
      | status code => cases hw
      | rejected => cases hw
  | run steps =>
      intro _ current hcurrent _
      exact h.editor hw current hcurrent
  | send =>
      intro current hcurrent
      exact Or.inl (h.editor hw current hcurrent)

theorem asks_reloadFromDisk {s : State} (h : Asks s) : Asks (reloadFromDisk s) := by
  rw [reloadFromDisk]
  split
  · exact h
  · rename_i current hcurrent
    intro name hname
    rcases List.mem_append.mp hname with hname | hname
    · exact h name hname
    · rw [List.mem_singleton.mp hname]
      exact hcurrent

theorem asks_showTemplate {s : State} (h : Asks s) (name : Name) : Asks (showTemplate s name) := by
  rw [showTemplate]
  split
  · exact h
  · split
    · exact h
    · exact asks_reloadFromDisk h

theorem asks_step {s s' : State} {e : Event} (h : Asks s) (hw : Waits s e)
    (hstep : page s e = some s') : Asks s' := by
  cases e with
  | select name =>
      cases hstep
      by_cases hc : s.currentTemplate = some name
      · rw [setEditorTemplate_self hc]
        exact asks_showTemplate h name
      · rw [setEditorTemplate_other hc]
        refine asks_showTemplate (fun t ht ↦ ?_) name
        change t ∈ (snapshot s).inFlight at ht
        rw [snapshot_inFlight, hw.2.resolve_right hc] at ht
        exact nomatch ht
  | edit text replaced =>
      cases hstep
      unfold edit
      split <;> exact h
  | reload =>
      cases hstep
      exact asks_reloadFromDisk h
  | response i answer =>
      obtain ⟨name, -, rfl⟩ := Option.map_eq_some_iff.mp hstep
      intro t ht
      cases answer <;> exact h t (List.mem_of_mem_eraseIdx ht)
  | run steps =>
      cases hstep
      unfold runFlow
      split
      · exact h
      · rw [Asks, snapshot_inFlight, snapshot_currentTemplate]
        exact h
  | send =>
      cases hstep
      exact h

/-- For a user who waits, the texts stay with their templates. -/
theorem meets_fits_of_waits {es : List Event} (h : page.Meets Waits .init es) :
    page.Meets Fits .init es := by
  refine h.imp_of_invariant (I := fun s ↦ Belongs s ∧ Asks s) ?_ ?_ ⟨belongs_init, nofun⟩
  · rintro s e ⟨hb, ha⟩ hw
    exact fits_of_waits hb ha hw
  · rintro s e s' ⟨hb, ha⟩ hw hstep
    exact ⟨((fits_iff hb hstep).mp (fits_of_waits hb ha hw)).1, asks_step ha hw hstep⟩

/-! ## Two clicks -/

def registration : Name := ⟨"registration", by decide⟩

def status_report : Name := ⟨"status_report", by decide⟩

/-- A template is selected, and another one before the text of the first has arrived. -/
def twoClicks : List Event :=
  [.select registration, .select status_report, .response 1 (.ok "{ }"), .response 0 (.ok "{}"),
    .send]

/-- The one template that is selected is not there to be loaded. -/
def failedLoad : List Event := [.select registration, .response 0 (.status 404)]

/-- A run that comes to rest with a text that is not the text of the current template. -/
theorem not_always_of_settled {es : List Event} (current : Name)
    (h : (page.run .init es).any fun s ↦ s.inFlight = [] ∧ s.currentTemplate = some current ∧
      s.editor.template ≠ some current) : ¬ page.Always Belongs .init es := by
  obtain ⟨s, hs, hsettled⟩ := (Option.any_eq_true _ _).mp h
  obtain ⟨hidle, hcurrent, htemplate⟩ := decide_eq_true_iff.mp hsettled
  intro ha
  exact htemplate ((ha es s List.prefix_rfl hs).editor hidle current hcurrent)

/-- The text that arrives last is taken for the text of the other template, and sent under
its name; and the text about a failed load is left in the editor. -/
theorem twoClicks_confused :
    ¬ page.Always Belongs .init twoClicks ∧
      (¬ ∀ post ∈ page.outputs posted .init twoClicks, OwnName post) ∧
      ¬ page.Always Belongs .init failedLoad := by
  refine ⟨not_always_of_settled status_report (by decide +kernel), fun h ↦ ?_,
    not_always_of_settled registration (by decide +kernel)⟩
  have hsent : (status_report, ⟨"{}", some registration⟩) ∈
      page.outputs posted .init twoClicks := by decide +kernel
  exact absurd (h _ hsent) (by decide)

/-- A template is selected, its text arrives and is edited, and another one is selected. -/
def oneAfterTheOther : List Event :=
  [.select registration, .response 0 (.ok "{}"), .edit "{ }" false, .select status_report,
    .response 0 (.ok "{}"), .run [registration, status_report]]

theorem bodies_keep_templates_oneAfterTheOther :
    page.Always Belongs .init oneAfterTheOther ∧
      ∀ post ∈ page.outputs posted .init oneAfterTheOther, OwnName post := by
  obtain ⟨s, hs⟩ : ∃ s, page.run .init oneAfterTheOther = some s :=
    Option.isSome_iff_exists.mp (by decide +kernel)
  exact (bodies_keep_templates_iff hs).mpr (meets_fits_of_waits (by decide +kernel))

end Editor

end Ui

end SensorFusion
