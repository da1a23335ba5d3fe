import SensorFusion.Lib.Except
import SensorFusion.Python.Json

/-!
# The nodes configuration file

The registry lives in one JSON file, which every request reads with `_load_config`
and rewrites with `_save_config`.  The file is modelled by what reading it gives:
nothing, text that does not decode, or a JSON document.  `Loadable` is the
condition on a list of entries under which writing it and reading it back is the
identity, up to the default description that loading fills in.
-/

namespace SensorFusion.Nodes

/-- What the service takes from its settings and its interpreter; neither is ever
decided on. -/
structure Settings where
  /-- The file that `_CONFIG_PATH` names, as `Path` prints it. -/
  CONFIG_PATH : String
  /-- Python's `repr`, for the texts of errors. -/
  repr : Json → String

/-- The configuration file, as reading it turns out. -/
inductive ConfigFile where
  | missing
  /-- Reading or decoding raises something other than `JSONDecodeError`. -/
  | unreadable (exc : String)
  /-- `json.loads` raises `JSONDecodeError`. -/
  | malformed (exc : String)
  | document (data : Json)

/-- One entry of the registry. -/
abbrev Entry := Dict String Json

/-- The fields that `_load_config` insists on. -/
def REQUIRED : List String := ["id", "type", "name", "host"]

namespace Entry

/-- `e[f]`, for a field that is known to be there. -/
def field (e : Entry) (f : String) : Json := (e.get? f).getD .null

/-- The key of an entry: its id, as a set or dictionary sees it. -/
def key (e : Entry) : Key := (e.field "id").key?.getD .null

/-- `e.setdefault("description", "")`. -/
def describe (e : Entry) : Entry := e.setdefault "description" (.str "")

/-- An entry that `_load_config` accepts: it has the required fields and its id
has a hash. -/
structure Sound (e : Entry) : Prop where
  required : ∀ f ∈ REQUIRED, f ∈ e
  hashable : (e.field "id").key? = some e.key

theorem field_eq_of_get? {e e' : Entry} {f : String} (h : e'.get? f = e.get? f) :
    e'.field f = e.field f := by
  rw [field, field, h]

theorem field_describe (e : Entry) {f : String} (h : f ≠ "description") :
    e.describe.field f = e.field f :=
  field_eq_of_get? (Dict.get?_setdefault_ne e _ h)

theorem key_eq_of_field {e e' : Entry} (h : e'.field "id" = e.field "id") : e'.key = e.key := by
  rw [key, key, h]

@[simp] theorem key_describe (e : Entry) : e.describe.key = e.key :=
  key_eq_of_field (field_describe e (by decide))

theorem Sound.describe {e : Entry} (h : e.Sound) : e.describe.Sound where
  required f hf := Dict.mem_setdefault.mpr (Or.inr (h.required f hf))
  hashable := by
    rw [field_describe e (by decide), key_describe]
    exact h.hashable

/-- The id of a sound entry is a given string exactly when its key is that
string's. -/
theorem Sound.eqStr_id {e : Entry} (h : e.Sound) (s : String) :
    (e.field "id").eqStr s = true ↔ e.key = .str s := by
  rw [Json.eqStr_iff, ← Json.key?_eq_str_iff, h.hashable, Option.some.injEq]

end Entry

/-! ## `_load_config` -/

/-- The checks on entry number `i`, when the entries before it have the ids
`seen`. -/
def checkEntry (cfg : Settings) (i : ℕ) (seen : List Key) : Json → Except String Entry
  | .obj members =>
      let e : Entry := Dict.ofList members
      match REQUIRED.find? fun f ↦ decide (f ∉ e) with
      | some f => .error ("entry " ++ toString i ++ " missing required field " ++
          cfg.repr (.str f))
      | none =>
          match (e.field "id").key? with
          | none => .error (e.field "id").unhashable
          | some k =>
              if k ∈ seen then .error ("duplicate id: " ++ cfg.repr (e.field "id")) else .ok e
  | _ => .error ("entry " ++ toString i ++ " is not an object")

/-- The loop over the entries. -/
def loadEntries (cfg : Settings) : ℕ → List Key → List Json → Except String (List Entry)
  | _, _, [] => .ok []
  | i, seen, j :: data => do
      let e ← checkEntry cfg i seen j
      let rest ← loadEntries cfg (i + 1) (e.key :: seen) data
      .ok (e.describe :: rest)

/-- `_load_config`: the entries, or the text of the exception. -/
def loadConfig (cfg : Settings) : ConfigFile → Except String (List Entry)
  | .missing => .error ("nodes config not found: " ++ cfg.CONFIG_PATH)
  | .unreadable exc => .error exc
  | .malformed exc => .error ("nodes config invalid JSON: " ++ exc)
  | .document (.arr data) => loadEntries cfg 0 [] data
  | .document _ => .error "nodes config must be a JSON array"

/-! ## `_save_config` -/

/-- The document that `_save_config` writes. -/
def dumped (entries : List Entry) : ConfigFile :=
  .document (.arr (entries.map fun e ↦ .obj e.items))

/-- How a write turns out.  `write_text` truncates the file and then writes, so a
failing write may leave anything behind. -/
inductive Write where
  | done
  | failed (left : ConfigFile) (exc : String)

/-- `_save_config`: the text of the `OSError` if there is one, and the file
afterwards. -/
def saveConfig (entries : List Entry) : Write → Option String × ConfigFile
  | .done => (none, dumped entries)
  | .failed left exc => (some exc, left)

/-! ## Loading what was saved -/

/-- A list of entries that `_load_config` accepts. -/
structure Loadable (entries : List Entry) : Prop where
  sound : ∀ e ∈ entries, e.Sound
  unique : (entries.map Entry.key).Nodup

theorem Loadable.nil : Loadable [] := ⟨by simp, List.nodup_nil⟩

/-- An entry passes the checks when it is sound and its id is new. -/
theorem checkEntry_eq_ok {cfg : Settings} {i : ℕ} {seen : List Key} {j : Json} {e : Entry} :
    checkEntry cfg i seen j = .ok e ↔
      (∃ members, j = .obj members ∧ Dict.ofList members = e) ∧ e.Sound ∧ e.key ∉ seen := by
  constructor
  · intro h
    cases j with
    | obj members =>
        simp only [checkEntry] at h
        split at h
        · cases h
        · rename_i hreq
          split at h
          · cases h
          · rename_i k hkey
            split at h
            · cases h
            · rename_i hseen
              cases h
              have hk : Entry.key (Dict.ofList members) = k := by rw [Entry.key, hkey]; rfl
              refine ⟨⟨members, rfl, rfl⟩, ⟨by simpa using hreq, by rw [hkey, hk]⟩, ?_⟩
              rw [hk]
              exact hseen
    | _ => cases h
  · rintro ⟨⟨members, rfl, rfl⟩, hsound, hseen⟩
    have hreq : (REQUIRED.find? fun f ↦ decide (f ∉ (Dict.ofList members : Entry))) = none := by
      simpa using hsound.required
    simp only [checkEntry, hreq, hsound.hashable]
    exact if_neg hseen

theorem loadEntries_cons_eq_ok {cfg : Settings} {i : ℕ} {seen : List Key} {j : Json}
    {data : List Json} {es : List Entry} :
    loadEntries cfg i seen (j :: data) = .ok es ↔
      ∃ e rest, checkEntry cfg i seen j = .ok e ∧
        loadEntries cfg (i + 1) (e.key :: seen) data = .ok rest ∧ es = e.describe :: rest := by
  rw [loadEntries, bind_eq_ok]
  constructor
  · rintro ⟨e, he, h⟩
    obtain ⟨rest, hrest, h⟩ := bind_eq_ok.mp h
    cases h
    exact ⟨e, rest, he, hrest, rfl⟩
  · rintro ⟨e, rest, he, hrest, rfl⟩
    exact ⟨e, he, bind_eq_ok.mpr ⟨rest, hrest, rfl⟩⟩

/-- What loading gives is loadable, has its descriptions, and repeats no id that
was seen before. -/
theorem loadEntries_spec {cfg : Settings} {i : ℕ} {seen : List Key} {data : List Json}
    {es : List Entry} (h : loadEntries cfg i seen data = .ok es) :
    Loadable es ∧ (∀ e ∈ es, "description" ∈ e) ∧ ∀ e ∈ es, e.key ∉ seen := by
  induction data generalizing i seen es with
  | nil =>
      cases h
      exact ⟨Loadable.nil, by simp, by simp⟩
  | cons j data ih =>
      obtain ⟨e, rest, he, hrest, rfl⟩ := loadEntries_cons_eq_ok.mp h
      obtain ⟨-, hsound, hseen⟩ := checkEntry_eq_ok.mp he
      obtain ⟨hload, hdesc, hnew⟩ := ih hrest
      refine ⟨⟨?_, ?_⟩, ?_, ?_⟩
      · exact List.forall_mem_cons.mpr ⟨hsound.describe, hload.sound⟩
      · rw [List.map_cons, List.nodup_cons, Entry.key_describe]
        refine ⟨fun hmem ↦ ?_, hload.unique⟩
        obtain ⟨e', he', hkey⟩ := List.mem_map.mp hmem
        exact hnew e' he' (hkey ▸ List.mem_cons_self)
      · exact List.forall_mem_cons.mpr ⟨Dict.mem_setdefault.mpr (Or.inl rfl), hdesc⟩
      · refine List.forall_mem_cons.mpr ⟨by rwa [Entry.key_describe], fun e' he' hmem ↦ ?_⟩
        exact hnew e' he' (List.mem_cons_of_mem _ hmem)

theorem loadConfig_spec {cfg : Settings} {file : ConfigFile} {es : List Entry}
    (h : loadConfig cfg file = .ok es) : Loadable es ∧ ∀ e ∈ es, "description" ∈ e := by
  unfold loadConfig at h
  split at h
  · cases h
  · cases h
  · cases h
  · obtain ⟨hload, hdesc, -⟩ := loadEntries_spec h
    exact ⟨hload, hdesc⟩
  · cases h

theorem loadEntries_dumped (cfg : Settings) {i : ℕ} {seen : List Key} {es : List Entry}
    (h : Loadable es) (hseen : ∀ e ∈ es, e.key ∉ seen) :
    loadEntries cfg i seen (es.map fun e ↦ .obj e.items) = .ok (es.map Entry.describe) := by
  induction es generalizing i seen with
  | nil => rfl
  | cons e es ih =>
      have hunique := List.nodup_cons.mp h.unique
      have hcheck : checkEntry cfg i seen (.obj e.items) = .ok e :=
        checkEntry_eq_ok.mpr ⟨⟨_, rfl, Dict.ofList_items e⟩, h.sound e List.mem_cons_self,
          hseen e List.mem_cons_self⟩
      refine loadEntries_cons_eq_ok.mpr ⟨e, _, hcheck, ih ⟨?_, hunique.2⟩ ?_, rfl⟩
      · exact fun e' he' ↦ h.sound e' (List.mem_cons_of_mem _ he')
      · intro e' he' hmem
        rcases List.mem_cons.mp hmem with hkey | hmem
        · exact hunique.1 (List.mem_map.mpr ⟨e', he', hkey⟩)
        · exact hseen e' (List.mem_cons_of_mem _ he') hmem

/-- Loadable entries come back from the file they are saved to, with their
descriptions filled in. -/
theorem loadConfig_dumped (cfg : Settings) {es : List Entry} (h : Loadable es) :
    loadConfig cfg (dumped es) = .ok (es.map Entry.describe) :=
  loadEntries_dumped cfg h fun _ _ ↦ List.not_mem_nil

end SensorFusion.Nodes
