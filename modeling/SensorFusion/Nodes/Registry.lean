import SensorFusion.Lib.Machine
import SensorFusion.Nodes.Handlers

/-!
# The registry as an ordered map

`MapStep` says what the registry is for: an insertion-ordered map from ids to
entries, on which a create appends, a patch overwrites the given fields of one
entry, a delete removes one entry, and everything else is turned away and changes
nothing.  The handlers compute on the list of entries instead; `Models` relates
the two, and one lemma per handler shows that it is kept.
-/

namespace SensorFusion.Nodes

/-! ## The abstract map -/

/-- The registry: entries under their ids, in insertion order. -/
abbrev Registry := Dict Key Entry

/-- What the type of an entry requires of its other fields. -/
inductive Contract (e : Entry) : Prop where
  | edge_node (type : e.get? "type" = some (.str "edge-node"))
      (services : ∀ v, e.get? "services" = some v → v.truthy = true →
        ∃ l, v = .arr l ∧ ∀ s ∈ l, s = .str "ntp" ∨ s = .str "gps")
  | middleware (type : e.get? "type" = some (.str "middleware")) (port : "port" ∈ e)
  | service (type : e.get? "type" = some (.str "service")) (port : "port" ∈ e)
      (probe : "health_path" ∈ e ∨ e.get? "probe_kind" = some (.str "tcp"))
  | tak_server (type : e.get? "type" = some (.str "tak-server")) (port : "port" ∈ e)
      (probe : e.get? "probe_kind" = some (.str "tcp") → "admin_port" ∈ e)

/-- The entry that a create describes. -/
def NodeCreate.entry (r : NodeCreate) : Entry := r.modelDump.describe

/-- The value that a patch gives to a field; a host is given without blanks around
it. -/
def NodePatch.given (r : NodePatch) (f : String) : Option Json :=
  if f = "host" then r.host.map fun host ↦ .str (String.ofList (Text.strip host.val.toList))
  else r.modelDump.get? f

/-- A patch that gives no field at all. -/
def NodePatch.Empty (r : NodePatch) : Prop := ∀ f, r.given f = none

/-- `e'` is `e` with exactly the given fields overwritten: the fields keep their
order, and the id and the type their values. -/
structure Overwrites (r : NodePatch) (e e' : Entry) : Prop where
  get?_eq : ∀ f, e'.get? f = (r.given f <|> e.get? f)
  order : e.keys <+: e'.keys
  id_eq : e'.get? "id" = e.get? "id"
  type_eq : e'.get? "type" = e.get? "type"

/-- What the map does with a request: the status it is turned away with, if it
is, and the map afterwards. -/
inductive MapStep (reg : Registry) : Request → Option ℕ → Registry → Prop where
  | bad_id {req : NodeCreate} (hid : ID_RE req.id.val = false) :
      MapStep reg (.create req) (some 400) reg
  | present {req : NodeCreate} (hid : ID_RE req.id.val = true) (hmem : .str req.id.val ∈ reg) :
      MapStep reg (.create req) (some 409) reg
  | create_contract {req : NodeCreate} (hid : ID_RE req.id.val = true)
      (hmem : .str req.id.val ∉ reg) (hc : ¬ Contract req.entry) :
      MapStep reg (.create req) (some 400) reg
  | created {req : NodeCreate} (hid : ID_RE req.id.val = true)
      (hmem : .str req.id.val ∉ reg) (hc : Contract req.entry) :
      MapStep reg (.create req) none (reg.set (.str req.id.val) req.entry)
  | empty {id : String} {req : NodePatch} (hempty : req.Empty) :
      MapStep reg (.patch id req) (some 400) reg
  | patch_unknown {id : String} {req : NodePatch} (hempty : ¬ req.Empty)
      (hmem : .str id ∉ reg) : MapStep reg (.patch id req) (some 404) reg
  | patch_contract {id : String} {req : NodePatch} {e e' : Entry} (hempty : ¬ req.Empty)
      (he : reg.get? (.str id) = some e) (hover : Overwrites req e e') (hc : ¬ Contract e') :
      MapStep reg (.patch id req) (some 400) reg
  | patched {id : String} {req : NodePatch} {e e' : Entry} (hempty : ¬ req.Empty)
      (he : reg.get? (.str id) = some e) (hover : Overwrites req e e') (hc : Contract e') :
      MapStep reg (.patch id req) none (reg.set (.str id) e')
  | delete_unknown {id : String} (hmem : .str id ∉ reg) :
      MapStep reg (.delete id) (some 404) reg
  | deleted {id : String} (hmem : .str id ∈ reg) :
      MapStep reg (.delete id) none (reg.erase (.str id))

/-! ## Entries and the map -/

/-- A list of entries holds a registry: every entry is sound and described, and
the registry lists them under their keys. -/
structure Models (es : List Entry) (reg : Registry) : Prop where
  sound : ∀ e ∈ es, e.Sound
  described : ∀ e ∈ es, "description" ∈ e
  items_eq : reg.items = es.map fun e ↦ (e.key, e)

/-- The configuration file holds a registry. -/
def Represents (cfg : Settings) (file : ConfigFile) (reg : Registry) : Prop :=
  ∃ es, loadConfig cfg file = .ok es ∧ Models es reg

/-- The registry that loadable entries hold. -/
def Registry.ofEntries {es : List Entry} (h : Loadable es) : Registry where
  items := es.map fun e ↦ (e.key, e)
  nodup := by simpa [Function.comp_def] using h.unique

theorem models_ofEntries {cfg : Settings} {file : ConfigFile} {es : List Entry}
    (h : loadConfig cfg file = .ok es) :
    Models es (Registry.ofEntries (loadConfig_spec h).1) :=
  ⟨(loadConfig_spec h).1.sound, (loadConfig_spec h).2, rfl⟩

namespace Models

variable {es : List Entry} {reg : Registry}

theorem loadable (h : Models es reg) : Loadable es where
  sound := h.sound
  unique := by simpa [h.items_eq, Function.comp_def] using reg.nodup

/-- The entries come back from the file they are written to. -/
theorem loadConfig_dumped (cfg : Settings) (h : Models es reg) :
    loadConfig cfg (dumped es) = .ok es := by
  have hid : es.map Entry.describe = es.map id :=
    List.map_congr_left fun e he ↦ Dict.setdefault_of_mem (h.described e he) _
  rw [Nodes.loadConfig_dumped cfg h.loadable, hid, List.map_id]

/-- Writing the entries gives a file that holds the same registry. -/
theorem represents_dumped (cfg : Settings) (h : Models es reg) :
    Represents cfg (dumped es) reg :=
  ⟨es, h.loadConfig_dumped cfg, h⟩

theorem lookup_map_key {l : List Entry} (h : ∀ e ∈ l, e.Sound) (id : String) :
    (l.map fun e ↦ (e.key, e)).lookup (.str id) = l.find? fun e ↦ (e.field "id").eqStr id := by
  induction l with
  | nil => rfl
  | cons e l ih =>
      have he := (h e List.mem_cons_self).eqStr_id id
      rw [List.map_cons, List.lookup_cons, List.find?_cons,
        ih fun e' he' ↦ h e' (List.mem_cons_of_mem _ he')]
      by_cases hk : e.key = .str id
      · rw [he.mpr hk, beq_iff_eq.mpr hk.symm]
      · rw [beq_eq_false_iff_ne.mpr fun h' ↦ hk h'.symm, Bool.eq_false_iff.mpr (he.not.mpr hk)]

/-- Searching the entries for an id is looking it up. -/
theorem find?_eq_get? (h : Models es reg) (id : String) :
    (es.find? fun e ↦ (e.field "id").eqStr id) = reg.get? (.str id) := by
  rw [Dict.get?, h.items_eq, lookup_map_key h.sound]

theorem any_iff_mem (h : Models es reg) (id : String) :
    (es.any fun e ↦ (e.field "id").eqStr id) = true ↔ Key.str id ∈ reg := by
  rw [← Dict.get?_isSome_iff, ← h.find?_eq_get? id, List.find?_isSome, List.any_eq_true]

theorem setItem_of_notMem {l : List Entry} {k : Key} {e : Entry}
    (h : k ∉ l.map Entry.key) :
    Dict.setItem k e (l.map fun e ↦ (e.key, e)) = l.map (fun e ↦ (e.key, e)) ++ [(k, e)] := by
  induction l with
  | nil => rfl
  | cons e' l ih =>
      rw [List.map_cons, List.mem_cons, not_or] at h
      rw [List.map_cons, Dict.setItem, if_neg (Ne.symm h.1), ih h.2, List.cons_append]

/-- Appending an entry with a new id sets it. -/
theorem append (h : Models es reg) {e : Entry} (hs : e.Sound) (hd : "description" ∈ e)
    (hnew : e.key ∉ reg) : Models (es ++ [e]) (reg.set e.key e) where
  sound := List.forall_mem_append.mpr ⟨h.sound, by simpa using hs⟩
  described := List.forall_mem_append.mpr ⟨h.described, by simpa using hd⟩
  items_eq := by
    rw [Dict.mem_def, Dict.keys, h.items_eq, List.map_map] at hnew
    rw [Dict.items_set, h.items_eq, setItem_of_notMem hnew, List.map_append]
    rfl

/-- Filtering an id out removes it. -/
theorem erase (h : Models es reg) (id : String) :
    Models (es.filter fun e ↦ !(e.field "id").eqStr id) (reg.erase (.str id)) where
  sound e he := h.sound e (List.mem_of_mem_filter he)
  described e he := h.described e (List.mem_of_mem_filter he)
  items_eq := by
    rw [Dict.items_erase, h.items_eq, List.filter_map]
    congr 1
    apply List.filter_congr
    intro e he
    have hiff := (h.sound e he).eqStr_id id
    by_cases hk : e.key = .str id
    · simp [hk, hiff.mpr hk]
    · simp [hk, Bool.eq_false_iff.mpr (hiff.not.mpr hk)]

theorem map_mutate {l : List Entry} (h : ∀ e ∈ l, e.Sound) {id : String} {e : Entry}
    (he : (l.find? fun e ↦ (e.field "id").eqStr id) = some e) {f : Entry → Entry}
    (hf : (f e).key = e.key) :
    (mutate id f l).map (fun e ↦ (e.key, e)) =
      Dict.setItem (.str id) (f e) (l.map fun e ↦ (e.key, e)) := by
  induction l with
  | nil => cases he
  | cons e' l ih =>
      have hiff := (h e' List.mem_cons_self).eqStr_id id
      rw [List.find?_cons] at he
      rw [mutate, List.map_cons, Dict.setItem]
      by_cases hk : e'.key = .str id
      · rw [hiff.mpr hk] at he
        cases he
        rw [hiff.mpr hk, if_pos rfl, if_pos hk, List.map_cons, hf, hk]
      · have hno := Bool.eq_false_iff.mpr (hiff.not.mpr hk)
        rw [hno] at he
        rw [hno, if_neg (by simp), if_neg hk, List.map_cons,
          ih (fun e he ↦ h e (List.mem_cons_of_mem _ he)) he]

theorem mem_mutate {l : List Entry} {id : String} {f : Entry → Entry} {e' : Entry}
    (h : e' ∈ mutate id f l) :
    e' ∈ l ∨ ∃ e, (l.find? fun e ↦ (e.field "id").eqStr id) = some e ∧ e' = f e := by
  induction l with
  | nil => exact absurd h List.not_mem_nil
  | cons a l ih =>
      rw [mutate] at h
      rw [List.find?_cons]
      cases hp : (a.field "id").eqStr id with
      | true =>
          rw [hp, if_pos rfl] at h
          rcases List.mem_cons.mp h with rfl | h
          · exact Or.inr ⟨a, rfl, rfl⟩
          · exact Or.inl (List.mem_cons_of_mem _ h)
      | false =>
          rw [hp, if_neg (by simp)] at h
          rcases List.mem_cons.mp h with rfl | h
          · exact Or.inl List.mem_cons_self
          · rcases ih h with h | h
            · exact Or.inl (List.mem_cons_of_mem _ h)
            · exact Or.inr h

/-- Writing to the entry under an id overwrites it in place. -/
theorem mutate (h : Models es reg) {id : String} {e : Entry}
    (he : reg.get? (.str id) = some e) {f : Entry → Entry} (hs : (f e).Sound)
    (hd : "description" ∈ f e) (hf : (f e).key = e.key) :
    Models (mutate id f es) (reg.set (.str id) (f e)) where
  sound e' he' := by
    rcases mem_mutate he' with h' | ⟨e₁, h₁, rfl⟩
    · exact h.sound e' h'
    · rw [h.find?_eq_get?, he] at h₁
      cases h₁
      exact hs
  described e' he' := by
    rcases mem_mutate he' with h' | ⟨e₁, h₁, rfl⟩
    · exact h.described e' h'
    · rw [h.find?_eq_get?, he] at h₁
      cases h₁
      exact hd
  items_eq := by
    rw [Dict.items_set, h.items_eq, map_mutate h.sound (by rw [h.find?_eq_get?, he]) hf]

end Models

end SensorFusion.Nodes
