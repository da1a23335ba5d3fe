import SensorFusion.Nodes.Judged
import SensorFusion.Python.Lines

/-!
# What the fields of an entry hold

`NodeCreate` bounds the fields of a request, `_validate_type_specific` those that a type
needs, and `patch_one` takes the blanks off a host.  The three are not done in the same order:
a create keeps its host as it is, and a patch takes the blanks off after the length was
checked.
-/

namespace SensorFusion.Nodes

variable {cfg : Settings} {file file' : ConfigFile} {reg reg' : Registry} {e e' : Entry}

/-- An entry is as `NodeCreate` would take it, its type has the fields it needs, and its host
has no blanks around it. -/
structure Entry.Kept (e : Entry) : Prop where
  create : ∃ r : NodeCreate, ∀ a ∈ r.dump, e.get? a.1 = a.2
  contract : Contract e
  host : ∀ host, e.get? "host" = some (.str host) → Text.strip host.toList = host.toList

/-- Every persisted entry is. -/
def AllKept (cfg : Settings) (file : ConfigFile) : Prop :=
  ∃ es, loadConfig cfg file = .ok es ∧ ∀ e ∈ es, e.Kept

/-- The handlers as a machine that takes the requests they accept. -/
def accept (cfg : Settings) : Machine ConfigFile Request := fun file r ↦
  match serve cfg r .done file with
  | (.ok (), file') => some file'
  | (.error _, _) => none

/-- A create has no blanks around its host, and a patch gives no host of blanks only. -/
def Request.Tidy : Request → Prop
  | .create req => Text.strip req.host.val.toList = req.host.val.toList
  | .patch _ req => ∀ host, req.host = some host → Text.strip host.val.toList ≠ []
  | .delete _ => True

/-! ## A registry -/

/-- Every entry of a registry is kept. -/
def Registry.Kept (reg : Registry) : Prop := ∀ k e, reg.get? k = some e → e.Kept

theorem allKept_iff (h : Represents cfg file reg) : AllKept cfg file ↔ reg.Kept := by
  obtain ⟨es, hload, hm⟩ := h
  have hmem (k : Key) (e : Entry) : reg.get? k = some e ↔ e ∈ es ∧ e.key = k := by
    rw [Dict.get?_eq_some_iff, hm.items_eq, List.mem_map]
    constructor
    · rintro ⟨e', he', h⟩
      cases h
      exact ⟨he', rfl⟩
    · rintro ⟨he, rfl⟩
      exact ⟨e, he, rfl⟩
  constructor
  · rintro ⟨es', hload', hkept⟩ k e he
    rw [hload] at hload'
    cases hload'
    exact hkept e ((hmem k e).mp he).1
  · intro h
    exact ⟨es, hload, fun e he ↦ h e.key e ((hmem e.key e).mpr ⟨he, rfl⟩)⟩

theorem Registry.kept_set {k : Key} (h : reg.Kept) : Registry.Kept (reg.set k e) ↔ e.Kept := by
  constructor
  · intro hset
    exact hset k e (Dict.get?_set_self reg k e)
  · intro he k' e' hget
    rw [Dict.get?_set] at hget
    split at hget
    · cases hget
      exact he
    · exact h k' e' hget

theorem Registry.Kept.erase {k : Key} (h : reg.Kept) : Registry.Kept (reg.erase k) :=
  fun k' e' hget ↦ h k' e' (Dict.get?_erase_eq_some_iff.mp hget).2

/-! ## What a create writes -/

theorem NodeCreate.get?_entry_description (r : NodeCreate) :
    r.entry.get? "description" = some ((r.description.map Str.json).getD (.str "")) := by
  rw [entry, Entry.describe, Dict.get?_setdefault, if_pos rfl, modelDump,
    get?_excludeNone r.nodup_dump]
  rfl

/-- A property of the shared fields, one by one. -/
theorem NodeFields.forall_mem_dump (r : NodeFields) (P : String → Option Json → Prop) :
    (∀ a ∈ r.dump, P a.1 a.2) ↔
      P "port" (r.port.map Port.json) ∧
      P "services" (r.services.map fun l ↦ .arr (l.map .str)) ∧
      P "kind" (r.kind.map Str.json) ∧ P "probe" (r.probe.map .bool) ∧
      P "health_path" (r.health_path.map Str.json) ∧
      P "probe_kind" (r.probe_kind.map Str.json) ∧
      P "admin_port" (r.admin_port.map Port.json) ∧ P "protocol" (r.protocol.map Str.json) ∧
      P "description" (r.description.map Str.json) ∧ P "db_kind" (r.db_kind.map Str.json) ∧
      P "db_user" (r.db_user.map Str.json) ∧ P "db_password" (r.db_password.map Str.json) ∧
      P "db_database" (r.db_database.map Str.json) := by
  rw [dump]
  simp only [List.forall_mem_cons, List.not_mem_nil, IsEmpty.forall_iff, implies_true, and_true]

theorem NodeCreate.forall_mem_dump (r : NodeCreate) (P : String → Option Json → Prop) :
    (∀ a ∈ r.dump, P a.1 a.2) ↔
      (P "id" (some r.id.json) ∧ P "type" (some r.type.json) ∧ P "name" (some r.name.json) ∧
        P "host" (some r.host.json)) ∧ ∀ a ∈ r.toNodeFields.dump, P a.1 a.2 := by
  rw [dump, List.forall_mem_append]
  simp only [List.forall_mem_cons, List.not_mem_nil, IsEmpty.forall_iff, implies_true, and_true]

/-- The description of a create that gives none. -/
def Str.empty : Str 0 4096 := ⟨"", Nat.zero_le _, Nat.zero_le _⟩

theorem kept_entry_iff {r : NodeCreate} (hc : Contract r.entry) :
    r.entry.Kept ↔ Text.strip r.host.val.toList = r.host.val.toList := by
  have hhost : r.entry.get? "host" = some (.str r.host.val) := r.get?_entry (by decide)
  constructor
  · intro h
    exact h.host _ hhost
  · intro hstrip
    refine ⟨⟨{ r with description := some (r.description.getD Str.empty) }, ?_⟩, hc, ?_⟩
    · have hget {f : String} (h : f ≠ "description") := r.get?_entry h
      have hdesc : r.entry.get? "description" = some (r.description.getD Str.empty).json := by
        rw [r.get?_entry_description]
        cases r.description <;> rfl
      exact (NodeCreate.forall_mem_dump _ fun f v ↦ r.entry.get? f = v).mpr
        ⟨⟨hget (by decide), hget (by decide), hget (by decide), hget (by decide)⟩,
          (NodeFields.forall_mem_dump _ fun f v ↦ r.entry.get? f = v).mpr ⟨hget (by decide),
            hget (by decide), hget (by decide), hget (by decide), hget (by decide),
            hget (by decide), hget (by decide), hget (by decide), hdesc, hget (by decide),
            hget (by decide), hget (by decide), hget (by decide)⟩⟩
    · intro host h
      rw [hhost] at h
      cases h
      exact hstrip

/-! ## What a patch writes -/

/-- The request that a create would have been, with the fields of a patch. -/
def NodePatch.onto (p : NodePatch) (host : Str 1 253) (r : NodeCreate) : NodeCreate where
  id := r.id
  type := r.type
  name := p.name.getD r.name
  host := host
  port := p.port <|> r.port
  services := p.services <|> r.services
  kind := p.kind <|> r.kind
  probe := p.probe <|> r.probe
  health_path := p.health_path <|> r.health_path
  probe_kind := p.probe_kind <|> r.probe_kind
  admin_port := p.admin_port <|> r.admin_port
  protocol := p.protocol <|> r.protocol
  description := p.description <|> r.description
  db_kind := p.db_kind <|> r.db_kind
  db_user := p.db_user <|> r.db_user
  db_password := p.db_password <|> r.db_password
  db_database := p.db_database <|> r.db_database

theorem map_orElse {α : Type} (f : α → Json) (x y : Option α) :
    (x.map f <|> y.map f) = (x <|> y).map f := by
  cases x <;> rfl

/-- A field that a patch may overwrite. -/
theorem Overwrites.field_eq {p : NodePatch} (h : Overwrites p e e') {α : Type} {f : String}
    {g : α → Json} {x y : Option α} (hf : f ≠ "host") (hx : p.dump.lookup f = some (x.map g))
    (hy : e.get? f = y.map g) : e'.get? f = (x <|> y).map g := by
  rw [h.get?_eq, NodePatch.given, if_neg hf, p.get?_modelDump, hx, hy]
  exact map_orElse g x y

/-- The host that a patch leaves is one that a create could have given, unless it is empty. -/
theorem exists_host {host : Str 1 253} (h : Text.strip host.val.toList ≠ []) :
    ∃ s : Str 1 253, s.val = String.ofList (Text.strip host.val.toList) := by
  have hle : (Text.strip host.val.toList).length ≤ host.val.length := by
    rw [← String.length_toList]
    exact (List.rdropWhile_prefix _ _).length_le.trans (List.dropWhile_suffix _).length_le
  refine ⟨⟨String.ofList (Text.strip host.val.toList), ?_, ?_⟩, rfl⟩
  · rw [String.length_ofList]
    exact List.length_pos_iff.mpr h
  · rw [String.length_ofList]
    exact hle.trans host.property.2

theorem kept_of_overwrites {p : NodePatch} (h : Overwrites p e e') (he : e.Kept)
    (hc : Contract e') : e'.Kept ↔
      ∀ host, p.host = some host → Text.strip host.val.toList ≠ [] := by
  obtain ⟨r, hr⟩ := he.create
  obtain ⟨⟨hid, htype, hname, hhost⟩, hfields⟩ :=
    (NodeCreate.forall_mem_dump r fun f v ↦ e.get? f = v).mp hr
  obtain ⟨hport, hservices, hkind, hprobe, hhealth_path, hprobe_kind, hadmin_port, hprotocol,
    hdescription, hdb_kind, hdb_user, hdb_password, hdb_database⟩ :=
    (NodeFields.forall_mem_dump _ fun f v ↦ e.get? f = v).mp hfields
  have hhost' : e'.get? "host" =
      ((p.host.map fun host ↦ .str (String.ofList (Text.strip host.val.toList))) <|>
        some r.host.json) := by
    rw [h.get?_eq, NodePatch.given, if_pos rfl, hhost]
  constructor
  · rintro hkept host hp hempty
    -- the host is empty now, which no create gives
    obtain ⟨r', hr'⟩ := hkept.create
    have hnow := ((NodeCreate.forall_mem_dump r' fun f v ↦ e'.get? f = v).mp hr').1.2.2.2
    rw [hhost', hp, Option.map_some, hempty] at hnow
    have hval : "" = r'.host.val := Json.str.inj (Option.some.inj hnow)
    exact absurd r'.host.property.1 (by rw [← hval]; decide)
  · intro htidy
    -- the host of the patch, or the one that was there
    obtain ⟨host, hnow, hstrip⟩ : ∃ host : Str 1 253, e'.get? "host" = some host.json ∧
        Text.strip host.val.toList = host.val.toList := by
      cases hp : p.host with
      | none =>
          rw [hp] at hhost'
          exact ⟨r.host, hhost', he.host _ hhost⟩
      | some given =>
          obtain ⟨s, hs⟩ := exists_host (htidy given hp)
          rw [hp] at hhost'
          have hjson : s.json = .str (String.ofList (Text.strip given.val.toList)) :=
            congrArg Json.str hs
          refine ⟨s, by rw [hhost', hjson]; rfl, ?_⟩
          rw [hs, String.toList_ofList]
          exact Text.strip_strip _
    refine ⟨⟨p.onto host r, ?_⟩, hc, fun host' hhost' ↦ ?_⟩
    · have hname' : e'.get? "name" = some (p.name.getD r.name).json := by
        have hover := h.field_eq (y := some r.name) (by decide) (x := p.name) (g := Str.json) rfl
          hname
        rw [hover]
        cases p.name <;> rfl
      exact (NodeCreate.forall_mem_dump _ fun f v ↦ e'.get? f = v).mpr
        ⟨⟨h.id_eq.trans hid, h.type_eq.trans htype, hname', hnow⟩,
          (NodeFields.forall_mem_dump _ fun f v ↦ e'.get? f = v).mpr ⟨
            h.field_eq (by decide) rfl hport, h.field_eq (by decide) rfl hservices,
            h.field_eq (by decide) rfl hkind, h.field_eq (by decide) rfl hprobe,
            h.field_eq (by decide) rfl hhealth_path, h.field_eq (by decide) rfl hprobe_kind,
            h.field_eq (by decide) rfl hadmin_port, h.field_eq (by decide) rfl hprotocol,
            h.field_eq (by decide) rfl hdescription, h.field_eq (by decide) rfl hdb_kind,
            h.field_eq (by decide) rfl hdb_user, h.field_eq (by decide) rfl hdb_password,
            h.field_eq (by decide) rfl hdb_database⟩⟩
    · rw [hnow] at hhost'
      cases hhost'
      exact hstrip

/-! ## The requests -/

theorem kept_mapStep_iff {r : Request} (h : MapStep reg r none reg') (hkept : reg.Kept) :
    reg'.Kept ↔ r.Tidy := by
  cases h with
  | created hid hmem hc => exact (Registry.kept_set hkept).trans (kept_entry_iff hc)
  | patched hempty he hover hc =>
      exact (Registry.kept_set hkept).trans (kept_of_overwrites hover (hkept _ _ he) hc)
  | deleted hmem => exact iff_of_true hkept.erase trivial

/-- A request that is accepted is a step of the map. -/
theorem mapStep_of_accept {r : Request} (hrep : Represents cfg file reg)
    (h : accept cfg file r = some file') :
    ∃ reg', MapStep reg r none reg' ∧ Represents cfg file' reg' := by
  obtain ⟨es, hload, hm⟩ := hrep
  have hclean : Clean cfg file r := by
    by_contra hclean
    obtain ⟨text, herror⟩ := entries_of_not_clean hload hm hclean
    rw [accept, serve_error herror] at h
    cases h
  obtain ⟨reg', hstep, -, hrep'⟩ := steps_of_clean hload hm hclean
  rw [accept] at h
  split at h
  · rename_i left hserve
    cases h
    rw [hserve] at hstep hrep'
    exact ⟨reg', hstep, hrep'⟩
  · cases h

/-- From a configuration whose entries are kept, a run of accepted requests keeps them if and
only if no create has blanks around its host and no patch gives a host of blanks only. -/
theorem always_allKept_iff (cfg : Settings) {file file' : ConfigFile} {rs : List Request}
    (hkept : AllKept cfg file) (hrun : (accept cfg).run file rs = some file') :
    (accept cfg).Always (AllKept cfg) file rs ↔ ∀ r ∈ rs, r.Tidy := by
  rw [← Machine.meets_iff_forall hrun]
  have hrep : ∃ reg, Represents cfg file reg := by
    obtain ⟨es, hload, -⟩ := hkept
    exact ⟨_, es, hload, models_ofEntries hload⟩
  refine Machine.always_iff_meets_of_invariant (J := fun file ↦ ∃ reg, Represents cfg file reg)
    ?_ ?_ hrep hkept hrun
  · rintro file r file' ⟨reg, hrep⟩ h
    obtain ⟨reg', -, hrep'⟩ := mapStep_of_accept hrep h
    exact ⟨reg', hrep'⟩
  · rintro file r file' ⟨reg, hrep⟩ hkept h
    obtain ⟨reg', hstep, hrep'⟩ := mapStep_of_accept hrep h
    rw [allKept_iff hrep', kept_mapStep_iff hstep ((allKept_iff hrep).mp hkept)]

/-- A patch of the host alone. -/
def patchHost (host : Str 1 253) : NodePatch :=
  { NodeFields.none with name := none, host := some host }

/-- An edge node at a host. -/
def createHost (host : Str 1 253) : NodeCreate :=
  { NodeFields.none with
    id := ⟨"c", by decide⟩, type := ⟨"edge-node", by decide⟩, name := ⟨"C", by decide⟩, host }

theorem allKept_oneNode : AllKept defaults (oneNode (.str "edge-node")) := by
  let r : NodeCreate := { NodeFields.none with
    description := some Str.empty, id := ⟨"a", by decide⟩, type := ⟨"edge-node", by decide⟩,
    name := ⟨"A", by decide⟩, host := ⟨"10.0.0.1", by decide⟩ }
  refine ⟨_, rfl, List.forall_mem_singleton.mpr ⟨⟨r, ?_⟩, .edge_node rfl fun v hv ↦ ?_, ?_⟩⟩
  · exact (NodeCreate.forall_mem_dump r fun f v ↦ Dict.get? _ f = v).mpr
      ⟨⟨rfl, rfl, rfl, rfl⟩, (NodeFields.forall_mem_dump _ fun f v ↦ Dict.get? _ f = v).mpr
        ⟨rfl, rfl, rfl, rfl, rfl, rfl, rfl, rfl, rfl, rfl, rfl, rfl, rfl⟩⟩
  · exact absurd hv.symm (Option.some_ne_none v)
  · intro host hhost
    cases hhost
    decide

theorem allKept_tidy_requests : ∃ file, (accept defaults).run (oneNode (.str "edge-node"))
    [.create (createHost ⟨"x", by decide⟩), .patch "a" (patchHost ⟨" y ", by decide⟩)] =
      some file ∧
    (accept defaults).Always (AllKept defaults) (oneNode (.str "edge-node"))
      [.create (createHost ⟨"x", by decide⟩), .patch "a" (patchHost ⟨" y ", by decide⟩)] := by
  refine ⟨_, rfl, (always_allKept_iff defaults allKept_oneNode rfl).mpr ?_⟩
  intro r hr
  simp only [List.mem_cons, List.not_mem_nil, or_false] at hr
  obtain rfl | rfl := hr
  · rw [Request.Tidy]
    decide
  · intro host hhost
    cases hhost
    decide

/-- A create keeps the blanks around its host, and a patch with a host of blanks leaves an
empty one. -/
theorem host_not_kept : AllKept defaults (oneNode (.str "edge-node")) ∧
    (∃ file, (accept defaults).run (oneNode (.str "edge-node"))
      [.create (createHost ⟨" x ", by decide⟩)] = some file ∧ ¬ AllKept defaults file) ∧
    ∃ file, (accept defaults).run (oneNode (.str "edge-node"))
      [.patch "a" (patchHost ⟨"   ", by decide⟩)] = some file ∧ ¬ AllKept defaults file := by
  refine ⟨allKept_oneNode, ⟨_, rfl, ?_⟩, ⟨_, rfl, ?_⟩⟩
  · rintro ⟨es, hload, hkept⟩
    cases hload
    have hstrip := (hkept _ (List.mem_cons_of_mem _ List.mem_cons_self)).host " x " rfl
    exact absurd hstrip (by decide)
  · rintro ⟨es, hload, hkept⟩
    cases hload
    obtain ⟨r, hr⟩ := (hkept _ List.mem_cons_self).create
    have hhost := ((NodeCreate.forall_mem_dump r fun f v ↦ Dict.get? _ f = v).mp hr).1.2.2.2
    have hval : "" = r.host.val := Json.str.inj (Option.some.inj hhost)
    exact absurd r.host.property.1 (by rw [← hval]; decide)

end SensorFusion.Nodes
