import SensorFusion.Nodes.Refinement

/-!
# The routes of the service

A request is given to the first route, in the order of their declarations, that has its
method and whose path matches.  `ID_RE` is meant to make every id usable in a path without
escaping, so that a node can be read, patched and deleted under it.  `Addressable` is that
promise, and it fails for two kinds of ids that `create_node` accepts.
-/

namespace SensorFusion.Nodes

/-! ## The route table -/

inductive Method where
  | get
  | post
  | patch
  | delete
deriving DecidableEq

/-- The path of a decorator: a fixed one, or one that ends in `{node_id}`. -/
inductive PathTemplate where
  | fixed (path : String)
  | node (base : String)
deriving DecidableEq

/-- A path operation, with the path parameter that it is called with. -/
inductive Operation where
  | health
  | refresh_now
  | current
  | one (node_id : String)
  | create_node
  | delete_node (node_id : String)
  | patch_one (node_id : String)
deriving DecidableEq

structure Endpoint where
  method : Method
  path : PathTemplate
  call : String → Operation

/-- The decorators in the order of the module. -/
def ROUTES : List Endpoint :=
  [⟨.get, .fixed "/health", fun _ ↦ .health⟩,
   ⟨.post, .fixed "/nodes/refresh", fun _ ↦ .refresh_now⟩,
   ⟨.get, .fixed "/nodes/current", fun _ ↦ .current⟩,
   ⟨.get, .node "/nodes/", .one⟩,
   ⟨.post, .fixed "/nodes", fun _ ↦ .create_node⟩,
   ⟨.delete, .node "/nodes/", .delete_node⟩,
   ⟨.patch, .node "/nodes/", .patch_one⟩]

/-- How FastAPI matches the path of a request: the value of the path parameter, which is the
empty text for a fixed path.  A fixed path matches itself, and at most a newline more; a
path parameter takes any text without a slash. -/
structure Matching where
  capture : PathTemplate → String → Option String
  fixed_self : ∀ path, (capture (.fixed path) path).isSome
  eq_of_fixed : ∀ path p, (capture (.fixed path) p).isSome → p = path ∨ p = path ++ "\n"
  node_append : ∀ base s, s ≠ "" → '/' ∉ s.toList → capture (.node base) (base ++ s) = some s

/-- The first route with the method whose path matches; without one, the framework answers
with a 404 or a 405 itself. -/
def dispatch (m : Matching) (method : Method) (path : String) : Option Operation :=
  ROUTES.findSome? fun r ↦ if r.method = method then (m.capture r.path path).map r.call else none

/-- `one`. -/
def one (state : Registry) (node_id : String) : Except Failure Entry :=
  match state.get? (.str node_id) with
  | none => .error (.http 404 ("unknown node: " ++ node_id))
  | some e => .ok e

/-! ## What is promised of an id -/

/-- The characters of an id after its first one. -/
def isWord (c : Char) : Bool := isAlnum c || c == '_' || c == '-'

/-- Alphanumeric, dash and underscore, 1 to 64 characters, the first one alphanumeric. -/
def Documented (id : String) : Prop :=
  ∃ c word, id.toList = c :: word ∧ isAlnum c = true ∧ word.length ≤ 63 ∧ word.all isWord = true

/-- A request whose write does not fail changes the entry under an id and no other one; if it
succeeds, it is a step of the map. -/
def WritesOnly (cfg : Settings) (id : String) (r : Request) : Prop :=
  ∀ file reg, Represents cfg file reg → ∃ reg', Represents cfg (serve cfg r .done file).2 reg' ∧
    (∀ k, k ≠ .str id → reg'.get? k = reg.get? k) ∧
    ((serve cfg r .done file).1 = .ok () → MapStep reg r none reg')

/-- A call acts on exactly the node with an id. -/
def ActsOn (cfg : Settings) (id : String) : Operation → Prop
  | .one node_id => ∀ state e, one state node_id = .ok e ↔ state.get? (.str id) = some e
  | .patch_one node_id => ∀ req, WritesOnly cfg id (.patch node_id req)
  | .delete_node node_id => WritesOnly cfg id (.delete node_id)
  | _ => False

/-- A method on the path of a node reaches a handler, which acts on exactly that node. -/
def Reaches (cfg : Settings) (m : Matching) (id : String) (method : Method)
    (handler : String → Operation) : Prop :=
  dispatch m method ("/nodes/" ++ id) = some (handler id) ∧ ActsOn cfg id (handler id)

/-- A node with this id can be addressed. -/
structure Addressable (cfg : Settings) (m : Matching) (id : String) : Prop where
  documented : Documented id
  get : Reaches cfg m id .get .one
  patch : Reaches cfg m id .patch .patch_one
  delete : Reaches cfg m id .delete .delete_node

/-! ## The grammar of ids -/

theorem ID_RE_iff (id : String) :
    ID_RE id = true ↔ ∃ c word, Text.beforeDollar id.toList = c :: word ∧ isAlnum c = true ∧
      word.length ≤ 63 ∧ word.all isWord = true := by
  rw [ID_RE]
  cases Text.beforeDollar id.toList with
  | nil => exact iff_of_false (by simp) fun ⟨_, _, h, _⟩ ↦ nomatch h
  | cons c word =>
      simp only [Bool.and_eq_true, decide_eq_true_eq, and_assoc]
      constructor
      · rintro ⟨hc, hlen, hword⟩
        exact ⟨c, word, rfl, hc, hlen, hword⟩
      · rintro ⟨_, _, ⟨⟩, h⟩
        exact h

/-- An id that passes the check is a documented one, unless its last character is a
newline, before which the dollar matches too. -/
theorem documented_of_ID_RE {id : String} (h : ID_RE id = true)
    (hend : id.toList.getLast? ≠ some '\n') : Documented id := by
  obtain ⟨c, word, hid, hword⟩ := (ID_RE_iff id).mp h
  rw [Text.beforeDollar, if_neg hend] at hid
  exact ⟨c, word, hid, hword⟩

theorem isWord_of_isAlnum {c : Char} (h : isAlnum c = true) : isWord c = true := by
  rw [isWord, h]
  rfl

namespace Documented

variable {id : String}

theorem isWord_of_mem (h : Documented id) {c : Char} (hc : c ∈ id.toList) : isWord c = true := by
  obtain ⟨c', word, hid, hfirst, -, hword⟩ := h
  rw [hid, List.mem_cons] at hc
  rcases hc with rfl | hc
  · exact isWord_of_isAlnum hfirst
  · exact List.all_eq_true.mp hword c hc

theorem notMem (h : Documented id) {c : Char} (hc : isWord c = false) : c ∉ id.toList :=
  fun hmem ↦ by rw [h.isWord_of_mem hmem] at hc; cases hc

theorem ne_empty (h : Documented id) : id ≠ "" := by
  rintro rfl
  obtain ⟨_, _, hid, _⟩ := h
  cases hid

end Documented

/-! ## Where a path goes -/

theorem nodes_append_inj {s t : String} : "/nodes/" ++ s = "/nodes/" ++ t ↔ s = t := by
  rw [← String.toList_inj, String.toList_append, String.toList_append, List.append_cancel_left_eq,
    String.toList_inj]

section Dispatch

variable (m : Matching) {id : String}

/-- A documented id does not end in a newline, so that a fixed path which is not its own
does not match it. -/
theorem capture_fixed (h : Documented id) {path : String} (hpath : path ≠ "/nodes/" ++ id) :
    m.capture (.fixed path) ("/nodes/" ++ id) = none := by
  by_contra hsome
  rw [← ne_eq, ← Option.isSome_iff_ne_none] at hsome
  rcases m.eq_of_fixed _ _ hsome with heq | heq
  · exact hpath heq.symm
  · have hmem : '\n' ∈ ("/nodes/" ++ id).toList := by
      rw [heq, String.toList_append]
      exact List.mem_append_right _ (by decide)
    rw [String.toList_append, List.mem_append] at hmem
    rcases hmem with hmem | hmem
    · exact absurd hmem (by decide)
    · exact h.notMem rfl hmem

theorem capture_node (h : Documented id) :
    m.capture (.node "/nodes/") ("/nodes/" ++ id) = some id :=
  m.node_append _ _ h.ne_empty (h.notMem rfl)

theorem health_ne : "/health" ≠ "/nodes/" ++ id := by
  intro h
  have hlist := congrArg String.toList h
  rw [String.toList_append] at hlist
  exact absurd (congrArg (·[1]?) hlist) (by simp)

theorem dispatch_delete (h : Documented id) :
    dispatch m .delete ("/nodes/" ++ id) = some (.delete_node id) := by
  simp [dispatch, ROUTES, capture_node m h]

theorem dispatch_patch (h : Documented id) :
    dispatch m .patch ("/nodes/" ++ id) = some (.patch_one id) := by
  simp [dispatch, ROUTES, capture_node m h]

theorem current_path : "/nodes/current" = "/nodes/" ++ "current" := by decide

theorem dispatch_get (h : Documented id) (hid : id ≠ "current") :
    dispatch m .get ("/nodes/" ++ id) = some (.one id) := by
  have hcurrent : "/nodes/current" ≠ "/nodes/" ++ id := by
    rw [current_path, Ne, nodes_append_inj]
    exact Ne.symm hid
  simp [dispatch, ROUTES, capture_fixed m h health_ne, capture_fixed m h hcurrent,
    capture_node m h]

/-- The path of a node that is called "current" is the one of the listing. -/
theorem dispatch_get_current : dispatch m .get ("/nodes/" ++ "current") = some .current := by
  have hdocumented : Documented "current" := ⟨'c', _, rfl, by decide, by decide, by decide⟩
  have hhealth := capture_fixed m hdocumented health_ne
  obtain ⟨value, hvalue⟩ := Option.isSome_iff_exists.mp (m.fixed_self "/nodes/current")
  rw [← current_path] at hhealth ⊢
  simp [dispatch, ROUTES, hhealth, hvalue]

end Dispatch

/-! ## What the handlers do -/

section Handlers

variable (cfg : Settings) (id : String)

theorem actsOn_one : ActsOn cfg id (.one id) := by
  intro state e
  rw [one]
  cases state.get? (.str id) with
  | none => exact iff_of_false nofun nofun
  | some e' => rw [Except.ok.injEq, Option.some.injEq]

variable {cfg id}

theorem outcome_eq_none {result : Except Failure Unit} (h : result = .ok ()) :
    outcome result = none := by
  rw [h]
  rfl

/-- The entries that the map keeps when it takes a step for one node. -/
theorem WritesOnly.of_steps {r : Request}
    (hsteps : ∀ file es reg, loadConfig cfg file = .ok es → Models es reg →
      Steps cfg file reg r ∨ ∃ f, r.entries cfg file = .error f)
    (hkeep : ∀ reg status reg', MapStep reg r status reg' →
      ∀ k, k ≠ .str id → reg'.get? k = reg.get? k) : WritesOnly cfg id r := by
  rintro file reg ⟨es, hload, hm⟩
  rcases hsteps file es reg hload hm with ⟨reg', hstep, -, hrep⟩ | ⟨f, hf⟩
  · refine ⟨reg', hrep, hkeep reg _ reg' hstep, fun hok ↦ ?_⟩
    rwa [outcome_eq_none hok] at hstep
  · rw [serve_error hf]
    exact ⟨reg, ⟨es, hload, hm⟩, fun _ _ ↦ rfl, nofun⟩

theorem MapStep.get?_of_patch {reg reg' : Registry} {req : NodePatch} {status : Option ℕ}
    (h : MapStep reg (.patch id req) status reg') {k : Key} (hk : k ≠ .str id) :
    reg'.get? k = reg.get? k := by
  cases h with
  | empty _ => rfl
  | patch_unknown _ _ => rfl
  | patch_contract _ _ _ _ => rfl
  | patched _ _ _ _ => exact Dict.get?_set_ne _ _ hk

theorem MapStep.get?_of_delete {reg reg' : Registry} {status : Option ℕ}
    (h : MapStep reg (.delete id) status reg') {k : Key} (hk : k ≠ .str id) :
    reg'.get? k = reg.get? k := by
  cases h with
  | delete_unknown _ => rfl
  | deleted _ => rw [Dict.get?_erase, if_neg hk]

variable (cfg id)

/-- A patch that meets a type without a hash fails before it writes. -/
theorem actsOn_patch : ActsOn cfg id (.patch_one id) := by
  intro req
  refine .of_steps (fun file es reg hload hm ↦ ?_) fun _ _ _ hstep _ ↦ hstep.get?_of_patch
  by_cases hclean : Clean cfg file (.patch id req)
  · exact Or.inl (steps_patch hload hm hclean)
  · obtain ⟨text, htext⟩ := entries_of_not_clean hload hm hclean
    exact Or.inr ⟨_, htext⟩

theorem actsOn_delete : ActsOn cfg id (.delete_node id) :=
  .of_steps (fun _ _ _ hload hm ↦ Or.inl (steps_delete hload hm id))
    fun _ _ _ hstep _ ↦ hstep.get?_of_delete

end Handlers

/-! ## Which ids can be addressed -/

/-- What `create_node` accepts has passed the check of ids. -/
theorem ID_RE_of_createNode {cfg : Settings} {req : NodeCreate} {file : ConfigFile}
    {es : List Entry} (h : createNode cfg req file = .ok es) : ID_RE req.id.val = true := by
  by_contra hid
  rw [createNode, validateId, if_neg hid] at h
  cases h

theorem addressable_iff (cfg : Settings) (m : Matching) {id : String} (h : ID_RE id = true) :
    Addressable cfg m id ↔ id ≠ "current" ∧ id.toList.getLast? ≠ some '\n' := by
  constructor
  · intro haddr
    constructor
    · rintro rfl
      have hget := haddr.get.1
      rw [dispatch_get_current] at hget
      cases hget
    · intro hend
      exact haddr.documented.notMem rfl (List.mem_of_getLast? hend)
  · rintro ⟨hid, hend⟩
    have hdoc := documented_of_ID_RE h hend
    exact ⟨hdoc, ⟨dispatch_get m hdoc hid, actsOn_one cfg id⟩,
      ⟨dispatch_patch m hdoc, actsOn_patch cfg id⟩,
      ⟨dispatch_delete m hdoc, actsOn_delete cfg id⟩⟩

/-- An id that `create_node` accepts can be addressed exactly when it is not the name of the
listing and does not end in a newline. -/
theorem created_addressable_iff (cfg : Settings) (m : Matching) {req : NodeCreate}
    {file : ConfigFile} {es : List Entry} (h : createNode cfg req file = .ok es) :
    Addressable cfg m req.id.val ↔
      req.id.val ≠ "current" ∧ req.id.val.toList.getLast? ≠ some '\n' :=
  addressable_iff cfg m (ID_RE_of_createNode h)

/-- The regular expressions that the routes are compiled to. -/
def starlette : Matching where
  capture
    | .fixed path, p => if p = path ∨ p = path ++ "\n" then some "" else none
    | .node base, p =>
        let value := p.toList.drop base.length
        if base.toList <+: p.toList ∧ value ≠ [] ∧ '/' ∉ value then some (String.ofList value)
        else none
  fixed_self path := by simp
  eq_of_fixed path p h := by
    by_contra hne
    dsimp only at h
    rw [if_neg hne] at h
    cases h
  node_append base s hs hslash := by
    have hdrop : (base ++ s).toList.drop base.length = s.toList := by
      rw [String.toList_append, ← String.length_toList, List.drop_left]
    have hbase : base.toList <+: (base ++ s).toList := by
      rw [String.toList_append]
      exact List.prefix_append _ _
    have hne : s.toList ≠ [] := fun h ↦ hs (String.toList_inj.mp h)
    simp only [hdrop]
    rw [if_pos ⟨hbase, hne, hslash⟩, String.ofList_toList]

/-- A service that answers over HTTP, under an id. -/
def serviceNode (id : Str 1 64) : NodeCreate :=
  { NodeFields.none with
    id := id
    type := ⟨"service", by decide⟩
    name := ⟨"Service", by decide⟩
    host := ⟨"127.0.0.1", by decide⟩
    port := some ⟨8080, by decide⟩
    health_path := some ⟨"/health", by decide⟩ }

theorem created_addressable_iff_apex :
    ∃ es, createNode defaults (serviceNode ⟨"apex", by decide⟩) (.document (.arr [])) = .ok es ∧
      Addressable defaults starlette "apex" :=
  ⟨_, rfl, (@created_addressable_iff defaults starlette (serviceNode ⟨"apex", by decide⟩)
    (.document (.arr [])) _ rfl).mpr ⟨by decide, by decide⟩⟩

/-- A node that is called "current" is created and cannot be read, and an id may end in a
newline. -/
theorem current_and_newline_created :
    (∃ es, createNode defaults (serviceNode ⟨"current", by decide⟩) (.document (.arr [])) =
        .ok es ∧ ¬ Addressable defaults starlette "current") ∧
      ∃ es, createNode defaults (serviceNode ⟨"apex\n", by decide⟩) (.document (.arr [])) =
        .ok es ∧ ¬ Addressable defaults starlette "apex\n" := by
  refine ⟨⟨_, rfl, fun h ↦ ?_⟩, ⟨_, rfl, fun h ↦ ?_⟩⟩
  · have hget := h.get.1
    rw [dispatch_get_current] at hget
    cases hget
  · exact h.documented.notMem (c := '\n') rfl (by decide)

end SensorFusion.Nodes
