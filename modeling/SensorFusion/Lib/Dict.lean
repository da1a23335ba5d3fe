import Mathlib.Data.List.Nodup
import Mathlib.Data.List.Lookmap
import Mathlib.Data.List.Basic

/-!
# Insertion-ordered dictionaries

A dictionary that remembers the order in which its keys were first set: setting
a present key overwrites its value in place, setting an absent one appends.  The
structure carries the proof that no key occurs twice, so a dictionary is decided
by its key order and its lookup function (`Dict.ext_get?`), and every operation is
described by what it does to those two.
-/

namespace SensorFusion

universe u v

/-- An insertion-ordered dictionary. -/
@[ext]
structure Dict (α : Type u) (β : Type v) where
  /-- The items, in insertion order. -/
  items : List (α × β)
  nodup : (items.map Prod.fst).Nodup

namespace Dict

variable {α : Type u} {β : Type v}

/-- The keys, in insertion order. -/
def keys (d : Dict α β) : List α := d.items.map Prod.fst

instance : Membership α (Dict α β) := ⟨fun d k ↦ k ∈ d.keys⟩

theorem mem_def {d : Dict α β} {k : α} : k ∈ d ↔ k ∈ d.keys := Iff.rfl

theorem nodup_keys (d : Dict α β) : d.keys.Nodup := d.nodup

instance [DecidableEq α] (d : Dict α β) (k : α) : Decidable (k ∈ d) :=
  inferInstanceAs (Decidable (k ∈ d.keys))

instance : EmptyCollection (Dict α β) := ⟨⟨[], List.nodup_nil⟩⟩

@[simp] theorem keys_empty : (∅ : Dict α β).keys = [] := rfl

@[simp] theorem notMem_empty (k : α) : k ∉ (∅ : Dict α β) := List.not_mem_nil

instance [DecidableEq α] [DecidableEq β] : DecidableEq (Dict α β) := fun d d' ↦
  decidable_of_iff (d.items = d'.items) Dict.ext_iff.symm

variable [DecidableEq α]

/-! ## Lookup -/

/-- The value at a key. -/
def get? (d : Dict α β) (k : α) : Option β := d.items.lookup k

@[simp] theorem get?_empty (k : α) : (∅ : Dict α β).get? k = none := rfl

theorem lookup_eq_some_of_mem {l : List (α × β)} (h : (l.map Prod.fst).Nodup) {k : α} {v : β}
    (hm : (k, v) ∈ l) : l.lookup k = some v := by
  induction l with
  | nil => exact absurd hm List.not_mem_nil
  | cons a l ih =>
      rw [List.map_cons, List.nodup_cons] at h
      rcases List.mem_cons.mp hm with rfl | hm
      · simp
      · have hne : k ≠ a.1 := by
          rintro rfl
          exact h.1 (List.mem_map.mpr ⟨_, hm, rfl⟩)
        rw [List.lookup_cons, beq_eq_false_iff_ne.mpr hne]
        exact ih h.2 hm

theorem mem_of_lookup_eq_some {l : List (α × β)} {k : α} {v : β} (h : l.lookup k = some v) :
    (k, v) ∈ l := by
  obtain ⟨before, after, rfl, -⟩ := List.lookup_eq_some_iff.mp h
  exact List.mem_append_right before List.mem_cons_self

theorem get?_eq_some_iff {d : Dict α β} {k : α} {v : β} :
    d.get? k = some v ↔ (k, v) ∈ d.items :=
  ⟨mem_of_lookup_eq_some, lookup_eq_some_of_mem d.nodup⟩

theorem mem_iff_get? {d : Dict α β} {k : α} : k ∈ d ↔ ∃ v, d.get? k = some v := by
  simp only [get?_eq_some_iff]
  constructor
  · intro h
    obtain ⟨⟨k', v⟩, hm, rfl⟩ := List.mem_map.mp h
    exact ⟨v, hm⟩
  · rintro ⟨v, hm⟩
    exact List.mem_map.mpr ⟨_, hm, rfl⟩

theorem get?_eq_none_iff {d : Dict α β} {k : α} : d.get? k = none ↔ k ∉ d := by
  rw [mem_iff_get?]
  cases d.get? k <;> simp

theorem get?_isSome_iff {d : Dict α β} {k : α} : (d.get? k).isSome ↔ k ∈ d := by
  rw [mem_iff_get?, Option.isSome_iff_exists]

/-- A dictionary is decided by its key order and its lookups. -/
theorem ext_get? {d d' : Dict α β} (hk : d.keys = d'.keys) (hg : ∀ k, d.get? k = d'.get? k) :
    d = d' := by
  apply Dict.ext
  apply List.ext_getElem
  · simpa [keys] using congrArg List.length hk
  · intro i h h'
    have hfst : d.items[i].1 = d'.items[i].1 := by
      have h₁ : d.keys[i]? = d'.keys[i]? := by rw [hk]
      simpa [keys, h, h'] using h₁
    have h₁ : d.get? d.items[i].1 = some d.items[i].2 :=
      get?_eq_some_iff.mpr (List.getElem_mem h)
    have h₂ : d'.get? d'.items[i].1 = some d'.items[i].2 :=
      get?_eq_some_iff.mpr (List.getElem_mem h')
    rw [hg, hfst, h₂] at h₁
    exact Prod.ext hfst (Option.some.inj h₁).symm

/-! ## Setting a key -/

/-- Overwrite the first item at a key, or append one. -/
def setItem (k : α) (v : β) : List (α × β) → List (α × β)
  | [] => [(k, v)]
  | a :: l => if a.1 = k then (k, v) :: l else a :: setItem k v l

theorem map_fst_setItem (k : α) (v : β) (l : List (α × β)) :
    (setItem k v l).map Prod.fst =
      if k ∈ l.map Prod.fst then l.map Prod.fst else l.map Prod.fst ++ [k] := by
  induction l with
  | nil => rfl
  | cons a l ih =>
      by_cases ha : a.1 = k
      · simp [setItem, ha]
      · have hne : k ≠ a.1 := fun h ↦ ha h.symm
        rw [setItem, if_neg ha, List.map_cons, ih]
        by_cases hm : k ∈ l.map Prod.fst
        · simp [hm]
        · simp only [hm, if_false, List.map_cons, List.mem_cons, hne, or_self, List.cons_append]

theorem lookup_setItem (k : α) (v : β) (l : List (α × β)) (k' : α) :
    (setItem k v l).lookup k' = if k' = k then some v else l.lookup k' := by
  induction l with
  | nil =>
      by_cases h : k' = k
      · simp [setItem, h]
      · rw [setItem, List.lookup_cons, beq_eq_false_iff_ne.mpr h, if_neg h]
  | cons a l ih =>
      by_cases ha : a.1 = k
      · by_cases h : k' = k
        · simp [setItem, ha, h]
        · have h' : (k' == a.1) = false := by rw [ha]; exact beq_eq_false_iff_ne.mpr h
          rw [setItem, if_pos ha, List.lookup_cons, List.lookup_cons, h', if_neg h]
          simp only [beq_eq_false_iff_ne.mpr h]
      · rw [setItem, if_neg ha, List.lookup_cons, List.lookup_cons, ih]
        by_cases h' : k' = a.1
        · have hk : k' ≠ k := fun h ↦ ha (h' ▸ h)
          simp [h', ha]
        · simp [beq_eq_false_iff_ne.mpr h']

/-- `d[k] = v`. -/
def set (d : Dict α β) (k : α) (v : β) : Dict α β where
  items := setItem k v d.items
  nodup := by
    rw [map_fst_setItem]
    split
    · exact d.nodup
    · rename_i h
      exact List.nodup_append.mpr ⟨d.nodup, List.nodup_singleton k,
        fun a ha b hb hab ↦ h (List.mem_singleton.mp hb ▸ hab ▸ ha)⟩

theorem items_set (d : Dict α β) (k : α) (v : β) : (d.set k v).items = setItem k v d.items := rfl

theorem get?_set (d : Dict α β) (k k' : α) (v : β) :
    (d.set k v).get? k' = if k' = k then some v else d.get? k' :=
  lookup_setItem k v d.items k'

@[simp] theorem get?_set_self (d : Dict α β) (k : α) (v : β) : (d.set k v).get? k = some v := by
  rw [get?_set, if_pos rfl]

theorem get?_set_ne (d : Dict α β) {k k' : α} (v : β) (h : k' ≠ k) :
    (d.set k v).get? k' = d.get? k' := by
  rw [get?_set, if_neg h]

/-- Setting a present key keeps its place; setting an absent one appends it. -/
theorem keys_set (d : Dict α β) (k : α) (v : β) :
    (d.set k v).keys = if k ∈ d then d.keys else d.keys ++ [k] :=
  map_fst_setItem k v d.items

@[simp] theorem mem_set {d : Dict α β} {k k' : α} {v : β} :
    k' ∈ d.set k v ↔ k' = k ∨ k' ∈ d := by
  rw [mem_iff_get?, mem_iff_get?, get?_set]
  by_cases h : k' = k <;> simp [h]

/-- `d.setdefault(k, v)`. -/
def setdefault (d : Dict α β) (k : α) (v : β) : Dict α β := if k ∈ d then d else d.set k v

theorem get?_setdefault (d : Dict α β) (k k' : α) (v : β) :
    (d.setdefault k v).get? k' = if k' = k then some ((d.get? k).getD v) else d.get? k' := by
  rw [setdefault]
  by_cases hm : k ∈ d
  · obtain ⟨w, hw⟩ := mem_iff_get?.mp hm
    rw [if_pos hm]
    by_cases h : k' = k
    · rw [if_pos h, h, hw]; rfl
    · rw [if_neg h]
  · rw [if_neg hm, get?_set, get?_eq_none_iff.mpr hm]
    rfl

theorem get?_setdefault_ne (d : Dict α β) {k k' : α} (v : β) (h : k' ≠ k) :
    (d.setdefault k v).get? k' = d.get? k' := by
  rw [get?_setdefault, if_neg h]

@[simp] theorem mem_setdefault {d : Dict α β} {k k' : α} {v : β} :
    k' ∈ d.setdefault k v ↔ k' = k ∨ k' ∈ d := by
  rw [setdefault]
  split
  · rename_i h
    constructor
    · exact Or.inr
    · rintro (rfl | h')
      exacts [h, h']
  · exact mem_set

/-- A default that is already there changes nothing. -/
theorem setdefault_of_mem {d : Dict α β} {k : α} (h : k ∈ d) (v : β) : d.setdefault k v = d :=
  if_pos h

/-! ## Merging -/

/-- `d.update(d')`: set every item of `d'` in turn. -/
def update (d d' : Dict α β) : Dict α β := d'.items.foldl (fun e a ↦ e.set a.1 a.2) d

/-- The dictionary of a list of items, later ones winning. -/
def ofList (l : List (α × β)) : Dict α β := l.foldl (fun e a ↦ e.set a.1 a.2) ∅

theorem get?_foldl_set (l : List (α × β)) (h : (l.map Prod.fst).Nodup) (d : Dict α β) (k : α) :
    (l.foldl (fun e a ↦ e.set a.1 a.2) d).get? k = (l.lookup k <|> d.get? k) := by
  induction l generalizing d with
  | nil => rfl
  | cons a l ih =>
      rw [List.map_cons, List.nodup_cons] at h
      rw [List.foldl_cons, ih h.2, List.lookup_cons, get?_set]
      by_cases hk : k = a.1
      · have hnone : l.lookup k = none := by
          cases hl : l.lookup k with
          | none => rfl
          | some v => exact absurd (List.mem_map.mpr ⟨_, mem_of_lookup_eq_some hl, hk⟩) h.1
        rw [hnone, if_pos hk, beq_iff_eq.mpr hk]
        rfl
      · rw [if_neg hk, beq_eq_false_iff_ne.mpr hk]

theorem get?_update (d d' : Dict α β) (k : α) :
    (d.update d').get? k = (d'.get? k <|> d.get? k) :=
  get?_foldl_set d'.items d'.nodup d k

theorem get?_update_of_notMem {d d' : Dict α β} {k : α} (h : k ∉ d') :
    (d.update d').get? k = d.get? k := by
  rw [get?_update, get?_eq_none_iff.mpr h]
  rfl

theorem mem_update {d d' : Dict α β} {k : α} : k ∈ d.update d' ↔ k ∈ d' ∨ k ∈ d := by
  rw [← get?_isSome_iff, get?_update, ← get?_isSome_iff, ← get?_isSome_iff]
  cases d'.get? k <;> simp

theorem keys_foldl_set (l : List (α × β)) (h : (l.map Prod.fst).Nodup) (d : Dict α β) :
    (l.foldl (fun e a ↦ e.set a.1 a.2) d).keys =
      d.keys ++ (l.map Prod.fst).filter (fun k ↦ k ∉ d) := by
  induction l generalizing d with
  | nil => simp
  | cons a l ih =>
      rw [List.map_cons, List.nodup_cons] at h
      rw [List.foldl_cons, ih h.2, keys_set, List.map_cons, List.filter_cons]
      have hfilter : (l.map Prod.fst).filter (fun k ↦ k ∉ d.set a.1 a.2) =
          (l.map Prod.fst).filter (fun k ↦ k ∉ d) := by
        apply List.filter_congr
        intro k hk
        have hne : k ≠ a.1 := fun hka ↦ h.1 (hka ▸ hk)
        simp [hne]
      rw [hfilter]
      by_cases hm : a.1 ∈ d <;> simp [hm]

/-- A merge keeps the keys of the left side in place and appends the new ones. -/
theorem keys_update (d d' : Dict α β) :
    (d.update d').keys = d.keys ++ d'.keys.filter (fun k ↦ k ∉ d) :=
  keys_foldl_set d'.items d'.nodup d

theorem get?_ofList {l : List (α × β)} (h : (l.map Prod.fst).Nodup) (k : α) :
    (ofList l).get? k = l.lookup k := by
  rw [ofList, get?_foldl_set l h, get?_empty]
  cases l.lookup k <;> rfl

/-- A list of items gives no other keys than its own. -/
theorem mem_of_mem_ofList {l : List (α × β)} {k : α} (h : k ∈ ofList l) : k ∈ l.map Prod.fst := by
  have hfold : ∀ (l : List (α × β)) (d : Dict α β), k ∈ l.foldl (fun e a ↦ e.set a.1 a.2) d →
      k ∈ d ∨ k ∈ l.map Prod.fst := by
    intro l
    induction l with
    | nil => exact fun d hd ↦ Or.inl hd
    | cons a l ih =>
        intro d hd
        rcases ih _ hd with hset | hl
        · rcases mem_set.mp hset with rfl | hd
          · exact Or.inr List.mem_cons_self
          · exact Or.inl hd
        · exact Or.inr (List.mem_cons_of_mem _ hl)
  exact (hfold l ∅ h).resolve_left (notMem_empty k)

/-- The items of a dictionary give it back. -/
@[simp] theorem ofList_items (d : Dict α β) : ofList d.items = d := by
  apply ext_get?
  · rw [ofList, keys_foldl_set d.items d.nodup, keys_empty]
    simp [← keys.eq_1]
  · exact get?_ofList d.nodup

/-- Merging a dictionary that already begins with the keys of `d` gives that
dictionary back. -/
theorem update_eq_right {d d' : Dict α β} (h : d.keys <+: d'.keys) : d.update d' = d' := by
  obtain ⟨r, hr⟩ := h
  have hmem : ∀ k, k ∈ d → k ∈ d' := fun k hk ↦ by
    rw [mem_def, ← hr]
    exact List.mem_append_left r hk
  apply ext_get?
  · have hnodup := d'.nodup_keys
    rw [← hr, List.nodup_append] at hnodup
    rw [keys_update, ← hr, List.filter_append]
    have h₁ : d.keys.filter (fun k ↦ k ∉ d) = [] := by simp [List.filter_eq_nil_iff, mem_def]
    have h₂ : r.filter (fun k ↦ k ∉ d) = r := by
      rw [List.filter_eq_self]
      intro k hk
      exact decide_eq_true fun hd : k ∈ d ↦ hnodup.2.2 k hd k hk rfl
    rw [h₁, h₂, List.nil_append]
  · intro k
    rw [get?_update]
    cases hk : d'.get? k with
    | some v => rfl
    | none =>
        have hd : k ∉ d := fun hd ↦ get?_eq_none_iff.mp hk (hmem k hd)
        rw [get?_eq_none_iff.mpr hd]
        rfl

/-- The keys of a list of items without a repetition. -/
theorem keys_ofList {l : List (α × β)} (h : (l.map Prod.fst).Nodup) :
    (ofList l).keys = l.map Prod.fst := by
  rw [ofList, keys_foldl_set l h, keys_empty, List.nil_append, List.filter_eq_self]
  exact fun k _ ↦ decide_eq_true (notMem_empty k)

/-- The items of a dictionary with known keys and values. -/
theorem items_eq_map {γ : Type*} {d : Dict α β} {l : List γ} {key : γ → α} {val : γ → β}
    (hkeys : d.keys = l.map key) (hvals : ∀ x ∈ l, d.get? (key x) = some (val x)) :
    d.items = l.map fun x ↦ (key x, val x) := by
  have hlen : d.items.length = l.length := by
    have hlen := congrArg List.length hkeys
    rwa [keys, List.length_map, List.length_map] at hlen
  refine List.ext_getElem (by rw [hlen, List.length_map]) fun i hi hi' ↦ ?_
  have hl : i < l.length := hlen ▸ hi
  have hkey : d.items[i].1 = key l[i] := by
    have hget := congrArg (fun ks ↦ ks[i]?) hkeys
    simpa [keys, hi, hl] using hget
  have hval := get?_eq_some_iff.mpr (show (d.items[i].1, d.items[i].2) ∈ d.items from
    List.getElem_mem hi)
  rw [hkey, hvals _ (List.getElem_mem hl)] at hval
  rw [List.getElem_map]
  exact Prod.ext hkey (Option.some.inj hval).symm

/-- Equal lookups leave no room for further keys. -/
theorem eq_of_keys_prefix {d d' : Dict α β} (h : d.keys <+: d'.keys)
    (hg : ∀ k, d.get? k = d'.get? k) : d = d' := by
  obtain ⟨r, hr⟩ := h
  refine ext_get? ?_ hg
  cases r with
  | nil => rw [← hr, List.append_nil]
  | cons k r =>
      have hd' : k ∈ d' := by rw [mem_def, ← hr]; simp
      have hd : k ∈ d := by rwa [mem_iff_get?, hg, ← mem_iff_get?]
      have hnodup := d'.nodup_keys
      rw [← hr, List.nodup_append] at hnodup
      exact absurd rfl (hnodup.2.2 k hd k List.mem_cons_self)

/-! ## Keeping some of the keys -/

/-- The items whose keys satisfy a condition. -/
def keep (P : α → Prop) [DecidablePred P] (d : Dict α β) : Dict α β where
  items := d.items.filter fun a ↦ P a.1
  nodup := d.nodup.sublist ((List.filter_sublist).map Prod.fst)

theorem get?_keep (P : α → Prop) [DecidablePred P] (d : Dict α β) (k : α) :
    (d.keep P).get? k = if P k then d.get? k else none := by
  by_cases hk : P k
  · rw [if_pos hk]
    ext v
    rw [get?_eq_some_iff, get?_eq_some_iff, keep, List.mem_filter]
    exact and_iff_left (decide_eq_true hk)
  · rw [if_neg hk, get?_eq_none_iff]
    intro hmem
    obtain ⟨a, ha, rfl⟩ := List.mem_map.mp hmem
    exact hk (of_decide_eq_true (List.mem_filter.mp ha).2)

/-! ## Entering one thing after the other -/

/-- Enter a list of things, each with a value made from what its key had before. -/
def enterAll {γ : Type*} (key : γ → α) (f : Option β → γ → β) (l : List γ) (d : Dict α β) :
    Dict α β :=
  l.foldl (fun d x ↦ d.set (key x) (f (d.get? (key x)) x)) d

theorem mem_enterAll {γ : Type*} {key : γ → α} {f : Option β → γ → β} {l : List γ} {d : Dict α β}
    {k : α} : k ∈ enterAll key f l d ↔ k ∈ d ∨ k ∈ l.map key := by
  induction l generalizing d with
  | nil => simp [enterAll]
  | cons x l ih =>
      rw [enterAll, List.foldl_cons]
      refine ih.trans ?_
      rw [mem_set, List.map_cons, List.mem_cons]
      tauto

/-- With different keys, each thing finds what was there at the start. -/
theorem enterAll_eq_foldl_set {γ : Type*} {key : γ → α} {f : Option β → γ → β} {l : List γ}
    (h : (l.map key).Nodup) (d : Dict α β) :
    enterAll key f l d =
      (l.map fun x ↦ (key x, f (d.get? (key x)) x)).foldl (fun e a ↦ e.set a.1 a.2) d := by
  suffices hsuff : ∀ e : Dict α β, (∀ x ∈ l, e.get? (key x) = d.get? (key x)) →
      enterAll key f l e =
        (l.map fun x ↦ (key x, f (d.get? (key x)) x)).foldl (fun e a ↦ e.set a.1 a.2) e from
    hsuff d fun _ _ ↦ rfl
  induction l with
  | nil => exact fun _ _ ↦ rfl
  | cons x l ih =>
      intro e he
      obtain ⟨hx, hl⟩ := List.forall_mem_cons.mp he
      obtain ⟨hnew, h⟩ := List.nodup_cons.mp h
      rw [enterAll, List.foldl_cons, List.map_cons, List.foldl_cons, hx]
      refine ih h _ fun y hy ↦ ?_
      have hne : key y ≠ key x := fun hyx ↦ hnew (hyx ▸ List.mem_map_of_mem (f := key) hy)
      rw [get?_set_ne _ _ hne, hl y hy]

omit [DecidableEq α] in
theorem map_fst_map_pair {γ δ : Type*} (key : γ → α) (g : γ → δ) (l : List γ) :
    (l.map fun x ↦ (key x, g x)).map Prod.fst = l.map key := List.map_map

theorem get?_enterAll {γ : Type*} {key : γ → α} {f : Option β → γ → β} {l : List γ}
    (h : (l.map key).Nodup) (d : Dict α β) {x : γ} (hx : x ∈ l) :
    (enterAll key f l d).get? (key x) = some (f (d.get? (key x)) x) := by
  have hfst := map_fst_map_pair key (fun x ↦ f (d.get? (key x)) x) l ▸ h
  have hmem : (key x, f (d.get? (key x)) x) ∈ l.map fun x ↦ (key x, f (d.get? (key x)) x) :=
    List.mem_map_of_mem hx
  rw [enterAll_eq_foldl_set h, get?_foldl_set _ hfst, lookup_eq_some_of_mem hfst hmem]
  rfl

theorem keys_enterAll {γ : Type*} {key : γ → α} {f : Option β → γ → β} {l : List γ}
    (h : (l.map key).Nodup) (d : Dict α β) :
    (enterAll key f l d).keys = d.keys ++ (l.map key).filter (fun k ↦ k ∉ d) := by
  have hfst := map_fst_map_pair key (fun x ↦ f (d.get? (key x)) x) l
  rw [enterAll_eq_foldl_set h, keys_foldl_set _ (hfst ▸ h), hfst]

/-! ## Removing a key -/

/-- `del d[k]`, for a key that may be absent. -/
def erase (d : Dict α β) (k : α) : Dict α β where
  items := d.items.filter fun a ↦ a.1 ≠ k
  nodup := d.nodup.sublist ((List.filter_sublist).map Prod.fst)

theorem items_erase (d : Dict α β) (k : α) :
    (d.erase k).items = d.items.filter fun a ↦ a.1 ≠ k := rfl

theorem keys_erase (d : Dict α β) (k : α) : (d.erase k).keys = d.keys.filter (· ≠ k) := by
  rw [keys, keys, List.filter_map]
  rfl

theorem mem_erase {d : Dict α β} {k k' : α} : k' ∈ d.erase k ↔ k' ∈ d ∧ k' ≠ k := by
  rw [mem_def, keys_erase, List.mem_filter, decide_eq_true_iff, ← mem_def]

theorem erase_of_notMem {d : Dict α β} {k : α} (h : k ∉ d) : d.erase k = d := by
  apply Dict.ext
  rw [items_erase, List.filter_eq_self]
  intro a ha
  refine decide_eq_true fun heq ↦ h ?_
  exact List.mem_map.mpr ⟨a, ha, heq⟩

theorem get?_erase (d : Dict α β) (k k' : α) :
    (d.erase k).get? k' = if k' = k then none else d.get? k' := by
  split
  · rename_i hk
    rw [get?_eq_none_iff, mem_erase, hk]
    exact fun h ↦ h.2 rfl
  · rename_i hk
    ext v
    rw [get?_eq_some_iff, get?_eq_some_iff, items_erase, List.mem_filter,
      decide_eq_true_iff]
    exact and_iff_left hk

theorem get?_erase_ne (d : Dict α β) {k k' : α} (h : k' ≠ k) :
    (d.erase k).get? k' = d.get? k' := by
  rw [get?_erase, if_neg h]

theorem get?_erase_eq_some_iff {d : Dict α β} {k k' : α} {v : β} :
    (d.erase k).get? k' = some v ↔ k' ≠ k ∧ d.get? k' = some v := by
  rw [get?_erase]
  split
  · rename_i hk
    exact iff_of_false nofun fun h ↦ h.1 hk
  · rename_i hk
    exact (and_iff_right hk).symm

end Dict

end SensorFusion
