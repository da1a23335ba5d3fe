import SensorFusion.Lib.Xml

/-!
# Markup that is read back

Elements whose values and character data are as they are written, put together to documents.
What the reader makes of such a document is what it makes of the parts.
-/

namespace SensorFusion.Xml

/-- An element with its attributes, the character data at its start, and its children. -/
inductive Markup where
  | mk (name : List Char) (attributes : List (List Char × List Char)) (data : List Char)
      (children : List Markup)

mutual

def Markup.write : Markup → List Char
  | .mk name attributes data children =>
      '<' :: name ++ attributes.flatMap quoted ++
        if data ≠ [] ∨ children ≠ [] then
          '>' :: data ++ writeAll children ++ "</".toList ++ name ++ ['>']
        else " />".toList

def writeAll : List Markup → List Char
  | [] => []
  | m :: ms => m.write ++ writeAll ms

end

mutual

/-- What an element is read as. -/
def Markup.read : Markup → Option Node
  | .mk name attributes data children =>
      (values attributes).bind fun as ↦ (charData data).bind fun data ↦
        (readAll children).map fun content ↦ .element name as (texts data ++ content)

def readAll : List Markup → Option (List Node)
  | [] => some []
  | m :: ms => m.read.bind fun e ↦ (readAll ms).map (e :: ·)

end

mutual

/-- The names are names, and nothing in a value or in character data ends it. -/
def Markup.Delimited : Markup → Prop
  | .mk name attributes data children =>
      IsName name ∧ (∀ a ∈ attributes, IsName a.1 ∧ '"' ∉ a.2) ∧ '<' ∉ data ∧ AllDelimited children

def AllDelimited : List Markup → Prop
  | [] => True
  | m :: ms => m.Delimited ∧ AllDelimited ms

end

theorem Markup.write_eq_cons {m : Markup} (h : m.Delimited) :
    ∃ c s, m.write = '<' :: c :: s ∧ isNameStart c = true := by
  obtain ⟨name, attributes, data, children⟩ := m
  obtain ⟨c, name, rfl, hc⟩ := exists_cons_of_isName h.1
  exact ⟨c, _, rfl, hc⟩

theorem head?_writeAll_append {ms : List Markup} (h : AllDelimited ms) {s : List Char}
    (hs : s.head? = some '<') : (writeAll ms ++ s).head? = some '<' := by
  cases ms with
  | nil => exact hs
  | cons m ms =>
      obtain ⟨c, s, hm, -⟩ := Markup.write_eq_cons h.1
      rw [writeAll, hm]
      rfl

/-- What begins with a name is an element. -/
theorem markup_element {c : Char} (hc : isNameStart c = true) (k : ℕ) (s : List Char) :
    markup (k + 1) ('<' :: c :: s) =
      (element k (c :: s)).bind fun e ↦ (content k e.2).map fun r ↦ (e.1 :: r.1, r.2) := by
  have hslash : c ≠ '/' := by rintro rfl; exact absurd hc (by decide)
  have hbang : c ≠ '!' := by rintro rfl; exact absurd hc (by decide)
  have hquestion : c ≠ '?' := by rintro rfl; exact absurd hc (by decide)
  rw [markup, if_neg (by simp [hslash.symm]), if_neg (by simp [hbang.symm]),
    if_neg (by simp [hbang.symm]), if_neg (by simp [hquestion.symm])]
  rfl

theorem content_append {data s : List Char} (hdata : '<' ∉ data) (hs : s.head? = some '<')
    (k : ℕ) : content (k + 1) (data ++ s) =
      (charData data).bind fun data ↦ (markup k s).map fun c ↦ (texts data ++ c.1, c.2) := by
  have hall : ∀ c ∈ data, decide (c ≠ '<') = true := by
    intro c hc
    refine decide_eq_true ?_
    rintro rfl
    exact hdata hc
  have hhead : s.head?.any (fun c ↦ decide (c ≠ '<')) = false := by
    rw [hs]
    rfl
  rw [content, takeWhile_append_of_head? hall hhead, dropWhile_append_of_head? hall hhead]

theorem content_of_head? {s : List Char} (hs : s.head? = some '<') (k : ℕ) :
    content (k + 1) s = markup k s := by
  have hcontent := content_append (List.not_mem_nil (a := '<')) hs k
  rw [List.nil_append] at hcontent
  rw [hcontent]
  show (markup k s).map (fun c ↦ c) = markup k s
  exact Option.map_id'

theorem endTag_append {n : List Char} (hn : IsName n) (rest : List Char) :
    endTag n (n ++ '>' :: rest) = some rest := by
  have hspace : ('>' :: rest).dropWhile isSpace = '>' :: rest :=
    List.dropWhile_cons_of_neg (by decide)
  rw [endTag, name_append hn rfl, Option.bind_some, hspace, if_pos ⟨rfl, List.head?_cons⟩]
  rfl

theorem length_le_length_flatMap_quoted (as : List (List Char × List Char)) :
    as.length ≤ (as.flatMap quoted).length := by
  induction as with
  | nil => exact Nat.zero_le _
  | cons a as ih =>
      rw [List.flatMap_cons, List.length_append, List.length_cons, quoted]
      simp only [List.cons_append, List.length_cons]
      omega

/-- A start tag or an empty tag, up to what ends it. -/
theorem element_append {name : List Char} {as : List (List Char × List Char)} (hname : IsName name)
    (has : ∀ a ∈ as, IsName a.1 ∧ '"' ∉ a.2) {s : List Char} (hs : s.head?.any isNameChar = false)
    (hend : (s.dropWhile isSpace).head?.any isNameStart = false) (k : ℕ) :
    element (k + 1) (name ++ (as.flatMap quoted ++ s)) = (values as).bind fun as ↦
      if "/>".toList.isPrefixOf (s.dropWhile isSpace) then
        some (.element name as [], (s.dropWhile isSpace).drop 2)
      else if ">".toList.isPrefixOf (s.dropWhile isSpace) then
        (content k ((s.dropWhile isSpace).drop 1)).bind fun c ↦
          (endTag name c.2).map fun s ↦ (.element name as c.1, s)
      else none := by
  have hhead : (as.flatMap quoted ++ s).head?.any isNameChar = false := by
    cases as with
    | nil => exact hs
    | cons a as => rfl
  have hlen := length_le_length_flatMap_quoted as
  rw [element, name_append hname hhead, Option.bind_some, attributes_append has hend
    (by rw [List.length_append]; omega), Option.bind_some]

theorem element_start {name : List Char} {as : List (List Char × List Char)} (hname : IsName name)
    (has : ∀ a ∈ as, IsName a.1 ∧ '"' ∉ a.2) (s : List Char) (k : ℕ) :
    element (k + 1) (name ++ (as.flatMap quoted ++ '>' :: s)) = (values as).bind fun as ↦
      (content k s).bind fun c ↦ (endTag name c.2).map fun s ↦ (.element name as c.1, s) := by
  have hspace : ('>' :: s).dropWhile isSpace = '>' :: s := List.dropWhile_cons_of_neg (by decide)
  have hempty : ¬"/>".toList.isPrefixOf ('>' :: s) = true := by simp
  have hstart : ">".toList.isPrefixOf ('>' :: s) = true := by simp
  rw [element_append hname has rfl (by rw [hspace]; rfl), hspace]
  refine congrArg (Option.bind _) (funext fun as ↦ ?_)
  rw [if_neg hempty, if_pos hstart]
  rfl

theorem element_empty {name : List Char} {as : List (List Char × List Char)} (hname : IsName name)
    (has : ∀ a ∈ as, IsName a.1 ∧ '"' ∉ a.2) (s : List Char) (k : ℕ) :
    element (k + 1) (name ++ (as.flatMap quoted ++ ' ' :: '/' :: '>' :: s)) =
      (values as).map fun as ↦ (.element name as [], s) := by
  have hspace : (' ' :: '/' :: '>' :: s).dropWhile isSpace = '/' :: '>' :: s := by
    rw [List.dropWhile_cons_of_pos (by decide), List.dropWhile_cons_of_neg (by decide)]
  have hempty : "/>".toList.isPrefixOf ('/' :: '>' :: s) = true := by simp
  rw [element_append hname has rfl (by rw [hspace]; rfl), hspace, Option.map_eq_bind]
  refine congrArg (Option.bind _) (funext fun as ↦ ?_)
  rw [if_pos hempty]
  rfl

mutual

/-- A written element is read as what it is. -/
theorem element_write (m : Markup) (h : m.Delimited) {k : ℕ} (hk : 2 * m.write.length ≤ k)
    (rest : List Char) : element k (m.write.drop 1 ++ rest) = m.read.map (·, rest) := by
  obtain ⟨name, attributes, data, children⟩ := m
  obtain ⟨hname, hattributes, hdata, hchildren⟩ := h
  obtain ⟨k, rfl⟩ := Nat.exists_eq_succ_of_ne_zero (n := k) (by
    rintro rfl
    simp [Markup.write] at hk)
  by_cases hempty : data ≠ [] ∨ children ≠ []
  · -- a start tag, content and an end tag
    have hwrite : (Markup.mk name attributes data children).write.drop 1 ++ rest =
        name ++ (attributes.flatMap quoted ++ '>' :: (data ++ (writeAll children ++
          ("</".toList ++ (name ++ '>' :: rest))))) := by
      rw [Markup.write, if_pos hempty]
      simp only [List.append_assoc, List.cons_append, List.nil_append, List.drop_one,
        List.tail_cons]
    have hlen : 2 * (writeAll children).length + 3 ≤ k := by
      rw [Markup.write, if_pos hempty] at hk
      simp only [List.length_append, List.length_cons, List.cons_append] at hk
      omega
    obtain ⟨k, rfl⟩ := Nat.exists_eq_add_of_le' (Nat.le_trans (Nat.le_add_left 1 _) hlen)
    have hchild := content_writeAll children hchildren (k := k + 1) (by omega) (name ++ '>' :: rest)
    have hhead : (writeAll children ++ ("</".toList ++ (name ++ '>' :: rest))).head? = some '<' :=
      head?_writeAll_append hchildren rfl
    rw [content_of_head? hhead] at hchild
    rw [hwrite, element_start hname hattributes, content_append hdata hhead, hchild, Markup.read]
    cases values attributes with
    | none => rfl
    | some as =>
        cases charData data with
        | none => rfl
        | some data =>
            cases readAll children with
            | none => rfl
            | some nodes =>
                simp only [Option.bind_some, Option.map_some, endTag_append hname]
  · -- an empty tag
    obtain ⟨rfl, rfl⟩ : data = [] ∧ children = [] := by
      rw [not_or, not_not, not_not] at hempty
      exact hempty
    have hwrite : (Markup.mk name attributes [] []).write.drop 1 ++ rest =
        name ++ (attributes.flatMap quoted ++ ' ' :: '/' :: '>' :: rest) := by
      rw [Markup.write, if_neg hempty]
      simp only [List.append_assoc, List.cons_append, List.drop_one, List.tail_cons]
      rfl
    rw [hwrite, element_empty hname hattributes, Markup.read]
    cases values attributes with
    | none => rfl
    | some as => rfl

theorem content_writeAll (ms : List Markup) (h : AllDelimited ms) {k : ℕ}
    (hk : 2 * (writeAll ms).length + 2 ≤ k) (rest : List Char) :
    content k (writeAll ms ++ ("</".toList ++ rest)) = (readAll ms).map (·, rest) := by
  obtain ⟨k, rfl⟩ := Nat.exists_eq_add_of_le' (Nat.le_trans (Nat.le_add_left 2 _) hk)
  cases ms with
  | nil =>
      rw [writeAll, List.nil_append, content_of_head? rfl]
      rfl
  | cons m ms =>
      obtain ⟨hm, hms⟩ := h
      obtain ⟨c, s, hwrite, hc⟩ := Markup.write_eq_cons hm
      have hlen : 2 * m.write.length ≤ k ∧ 2 * (writeAll ms).length + 2 ≤ k := by
        rw [writeAll, List.length_append] at hk
        have hpos : 2 ≤ m.write.length := by
          rw [hwrite, List.length_cons, List.length_cons]
          omega
        omega
      have helement := element_write m hm hlen.1 (writeAll ms ++ ("</".toList ++ rest))
      have hcontent := content_writeAll ms hms hlen.2 rest
      rw [hwrite] at helement
      rw [writeAll, List.append_assoc, hwrite, content_of_head? rfl, List.cons_append,
        List.cons_append, markup_element hc]
      rw [List.drop_one, List.tail_cons, List.cons_append] at helement
      rw [helement, readAll]
      cases m.read with
      | none => rfl
      | some e =>
          simp only [Option.map_some, Option.bind_some, hcontent]
          cases readAll ms with
          | none => rfl
          | some nodes => rfl

end

/-! ## Line ends -/

mutual

/-- An element with its line ends as they are read. -/
def Markup.lineEnds : Markup → Markup
  | .mk name attributes data children =>
      .mk name (attributes.map fun a ↦ (a.1, Xml.lineEnds a.2)) (Xml.lineEnds data)
        (allLineEnds children)

def allLineEnds : List Markup → List Markup
  | [] => []
  | m :: ms => m.lineEnds :: allLineEnds ms

end

theorem notMem_lineEnds {c : Char} {s : List Char} (hc : c ≠ '\n') (h : c ∉ s) :
    c ∉ lineEnds s := fun hmem ↦ (mem_lineEnds hmem).elim hc fun hin ↦ h hin.1

theorem IsName.notMem {n : List Char} (hn : IsName n) {c : Char} (hc : isNameChar c = false) :
    c ∉ n := fun hmem ↦
  absurd (List.all_eq_true.mp hn.2 c hmem) (Bool.eq_false_iff.mp hc)

mutual

theorem Markup.Delimited.lineEnds : ∀ {m : Markup}, m.Delimited → m.lineEnds.Delimited
  | .mk name attributes data children, ⟨hname, hattributes, hdata, hchildren⟩ => by
      refine ⟨hname, fun a ha ↦ ?_, notMem_lineEnds (by decide) hdata, hchildren.lineEnds⟩
      obtain ⟨b, hb, rfl⟩ := List.mem_map.mp ha
      exact ⟨(hattributes b hb).1, notMem_lineEnds (by decide) (hattributes b hb).2⟩

theorem AllDelimited.lineEnds : ∀ {ms : List Markup}, AllDelimited ms →
    AllDelimited (allLineEnds ms)
  | [], _ => trivial
  | _ :: _, ⟨hm, hms⟩ => ⟨hm.lineEnds, hms.lineEnds⟩

end

theorem lineEnds_flatMap_quoted {as : List (List Char × List Char)}
    (has : ∀ a ∈ as, IsName a.1 ∧ '"' ∉ a.2) (s : List Char) :
    lineEnds (as.flatMap quoted ++ s) =
      (as.map fun a ↦ (a.1, lineEnds a.2)).flatMap quoted ++ lineEnds s := by
  induction as with
  | nil => rfl
  | cons a as ih =>
      obtain ⟨ha, has⟩ := List.forall_mem_cons.mp has
      simp only [List.map_cons, List.flatMap_cons, quoted, List.cons_append, List.append_assoc,
        List.nil_append]
      rw [lineEnds_cons (by decide), lineEnds_append_of_notMem (ha.1.notMem rfl),
        lineEnds_cons (by decide), lineEnds_cons (by decide),
        lineEnds_append (by rw [List.head?_cons]; decide), lineEnds_cons (by decide), ih has]

theorem allLineEnds_eq_nil_iff (ms : List Markup) : allLineEnds ms = [] ↔ ms = [] := by
  cases ms with
  | nil => exact iff_of_true rfl rfl
  | cons m ms => exact iff_of_false (List.cons_ne_nil _ _) (List.cons_ne_nil _ _)

mutual

theorem lineEnds_write : ∀ {m : Markup}, m.Delimited → ∀ s : List Char,
    lineEnds (m.write ++ s) = m.lineEnds.write ++ lineEnds s
  | .mk name attributes data children, ⟨hname, hattributes, hdata, hchildren⟩, s => by
      have hnocr : '\r' ∉ name := hname.notMem rfl
      have hempty : (lineEnds data ≠ [] ∨ allLineEnds children ≠ []) ↔
          (data ≠ [] ∨ children ≠ []) :=
        or_congr (not_congr lineEnds_eq_nil_iff) (not_congr (allLineEnds_eq_nil_iff children))
      rw [Markup.lineEnds, Markup.write, Markup.write, List.cons_append, List.cons_append,
        List.cons_append, List.cons_append, List.append_assoc, List.append_assoc, List.append_assoc,
        List.append_assoc, lineEnds_cons (by decide), lineEnds_append_of_notMem hnocr,
        lineEnds_flatMap_quoted hattributes]
      by_cases h : data ≠ [] ∨ children ≠ []
      · have hhead : (writeAll children ++ ("</".toList ++ (name ++ '>' :: s))).head? ≠
            some '\n' := by
          rw [head?_writeAll_append hchildren rfl]
          decide
        rw [if_pos h, if_pos (hempty.mpr h)]
        simp only [List.cons_append, List.append_assoc, List.nil_append]
        rw [lineEnds_cons (by decide), lineEnds_append hhead, lineEnds_writeAll hchildren,
          lineEnds_append_of_notMem (by decide), lineEnds_append_of_notMem hnocr,
          lineEnds_cons (by decide)]
      · rw [if_neg h, if_neg fun hne ↦ h (hempty.mp hne), lineEnds_append_of_notMem (by decide)]
        simp only [List.cons_append, List.append_assoc]

theorem lineEnds_writeAll : ∀ {ms : List Markup}, AllDelimited ms → ∀ s : List Char,
    lineEnds (writeAll ms ++ s) = writeAll (allLineEnds ms) ++ lineEnds s
  | [], _, _ => rfl
  | m :: ms, ⟨hm, hms⟩, s => by
      rw [writeAll, allLineEnds, writeAll, List.append_assoc, lineEnds_write hm,
        lineEnds_writeAll hms, List.append_assoc]

end

/-! ## Documents -/

/-- An XML declaration. -/
def declare (as : List (List Char × List Char)) : List Char :=
  "<?xml".toList ++ as.flatMap quoted ++ "?>".toList

structure Declares (as : List (List Char × List Char)) : Prop where
  named : ∀ a ∈ as, IsName a.1 ∧ '"' ∉ a.2
  version : (as.map Prod.fst).head? = some "version".toList
  sublist : (as.map Prod.fst).Sublist ["version".toList, "encoding".toList, "standalone".toList]
  declared : as.all isDeclared = true

theorem declaration_append {as : List (List Char × List Char)} (h : Declares as) (s : List Char) :
    declaration (declare as ++ s) = some s := by
  have hlen := length_le_length_flatMap_quoted as
  have hdecl : declare as ++ s = "<?xml".toList ++ (as.flatMap quoted ++ ("?>".toList ++ s)) := by
    unfold declare
    rw [List.append_assoc, List.append_assoc]
  have hspace : ("?>".toList ++ s).dropWhile isSpace = "?>".toList ++ s :=
    List.dropWhile_cons_of_neg (by decide)
  have hfirst : (as.flatMap quoted ++ ("?>".toList ++ s)).head?.any isSpace = true := by
    cases as with
    | nil => exact absurd h.version (by decide)
    | cons a as => rfl
  have hdrop : ("<?xml".toList ++ (as.flatMap quoted ++ ("?>".toList ++ s))).drop 5 =
      as.flatMap quoted ++ ("?>".toList ++ s) := List.drop_left' rfl
  have hattributes :
      attributes ("<?xml".toList ++ (as.flatMap quoted ++ ("?>".toList ++ s))).length
        (as.flatMap quoted ++ ("?>".toList ++ s)) =
      some (as, ("?>".toList ++ s).dropWhile isSpace) := by
    refine attributes_append h.named (by rw [hspace]; rfl) ?_
    have hpos : 0 < "<?xml".toList.length := by decide
    simp only [List.length_append]
    omega
  rw [hdecl, declaration, hdrop, if_pos ⟨by simp, hfirst⟩, hattributes, Option.bind_some, hspace,
    if_pos ⟨h.version, h.sublist, h.declared, by simp⟩]
  rfl

theorem misc_of_isNameStart {c : Char} (hc : isNameStart c = true) (s : List Char) (k : ℕ) :
    misc (k + 1) ('<' :: c :: s) = some ('<' :: c :: s) := by
  have hbang : '!' ≠ c := by rintro rfl; exact absurd hc (by decide)
  have hquestion : '?' ≠ c := by rintro rfl; exact absurd hc (by decide)
  have hspace : ('<' :: c :: s).dropWhile isSpace = '<' :: c :: s :=
    List.dropWhile_cons_of_neg (by decide)
  rw [misc, hspace, if_neg (by simp [hbang]), if_neg (by simp [hquestion])]

/-- A document of a declaration and an element is read as the element. -/
theorem document_write {as : List (List Char × List Char)} (has : Declares as) {m : Markup}
    (hm : m.Delimited) : document (declare as ++ m.write) = m.read := by
  obtain ⟨c, s, hwrite, hc⟩ := Markup.write_eq_cons hm
  have helement := element_write m hm le_rfl []
  rw [List.append_nil] at helement
  have hmisc : misc (m.write.length + 1) m.write = some m.write := by
    rw [hwrite]
    exact misc_of_isNameStart hc s _
  have hlt : "<".toList.isPrefixOf m.write = true := by
    rw [hwrite]
    simp
  rw [document, declaration_append has, Option.bind_some, hmisc, Option.bind_some, if_pos hlt,
    helement]
  cases m.read with
  | none => rfl
  | some e => rfl

theorem utf8EncodeChar_of_ascii {c : Char} (h : c.toNat < 128) :
    String.utf8EncodeChar c = [UInt8.ofNat c.toNat] := by
  have hle : c.val.toNat ≤ 0x7f := Nat.le_of_lt_succ h
  exact if_pos hle

theorem parse_of_ascii {s : List Char} (h : ∀ c ∈ s, c.toNat < 128) :
    parse (s.map fun c ↦ UInt8.ofNat c.toNat) = document (lineEnds s) := by
  have hbytes : s.map (fun c ↦ UInt8.ofNat c.toNat) = s.flatMap String.utf8EncodeChar := by
    induction s with
    | nil => rfl
    | cons c s ih =>
        obtain ⟨hc, hs⟩ := List.forall_mem_cons.mp h
        rw [List.map_cons, List.flatMap_cons, utf8EncodeChar_of_ascii hc, ih hs,
          List.singleton_append]
  have hdecode : (s.map fun c ↦ UInt8.ofNat c.toNat).toByteArray.utf8Decode? = some s.toArray := by
    rw [hbytes]
    exact List.utf8Decode?_utf8Encode
  rw [parse, hdecode, Option.bind_some, List.toList_toArray]

end SensorFusion.Xml
