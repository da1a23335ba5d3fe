import Mathlib.Data.List.Nodup
import SensorFusion.Cot.Convert
import SensorFusion.Lib.Dict
import SensorFusion.Lib.Markup

/-!
# What is read from an event

`convert` leaves escaping to ElementTree.  The documents that it writes are read back here: the
texts of a message arrive as they are when they consist of characters that XML has, and when there
are no carriage returns in the remarks.
-/

namespace SensorFusion.Cot

open Proto (Message)
open Xml (IsName IsChar IsText Spells)

/-! ## ASCII -/

def asciiRef (c : Char) : Text :=
  if c.toNat < 128 then [c] else "&#".toList ++ Nat.toDigits 10 c.toNat ++ [';']

/-- A text with references for what is not in ASCII. -/
def ascii (s : Text) : Text := s.flatMap asciiRef

def IsAscii (s : Text) : Prop := ∀ c ∈ s, c.toNat < 128

theorem isAscii_of_all {s : Text} (h : s.all (fun c ↦ decide (c.toNat < 128)) = true) :
    IsAscii s := fun c hc ↦ of_decide_eq_true (List.all_eq_true.mp h c hc)

theorem encodeRefs_eq (s : Text) : encodeRefs s = (ascii s).map fun c ↦ UInt8.ofNat c.toNat := rfl

theorem ascii_append (s t : Text) : ascii (s ++ t) = ascii s ++ ascii t := List.flatMap_append

theorem ascii_cons {c : Char} (hc : c.toNat < 128) (s : Text) : ascii (c :: s) = c :: ascii s := by
  rw [ascii, List.flatMap_cons, asciiRef, if_pos hc]
  rfl

theorem ascii_of_isAscii {s : Text} (h : IsAscii s) : ascii s = s := by
  induction s with
  | nil => rfl
  | cons c s ih =>
      obtain ⟨hc, hs⟩ := List.forall_mem_cons.mp h
      rw [ascii_cons hc, ih hs]

theorem isAscii_ascii (s : Text) : IsAscii (ascii s) := by
  intro d hd
  obtain ⟨c, -, hd⟩ := List.mem_flatMap.mp hd
  unfold asciiRef at hd
  split_ifs at hd with hc
  · rw [List.mem_singleton.mp hd]
    exact hc
  · rcases List.mem_append.mp hd with hd | hd
    · rcases List.mem_append.mp hd with hd | hd
      · exact @isAscii_of_all "&#".toList rfl d hd
      · have hdigit := Text.isDigit_of_mem_toDigits hd
        rw [Char.isDigit, Bool.and_eq_true, decide_eq_true_iff, decide_eq_true_iff] at hdigit
        exact Nat.lt_of_le_of_lt hdigit.2 (by decide)
    · rw [List.mem_singleton.mp hd]
      decide

/-! ## Escapes -/

/-- How a character is written: as itself, unless it is one of some, or as a reference. -/
inductive Written (specials : List Char) (c : Char) : Text → Prop
  | self (hc : c ∉ specials) (hascii : c.toNat < 128) : Written specials c [c]
  | reference {body : Text} (hbody : body.all (fun d ↦ d.isAlphanum || d == '#') = true)
      (h : Xml.referent body = if IsChar c then some c else none) :
      Written specials c ('&' :: body ++ [';'])

namespace Written

variable {specials : List Char} {c : Char} {w : Text}

theorem spells (h : Written specials c w) (hamp : '&' ∈ specials) : Spells w c := by
  cases h with
  | self hc _ => exact Xml.spells_self fun heq ↦ hc (heq ▸ hamp)
  | @reference body hbody href =>
      refine Xml.spells_reference (fun hmem ↦ ?_) href
      exact absurd (List.all_eq_true.mp hbody _ hmem) (by decide)

/-- What a character is written with: itself, or the characters of a reference. -/
theorem mem {d : Char} (h : Written specials c w) (hd : d ∈ w) :
    d = c ∧ c ∉ specials ∨ (d.isAlphanum || ['#', '&', ';'].contains d) = true := by
  cases h with
  | self hc _ => exact .inl ⟨List.mem_singleton.mp hd, hc⟩
  | @reference body hbody _ =>
      refine .inr ?_
      rcases List.mem_append.mp hd with hd | hd
      · rcases List.mem_cons.mp hd with rfl | hd
        · rfl
        · have hbody := List.all_eq_true.mp hbody d hd
          rw [Bool.or_eq_true, beq_iff_eq] at hbody
          rcases hbody with hbody | rfl
          · rw [hbody, Bool.true_or]
          · rfl
      · rw [List.mem_singleton.mp hd]
        rfl

theorem notMem {d : Char} (h : Written specials c w) (hd : d ∈ specials)
    (hother : (d.isAlphanum || ['#', '&', ';'].contains d) = false) : d ∉ w := by
  intro hmem
  rcases h.mem hmem with ⟨rfl, hspecial⟩ | hyes
  · exact hspecial hd
  · exact absurd hyes (Bool.eq_false_iff.mp hother)

theorem ne_nil (h : Written specials c w) : w ≠ [] := by
  cases h with
  | self _ _ => exact List.cons_ne_nil _ _
  | reference _ _ => exact List.cons_ne_nil _ _

end Written

theorem written_asciiRef {specials : List Char} {c : Char} (hc : c ∉ specials) :
    Written specials c (asciiRef c) := by
  unfold asciiRef
  split_ifs with hascii
  · exact .self hc hascii
  · refine @Written.reference _ _ ('#' :: Nat.toDigits 10 c.toNat) ?_ (Xml.referent_number c)
    rw [List.all_cons, Bool.and_eq_true]
    refine ⟨rfl, List.all_eq_true.mpr fun d hd ↦ ?_⟩
    rw [Char.isAlphanum, Text.isDigit_of_mem_toDigits hd, Bool.or_true,
      Bool.true_or]

/-- How a character is written in an attribute. -/
def attribRef (c : Char) : Text := ascii (escapeAttrib [c])

/-- How a character is written in character data. -/
def cdataRef (c : Char) : Text := ascii (escapeCdata [c])

theorem ascii_escapeAttrib (s : Text) : ascii (escapeAttrib s) = s.flatMap attribRef := by
  rw [ascii, escapeAttrib, List.flatMap_assoc]
  refine List.flatMap_congr fun c _ ↦ ?_
  rw [attribRef, ascii, escapeAttrib, List.flatMap_singleton]

theorem ascii_escapeCdata (s : Text) : ascii (escapeCdata s) = s.flatMap cdataRef := by
  rw [ascii, escapeCdata, List.flatMap_assoc]
  refine List.flatMap_congr fun c _ ↦ ?_
  rw [cdataRef, ascii, escapeCdata, List.flatMap_singleton]

def ATTRIB_SPECIALS : List Char := ['&', '<', '>', '"', '\r', '\n', '\t']
def CDATA_SPECIALS : List Char := ['&', '<', '>']

theorem written_attribRef (c : Char) : Written ATTRIB_SPECIALS c (attribRef c) := by
  by_cases hc : c ∈ ATTRIB_SPECIALS
  · simp only [ATTRIB_SPECIALS, List.mem_cons, List.not_mem_nil, or_false] at hc
    rcases hc with rfl | rfl | rfl | rfl | rfl | rfl | rfl
    · exact @Written.reference _ _ "amp".toList rfl rfl
    · exact @Written.reference _ _ "lt".toList rfl rfl
    · exact @Written.reference _ _ "gt".toList rfl rfl
    · exact @Written.reference _ _ "quot".toList rfl rfl
    · exact @Written.reference _ _ "#13".toList rfl rfl
    · exact @Written.reference _ _ "#10".toList rfl rfl
    · exact @Written.reference _ _ "#09".toList rfl rfl
  · have hself : attribRef c = asciiRef c := by
      simp only [ATTRIB_SPECIALS, List.mem_cons, List.not_mem_nil, or_false, not_or] at hc
      obtain ⟨hamp, hlt, hgt, hquot, hcr, hlf, htab⟩ := hc
      rw [attribRef, escapeAttrib, List.flatMap_singleton, if_neg hamp, if_neg hlt, if_neg hgt,
        if_neg hquot, if_neg hcr, if_neg hlf, if_neg htab, ascii, List.flatMap_singleton]
    rw [hself]
    exact written_asciiRef hc

theorem written_cdataRef (c : Char) : Written CDATA_SPECIALS c (cdataRef c) := by
  by_cases hc : c ∈ CDATA_SPECIALS
  · simp only [CDATA_SPECIALS, List.mem_cons, List.not_mem_nil, or_false] at hc
    rcases hc with rfl | rfl | rfl
    · exact @Written.reference _ _ "amp".toList rfl rfl
    · exact @Written.reference _ _ "lt".toList rfl rfl
    · exact @Written.reference _ _ "gt".toList rfl rfl
  · have hself : cdataRef c = asciiRef c := by
      simp only [CDATA_SPECIALS, List.mem_cons, List.not_mem_nil, or_false, not_or] at hc
      obtain ⟨hamp, hlt, hgt⟩ := hc
      rw [cdataRef, escapeCdata, List.flatMap_singleton, if_neg hamp, if_neg hlt, if_neg hgt, ascii,
        List.flatMap_singleton]
    rw [hself]
    exact written_asciiRef hc

/-- No character that a value would end with, or that would be read as another, is written. -/
theorem notMem_escapeAttrib {d : Char} (hd : d ∈ ATTRIB_SPECIALS)
    (hother : (d.isAlphanum || ['#', '&', ';'].contains d) = false) (s : Text) :
    d ∉ ascii (escapeAttrib s) := by
  rw [ascii_escapeAttrib, List.mem_flatMap]
  rintro ⟨c, -, hmem⟩
  exact (written_attribRef c).notMem hd hother hmem

theorem notMem_escapeCdata {d : Char} (hd : d ∈ CDATA_SPECIALS)
    (hother : (d.isAlphanum || ['#', '&', ';'].contains d) = false) (s : Text) :
    d ∉ ascii (escapeCdata s) := by
  rw [ascii_escapeCdata, List.mem_flatMap]
  rintro ⟨c, -, hmem⟩
  exact (written_cdataRef c).notMem hd hother hmem

/-! ## Reading texts back -/

theorem attValue_escapeAttrib (s : Text) :
    Xml.attValue (Xml.lineEnds (ascii (escapeAttrib s))) = if IsText s then some s else none := by
  have hspace : ∀ c ∈ ascii (escapeAttrib s), Xml.isSpace c = true → c = ' ' := by
    intro c hc hspace
    simp only [Xml.isSpace, Bool.or_eq_true, beq_iff_eq] at hspace
    rcases hspace with ((rfl | rfl) | rfl) | rfl
    · rfl
    · exact absurd hc (notMem_escapeAttrib (by decide) (by decide) s)
    · exact absurd hc (notMem_escapeAttrib (by decide) (by decide) s)
    · exact absurd hc (notMem_escapeAttrib (by decide) (by decide) s)
  rw [Xml.lineEnds_of_notMem (notMem_escapeAttrib (by decide) (by decide) s),
    Xml.attValue_of_plain (notMem_escapeAttrib (by decide) (by decide) s) hspace,
    ascii_escapeAttrib, Xml.expand_flatMap fun c _ ↦ (written_attribRef c).spells (by decide)]

theorem lineEnds_escapeCdata (s : Text) :
    Xml.lineEnds (ascii (escapeCdata s)) = ascii (escapeCdata (Xml.lineEnds s)) := by
  rw [ascii_escapeCdata, ascii_escapeCdata]
  refine Xml.lineEndsFrom_flatMap rfl rfl (fun c hcr hlf ↦ ?_) false s
  have hnot {d : Char} (hne : c ≠ d)
      (hother : (d.isAlphanum || ['#', '&', ';'].contains d) = false) : d ∉ cdataRef c := by
    intro hmem
    rcases (written_cdataRef c).mem hmem with ⟨rfl, -⟩ | hyes
    · exact hne rfl
    · exact absurd hyes (Bool.eq_false_iff.mp hother)
  exact ⟨(written_cdataRef c).ne_nil, hnot hcr (by decide), hnot hlf (by decide)⟩

theorem charData_escapeCdata (s : Text) :
    Xml.charData (Xml.lineEnds (ascii (escapeCdata s))) =
      if IsText s then some (Xml.lineEnds s) else none := by
  rw [lineEnds_escapeCdata,
    Xml.charData_of_notMem (notMem_escapeCdata (by decide) (by decide) _), ascii_escapeCdata,
    Xml.expand_flatMap fun c _ ↦ (written_cdataRef c).spells (by decide)]
  exact if_congr (Xml.isText_lineEnds s) rfl rfl

/-! ## Elements -/

/-- A name in ASCII. -/
structure IsTag (n : Text) : Prop where
  name : IsName n
  ascii : n.all (fun c ↦ decide (c.toNat < 128)) = true

instance (n : Text) : Decidable (IsTag n) :=
  decidable_of_iff (IsName n ∧ n.all (fun c ↦ decide (c.toNat < 128)) = true)
    ⟨fun h ↦ ⟨h.1, h.2⟩, fun h ↦ ⟨h.1, h.2⟩⟩

theorem IsTag.ascii_eq {n : Text} (h : IsTag n) : Cot.ascii n = n :=
  ascii_of_isAscii (isAscii_of_all h.ascii)

mutual

/-- The tags and the keys are names, and no key is there twice. -/
def Element.Proper : Element → Prop
  | .mk tag attrib _ children =>
      IsTag tag ∧ (∀ a ∈ attrib, IsTag a.1) ∧ (attrib.map Prod.fst).Nodup ∧ AllProper children

def AllProper : List Element → Prop
  | [] => True
  | e :: es => e.Proper ∧ AllProper es

end

mutual

/-- An element with its texts as they are written. -/
def Element.markup : Element → Xml.Markup
  | .mk tag attrib text children =>
      .mk tag (attrib.map fun a ↦ (a.1, ascii (escapeAttrib a.2))) (ascii (escapeCdata text))
        (markups children)

def markups : List Element → List Xml.Markup
  | [] => []
  | e :: es => e.markup :: markups es

end

theorem ascii_escapeCdata_eq_nil_iff {s : Text} : ascii (escapeCdata s) = [] ↔ s = [] := by
  rw [ascii_escapeCdata, List.flatMap_eq_nil_iff]
  constructor
  · intro h
    exact List.eq_nil_iff_forall_not_mem.mpr fun c hc ↦ (written_cdataRef c).ne_nil (h c hc)
  · rintro rfl c hc
    cases hc

theorem markups_eq_nil_iff (es : List Element) : markups es = [] ↔ es = [] := by
  cases es with
  | nil => exact iff_of_true rfl rfl
  | cons e es => exact iff_of_false (List.cons_ne_nil _ _) (List.cons_ne_nil _ _)

theorem ascii_flatMap_writeAttrib {attrib : List (Text × Text)} (h : ∀ a ∈ attrib, IsTag a.1) :
    ascii (attrib.flatMap writeAttrib) =
      (attrib.map fun a ↦ (a.1, ascii (escapeAttrib a.2))).flatMap Xml.quoted := by
  induction attrib with
  | nil => rfl
  | cons a attrib ih =>
      obtain ⟨ha, hattrib⟩ := List.forall_mem_cons.mp h
      rw [List.flatMap_cons, ascii_append, ih hattrib, List.map_cons, List.flatMap_cons,
        writeAttrib, ascii_append, ascii_append, ascii_append, ascii_cons (by decide), ha.ascii_eq,
        Xml.quoted]
      simp only [List.append_assoc, List.cons_append]
      rfl

mutual

theorem ascii_write : ∀ {e : Element}, e.Proper → ascii e.write = e.markup.write
  | .mk tag attrib text children, ⟨htag, hattrib, _, hchildren⟩ => by
      have hempty : (ascii (escapeCdata text) ≠ [] ∨ markups children ≠ []) ↔
          (text ≠ [] ∨ children ≠ []) :=
        or_congr (not_congr ascii_escapeCdata_eq_nil_iff) (not_congr (markups_eq_nil_iff children))
      rw [Element.write, Element.markup, Xml.Markup.write, ascii_append, ascii_append,
        ascii_cons (by decide), htag.ascii_eq, ascii_flatMap_writeAttrib hattrib]
      congr 1
      by_cases h : text ≠ [] ∨ children ≠ []
      · rw [if_pos h, if_pos (hempty.mpr h)]
        simp only [List.cons_append]
        rw [ascii_cons (by decide), ascii_append, ascii_append, ascii_append, ascii_append,
          ascii_writeAll hchildren, htag.ascii_eq]
        rfl
      · rw [if_neg h, if_neg fun hne ↦ h (hempty.mp hne)]
        rfl

theorem ascii_writeAll : ∀ {es : List Element}, AllProper es →
    ascii (writeAll es) = Xml.writeAll (markups es)
  | [], _ => rfl
  | _ :: _, ⟨he, hes⟩ => by
      rw [writeAll, ascii_append, ascii_write he, ascii_writeAll hes, markups, Xml.writeAll]

end

mutual

theorem Element.Proper.delimited : ∀ {e : Element}, e.Proper → e.markup.Delimited
  | .mk tag attrib text children, ⟨htag, hattrib, _, hchildren⟩ => by
      refine ⟨htag.name, fun a ha ↦ ?_, notMem_escapeCdata (by decide) (by decide) text,
        hchildren.delimited⟩
      obtain ⟨b, hb, rfl⟩ := List.mem_map.mp ha
      exact ⟨(hattrib b hb).name, notMem_escapeAttrib (by decide) (by decide) b.2⟩

theorem AllProper.delimited : ∀ {es : List Element}, AllProper es → Xml.AllDelimited (markups es)
  | [], _ => trivial
  | _ :: _, ⟨he, hes⟩ => ⟨he.delimited, hes.delimited⟩

end

/-! ## Reading elements back -/

mutual

/-- The node of an element, its line ends as they are read. -/
def Element.node : Element → Xml.Node
  | .mk tag attrib text children =>
      .element tag attrib (Xml.texts (Xml.lineEnds text) ++ nodes children)

def nodes : List Element → List Xml.Node
  | [] => []
  | e :: es => e.node :: nodes es

end

mutual

/-- The values and the text of an element, and of those in it, may be in a document. -/
def Element.Textual : Element → Prop
  | .mk _ attrib text children =>
      (∀ a ∈ attrib, IsText a.2) ∧ IsText text ∧ AllTextual children

def AllTextual : List Element → Prop
  | [] => True
  | e :: es => e.Textual ∧ AllTextual es

end

theorem mapM_guard_eq_some_iff {α : Type} {p : α → Prop} [DecidablePred p] {l l' : List α} :
    (l.mapM fun a ↦ if p a then some a else none) = some l' ↔ (∀ a ∈ l, p a) ∧ l' = l := by
  induction l generalizing l' with
  | nil =>
      rw [List.mapM_nil]
      exact ⟨fun h ↦ ⟨fun a ha ↦ absurd ha List.not_mem_nil, (Option.some.inj h).symm⟩,
        fun h ↦ congrArg some h.2.symm⟩
  | cons a l ih =>
      rw [List.mapM_cons, Option.bind_eq_bind, Option.bind_eq_some_iff, List.forall_mem_cons]
      constructor
      · rintro ⟨b, hb, hrest⟩
        split_ifs at hb with ha
        cases hb
        obtain ⟨rest, hl, heq⟩ := Option.bind_eq_some_iff.mp hrest
        obtain ⟨hall, rfl⟩ := ih.mp hl
        exact ⟨⟨ha, hall⟩, (Option.some.inj heq).symm⟩
      · rintro ⟨⟨ha, hall⟩, rfl⟩
        exact ⟨a, if_pos ha, Option.bind_eq_some_iff.mpr ⟨l, ih.mpr ⟨hall, rfl⟩, rfl⟩⟩

theorem values_eq_some_iff {attrib as : List (Text × Text)} (h : (attrib.map Prod.fst).Nodup) :
    Xml.values (attrib.map fun a ↦ (a.1, Xml.lineEnds (ascii (escapeAttrib a.2)))) = some as ↔
      (∀ a ∈ attrib, IsText a.2) ∧ as = attrib := by
  have hkeys : ((attrib.map fun a ↦ (a.1, Xml.lineEnds (ascii (escapeAttrib a.2)))).map
      Prod.fst).Nodup := by
    rw [List.map_map]
    exact h
  have hread (a : Text × Text) :
      (Xml.attValue (Xml.lineEnds (ascii (escapeAttrib a.2)))).map (a.1, ·) =
        if IsText a.2 then some a else none := by
    rw [attValue_escapeAttrib]
    split_ifs <;> rfl
  rw [Xml.values, if_pos hkeys, List.mapM_map, ← mapM_guard_eq_some_iff]
  exact iff_of_eq (congrArg (fun f ↦ attrib.mapM f = some as) (funext hread))

mutual

/-- An element is read if and only if its texts may be in a document, and then as it is. -/
theorem read_markup : ∀ {e : Element}, e.Proper → ∀ {root : Xml.Node},
    e.markup.lineEnds.read = some root ↔ e.Textual ∧ root = e.node
  | .mk tag attrib text children, ⟨_, _, hkeys, hchildren⟩, root => by
      rw [Element.markup, Xml.Markup.lineEnds, Xml.Markup.read, List.map_map,
        Option.bind_eq_some_iff]
      constructor
      · rintro ⟨as, has, hrest⟩
        obtain ⟨hattrib, rfl⟩ := (values_eq_some_iff hkeys).mp has
        obtain ⟨data, hdata, hrest⟩ := Option.bind_eq_some_iff.mp hrest
        rw [charData_escapeCdata] at hdata
        split_ifs at hdata with htext
        cases hdata
        obtain ⟨content, hcontent, rfl⟩ := Option.map_eq_some_iff.mp hrest
        obtain ⟨hall, rfl⟩ := (readAll_markups hchildren).mp hcontent
        exact ⟨⟨hattrib, htext, hall⟩, rfl⟩
      · rintro ⟨⟨hattrib, htext, hall⟩, rfl⟩
        refine ⟨attrib, (values_eq_some_iff hkeys).mpr ⟨hattrib, rfl⟩, ?_⟩
        rw [charData_escapeCdata, if_pos htext, Option.bind_some,
          (readAll_markups hchildren).mpr ⟨hall, rfl⟩]
        rfl

theorem readAll_markups : ∀ {es : List Element}, AllProper es → ∀ {content : List Xml.Node},
    Xml.readAll (Xml.allLineEnds (markups es)) = some content ↔ AllTextual es ∧ content = nodes es
  | [], _, content =>
      ⟨fun h ↦ ⟨trivial, (Option.some.inj h).symm⟩, fun h ↦ congrArg some h.2.symm⟩
  | e :: es, ⟨he, hes⟩, content => by
      rw [markups, Xml.allLineEnds, Xml.readAll, Option.bind_eq_some_iff]
      constructor
      · rintro ⟨node, hnode, hrest⟩
        obtain ⟨htext, rfl⟩ := (read_markup he).mp hnode
        obtain ⟨rest, hall, rfl⟩ := Option.map_eq_some_iff.mp hrest
        obtain ⟨htexts, rfl⟩ := (readAll_markups hes).mp hall
        exact ⟨⟨htext, htexts⟩, rfl⟩
      · rintro ⟨⟨htext, hall⟩, rfl⟩
        refine ⟨e.node, (read_markup he).mpr ⟨htext, rfl⟩, ?_⟩
        rw [(readAll_markups hes).mpr ⟨hall, rfl⟩]
        rfl

end

/-! ## Documents -/

/-- What the declaration of a document says. -/
def DECLARED : List (Text × Text) :=
  attribs [("version", "1.0".toList), ("encoding", "UTF-8".toList), ("standalone", "yes".toList)]

theorem declares_declared : Xml.Declares DECLARED where
  named := by decide
  version := rfl
  sublist := by decide
  declared := rfl

/-- The document of an element is well formed if and only if the texts in it may be in a document,
and what is read is the element. -/
theorem parse_document {e : Element} (he : e.Proper) {root : Xml.Node} :
    Xml.parse (document e) = some root ↔ e.Textual ∧ root = e.node := by
  have hdeclare : ascii "<?xml version=\"1.0\" encoding=\"UTF-8\" standalone=\"yes\"?>".toList =
      Xml.declare DECLARED :=
    ascii_of_isAscii (isAscii_of_all rfl)
  have hcr : '\r' ∉ Xml.declare DECLARED := by decide
  have hbytes : document e =
      (Xml.declare DECLARED ++ e.markup.write).map fun c ↦ UInt8.ofNat c.toNat := by
    rw [document, tostring, encodeRefs_eq, encodeRefs_eq, hdeclare, ascii_write he, List.map_append]
  have hascii : ∀ c ∈ Xml.declare DECLARED ++ e.markup.write, c.toNat < 128 := by
    rw [← hdeclare, ← ascii_write he, ← ascii_append]
    exact isAscii_ascii _
  have hlines := Xml.lineEnds_write he.delimited []
  rw [List.append_nil] at hlines
  rw [hbytes, Xml.parse_of_ascii hascii, Xml.lineEnds_append_of_notMem hcr, hlines,
    Xml.lineEnds_of_notMem List.not_mem_nil, List.append_nil,
    Xml.document_write declares_declared he.delimited.lineEnds, read_markup he]

/-! ## Events -/

/-- An event as it is meant to be read. -/
def eventNode (uid cot_type time stale lat lon hae callsign remarks : Text) : Xml.Node :=
  .element "event".toList (attribs [("version", "2.0".toList), ("uid", uid), ("type", cot_type),
      ("time", time), ("start", time), ("stale", stale), ("how", "m-g".toList)])
    [.element "point".toList (attribs [("lat", lat), ("lon", lon), ("hae", hae),
        ("ce", "9999999.0".toList), ("le", "9999999.0".toList)]) [],
      .element "detail".toList []
        ([.element "contact".toList (attribs [("callsign", callsign)]) [],
          .element "__group".toList
            (attribs [("name", "Cyan".toList), ("role", "Team Member".toList)]) [],
          .element "precisionlocation".toList
            (attribs [("altsrc", "GPS".toList), ("geopointsrc", "GPS".toList)]) []] ++
        if remarks ≠ [] then [.element "remarks".toList [] [.text remarks]] else [])]

/-- A root that is an event with these texts, and with nothing that is not meant to be there. -/
def Shows (uid callsign remarks : Text) (root : Xml.Node) : Prop :=
  ∃ cot_type time stale lat lon hae,
    root = eventNode uid cot_type time stale lat lon hae callsign remarks

/-! ### Numbers -/

theorem isChar_of_isDigit {c : Char} (h : c.isDigit = true) : IsChar c := by
  rw [Char.isDigit, Bool.and_eq_true, decide_eq_true_iff, decide_eq_true_iff] at h
  have hge : 48 ≤ c.toNat := h.1
  have hle : c.toNat ≤ 57 := h.2
  exact .inr (.inr (.inr (.inl ⟨by omega, by omega⟩)))

theorem isText_toDigits (n : ℕ) : IsText (Nat.toDigits 10 n) := fun _ hc ↦
  isChar_of_isDigit (Text.isDigit_of_mem_toDigits hc)

theorem isText_replicate (n : ℕ) : IsText (List.replicate n '0') := by
  intro c hc
  rw [List.eq_of_mem_replicate hc]
  decide

theorem isText_padded (width n : ℕ) : IsText (padded width n) :=
  Xml.isText_append.mpr ⟨isText_replicate _, isText_toDigits n⟩

theorem isText_utc (t : ℕ) : IsText (utc t) := by
  unfold utc
  simp only [Xml.isText_append, Xml.isText_cons, isText_padded, true_and]
  decide

theorem isText_formatFixed (digits : ℕ) (q : ℚ) : IsText (formatFixed digits q) := by
  have hdigits (n : ℕ) : IsText (fixedDigits digits n) :=
    Xml.isText_append.mpr ⟨isText_replicate _, isText_toDigits n⟩
  refine Xml.isText_append.mpr ⟨Xml.isText_append.mpr ⟨?_, ?_⟩, ?_⟩
  · split_ifs <;> decide
  · exact fun c hc ↦ hdigits _ c (List.mem_of_mem_take hc)
  · split_ifs
    · decide
    · exact Xml.isText_cons.mpr ⟨by decide, fun c hc ↦ hdigits _ c (List.mem_of_mem_drop hc)⟩

theorem isText_format (digits : ℕ) (x : PyFloat) : IsText (x.format digits) := by
  cases x with
  | fin q => exact isText_formatFixed digits q
  | posInf => exact of_decide_eq_true rfl
  | negInf => exact of_decide_eq_true rfl
  | nan => exact of_decide_eq_true rfl

/-! ### Documents of events -/

theorem proper_mk {tag : String} {l : List (String × Text)} {text : Text} {children : List Element}
    (keys : List String) (hl : l.map Prod.fst = keys) (htags : ∀ k ∈ tag :: keys, IsTag k.toList)
    (hkeys : keys.Nodup) (hchildren : AllProper children) :
    (Element.mk tag.toList (attribs l) text children).Proper := by
  subst hl
  obtain ⟨htag, htags⟩ := List.forall_mem_cons.mp htags
  refine ⟨htag, fun a ha ↦ ?_, ?_, hchildren⟩
  · obtain ⟨b, hb, rfl⟩ := List.mem_map.mp ha
    exact htags b.1 (List.mem_map_of_mem hb)
  · have hmap : (attribs l).map Prod.fst = (l.map Prod.fst).map String.toList := by
      rw [attribs, List.map_map, List.map_map]
      rfl
    rw [hmap]
    exact List.Nodup.map (fun _ _ h ↦ String.toList_injective h) hkeys

theorem proper_cotEvent (uid cot_type : Text) (pos : Position) (callsign remarks : Text)
    (stale_seconds now : ℕ) :
    (cotEvent uid cot_type pos callsign remarks stale_seconds now).Proper := by
  have hremarks :
      AllProper (if remarks ≠ [] then [.mk "remarks".toList [] remarks []] else []) := by
    split_ifs
    · exact ⟨proper_mk (l := []) [] rfl (by decide) (by decide) trivial, trivial⟩
    · trivial
  refine proper_mk ["version", "uid", "type", "time", "start", "stale", "how"] rfl (by decide)
    (by decide) ⟨?_, ?_, trivial⟩
  · exact proper_mk ["lat", "lon", "hae", "ce", "le"] rfl (by decide) (by decide) trivial
  · refine proper_mk (l := []) [] rfl (by decide) (by decide) ⟨?_, ?_, ?_, hremarks⟩
    · exact proper_mk ["callsign"] rfl (by decide) (by decide) trivial
    · exact proper_mk ["name", "role"] rfl (by decide) (by decide) trivial
    · exact proper_mk ["altsrc", "geopointsrc"] rfl (by decide) (by decide) trivial

theorem textual_remarks (remarks : Text) :
    AllTextual (if remarks ≠ [] then [.mk "remarks".toList [] remarks []] else []) ↔
      IsText remarks := by
  split_ifs with h
  · exact ⟨fun h ↦ h.1.2.1, fun h ↦ ⟨⟨fun a ha ↦ absurd ha List.not_mem_nil, h, trivial⟩, trivial⟩⟩
  · rw [not_not.mp h]
    exact iff_of_true trivial (by decide)

theorem textual_cotEvent_iff {uid cot_type : Text} (htype : IsText cot_type) (pos : Position)
    (callsign remarks : Text) (stale_seconds now : ℕ) :
    (cotEvent uid cot_type pos callsign remarks stale_seconds now).Textual ↔
      IsText uid ∧ IsText callsign ∧ IsText remarks := by
  have hconst : ∀ s ∈ ["", "2.0", "m-g", "9999999.0", "Cyan", "Team Member", "GPS"],
      IsText s.toList := by decide
  have hnil : IsText [] := by decide
  simp only [List.forall_mem_cons] at hconst
  simp only [cotEvent, List.cons_append, List.nil_append, Element.Textual, AllTextual, attribs,
    List.map_cons, List.map_nil, List.forall_mem_cons, List.not_mem_nil, false_imp_iff,
    implies_true, textual_remarks, hnil, hconst, htype, isText_utc, isText_format, true_and,
    and_true]

/-- The node of an event has the line ends of its remarks as they are read. -/
theorem node_cotEvent (uid cot_type : Text) (pos : Position) (callsign remarks : Text)
    (stale_seconds now : ℕ) :
    (cotEvent uid cot_type pos callsign remarks stale_seconds now).node =
      eventNode uid cot_type (utc now) (utc (now + stale_seconds * 1000000)) (pos.lat.format 7)
        (pos.lon.format 7) (pos.hae.format 3) callsign (Xml.lineEnds remarks) := by
  have hremarks : nodes (if remarks ≠ [] then [.mk "remarks".toList [] remarks []] else []) =
      if Xml.lineEnds remarks ≠ [] then
        [.element "remarks".toList [] [.text (Xml.lineEnds remarks)]] else [] := by
    by_cases h : remarks = []
    · subst h
      rfl
    · have hlines := mt Xml.lineEnds_eq_nil_iff.mp h
      rw [if_pos h, if_pos hlines, nodes, nodes, Element.node, nodes, Xml.texts, if_neg hlines,
        List.append_nil]
  rw [eventNode, ← hremarks]
  rfl

theorem eventNode_remarks {uid cot_type time stale lat lon hae callsign remarks : Text}
    {cot_type' time' stale' lat' lon' hae' remarks' : Text}
    (h : eventNode uid cot_type time stale lat lon hae callsign remarks =
      eventNode uid cot_type' time' stale' lat' lon' hae' callsign remarks') :
    remarks = remarks' := by
  simp only [eventNode, Xml.Node.element.injEq, List.cons.injEq, List.cons_append, List.nil_append,
    true_and, and_true] at h
  obtain ⟨-, -, h⟩ := h
  split_ifs at h with hr hr' hr'
  · simpa only [List.cons.injEq, Xml.Node.element.injEq, Xml.Node.text.injEq, true_and, and_true]
      using h
  · rw [not_not.mp hr, not_not.mp hr']

theorem shows_node_iff (uid cot_type : Text) (pos : Position) (callsign remarks : Text)
    (stale_seconds now : ℕ) :
    Shows uid callsign remarks (cotEvent uid cot_type pos callsign remarks stale_seconds now).node ↔
      '\r' ∉ remarks := by
  rw [node_cotEvent, ← Xml.lineEnds_eq_self_iff]
  constructor
  · rintro ⟨cot_type', time, stale, lat, lon, hae, h⟩
    exact eventNode_remarks h
  · intro hcr
    rw [hcr]
    exact ⟨_, _, _, _, _, _, rfl⟩

/-- What is read from the document of an event is what went into it if and only if that may be in a
document and there are no carriage returns in the remarks. -/
theorem parse_cotEvent_iff {uid cot_type : Text} (htype : IsText cot_type) (pos : Position)
    (callsign remarks : Text) (stale_seconds now : ℕ) :
    (∃ root, Xml.parse (document (cotEvent uid cot_type pos callsign remarks stale_seconds now)) =
        some root ∧ Shows uid callsign remarks root) ↔
      (IsText uid ∧ IsText callsign ∧ IsText remarks) ∧ '\r' ∉ remarks := by
  rw [← textual_cotEvent_iff htype pos callsign remarks stale_seconds now,
    ← shows_node_iff uid cot_type pos callsign remarks stale_seconds now]
  constructor
  · rintro ⟨root, hparse, hshows⟩
    obtain ⟨htextual, rfl⟩ := (parse_document (proper_cotEvent _ _ _ _ _ _ _)).mp hparse
    exact ⟨htextual, hshows⟩
  · rintro ⟨htextual, hshows⟩
    exact ⟨_, (parse_document (proper_cotEvent _ _ _ _ _ _ _)).mpr ⟨htextual, rfl⟩, hshows⟩

/-! ## Messages -/

/-- The name that a registration gives its node. -/
def givenName (m : Message) : Text :=
  let r := m.sub "registration"
  orElse (orElse (r.str "short_name").toList (r.str "name").toList)
    (((r.subs "config_data").head?.map fun c ↦ c.str "model").getD "").toList

/-- The texts of a message that identify its event or name it. -/
def nameTexts (m : Message) : List Text :=
  match Sapient.content m with
  | some "registration" => [(m.str "node_id").toList, givenName m]
  | some "status_report" => [(m.str "node_id").toList]
  | some "detection_report" => [detectionId m]
  | some "alert" => [((m.sub "alert").str "alert_id").toList]
  | _ => []

/-- The texts of a message that go into the remarks of its event. -/
def remarkTexts (m : Message) : List Text :=
  match Sapient.content m with
  | some "status_report" => [((m.sub "status_report").str "mode").toList]
  | some "detection_report" =>
      [first8 (m.str "node_id"), ((m.sub "detection_report").str "report_id").toList]
  | some "alert" => [((m.sub "alert").str "description").toList]
  | _ => []

theorem isText_take {s : Text} (h : IsText s) (n : ℕ) : IsText (s.take n) := fun c hc ↦
  h c (List.mem_of_mem_take hc)

theorem isText_orElse {s t : Text} (ht : IsText t) : IsText (orElse s t) ↔ IsText s := by
  unfold orElse
  split_ifs with hs
  · exact iff_of_true ht (hs ▸ fun c hc ↦ absurd hc List.not_mem_nil)
  · exact Iff.rfl

/-- A text that is read as it is, wherever it stands. -/
def Clean (s : Text) : Prop := IsText s ∧ '\r' ∉ s

instance (s : Text) : Decidable (Clean s) := inferInstanceAs (Decidable (_ ∧ _))

theorem clean_append {s t : Text} (hs : Clean s) (ht : Clean t) : Clean (s ++ t) :=
  ⟨Xml.isText_append.mpr ⟨hs.1, ht.1⟩, fun h ↦ (List.mem_append.mp h).elim hs.2 ht.2⟩

theorem notMem_orElse {c : Char} {s t : Text} (ht : c ∉ t) : c ∉ orElse s t ↔ c ∉ s := by
  unfold orElse
  split_ifs with hs
  · exact iff_of_true ht (hs ▸ List.not_mem_nil)
  · exact Iff.rfl

theorem clean_enumName {enum : String} {names : List (ℤ × String)} {number : ℤ} {name : Text}
    (hnames : ∀ e ∈ names, Clean e.2.toList) (h : enumName enum names number = .ok name) :
    Clean name := by
  unfold enumName at h
  cases hname : names.lookup number with
  | none =>
      rw [hname] at h
      cases h
  | some s =>
      rw [hname] at h
      cases h
      exact hnames _ (Dict.mem_of_lookup_eq_some hname)

theorem isText_cot_type (node_type : ℤ) :
    IsText ((NODE_TYPE_TO_COT.lookup node_type).getD NODE_DEFAULT_TYPE).toList := by
  have htable : ∀ e ∈ NODE_TYPE_TO_COT, IsText e.2.toList := by decide
  cases hlookup : NODE_TYPE_TO_COT.lookup node_type with
  | none => exact of_decide_eq_true rfl
  | some s => exact htable _ (Dict.mem_of_lookup_eq_some hlookup)

theorem isText_const_append {s t : Text} (hs : IsText s) : IsText (s ++ t) ↔ IsText t := by
  rw [Xml.isText_append, and_iff_right hs]

theorem notMem_const_append {c : Char} {s t : Text} (hs : c ∉ s) : c ∉ s ++ t ↔ c ∉ t := by
  rw [List.mem_append, not_or, and_iff_right hs]

/-- What the texts of an event take from its message. -/
structure TakenFrom (m : Message) (uid cot_type callsign remarks : Text) : Prop where
  type : IsText cot_type
  texts : IsText uid ∧ IsText callsign ∧ IsText remarks ↔
    ∀ s ∈ nameTexts m ++ remarkTexts m, IsText s
  remarks : '\r' ∉ remarks ↔ ∀ s ∈ remarkTexts m, '\r' ∉ s

theorem takenFrom_registration {m : Message} {r : Text × Text × Text}
    (hcontent : Sapient.content m = some "registration") (hmeta : registrationMeta m = .ok r) :
    TakenFrom m (m.str "node_id").toList r.1 r.2.1 r.2.2 := by
  obtain ⟨name, hname, hmeta⟩ := bind_eq_ok.mp hmeta
  cases hmeta
  have hclean : Clean name := clean_enumName (by decide) hname
  have hconst : Clean "SAPIENT Registration · node_type=".toList := by decide
  have hnames : nameTexts m = [(m.str "node_id").toList, givenName m] := by
    rw [nameTexts, hcontent]
    rfl
  have hremarks : remarkTexts m = [] := by
    rw [remarkTexts, hcontent]
    rfl
  refine ⟨isText_cot_type _, ?_, ?_⟩
  · rw [hnames, hremarks, isText_const_append hconst.1]
    simp only [List.append_nil, List.forall_mem_cons, List.not_mem_nil, false_imp_iff, implies_true,
      and_true, hclean.1]
    refine and_congr_right fun hid ↦ isText_orElse ?_
    exact (isText_const_append (by decide)).mpr (isText_take hid 8)
  · rw [hremarks, notMem_const_append hconst.2]
    exact iff_of_true hclean.2 fun s hs ↦ absurd hs List.not_mem_nil

theorem takenFrom_statusReport {m : Message} {r : Text × Text × Text}
    (hcontent : Sapient.content m = some "status_report") (hmeta : statusReportMeta m = .ok r) :
    TakenFrom m (m.str "node_id").toList r.1 r.2.1 r.2.2 := by
  obtain ⟨name, hname, hmeta⟩ := bind_eq_ok.mp hmeta
  cases hmeta
  have hclean : Clean ("SAPIENT StatusReport · system=".toList ++ name ++ " mode=".toList) :=
    clean_append (clean_append (by decide) (clean_enumName (by decide) hname)) (by decide)
  have hnames : nameTexts m = [(m.str "node_id").toList] := by
    rw [nameTexts, hcontent]
    rfl
  have hremarks : remarkTexts m = [((m.sub "status_report").str "mode").toList] := by
    rw [remarkTexts, hcontent]
    rfl
  refine ⟨of_decide_eq_true rfl, ?_, ?_⟩
  · rw [hnames, hremarks, isText_const_append hclean.1, isText_const_append (by decide)]
    simp only [List.cons_append, List.nil_append, List.forall_mem_cons, List.not_mem_nil,
      false_imp_iff, implies_true, and_true]
    exact and_congr_right fun hid ↦ and_iff_right (isText_take hid 8)
  · rw [hremarks, notMem_const_append hclean.2, List.forall_mem_singleton]

theorem takenFrom_detectionReport {m : Message} {r : Text × Text × Text}
    (hcontent : Sapient.content m = some "detection_report")
    (hmeta : detectionReportMeta m = .ok r) :
    TakenFrom m ("det-".toList ++ detectionId m) r.1 r.2.1 r.2.2 := by
  cases hmeta
  have hnode : Clean "SAPIENT DetectionReport · node=".toList := by decide
  have hreport : Clean " report=".toList := by decide
  have hnames : nameTexts m = [detectionId m] := by
    rw [nameTexts, hcontent]
    rfl
  have hremarks : remarkTexts m =
      [first8 (m.str "node_id"), ((m.sub "detection_report").str "report_id").toList] := by
    rw [remarkTexts, hcontent]
    rfl
  refine ⟨of_decide_eq_true rfl, ?_, ?_⟩
  · rw [hnames, hremarks, isText_const_append (by decide), isText_const_append (by decide)]
    simp only [Xml.isText_append, hnode.1, hreport.1, true_and, and_true, List.cons_append,
      List.nil_append, List.forall_mem_cons, List.not_mem_nil, false_imp_iff, implies_true]
    exact and_congr_right fun hid ↦ and_iff_right (isText_take hid 8)
  · rw [hremarks]
    simp only [List.mem_append, not_or, hnode.2, hreport.2, not_false_iff, true_and, and_true,
      List.forall_mem_cons, List.not_mem_nil, false_imp_iff, implies_true]

theorem takenFrom_alert {m : Message} {r : Text × Text × Text}
    (hcontent : Sapient.content m = some "alert") (hmeta : alertMeta m = .ok r) :
    TakenFrom m ("alert-".toList ++ ((m.sub "alert").str "alert_id").toList) r.1 r.2.1 r.2.2 := by
  cases hmeta
  have hconst : Clean "SAPIENT Alert · ".toList := by decide
  have hnames : nameTexts m = [((m.sub "alert").str "alert_id").toList] := by
    rw [nameTexts, hcontent]
    rfl
  have hremarks : remarkTexts m = [((m.sub "alert").str "description").toList] := by
    rw [remarkTexts, hcontent]
    rfl
  refine ⟨of_decide_eq_true rfl, ?_, ?_⟩
  · rw [hnames, hremarks, isText_const_append (by decide), isText_const_append (by decide),
      isText_const_append hconst.1, isText_orElse (by decide)]
    simp only [List.cons_append, List.nil_append, List.forall_mem_cons, List.not_mem_nil,
      false_imp_iff, implies_true, and_true]
    exact and_congr_right fun hid ↦ and_iff_right (isText_take hid 8)
  · rw [hremarks, notMem_const_append hconst.2, List.forall_mem_singleton]
    exact notMem_orElse (by decide)

theorem takenFrom_meta {m : Message} {h : Handler} {cot_type callsign remarks : Text}
    (hh : handlerOf m = some h) (hmeta : h.meta_fn m = .ok (cot_type, callsign, remarks)) :
    TakenFrom m (h.uid_fn m) cot_type callsign remarks := by
  obtain ⟨content, hcontent, hh⟩ := Option.bind_eq_some_iff.mp hh
  unfold contentHandler at hh
  split at hh
  · cases hh
    exact takenFrom_registration hcontent hmeta
  · cases hh
    exact takenFrom_statusReport hcontent hmeta
  · cases hh
    exact takenFrom_detectionReport hcontent hmeta
  · cases hh
    exact takenFrom_alert hcontent hmeta
  · cases hh

/-- What is emitted is the document of an event with the texts that the handler builds. -/
theorem document_of_convert {fb : Fallback} {now : ℕ} {m : Message} {h : Handler}
    {cot_type callsign remarks : Text} {doc : List UInt8} (hh : handlerOf m = some h)
    (hmeta : h.meta_fn m = .ok (cot_type, callsign, remarks))
    (hdoc : convert fb now m = .ok (some doc)) :
    ∃ pos, doc = document
      (cotEvent (h.uid_fn m) cot_type pos callsign remarks h.stale_seconds now) := by
  obtain ⟨o, ho, hmap⟩ := map_eq_ok.mp hdoc
  unfold convertEvent at ho
  rw [hh] at ho
  dsimp only at ho
  cases hpos : h.position fb m with
  | none =>
      rw [hpos] at ho
      cases ho
      cases hmap
  | some pos =>
      rw [hpos] at ho
      dsimp only at ho
      rw [hmeta] at ho
      cases ho
      exact ⟨pos, Option.some.inj hmap⟩

/-- The document that is made of a message is well formed, and is read as an event with the texts
that were built for it and with nothing else, if and only if the texts that the message gives for it
are made of the characters of XML and those for the remarks have no carriage return. -/
theorem convert_shows_iff {fb : Fallback} {now : ℕ} {m : Message} {h : Handler}
    {cot_type callsign remarks : Text} {doc : List UInt8} (hh : handlerOf m = some h)
    (hmeta : h.meta_fn m = .ok (cot_type, callsign, remarks))
    (hdoc : convert fb now m = .ok (some doc)) :
    (∃ root, Xml.parse doc = some root ∧ Shows (h.uid_fn m) callsign remarks root) ↔
      (∀ s ∈ nameTexts m ++ remarkTexts m, IsText s) ∧ ∀ s ∈ remarkTexts m, '\r' ∉ s := by
  obtain ⟨pos, rfl⟩ := document_of_convert hh hmeta hdoc
  have htaken := takenFrom_meta hh hmeta
  rw [parse_cotEvent_iff htaken.type, htaken.texts, htaken.remarks]

/-- A status report of a mode. -/
def statusOf (mode : String) : Message :=
  [("node_id", .str "n-1"), ("status_report", .msg [("mode", .str mode)])]

/-- A fallback position. -/
def greenwich : Fallback := ⟨some (.fin (103 / 2)), some (.fin 0), none⟩

theorem convert_shows_iff_status : ∃ h cot_type callsign remarks doc,
    handlerOf (statusOf "a<b & \"c\"") = some h ∧
    h.meta_fn (statusOf "a<b & \"c\"") = .ok (cot_type, callsign, remarks) ∧
    convert greenwich 0 (statusOf "a<b & \"c\"") = .ok (some doc) ∧
    ((∃ root, Xml.parse doc = some root ∧
        Shows (h.uid_fn (statusOf "a<b & \"c\"")) callsign remarks root) ↔
      (∀ s ∈ nameTexts (statusOf "a<b & \"c\"") ++ remarkTexts (statusOf "a<b & \"c\""), IsText s) ∧
        ∀ s ∈ remarkTexts (statusOf "a<b & \"c\""), '\r' ∉ s) :=
  ⟨_, _, _, _, _, rfl, rfl, rfl, @convert_shows_iff greenwich 0 _ _ _ _ _ _ rfl rfl rfl⟩

/-- A control character in the mode of a node leaves no document that can be read. -/
theorem control_character_unreadable : ∃ (m : Sapient.SapientMessage) (h : Handler)
    (cot_type callsign remarks : Text) (doc : List UInt8), handlerOf m.fields = some h ∧
    h.meta_fn m.fields = .ok (cot_type, callsign, remarks) ∧
    convert greenwich 0 m.fields = .ok (some doc) ∧
    ¬∃ root, Xml.parse doc = some root ∧ Shows (h.uid_fn m.fields) callsign remarks root := by
  refine ⟨⟨statusOf "\x01", by decide⟩, _, _, _, _, _, rfl, rfl, rfl, fun hshows ↦ ?_⟩
  have htexts := (parse_cotEvent_iff (by decide) _ _ _ _ _).mp hshows
  exact absurd htexts.1.2.2 (by decide)

end SensorFusion.Cot
