import Mathlib.Data.List.TakeWhile
import Mathlib.Data.Nat.Digits.Defs
import Mathlib.Tactic.Common

/-!
# Reading XML

Documents of XML 1.0 in UTF-8, after the productions of the recommendation.  Left out are
document type declarations, so that the only entities are the five that need none, and byte order
marks.  Where a production repeats itself the reader counts down; no more than two steps are taken
without a character, so that a count of twice the characters is enough.
-/

namespace SensorFusion.Xml

/-! ## Characters -/

/-- `Char`. -/
def IsChar (c : Char) : Prop :=
  c = '\t' ∨ c = '\n' ∨ c = '\r' ∨ (0x20 ≤ c.toNat ∧ c.toNat ≤ 0xfffd) ∨ 0x10000 ≤ c.toNat

instance : DecidablePred IsChar := fun _ ↦ inferInstanceAs (Decidable (_ ∨ _))

/-- `S`, one of it. -/
def isSpace (c : Char) : Bool := c == ' ' || c == '\t' || c == '\n' || c == '\r'

def NAME_START : List (ℕ × ℕ) :=
  [(0x3a, 0x3a), (0x41, 0x5a), (0x5f, 0x5f), (0x61, 0x7a), (0xc0, 0xd6), (0xd8, 0xf6),
   (0xf8, 0x2ff), (0x370, 0x37d), (0x37f, 0x1fff), (0x200c, 0x200d), (0x2070, 0x218f),
   (0x2c00, 0x2fef), (0x3001, 0xd7ff), (0xf900, 0xfdcf), (0xfdf0, 0xfffd), (0x10000, 0xeffff)]

def NAME_REST : List (ℕ × ℕ) :=
  [(0x2d, 0x2e), (0x30, 0x39), (0xb7, 0xb7), (0x300, 0x36f), (0x203f, 0x2040)]

def inRanges (ranges : List (ℕ × ℕ)) (c : Char) : Bool :=
  ranges.any fun r ↦ r.1 ≤ c.toNat && c.toNat ≤ r.2

/-- `NameStartChar`. -/
def isNameStart (c : Char) : Bool := inRanges NAME_START c

/-- `NameChar`. -/
def isNameChar (c : Char) : Bool := inRanges (NAME_START ++ NAME_REST) c

/-- The other ways to end a line are read as a newline.  The flag says that a carriage return was
just read. -/
def lineEndsFrom : Bool → List Char → List Char
  | _, [] => []
  | cr, c :: s =>
      if c = '\r' then '\n' :: lineEndsFrom true s
      else if cr = true ∧ c = '\n' then lineEndsFrom false s
      else c :: lineEndsFrom false s

def lineEnds (s : List Char) : List Char := lineEndsFrom false s

/-! ## References -/

def ENTITIES : List (List Char × Char) :=
  [("amp".toList, '&'), ("lt".toList, '<'), ("gt".toList, '>'), ("quot".toList, '"'),
   ("apos".toList, '\'')]

/-- A character by its number. -/
def charOf (n : ℕ) : Option Char :=
  if n.isValidChar ∧ IsChar (Char.ofNat n) then some (Char.ofNat n) else none

def hexValue (c : Char) : Option ℕ := "0123456789abcdef".toList.idxOf? c.toLower

/-- What a `Reference` refers to, by what stands between its `&` and its `;`. -/
def referent (s : List Char) : Option Char :=
  if "#x".toList.isPrefixOf s then
    if s.drop 2 = [] then none
    else ((s.drop 2).mapM hexValue).bind fun vs ↦ charOf (Nat.ofDigits 16 vs.reverse)
  else if "#".toList.isPrefixOf s then
    if s.drop 1 ≠ [] ∧ (s.drop 1).all Char.isDigit then charOf (Nat.ofDigitChars 10 (s.drop 1) 0)
    else none
  else ENTITIES.lookup s

/-- The characters that stand for themselves or are referred to.  The first argument is what was
read of a reference, the last character first. -/
def expand : Option (List Char) → List Char → Option (List Char)
  | none, [] => some []
  | some _, [] => none
  | none, c :: s =>
      if c = '&' then expand (some []) s
      else if IsChar c then (expand none s).map (c :: ·) else none
  | some r, c :: s =>
      if c = ';' then (referent r.reverse).bind fun d ↦ (expand none s).map (d :: ·)
      else expand (some (c :: r)) s

/-! ## Parts of markup -/

/-- The text before the first occurrence of a mark, and the text after it. -/
def upTo (mark : List Char) : List Char → Option (List Char × List Char)
  | [] => none
  | c :: s =>
      if mark.isPrefixOf (c :: s) then some ([], (c :: s).drop mark.length)
      else (upTo mark s).map fun r ↦ (c :: r.1, r.2)

/-- `CharData` and `Reference`s. -/
def charData (raw : List Char) : Option (List Char) :=
  if (upTo "]]>".toList raw).isSome then none else expand none raw

/-- `AttValue` without its quotes, normalised. -/
def attValue (raw : List Char) : Option (List Char) :=
  if '<' ∈ raw then none else expand none (raw.map fun c ↦ if isSpace c then ' ' else c)

/-- `Name`. -/
def name (s : List Char) : Option (List Char × List Char) :=
  if s.head?.any isNameStart then some (s.takeWhile isNameChar, s.dropWhile isNameChar) else none

/-- `Eq`. -/
def equals (s : List Char) : Option (List Char) :=
  if (s.dropWhile isSpace).head? = some '=' then
    some (((s.dropWhile isSpace).drop 1).dropWhile isSpace)
  else none

/-- A literal in either kind of quotes. -/
def literal : List Char → Option (List Char × List Char)
  | [] => none
  | q :: s => if q = '"' ∨ q = '\'' then upTo [q] s else none

/-- `Attribute`, with its value as it is written. -/
def attrib (s : List Char) : Option ((List Char × List Char) × List Char) :=
  (name s).bind fun n ↦ (equals n.2).bind fun s ↦ (literal s).map fun v ↦ ((n.1, v.1), v.2)

/-- `(S Attribute)* S?`. -/
def attributes : ℕ → List Char → Option (List (List Char × List Char) × List Char)
  | 0, _ => none
  | n + 1, s =>
      if (s.dropWhile isSpace).head?.any isNameStart then
        if s.head?.any isSpace then
          (attrib (s.dropWhile isSpace)).bind fun a ↦
            (attributes n a.2).map fun as ↦ (a.1 :: as.1, as.2)
        else none
      else some ([], s.dropWhile isSpace)

/-- `Comment`, after its `<!--`. -/
def comment (s : List Char) : Option (List Char) :=
  (upTo "--".toList s).bind fun r ↦
    if r.1.all (fun c ↦ decide (IsChar c)) ∧ r.2.head? = some '>' then some (r.2.drop 1) else none

/-- `PI`, after its `<?`. -/
def instruction (s : List Char) : Option (List Char) :=
  (name s).bind fun n ↦ (upTo "?>".toList n.2).bind fun r ↦
    if n.1.map Char.toLower ≠ "xml".toList ∧ r.1.all (fun c ↦ decide (IsChar c)) ∧
        r.1.head?.all isSpace then some r.2
    else none

/-- `CDSect`, after its `<![CDATA[`. -/
def cdata (s : List Char) : Option (List Char × List Char) :=
  (upTo "]]>".toList s).bind fun r ↦
    if r.1.all (fun c ↦ decide (IsChar c)) then some r else none

/-! ## Elements -/

/-- Character data, or an element. -/
inductive Node where
  | text (data : List Char)
  | element (name : List Char) (attributes : List (List Char × List Char)) (content : List Node)

/-- The node of character data, if there is any. -/
def texts (data : List Char) : List Node := if data = [] then [] else [.text data]

/-- The attributes of a tag, which have to have different names. -/
def values (raw : List (List Char × List Char)) : Option (List (List Char × List Char)) :=
  if (raw.map Prod.fst).Nodup then raw.mapM fun a ↦ (attValue a.2).map (a.1, ·) else none

/-- `ETag`, after its `</`. -/
def endTag (n : List Char) (s : List Char) : Option (List Char) :=
  (name s).bind fun r ↦
    if r.1 = n ∧ (r.2.dropWhile isSpace).head? = some '>' then
      some ((r.2.dropWhile isSpace).drop 1)
    else none

mutual

/-- `element`, after its `<`. -/
def element : ℕ → List Char → Option (Node × List Char)
  | 0, _ => none
  | k + 1, s =>
      (name s).bind fun n ↦ (attributes (n.2.length + 1) n.2).bind fun r ↦
        (values r.1).bind fun as ↦
          if "/>".toList.isPrefixOf r.2 then some (.element n.1 as [], r.2.drop 2)
          else if ">".toList.isPrefixOf r.2 then
            (content k (r.2.drop 1)).bind fun c ↦
              (endTag n.1 c.2).map fun s ↦ (.element n.1 as c.1, s)
          else none

/-- `content`, and the `</` of the end tag. -/
def content : ℕ → List Char → Option (List Node × List Char)
  | 0, _ => none
  | k + 1, s =>
      (charData (s.takeWhile (· ≠ '<'))).bind fun data ↦
        (markup k (s.dropWhile (· ≠ '<'))).map fun c ↦ (texts data ++ c.1, c.2)

/-- What follows character data in `content`. -/
def markup : ℕ → List Char → Option (List Node × List Char)
  | 0, _ => none
  | k + 1, s =>
      if "</".toList.isPrefixOf s then some ([], s.drop 2)
      else if "<!--".toList.isPrefixOf s then (comment (s.drop 4)).bind (content k)
      else if "<![CDATA[".toList.isPrefixOf s then
        (cdata (s.drop 9)).bind fun r ↦ (content k r.2).map fun c ↦ (texts r.1 ++ c.1, c.2)
      else if "<?".toList.isPrefixOf s then (instruction (s.drop 2)).bind (content k)
      else
        (element k (s.drop 1)).bind fun e ↦ (content k e.2).map fun c ↦ (e.1 :: c.1, c.2)

end

/-! ## Documents -/

/-- `Misc*`. -/
def misc : ℕ → List Char → Option (List Char)
  | 0, _ => none
  | k + 1, s =>
      let s := s.dropWhile isSpace
      if "<!--".toList.isPrefixOf s then (comment (s.drop 4)).bind (misc k)
      else if "<?".toList.isPrefixOf s then (instruction (s.drop 2)).bind (misc k)
      else some s

/-- What an XML declaration may say. -/
def isDeclared (a : List Char × List Char) : Bool :=
  if a.1 = "version".toList then
    "1.".toList.isPrefixOf a.2 && a.2.drop 2 != [] && (a.2.drop 2).all Char.isDigit
  else if a.1 = "encoding".toList then a.2.map Char.toLower = "utf-8".toList
  else a.2 = "yes".toList ∨ a.2 = "no".toList

/-- `XMLDecl?`. -/
def declaration (s : List Char) : Option (List Char) :=
  if "<?xml".toList.isPrefixOf s ∧ (s.drop 5).head?.any isSpace then
    (attributes s.length (s.drop 5)).bind fun r ↦
      if (r.1.map Prod.fst).head? = some "version".toList ∧
          (r.1.map Prod.fst).Sublist ["version".toList, "encoding".toList, "standalone".toList] ∧
          r.1.all isDeclared ∧ "?>".toList.isPrefixOf r.2 then some (r.2.drop 2)
      else none
  else some s

/-- `document`. -/
def document (s : List Char) : Option Node :=
  (declaration s).bind fun s ↦ (misc (s.length + 1) s).bind fun s ↦
    if "<".toList.isPrefixOf s then
      (element (2 * s.length) (s.drop 1)).bind fun e ↦
        (misc (e.2.length + 1) e.2).bind fun s ↦ if s = [] then some e.1 else none
    else none

/-- The root of a document, if it is well formed. -/
def parse (bytes : List UInt8) : Option Node :=
  bytes.toByteArray.utf8Decode?.bind fun s ↦ document (lineEnds s.toList)

/-! ## Reading parts of markup -/

def IsName (n : List Char) : Prop :=
  n.head?.any isNameStart = true ∧ n.all isNameChar = true

instance (n : List Char) : Decidable (IsName n) := inferInstanceAs (Decidable (_ ∧ _))

theorem isSpace_of_isNameStart {c : Char} (h : isNameStart c = true) : isSpace c = false := by
  by_contra hspace
  rw [Bool.not_eq_false] at hspace
  simp only [isSpace, Bool.or_eq_true, beq_iff_eq] at hspace
  rcases hspace with ((rfl | rfl) | rfl) | rfl <;> exact absurd h (by decide)

theorem dropWhile_of_head? {p : Char → Bool} {s : List Char} (h : s.head?.any p = false) :
    s.dropWhile p = s := by
  cases s with
  | nil => rfl
  | cons c s => exact List.dropWhile_cons_of_neg (Bool.eq_false_iff.mp h)

theorem takeWhile_append_of_head? {p : Char → Bool} {s rest : List Char} (hs : ∀ c ∈ s, p c = true)
    (hrest : rest.head?.any p = false) : (s ++ rest).takeWhile p = s := by
  rw [List.takeWhile_append_of_pos hs]
  cases rest with
  | nil => exact List.append_nil s
  | cons c rest =>
      have hc : ¬p c = true := Bool.eq_false_iff.mp hrest
      rw [List.takeWhile_cons_of_neg hc, List.append_nil]

theorem dropWhile_append_of_head? {p : Char → Bool} {s rest : List Char} (hs : ∀ c ∈ s, p c = true)
    (hrest : rest.head?.any p = false) : (s ++ rest).dropWhile p = rest := by
  rw [List.dropWhile_append_of_pos hs, dropWhile_of_head? hrest]

theorem exists_cons_of_isName {n : List Char} (hn : IsName n) :
    ∃ c s, n = c :: s ∧ isNameStart c = true := by
  cases n with
  | nil => exact absurd hn.1 (by decide)
  | cons c s => exact ⟨c, s, rfl, hn.1⟩

theorem head?_append_of_isName {n : List Char} (hn : IsName n) (rest : List Char) :
    (n ++ rest).head?.any isNameStart = true := by
  obtain ⟨c, n, rfl, hc⟩ := exists_cons_of_isName hn
  exact hc

theorem name_append {n rest : List Char} (hn : IsName n)
    (hrest : rest.head?.any isNameChar = false) : name (n ++ rest) = some (n, rest) := by
  have hall := List.all_eq_true.mp hn.2
  rw [name, if_pos (head?_append_of_isName hn rest), takeWhile_append_of_head? hall hrest,
    dropWhile_append_of_head? hall hrest]

theorem dropWhile_isSpace_append {n : List Char} (hn : IsName n) (rest : List Char) :
    (n ++ rest).dropWhile isSpace = n ++ rest := by
  obtain ⟨c, n, rfl, hc⟩ := exists_cons_of_isName hn
  exact List.dropWhile_cons_of_neg (Bool.eq_false_iff.mp (isSpace_of_isNameStart hc))

theorem upTo_append {q : Char} {s : List Char} (h : q ∉ s) (rest : List Char) :
    upTo [q] (s ++ q :: rest) = some (s, rest) := by
  induction s with
  | nil => rw [List.nil_append, upTo, if_pos (by simp)]; rfl
  | cons c s ih =>
      rw [List.mem_cons, not_or] at h
      rw [List.cons_append, upTo, if_neg (by simpa using h.1), ih h.2]
      rfl

/-- An attribute in double quotes. -/
def quoted (a : List Char × List Char) : List Char := ' ' :: a.1 ++ '=' :: '"' :: a.2 ++ ['"']

theorem attrib_append {a : List Char × List Char} (hname : IsName a.1) (hvalue : '"' ∉ a.2)
    (rest : List Char) : attrib (a.1 ++ '=' :: '"' :: (a.2 ++ '"' :: rest)) = some (a, rest) := by
  have hequals : equals ('=' :: '"' :: (a.2 ++ '"' :: rest)) =
      some ('"' :: (a.2 ++ '"' :: rest)) := by
    have hspace : ('=' :: '"' :: (a.2 ++ '"' :: rest)).dropWhile isSpace =
        '=' :: '"' :: (a.2 ++ '"' :: rest) := List.dropWhile_cons_of_neg (by decide)
    rw [equals, hspace, if_pos List.head?_cons, List.drop_one, List.tail_cons,
      List.dropWhile_cons_of_neg (by decide)]
  rw [attrib, name_append hname rfl, Option.bind_some, hequals, Option.bind_some, literal,
    if_pos (.inl rfl), upTo_append hvalue]
  rfl

theorem attributes_append {as : List (List Char × List Char)}
    (has : ∀ a ∈ as, IsName a.1 ∧ '"' ∉ a.2) {rest : List Char}
    (hrest : (rest.dropWhile isSpace).head?.any isNameStart = false) {k : ℕ} (hk : as.length < k) :
    attributes k (as.flatMap quoted ++ rest) = some (as, rest.dropWhile isSpace) := by
  induction as generalizing k with
  | nil =>
      obtain ⟨k, rfl⟩ := Nat.exists_eq_succ_of_ne_zero (Nat.ne_of_gt hk)
      rw [List.flatMap_nil, List.nil_append, attributes, if_neg (Bool.eq_false_iff.mp hrest)]
  | cons a as ih =>
      obtain ⟨k, rfl⟩ := Nat.exists_eq_succ_of_ne_zero (Nat.ne_of_gt (Nat.zero_lt_of_lt hk))
      obtain ⟨⟨hname, hvalue⟩, has⟩ := List.forall_mem_cons.mp has
      have hspace : (List.flatMap quoted (a :: as) ++ rest).dropWhile isSpace =
          a.1 ++ '=' :: '"' :: (a.2 ++ '"' :: (as.flatMap quoted ++ rest)) := by
        simp only [List.flatMap_cons, quoted, List.append_assoc, List.cons_append, List.nil_append]
        rw [List.dropWhile_cons_of_pos (by decide), dropWhile_isSpace_append hname]
      have hhead : (List.flatMap quoted (a :: as) ++ rest).head?.any isSpace = true := rfl
      rw [attributes, hspace, if_pos (head?_append_of_isName hname _), if_pos hhead,
        attrib_append hname hvalue, Option.bind_some, ih has (Nat.lt_of_succ_lt_succ hk)]
      rfl

/-! ## Reading references -/

theorem expand_pending {body : List Char} (hbody : ';' ∉ body) (r s : List Char) :
    expand (some r) (body ++ ';' :: s) =
      (referent (r.reverse ++ body)).bind fun d ↦ (expand none s).map (d :: ·) := by
  induction body generalizing r with
  | nil => rw [List.nil_append, expand, if_pos rfl, List.append_nil]
  | cons c body ih =>
      rw [List.mem_cons, not_or] at hbody
      rw [List.cons_append, expand, if_neg (Ne.symm hbody.1), ih hbody.2, List.reverse_cons,
        List.append_assoc, List.singleton_append]

/-- Characters that a document may hold. -/
def IsText (s : List Char) : Prop := ∀ c ∈ s, IsChar c

instance (s : List Char) : Decidable (IsText s) :=
  decidable_of_iff (s.all (fun c ↦ decide (IsChar c)) = true) (by simp [IsText])

theorem isText_append {s t : List Char} : IsText (s ++ t) ↔ IsText s ∧ IsText t :=
  List.forall_mem_append

theorem isText_cons {c : Char} {s : List Char} : IsText (c :: s) ↔ IsChar c ∧ IsText s :=
  List.forall_mem_cons

/-- A text that is read as a character, if that is one of XML. -/
def Spells (w : List Char) (c : Char) : Prop :=
  ∀ s, expand none (w ++ s) = if IsChar c then (expand none s).map (c :: ·) else none

theorem spells_self {c : Char} (hc : c ≠ '&') : Spells [c] c := by
  intro s
  rw [List.singleton_append, expand, if_neg hc]

theorem spells_reference {body : List Char} {c : Char} (hbody : ';' ∉ body)
    (h : referent body = if IsChar c then some c else none) :
    Spells ('&' :: body ++ [';']) c := by
  intro s
  rw [List.append_assoc, List.cons_append, expand, if_pos rfl, List.singleton_append,
    expand_pending hbody, List.reverse_nil, List.nil_append, h]
  split_ifs <;> rfl

theorem expand_flatMap {f : Char → List Char} {s : List Char} (h : ∀ c ∈ s, Spells (f c) c) :
    expand none (s.flatMap f) = if IsText s then some s else none := by
  induction s with
  | nil => rfl
  | cons c s ih =>
      obtain ⟨hc, hs⟩ := List.forall_mem_cons.mp h
      rw [List.flatMap_cons, hc, ih hs]
      by_cases hchar : IsChar c
      · simp only [isText_cons, hchar, true_and, if_true]
        split_ifs <;> rfl
      · rw [if_neg hchar, if_neg fun h ↦ hchar (h c List.mem_cons_self)]

theorem referent_number (c : Char) :
    referent ('#' :: Nat.toDigits 10 c.toNat) = if IsChar c then some c else none := by
  have hdigits : ∀ d ∈ Nat.toDigits 10 c.toNat, d.isDigit = true := fun d hd ↦
    Nat.isDigit_of_mem_toDigits (by decide) (by decide) hd
  obtain ⟨d, ds, hds⟩ := List.exists_cons_of_ne_nil (l := Nat.toDigits 10 c.toNat)
    Nat.toDigits_ne_nil
  have hx : ¬"#x".toList.isPrefixOf ('#' :: Nat.toDigits 10 c.toNat) = true := by
    have hd : d ≠ 'x' := by
      rintro rfl
      exact absurd (hdigits 'x' (hds ▸ List.mem_cons_self)) (by decide)
    rw [hds]
    simp [hd.symm]
  have hall : Nat.toDigits 10 c.toNat ≠ [] ∧ (Nat.toDigits 10 c.toNat).all Char.isDigit = true :=
    ⟨hds ▸ List.cons_ne_nil d ds, List.all_eq_true.mpr hdigits⟩
  rw [referent, if_neg hx, if_pos (by simp), List.drop_one, List.tail_cons, if_pos hall,
    Nat.ofDigitChars_ten_toDigits, charOf, Char.ofNat_toNat]
  exact if_congr (and_iff_right c.valid) rfl rfl

theorem attValue_of_plain {raw : List Char} (hlt : '<' ∉ raw)
    (hspace : ∀ c ∈ raw, isSpace c = true → c = ' ') : attValue raw = expand none raw := by
  rw [attValue, if_neg hlt]
  refine congrArg _ ((List.map_congr_left fun c hc ↦ ?_).trans (List.map_id' raw))
  split_ifs with h
  · exact (hspace c hc h).symm
  · rfl

theorem upTo_eq_none {mark s : List Char} {c : Char} (hc : c ∈ mark) (hs : c ∉ s) :
    upTo mark s = none := by
  induction s with
  | nil => rfl
  | cons d s ih =>
      have hmark : ¬mark.isPrefixOf (d :: s) = true := fun h ↦
        hs ((List.isPrefixOf_iff_prefix.mp h).subset hc)
      rw [upTo, if_neg hmark, ih fun h ↦ hs (List.mem_cons_of_mem d h)]
      rfl

theorem charData_of_notMem {raw : List Char} (h : '>' ∉ raw) : charData raw = expand none raw := by
  rw [charData, upTo_eq_none (c := '>') (by decide) h]
  rfl

/-! ## Line ends -/

theorem lineEnds_cons {c : Char} (hc : c ≠ '\r') (s : List Char) :
    lineEnds (c :: s) = c :: lineEnds s := by
  rw [lineEnds, lineEndsFrom, if_neg hc, if_neg (by simp)]
  rfl

theorem lineEnds_append_of_notMem {s : List Char} (hs : '\r' ∉ s) (t : List Char) :
    lineEnds (s ++ t) = s ++ lineEnds t := by
  induction s with
  | nil => rfl
  | cons c s ih =>
      rw [List.mem_cons, not_or] at hs
      rw [List.cons_append, lineEnds_cons (Ne.symm hs.1), ih hs.2, List.cons_append]

theorem lineEnds_of_notMem {s : List Char} (hs : '\r' ∉ s) : lineEnds s = s := by
  have happend := lineEnds_append_of_notMem hs []
  rwa [List.append_nil, lineEnds.eq_1 [], lineEndsFrom.eq_1, List.append_nil] at happend

theorem lineEndsFrom_of_head? {t : List Char} (ht : t.head? ≠ some '\n') (cr : Bool) :
    lineEndsFrom cr t = lineEnds t := by
  cases t with
  | nil => rfl
  | cons c t =>
      rw [List.head?_cons, ne_eq, Option.some_inj] at ht
      rw [lineEnds, lineEndsFrom, lineEndsFrom]
      by_cases hcr : c = '\r'
      · rw [if_pos hcr, if_pos hcr]
      · rw [if_neg hcr, if_neg hcr, if_neg fun h ↦ ht h.2, if_neg fun h ↦ ht h.2]

theorem lineEndsFrom_append {t : List Char} (ht : t.head? ≠ some '\n') (cr : Bool) (s : List Char) :
    lineEndsFrom cr (s ++ t) = lineEndsFrom cr s ++ lineEnds t := by
  induction s generalizing cr with
  | nil => exact lineEndsFrom_of_head? ht cr
  | cons c s ih =>
      rw [List.cons_append, lineEndsFrom, lineEndsFrom, ih, ih]
      split_ifs <;> rfl

theorem lineEnds_append {t : List Char} (ht : t.head? ≠ some '\n') (s : List Char) :
    lineEnds (s ++ t) = lineEnds s ++ lineEnds t :=
  lineEndsFrom_append ht false s

theorem mem_lineEndsFrom {c : Char} {cr : Bool} {s : List Char} (h : c ∈ lineEndsFrom cr s) :
    c = '\n' ∨ c ∈ s ∧ c ≠ '\r' := by
  induction s generalizing cr with
  | nil => cases h
  | cons d s ih =>
      rw [lineEndsFrom] at h
      split_ifs at h with hcr hlf
      · rcases List.mem_cons.mp h with rfl | h
        · exact .inl rfl
        · exact (ih h).imp_right fun h ↦ ⟨List.mem_cons_of_mem d h.1, h.2⟩
      · exact (ih h).imp_right fun h ↦ ⟨List.mem_cons_of_mem d h.1, h.2⟩
      · rcases List.mem_cons.mp h with rfl | h
        · exact .inr ⟨List.mem_cons_self, hcr⟩
        · exact (ih h).imp_right fun h ↦ ⟨List.mem_cons_of_mem d h.1, h.2⟩

theorem mem_lineEnds {c : Char} {s : List Char} (h : c ∈ lineEnds s) :
    c = '\n' ∨ c ∈ s ∧ c ≠ '\r' :=
  mem_lineEndsFrom h

theorem isText_lineEndsFrom (cr : Bool) (s : List Char) :
    IsText (lineEndsFrom cr s) ↔ IsText s := by
  induction s generalizing cr with
  | nil => exact Iff.rfl
  | cons c s ih =>
      rw [lineEndsFrom, isText_cons]
      split_ifs with hcr hlf
      · rw [isText_cons, ih, hcr]
        exact and_congr_left' (iff_of_true (by decide) (by decide))
      · rw [ih, hlf.2]
        exact (and_iff_right (by decide)).symm
      · rw [isText_cons, ih]

theorem isText_lineEnds (s : List Char) : IsText (lineEnds s) ↔ IsText s :=
  isText_lineEndsFrom false s

/-- What is read is what was written if and only if no carriage return was. -/
theorem lineEnds_eq_self_iff {s : List Char} : lineEnds s = s ↔ '\r' ∉ s := by
  refine ⟨fun h hmem ↦ ?_, lineEnds_of_notMem⟩
  rw [← h] at hmem
  rcases mem_lineEnds hmem with heq | ⟨-, hne⟩
  · cases heq
  · exact hne rfl

theorem lineEnds_eq_nil_iff {s : List Char} : lineEnds s = [] ↔ s = [] := by
  cases s with
  | nil => exact iff_of_true rfl rfl
  | cons c s =>
      refine iff_of_false ?_ (List.cons_ne_nil c s)
      by_cases hcr : c = '\r'
      · rw [lineEnds, lineEndsFrom, if_pos hcr]
        exact List.cons_ne_nil _ _
      · rw [lineEnds_cons hcr]
        exact List.cons_ne_nil _ _

theorem lineEndsFrom_append_of_ne_nil {w : List Char} (hne : w ≠ []) (hcr : '\r' ∉ w)
    (hlf : '\n' ∉ w) (cr : Bool) (t : List Char) :
    lineEndsFrom cr (w ++ t) = w ++ lineEnds t := by
  rw [lineEndsFrom_of_head?, lineEnds_append_of_notMem hcr]
  obtain ⟨d, w, rfl⟩ := List.exists_cons_of_ne_nil hne
  intro hhead
  cases hhead
  exact hlf List.mem_cons_self

/-- Line ends are read the same when all but their characters are spelled without them. -/
theorem lineEndsFrom_flatMap {f : Char → List Char} (hcr : f '\r' = ['\r']) (hlf : f '\n' = ['\n'])
    (hf : ∀ c, c ≠ '\r' → c ≠ '\n' → f c ≠ [] ∧ '\r' ∉ f c ∧ '\n' ∉ f c) (cr : Bool)
    (s : List Char) : lineEndsFrom cr (s.flatMap f) = (lineEndsFrom cr s).flatMap f := by
  induction s generalizing cr with
  | nil => rfl
  | cons c s ih =>
      rw [List.flatMap_cons, lineEndsFrom]
      by_cases hc : c = '\r'
      · subst hc
        rw [hcr, if_pos rfl, List.flatMap_cons, hlf, ← ih]
        rfl
      · by_cases hd : c = '\n'
        · subst hd
          rw [hlf, List.singleton_append, lineEndsFrom, if_neg hc, if_neg hc]
          split_ifs
          · exact ih false
          · rw [List.flatMap_cons, hlf, ih false]
            rfl
        · obtain ⟨hne, hnocr, hnolf⟩ := hf c hc hd
          rw [if_neg hc, if_neg fun h ↦ hd h.2, List.flatMap_cons,
            lineEndsFrom_append_of_ne_nil hne hnocr hnolf, lineEnds, ih]

end SensorFusion.Xml
