import Mathlib.Data.List.DropRight
import Mathlib.Data.Int.Notation

/-!
# Python strings

The string methods that the services use, over the list of a string's code
points.  `Text` is that list; a Python `str` and a Lean `String` without unpaired
surrogates have the same code points.
-/

namespace SensorFusion

/-- A Python string, as its code points. -/
abbrev Text := List Char

namespace Text

/-! ## Blanks -/

/-- `str.isspace` of one code point. -/
def isSpace (c : Char) : Bool :=
  let n := c.toNat
  (9 ≤ n && n ≤ 13) || (28 ≤ n && n ≤ 32) || n == 0x85 || n == 0xA0 || n == 0x1680 ||
    (0x2000 ≤ n && n ≤ 0x200A) || n == 0x2028 || n == 0x2029 || n == 0x202F ||
    n == 0x205F || n == 0x3000

/-- `s.rstrip(chars)`, with the characters given as a predicate. -/
def rstripBy (p : Char → Bool) (s : Text) : Text := s.rdropWhile p

/-- `s.strip(chars)`. -/
def stripBy (p : Char → Bool) (s : Text) : Text := rstripBy p (s.dropWhile p)

/-- `s.strip()`. -/
def strip (s : Text) : Text := stripBy isSpace s

/-- The part of a string that a pattern ending in a dollar has to match: the dollar
also matches before a final newline. -/
def beforeDollar (s : Text) : Text := if s.getLast? = some '\n' then s.dropLast else s

/-! ## Searching -/

/-- `s.split(sep, 1)`: what stands before and after the first occurrence, or
nothing when there is none. -/
def splitOnce (sep : Text) : Text → Option (Text × Text)
  | [] => if sep = [] then some ([], []) else none
  | c :: s =>
      if sep.isPrefixOf (c :: s) then some ([], (c :: s).drop sep.length)
      else (splitOnce sep s).map fun (before, after) ↦ (c :: before, after)

/-- `s.split(sep)`, for a separator of one character. -/
def split (sep : Char) : Text → List Text
  | [] => [[]]
  | c :: s =>
      if c = sep then [] :: split sep s
      else
        match split sep s with
        | [] => [[c]]
        | part :: parts => (c :: part) :: parts

/-- A character that ends a line. -/
def isLineBreak (c : Char) : Bool :=
  let n := c.toNat
  (10 ≤ n && n ≤ 13) || (28 ≤ n && n ≤ 30) || n == 0x85 || n == 0x2028 || n == 0x2029

/-- `s.splitlines()`. -/
def splitlines : Text → List Text
  | [] => []
  | '\r' :: '\n' :: s => [] :: splitlines s
  | c :: s =>
      if isLineBreak c then [] :: splitlines s
      else
        match splitlines s with
        | [] => [[c]]
        | line :: lines => (c :: line) :: lines

/-- `data.decode("ascii", errors="replace")`. -/
def decodeAscii (data : List UInt8) : Text :=
  data.map fun b ↦ if b < 128 then Char.ofNat b.toNat else Char.ofNat 0xFFFD

/-- `data.hex()`. -/
def hex (data : List UInt8) : Text :=
  data.flatMap fun b ↦ [Nat.digitChar (b.toNat / 16), Nat.digitChar (b.toNat % 16)]

/-- `removeFrom skip sub s` drops `skip` code points and then every occurrence of
`sub`. -/
def removeFrom (sub : Text) : ℕ → Text → Text
  | _, [] => []
  | skip + 1, _ :: s => removeFrom sub skip s
  | 0, c :: s =>
      if sub.isPrefixOf (c :: s) then removeFrom sub (sub.length - 1) s
      else c :: removeFrom sub 0 s

/-- `s.replace(sub, "")`, for a non-empty `sub`. -/
def remove (sub s : Text) : Text := removeFrom sub 0 s

/-! ## Number literals -/

/-- The zeros of the decimal digits of Unicode 15. -/
def DECIMAL_ZEROS : List ℕ :=
  [0x30, 0x660, 0x6f0, 0x7c0, 0x966, 0x9e6, 0xa66, 0xae6, 0xb66, 0xbe6, 0xc66, 0xce6, 0xd66,
   0xde6, 0xe50, 0xed0, 0xf20, 0x1040, 0x1090, 0x17e0, 0x1810, 0x1946, 0x19d0, 0x1a80, 0x1a90,
   0x1b50, 0x1bb0, 0x1c40, 0x1c50, 0xa620, 0xa8d0, 0xa900, 0xa9d0, 0xa9f0, 0xaa50, 0xabf0,
   0xff10, 0x104a0, 0x10d30, 0x11066, 0x110f0, 0x11136, 0x111d0, 0x112f0, 0x11450, 0x114d0,
   0x11650, 0x116c0, 0x11730, 0x118e0, 0x11950, 0x11c50, 0x11d50, 0x11da0, 0x11f50, 0x16a60,
   0x16ac0, 0x16b50, 0x1d7ce, 0x1d7d8, 0x1d7e2, 0x1d7ec, 0x1d7f6, 0x1e140, 0x1e2f0, 0x1e4f0,
   0x1e950, 0x1fbf0]

/-- A character of a literal brought to ASCII: a blank, a decimal digit of any
script, or a question mark that no literal contains. -/
def toAscii (c : Char) : Char :=
  if c.toNat < 127 then c
  else if isSpace c then ' '
  else
    match DECIMAL_ZEROS.find? fun z ↦ decide (z ≤ c.toNat ∧ c.toNat < z + 10) with
    | some z => Char.ofNat ('0'.toNat + (c.toNat - z))
    | none => '?'

/-- The blanks that C skips around a literal. -/
def isCSpace (c : Char) : Bool := (9 ≤ c.toNat && c.toNat ≤ 13) || c.toNat == 32

/-- The literal in a string: brought to ASCII, without the blanks around it. -/
def literal (s : Text) : Text := stripBy isCSpace (s.map toAscii)

/-- The value of a digit in a base of at most sixteen. -/
def digit? (base : ℕ) (c : Char) : Option ℕ :=
  let n := c.toNat
  let v := if '0'.toNat ≤ n ∧ n ≤ '9'.toNat then n - '0'.toNat
    else if 'a'.toNat ≤ n ∧ n ≤ 'f'.toNat then n - 'a'.toNat + 10
    else if 'A'.toNat ≤ n ∧ n ≤ 'F'.toNat then n - 'A'.toNat + 10
    else base
  if v < base then some v else none

/-- The value of digits with single underscores between them, most significant
first; the accumulator is the value so far. -/
def digits? (base acc : ℕ) : Text → Option ℕ
  | [] => some acc
  | '_' :: c :: s => (digit? base c).bind fun d ↦ digits? base (base * acc + d) s
  | c :: s => (digit? base c).bind fun d ↦ digits? base (base * acc + d) s

/-- An unsigned integer literal, which starts with a digit. -/
def nat? (base : ℕ) : Text → Option ℕ
  | [] => none
  | c :: s => (digit? base c).bind fun d ↦ digits? base d s

/-- The longest decimal literal that `int` accepts. -/
def MAX_STR_DIGITS : ℕ := 4300

/-- An unsigned literal of `int(s)`. -/
def decimal? (s : Text) : Option ℕ :=
  if s.countP (· ≠ '_') ≤ MAX_STR_DIGITS then nat? 10 s else none

/-- An unsigned literal of `int(s, 16)`, which may start with `0x` and one
underscore. -/
def hex? : Text → Option ℕ
  | '0' :: x :: s =>
      if x = 'x' ∨ x = 'X' then
        match s with
        | '_' :: s => nat? 16 s
        | s => nat? 16 s
      else nat? 16 ('0' :: x :: s)
  | s => nat? 16 s

/-- A literal with an optional sign. -/
def signed? (nat? : Text → Option ℕ) : Text → Option ℤ
  | '+' :: s => (nat? s).map fun n ↦ (n : ℤ)
  | '-' :: s => (nat? s).map fun n ↦ -(n : ℤ)
  | s => (nat? s).map fun n ↦ (n : ℤ)

/-- `int(s)`; `none` is `ValueError`. -/
def int? (s : Text) : Option ℤ := signed? decimal? (literal s)

/-- `int(s, 16)`; `none` is `ValueError`. -/
def int16? (s : Text) : Option ℤ := signed? hex? (literal s)

example : int? " -1_0 ".toList = some (-10) := by decide

example : int16? "0x_1F".toList = some 31 := by decide

end Text

end SensorFusion
