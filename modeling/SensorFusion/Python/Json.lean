import SensorFusion.Lib.Dict
import SensorFusion.Python.Number

/-!
# JSON documents as Python values

What `json.loads` hands to the services.  An object keeps its members as they are
written; turning it into a dictionary is `Dict.ofList`, where a repeated key keeps
its first place and its last value.  `Key` is what a value amounts to as a
dictionary key or a set member: numbers compare by value across `bool`, `int` and
`float`, and lists and objects have no hash.
-/

namespace SensorFusion

/-- A JSON document. -/
inductive Json where
  | null
  | bool (b : Bool)
  | int (n : ℤ)
  | float (x : PyFloat)
  | str (s : String)
  | arr (items : List Json)
  | obj (members : List (String × Json))

/-- A hashable value up to Python equality.  The decoder has one NaN object, which
is therefore found in a set that holds it. -/
inductive Key where
  | null
  | num (x : PyFloat)
  | str (s : String)
deriving DecidableEq, Repr

namespace Json

/-- The name of a value's class. -/
def className : Json → String
  | .null => "NoneType"
  | .bool _ => "bool"
  | .int _ => "int"
  | .float _ => "float"
  | .str _ => "str"
  | .arr _ => "list"
  | .obj _ => "dict"

/-- The hash key of a value; lists and objects have none. -/
def key? : Json → Option Key
  | .null => some .null
  | .bool b => some (.num (.fin (if b then 1 else 0)))
  | .int n => some (.num (.fin n))
  | .float x => some (.num x)
  | .str s => some (.str s)
  | .arr _ | .obj _ => none

/-- Only a string has a string's key. -/
theorem key?_eq_str_iff {j : Json} {s : String} : j.key? = some (.str s) ↔ j = .str s := by
  cases j <;> simp [key?]

/-- `TypeError` for a value with no hash. -/
def unhashable (j : Json) : String := "unhashable type: '" ++ j.className ++ "'"

/-- The hash of a value, or `TypeError`. -/
def hash (j : Json) : Except String Key :=
  match j.key? with
  | some k => .ok k
  | none => .error j.unhashable

/-- `bool(x)`. -/
def truthy : Json → Bool
  | .null => false
  | .bool b => b
  | .int n => n ≠ 0
  | .float x => x ≠ .fin 0
  | .str s => s ≠ ""
  | .arr items => !items.isEmpty
  | .obj members => !members.isEmpty

/-- `x == s` for a string `s`. -/
def eqStr (j : Json) (s : String) : Bool :=
  match j with
  | .str t => t = s
  | _ => false

theorem eqStr_iff {j : Json} {s : String} : j.eqStr s = true ↔ j = .str s := by
  cases j <;> simp [eqStr]

/-- `x.get(f)`, which only an object has; an absent field reads as `None`. -/
def get (j : Json) (f : String) : Except String Json :=
  match j with
  | .obj members => .ok (((Dict.ofList members).get? f).getD .null)
  | j => .error ("'" ++ j.className ++ "' object has no attribute 'get'")

/-- `x or y`. -/
def or (x y : Json) : Json := if x.truthy then x else y

/-- Iterating over a value: the items of a list, the characters of a string, the
keys of an object. -/
def iter : Json → Except String (List Json)
  | .arr items => .ok items
  | .str s => .ok (s.toList.map fun c ↦ .str (String.singleton c))
  | .obj members => .ok ((Dict.ofList members).keys.map .str)
  | j => .error ("'" ++ j.className ++ "' object is not iterable")

/-- `int(x)`, with `repr` for the text of a bad literal. -/
def int? (repr : Json → String) : Json → Except String ℤ
  | .bool b => .ok (if b then 1 else 0)
  | .int n => .ok n
  | .float (.fin q) => .ok (q.num.tdiv q.den)
  | .float .nan => .error "cannot convert float NaN to integer"
  | .float _ => .error "cannot convert float infinity to integer"
  | .str s =>
      match Text.int? s.toList with
      | some n => .ok n
      | none => .error ("invalid literal for int() with base 10: " ++ repr (.str s))
  | j => .error ("int() argument must be a string, a bytes-like object or a real number, not '" ++
      j.className ++ "'")

/-- `float(x)`, with `repr` for the text of a bad literal. -/
def float? (j : Json) (repr : Json → String) : Except String PyFloat :=
  match j with
  | .bool b => .ok (.fin (if b then 1 else 0))
  | .int n =>
      if |(n : ℚ)| < PyFloat.OVERFLOW then .ok (.fin n)
      else .error "int too large to convert to float"
  | .float x => .ok x
  | .str s =>
      match Text.float? s.toList with
      | some x => .ok x
      | none => .error ("could not convert string to float: " ++ repr (.str s))
  | j => .error ("float() argument must be a string or a real number, not '" ++ j.className ++ "'")

/-- `str(x)`. -/
def toText (repr : Json → String) : Json → String
  | .str s => s
  | j => repr j

/-! ## `json.dumps` -/

/-- `\uXXXX`, for a number below `0x10000`. -/
def unicodeEscape (n : ℕ) : Text :=
  '\\' :: 'u' :: [n / 4096, n / 256, n / 16, n].map fun d ↦ Nat.digitChar (d % 16)

/-- A character of a JSON string, in ASCII; a character outside the basic plane is written
as two surrogates. -/
def escape (c : Char) : Text :=
  let n := c.toNat
  if c = '"' then ['\\', '"']
  else if c = '\\' then ['\\', '\\']
  else if c = '\n' then ['\\', 'n']
  else if c = '\r' then ['\\', 'r']
  else if c = '\t' then ['\\', 't']
  else if n = 8 then ['\\', 'b']
  else if n = 12 then ['\\', 'f']
  else if 32 ≤ n ∧ n ≤ 126 then [c]
  else if n < 0x10000 then unicodeEscape n
  else unicodeEscape (0xD800 + (n - 0x10000) / 0x400) ++
    unicodeEscape (0xDC00 + (n - 0x10000) % 0x400)

/-- A string in double quotes. -/
def quote (s : String) : Text := '"' :: s.toList.flatMap escape ++ ['"']

/-- A new line at a depth, two blanks for each level. -/
def newline (depth : ℕ) : Text := '\n' :: List.replicate (2 * depth) ' '

/-- `json.dumps(x, indent=2)` of a value at a depth; `repr` prints a finite float. -/
def dumpsAt (repr : Json → String) : ℕ → Json → Text
  | _, .null => "null".toList
  | _, .bool b => if b then "true".toList else "false".toList
  | _, .int n => (toString n).toList
  | _, .float (.fin q) => (repr (.float (.fin q))).toList
  | _, .float .posInf => "Infinity".toList
  | _, .float .negInf => "-Infinity".toList
  | _, .float .nan => "NaN".toList
  | _, .str s => quote s
  | _, .arr [] => "[]".toList
  | depth, .arr (item :: items) =>
      '[' :: newline (depth + 1) ++ dumpsAt repr (depth + 1) item ++
        dumpsItems repr (depth + 1) items ++ newline depth ++ [']']
  | _, .obj [] => "{}".toList
  | depth, .obj ((f, v) :: members) =>
      '{' :: newline (depth + 1) ++ quote f ++ ": ".toList ++ dumpsAt repr (depth + 1) v ++
        dumpsMembers repr (depth + 1) members ++ newline depth ++ ['}']
where
  /-- The items behind the first, each behind a comma on a line of its own. -/
  dumpsItems (repr : Json → String) (depth : ℕ) : List Json → Text
    | [] => []
    | item :: items =>
        ',' :: newline depth ++ dumpsAt repr depth item ++ dumpsItems repr depth items
  /-- The members behind the first. -/
  dumpsMembers (repr : Json → String) (depth : ℕ) : List (String × Json) → Text
    | [] => []
    | (f, v) :: members =>
        ',' :: newline depth ++ quote f ++ ": ".toList ++ dumpsAt repr depth v ++
          dumpsMembers repr depth members

/-- `json.dumps(x, indent=2)`. -/
def dumps (repr : Json → String) (j : Json) : Text := dumpsAt repr 0 j

example : dumps (fun _ ↦ "") (.arr [.obj [("id", .str "a\""), ("on", .bool true)]]) =
    "[\n  \x7b\n    \"id\": \"a\\\"\",\n    \"on\": true\n  \x7d\n]".toList := by decide

end Json

end SensorFusion
