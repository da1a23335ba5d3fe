import SensorFusion.Python.Text

/-!
# XML elements

`xml.etree.ElementTree` as far as the converter goes: elements with attributes, text and
children, and `tostring`, which writes them in ASCII.
-/

namespace SensorFusion.Cot

/-- An element; attributes are in the order they were given. -/
inductive Element where
  | mk (tag : Text) (attrib : List (Text × Text)) (text : Text) (children : List Element)

namespace Element

def tag : Element → Text
  | .mk tag .. => tag

def attrib : Element → List (Text × Text)
  | .mk _ attrib .. => attrib

def children : Element → List Element
  | .mk _ _ _ children => children

/-- `e.find(tag)`: the first child with a tag. -/
def find (e : Element) (tag : Text) : Option Element := e.children.find? fun c ↦ c.tag == tag

/-- `e.get(key)`. -/
def get (e : Element) (key : Text) : Option Text := e.attrib.lookup key

end Element

/-- `_escape_cdata`. -/
def escapeCdata (s : Text) : Text :=
  s.flatMap fun c ↦
    if c = '&' then "&amp;".toList
    else if c = '<' then "&lt;".toList
    else if c = '>' then "&gt;".toList
    else [c]

/-- `_escape_attrib`. -/
def escapeAttrib (s : Text) : Text :=
  s.flatMap fun c ↦
    if c = '&' then "&amp;".toList
    else if c = '<' then "&lt;".toList
    else if c = '>' then "&gt;".toList
    else if c = '"' then "&quot;".toList
    else if c = '\r' then "&#13;".toList
    else if c = '\n' then "&#10;".toList
    else if c = '\t' then "&#09;".toList
    else [c]

/-- An attribute as it is written. -/
def writeAttrib (a : Text × Text) : Text := ' ' :: a.1 ++ "=\"".toList ++ escapeAttrib a.2 ++ ['"']

mutual

/-- `_serialize_xml`. -/
def Element.write : Element → Text
  | .mk tag attrib text children =>
      '<' :: tag ++ attrib.flatMap writeAttrib ++
        if text ≠ [] ∨ children ≠ [] then
          '>' :: escapeCdata text ++ writeAll children ++ "</".toList ++ tag ++ ['>']
        else " />".toList

def writeAll : List Element → Text
  | [] => []
  | e :: es => e.write ++ writeAll es

end

/-- Encode in ASCII, with a character reference for what is not. -/
def encodeRefs (s : Text) : List UInt8 :=
  (s.flatMap fun c ↦ if c.toNat < 128 then [c]
    else "&#".toList ++ Nat.toDigits 10 c.toNat ++ [';']).map fun c ↦ UInt8.ofNat c.toNat

/-- `tostring`. -/
def tostring (e : Element) : List UInt8 := encodeRefs e.write

example : (Element.mk "a".toList [("k".toList, "<·".toList)] [] []).write =
    "<a k=\"&lt;·\" />".toList := by decide

end SensorFusion.Cot
