import TradeDesk.Number.Notation

/-!
# JSON values and their text

A `Value` is what the desk writes: members keep the order in which they are listed, there is no
space between tokens, and a double is written in the wire notation, or as `null` when it is not
finite. Text is the UTF-8 of its characters with quotes, backslashes and control bytes escaped, so
escaping works byte by byte.

Spec: `SPEC_FULL.md` §C.1, which leaves payloads to a JSON codec behind `Envelope::encode`.
-/

namespace TradeDesk.Json

/-- A JSON value with numbers told apart into integers and doubles. -/
inductive Value where
  | null
  | bool (b : Bool)
  | int (n : Int)
  | float (x : Float)
  | text (s : String)
  | array (items : List Value)
  | object (members : List (String × Value))
  deriving Inhabited

/-- The bytes of ASCII text. -/
def ascii (s : List Char) : List UInt8 := s.map fun c => c.toNat.toUInt8

/-- The UTF-8 bytes of text. -/
def utf8 (s : String) : List UInt8 := s.toByteArray.data.toList

/-- The text whose UTF-8 bytes are given, if they are UTF-8. -/
def ofUtf8? (bytes : List UInt8) : Option String := String.fromUTF8? ⟨bytes.toArray⟩

/-- A hexadecimal digit. -/
def hexDigit (n : UInt8) : UInt8 := if n < 10 then 0x30 + n else 0x57 + n

/-- One byte of text inside quotes: the five short escapes, `\u00xx` for the other control bytes,
and everything else as it is. -/
def escapeByte (b : UInt8) : List UInt8 :=
  if b = 0x22 then [0x5C, 0x22]
  else if b = 0x5C then [0x5C, 0x5C]
  else if b = 0x08 then [0x5C, 0x62]
  else if b = 0x0C then [0x5C, 0x66]
  else if b = 0x0A then [0x5C, 0x6E]
  else if b = 0x0D then [0x5C, 0x72]
  else if b = 0x09 then [0x5C, 0x74]
  else if b < 0x20 then [0x5C, 0x75, 0x30, 0x30, hexDigit (b / 16), hexDigit (b % 16)]
  else [b]

/-- Text between quotes. -/
def quote (s : String) : List UInt8 := 0x22 :: ((utf8 s).flatMap escapeByte ++ [0x22])

/-- The digits of an integer after its sign. -/
def integer : Int → List UInt8
  | .ofNat n => ascii (Nat.toDigits 10 n)
  | .negSucc n => 0x2D :: ascii (Nat.toDigits 10 (n + 1))

/-- A double in wire notation; one that is not finite is `null`. -/
def float (x : Float) : List UInt8 := ascii ((Binary64.wire? x).getD ['n', 'u', 'l', 'l'])

namespace Value

mutual

/-- The compact text of a value. -/
def write : Value → List UInt8
  | .null => ascii ['n', 'u', 'l', 'l']
  | .bool true => ascii ['t', 'r', 'u', 'e']
  | .bool false => ascii ['f', 'a', 'l', 's', 'e']
  | .int n => integer n
  | .float x => Json.float x
  | .text s => quote s
  | .array items => 0x5B :: (writeItems items ++ [0x5D])
  | .object members => 0x7B :: (writeMembers members ++ [0x7D])

/-- Items with commas between them. -/
def writeItems : List Value → List UInt8
  | [] => []
  | [v] => write v
  | v :: rest => write v ++ 0x2C :: writeItems rest

/-- Members with commas between them. -/
def writeMembers : List (String × Value) → List UInt8
  | [] => []
  | [(k, v)] => quote k ++ 0x3A :: write v
  | (k, v) :: rest => quote k ++ 0x3A :: write v ++ 0x2C :: writeMembers rest

end

/-- Adds a member at its place in key order; a member of the same key is replaced. -/
def insertMember (key : String) (value : Value) : List (String × Value) → List (String × Value)
  | [] => [(key, value)]
  | (k, v) :: rest =>
    if key = k then (key, value) :: rest
    else if key < k then (key, value) :: (k, v) :: rest
    else (k, v) :: insertMember key value rest

/-- The text of a value as a string. -/
def render (v : Value) : String := (ofUtf8? v.write).getD ""

end Value

end TradeDesk.Json
