import TradeDesk.Json.Token

/-!
# JSON documents

A `Document` is JSON text read by the grammar alone: numbers are numerals, members keep their order
and their repetitions, and there is no limit on nesting. What a record makes of it, and what counts
as an error there, is decided when the record is read.

A document is built token by token. The `Builder` holds the containers that are still open, so a
text of any depth is read by one left fold over its tokens.

Spec: `SPEC_FULL.md` §C.1, which leaves payloads to a JSON codec behind `Envelope::decode`.
-/

namespace TradeDesk.Json

/-- JSON text after parsing. A string without text is one that is not well-formed Unicode. -/
inductive Document where
  | null
  | bool (b : Bool)
  | number (n : Numeral)
  | text (s : Option String)
  | array (items : List Document)
  | object (members : List (Option String × Document))
  deriving Inhabited

/-- A container that is still open, with what it holds so far, newest first. -/
inductive Builder.Frame where
  | array (items : List Document)
  /-- The members read so far, and the key whose value comes next. -/
  | object (members : List (Option String × Document)) (key : Option String)

/-- What the grammar allows next, under the open containers, innermost first. -/
inductive Builder where
  | value (frames : List Builder.Frame)
  /-- After `[`: a value or the end of the array. -/
  | firstItem (frames : List Builder.Frame)
  /-- After `{`: a key or the end of the object. -/
  | firstKey (frames : List Builder.Frame)
  /-- After a comma in an object that holds `members`. -/
  | key (members : List (Option String × Document)) (frames : List Builder.Frame)
  | colon (members : List (Option String × Document)) (key : Option String)
      (frames : List Builder.Frame)
  /-- After an item of an array: a comma or the end of the array. -/
  | afterItem (items : List Document) (frames : List Builder.Frame)
  /-- After a member of an object: a comma or the end of the object. -/
  | afterMember (members : List (Option String × Document)) (frames : List Builder.Frame)
  | done (document : Document)

namespace Builder

/-- Puts a finished value into the innermost open container. -/
def supply (d : Document) : List Frame → Builder
  | [] => .done d
  | .array items :: frames => .afterItem (d :: items) frames
  | .object members k :: frames => .afterMember ((k, d) :: members) frames

/-- A token that starts or is a value. -/
def start (frames : List Frame) : Token → Option Builder
  | .arrayOpen => some (.firstItem frames)
  | .objectOpen => some (.firstKey frames)
  | .null => some (supply .null frames)
  | .bool b => some (supply (.bool b) frames)
  | .number n => some (supply (.number n) frames)
  | .text s => some (supply (.text s) frames)
  | _ => none

/-- One token. -/
def feed : Builder → Token → Option Builder
  | .value frames, t => start frames t
  | .firstItem frames, .arrayClose => some (supply (.array []) frames)
  | .firstItem frames, t => start (.array [] :: frames) t
  | .firstKey frames, .objectClose => some (supply (.object []) frames)
  | .firstKey frames, .text k => some (.colon [] k frames)
  | .key members frames, .text k => some (.colon members k frames)
  | .colon members k frames, .colon => some (.value (.object members k :: frames))
  | .afterItem items frames, .comma => some (.value (.array items :: frames))
  | .afterItem items frames, .arrayClose => some (supply (.array items.reverse) frames)
  | .afterMember members frames, .comma => some (.key members frames)
  | .afterMember members frames, .objectClose => some (supply (.object members.reverse) frames)
  | _, _ => none

end Builder

namespace Document

/-- The document that a sequence of tokens makes. -/
def ofTokens? (tokens : List Token) : Option Document :=
  match tokens.foldlM Builder.feed (.value []) with
  | some (.done d) => some d
  | _ => none

/-- The document of a text. -/
def parse? (bytes : List UInt8) : Option Document := (Token.lex bytes).bind ofTokens?

/-- How many containers deep a record may be, itself included. -/
def depthLimit : Nat := 127

/-- A number as a value: an integer that fits a 64-bit word, otherwise a double. -/
def number? (n : Numeral) : Option Value :=
  match n.toInt? with
  | some i =>
    if Int64.minValue.toInt ≤ i ∧ i < UInt64.size then some (.int i) else n.toFloat?.map .float
  | none => n.toFloat?.map .float

/-- A document as a value with at most `depth` containers inside one another: every string must be
well formed and every number within range. Of members with one key the last counts, and members
are put in the order of their keys. -/
def toValue? : Nat → Document → Option Value
  | _, .null => some .null
  | _, .bool b => some (.bool b)
  | _, .number n => number? n
  | _, .text s => s.map .text
  | 0, .array _ => none
  | 0, .object _ => none
  | depth + 1, .array items => (items.mapM (toValue? depth)).map .array
  | depth + 1, .object members => do
    let members ← members.mapM fun (k, d) => do some ((← k), (← toValue? depth d))
    some (.object (members.foldl (fun sorted (k, v) => Value.insertMember k v sorted) []))

end Document

end TradeDesk.Json
