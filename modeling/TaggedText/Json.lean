import TaggedText.Number.Layout
import TaggedText.Table

/-!
# JSON values

The data that commands carry, that interpreters return and that templates read.  A whole number and
a double are kept apart, since they are written differently, and the fields of an object stand in
the order of their names.

What the library asks of a value is little: `natural?` and `text?` read it back as a count or as
text, `member?` takes one step down into an array or an object, and `truthy` says what a condition
makes of it.  `Json.compact` is its text without spaces.
-/

namespace TaggedText

/-- **A JSON value.**  The fields of an object are kept in the order of their names. -/
inductive Json where
  | null
  | bool (value : Bool)
  | integer (value : Int)
  | float (value : Float)
  | string (value : String)
  | array (elements : List Json)
  | object (fields : List (String × Json))
  deriving Inhabited

namespace Json

/-- A whole number from a count. -/
def ofNat (n : Nat) : Json :=
  .integer n

/-- A double as a value: JSON has no word for the infinities and for not-a-number. -/
def ofFloat (x : Float) : Json :=
  match Number.FloatParts.ofFloat x with
  | .finite _ => .float x
  | _ => .null

/-- The object with these fields. -/
def ofFields (fields : List (String × Json)) : Json :=
  .object (Fields.extend [] fields)

/-- The value as a count, if it is a whole number that is not negative. -/
def natural? : Json → Option Nat
  | .integer (.ofNat n) => some n
  | _ => none

/-- The value as text, if it is text. -/
def text? : Json → Option String
  | .string s => some s
  | _ => none

/-- False are null, `false`, zero, not-a-number and everything empty. -/
def truthy : Json → Bool
  | .null => false
  | .bool b => b
  | .integer n => n != 0
  | .float x =>
    match Number.FloatParts.ofFloat x with
    | .notANumber => false
    | .infinite _ => true
    | .finite b => !b.isZero
  | .string s => !s.isEmpty
  | .array elements => !elements.isEmpty
  | .object fields => !fields.isEmpty

/-- An index into an array: decimal digits without a leading zero. -/
def index? (step : String) : Option Nat :=
  match step.toList with
  | [] => none
  | ['0'] => some 0
  | '0' :: _ => none
  | digits => if digits.all Char.isDigit then some (Number.natOfDigits digits) else none

/-- One step down: a field of an object, or the element of an array at an index. -/
def member? (step : String) : Json → Option Json
  | .object fields => Fields.find? step fields
  | .array elements => (index? step).bind fun i => elements[i]?
  | _ => none

/-! ### Compact text -/

/-- The sixteen digits, in lower case. -/
def hexDigit (n : Nat) : Char :=
  Nat.digitChar (n % 16)

/-- A character inside quotes: quotes, backslashes and control characters are escaped. -/
def escapeChar (c : Char) : List Char :=
  if c == '"' then ['\\', '"']
  else if c == '\\' then ['\\', '\\']
  else if c == '\n' then ['\\', 'n']
  else if c == '\r' then ['\\', 'r']
  else if c == '\t' then ['\\', 't']
  else if c == '\x08' then ['\\', 'b']
  else if c == '\x0c' then ['\\', 'f']
  else if c.toNat < 0x20 then ['\\', 'u', '0', '0', hexDigit (c.toNat / 16), hexDigit c.toNat]
  else [c]

/-- Text in quotes. -/
def quote (s : String) : String :=
  "\"" ++ String.ofList (s.toList.flatMap escapeChar) ++ "\""

mutual

/-- The text of a value, with no spaces in it. -/
def compact : Json → String
  | .null => "null"
  | .bool b => if b then "true" else "false"
  | .integer n => toString n
  | .float x => Number.Layout.json.render x
  | .string s => quote s
  | .array elements => "[" ++ compactElements elements ++ "]"
  | .object fields => "\x7b" ++ compactFields fields ++ "\x7d"

/-- Elements with commas between them. -/
def compactElements : List Json → String
  | [] => ""
  | [x] => compact x
  | x :: y :: rest => compact x ++ "," ++ compactElements (y :: rest)

/-- Fields with commas between them. -/
def compactFields : List (String × Json) → String
  | [] => ""
  | [(name, x)] => quote name ++ ":" ++ compact x
  | (name, x) :: field :: rest =>
    quote name ++ ":" ++ compact x ++ "," ++ compactFields (field :: rest)

end

end Json

end TaggedText
