import TaggedText.Json
import TaggedText.Source.Place

/-!
# Documents

A document is a list of nodes.  A node is a run of text or a tag; a tag has positional parameters,
named attributes and any number of blocks, and a block holds nodes again.  Tags, blocks and nodes
are one nested type, so whatever is defined on one of them is defined on all three.

A header is also data for templates and resolvers.  `Tag.paramValues` is the parameters in order;
`Tag.attributeFields` is the attributes by name, of which the last of a name counts.
-/

namespace TaggedText

/-- A value in the header of a tag.  A bare word keeps its spelling. -/
inductive Literal where
  | string (value : String)
  | number (value : Float)
  | bool (value : Bool)
  | word (spelling : String)
  deriving Inhabited

/-- A named value in the header of a tag. -/
structure Attribute where
  name : String
  value : Literal
  deriving Inhabited

mutual

/-- A run of text, or a tag. -/
inductive Node where
  | text (value : String)
  | tag (tag : Tag)

/-- **A tag.**  The span reaches from its backslash to the end of its last block. -/
structure Tag where
  name : String
  params : List Literal := []
  attributes : List Attribute := []
  blocks : List Block := []
  span : Span := {}

/-- A block of a tag.  The body of a verbatim block is text at most. -/
structure Block where
  verbatim : Bool := false
  body : List Node := []

end

instance : Inhabited Node := ⟨.text ""⟩

instance : Inhabited Tag := ⟨{ name := "" }⟩

instance : Inhabited Block := ⟨{}⟩

/-- The root of a tree. -/
structure Document where
  body : List Node := []
  deriving Inhabited

/-! ### The header as data -/

/-- The first whole number that is too large for a header's whole numbers. -/
def wholeBound : Nat := Number.twoTo 63

/-- A number without a fraction and below `2 ^ 63` in size is a whole number in JSON; any other
finite number is a double, and the rest is null. -/
def numberToJson (x : Float) : Json :=
  match Number.FloatParts.ofFloat x with
  | .finite b =>
    match b.toInt? with
    | some n => if n.natAbs < wholeBound then .integer n else .float x
    | none => .float x
  | _ => .null

/-- Strings and bare words are text. -/
def Literal.toJson : Literal → Json
  | .string s => .string s
  | .word s => .string s
  | .bool b => .bool b
  | .number x => numberToJson x

/-- The parameters in order. -/
def Tag.paramValues (t : Tag) : List Json :=
  t.params.map Literal.toJson

/-- The attributes as the fields of an object; of two with one name the later counts. -/
def Tag.attributeFields (t : Tag) : List (String × Json) :=
  Fields.extend [] (t.attributes.map fun a => (a.name, a.value.toJson))

/-- The block at an index. -/
def Tag.block? (t : Tag) (index : Nat) : Option Block :=
  t.blocks[index]?

/-! ### Nodes -/

/-- The node is a run of text. -/
def Node.isText : Node → Bool
  | .text _ => true
  | .tag _ => false

/-- The text of a run of text. -/
def Node.text? : Node → Option String
  | .text value => some value
  | .tag _ => none

/-- A text as a body: nothing if it is empty. -/
def textBody (value : List Char) : List Node :=
  if value.isEmpty then [] else [.text (String.ofList value)]

/-- The text that stands directly in a block. -/
def Block.ownText (b : Block) : String :=
  String.join (b.body.filterMap Node.text?)

end TaggedText
