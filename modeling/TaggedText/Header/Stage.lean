import TaggedText.Header.Piece
import TaggedText.Diagnostic

/-!
# Stages of a header

A header is an optional list of values in parentheses and then an optional list of `name=value`
pairs in brackets.  Items are separated by commas, and one comma may trail.

This grammar is regular, and it is read by an automaton: a `Stage` is how far a header has been
read, `Stage.step` is what one token does, namely the next stage and what the token adds to the
header, and `Stage.expected` is the classes of token for which there is a step.

Every stage can still be completed.  So the first token without a step is the first that makes the
header hopeless, and `Stage.expected` is what could have stood there: the messages of `Header.read`
need no search, and at most one of them is about the grammar.
-/

namespace TaggedText

/-- The parameters and attributes of a tag. -/
structure Header where
  params : List Literal := []
  attributes : List Attribute := []
  deriving Inhabited

namespace Header

/-! ### Stages -/

/-- How far a header has been read. -/
inductive Stage where
  /-- Nothing has been read. -/
  | start
  /-- A parameter may follow: behind `(` or a comma. -/
  | beforeParam
  /-- A parameter has been read. -/
  | afterParam
  /-- The parameters are closed. -/
  | afterParams
  /-- An attribute may follow: behind `[` or a comma. -/
  | beforeAttribute
  /-- The name of an attribute has been read. -/
  | afterName (name : String)
  /-- The value of an attribute must follow. -/
  | afterEquals (name : String)
  /-- An attribute has been read. -/
  | afterAttribute
  /-- The attributes are closed. -/
  | complete
  deriving DecidableEq, Repr, Inhabited

/-- What can stand at a position of a header. -/
inductive Class where
  | value
  | attributeName
  | openParen
  | closeParen
  | openBracket
  | closeBracket
  | comma
  | equals
  | endOfHeader
  deriving DecidableEq, Repr, Inhabited

/-- How a message names a class. -/
def Class.label : Class → String
  | value => "value"
  | attributeName => "attribute name"
  | openParen => "'('"
  | closeParen => "')'"
  | openBracket => "'['"
  | closeBracket => "']'"
  | comma => "','"
  | equals => "'='"
  | endOfHeader => "end of tag header"

namespace Stage

/-- The classes that can follow, in the order in which a message lists them. -/
def expected : Stage → List Class
  | start => [.openParen, .openBracket, .endOfHeader]
  | beforeParam => [.value, .closeParen]
  | afterParam => [.comma, .closeParen]
  | afterParams => [.openBracket, .endOfHeader]
  | beforeAttribute => [.attributeName, .closeBracket]
  | afterName _ => [.equals]
  | afterEquals _ => [.value]
  | afterAttribute => [.comma, .closeBracket]
  | complete => [.endOfHeader]

/-- A header may end here. -/
def mayEnd : Stage → Bool
  | start => true
  | afterParams => true
  | complete => true
  | _ => false

/-- What one token does: the next stage, and what it adds to the header that the rest gives. -/
def step : Stage → Token → Option (Stage × (Header → Header))
  | start, .openParen => some (beforeParam, id)
  | start, .openBracket => some (beforeAttribute, id)
  | beforeParam, .closeParen => some (afterParams, id)
  | beforeParam, token =>
    token.literal?.map fun value => (afterParam, fun h => { h with params := value :: h.params })
  | afterParam, .comma => some (beforeParam, id)
  | afterParam, .closeParen => some (afterParams, id)
  | afterParams, .openBracket => some (beforeAttribute, id)
  | beforeAttribute, .closeBracket => some (complete, id)
  | beforeAttribute, token => token.name?.map fun name => (afterName name, id)
  | afterName name, .equals => some (afterEquals name, id)
  | afterEquals name, token =>
    token.literal?.map fun value =>
      (afterAttribute, fun h => { h with attributes := ⟨name, value⟩ :: h.attributes })
  | afterAttribute, .comma => some (beforeAttribute, id)
  | afterAttribute, .closeBracket => some (complete, id)
  | _, _ => none

end Stage

/-! ### Reading tokens -/

/-- A header that cannot be completed: the token that fits nowhere, or none when the tokens ran
out, and what could have stood there. -/
structure Unexpected where
  found : Option (Token × Span)
  expected : List Class

/-- Reads tokens from a stage on. -/
def readTokens : Stage → List (Token × Span) → Except Unexpected Header
  | stage, [] => if stage.mayEnd then .ok {} else .error ⟨none, stage.expected⟩
  | stage, (token, span) :: rest =>
    match stage.step token with
    | some (next, add) =>
      match readTokens next rest with
      | .ok h => .ok (add h)
      | .error e => .error e
    | none => .error ⟨some (token, span), stage.expected⟩

/-! ### Reading text -/

/-- The diagnostic of a piece that begins no token. -/
def Piece.diagnostic (p : Piece) : Diagnostic :=
  .malformed p.span ("Unexpected character '" ++ String.ofList p.text ++ "'") []

/-- The diagnostic of a header that cannot be completed.  When the tokens ran out it reaches from
the end of the text to the end of the last token. -/
def Unexpected.diagnostic (u : Unexpected) (stop lastToken : Nat) : Diagnostic :=
  let expected := u.expected.map Class.label
  match u.found with
  | some (token, span) => .malformed span ("Unexpected " ++ token.describe) expected
  | none => .malformed ⟨stop, lastToken⟩ "Unexpected end of tag header" expected

/-- **Reads the text of a header** that starts at byte `offset` of its source.  Invalid pieces are
reported each on its own; the grammar then reads the tokens without them, and its complaint takes
its place by position. -/
def read (offset : Nat) (text : List Char) : Except (List Diagnostic) Header :=
  let ps := pieces offset text
  let stray := (invalid ps).map Piece.diagnostic
  let ts := tokens ps
  let stop := offset + Text.width text
  match readTokens .start ts with
  | .ok h => if stray.isEmpty then .ok h else .error stray
  | .error u =>
    let lastToken := (ts.getLast?.map fun t => t.2.stop).getD stop
    .error ((stray ++ [u.diagnostic stop lastToken]).mergeSort
      fun a b => a.span.start ≤ b.span.start)

end Header

end TaggedText
