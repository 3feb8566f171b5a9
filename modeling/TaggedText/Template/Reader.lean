import TaggedText.Template.Basic
import TaggedText.Dispatch.Interpreter

/-!
# Reading templates

Two opening braces begin a reference, a brace and a percent sign begin a statement, and a brace and
a number sign begin a comment; each reaches to its counterpart.  Everything else is text, closing
marks that close nothing included.

Reading goes in three rounds.  `segments` cuts the template at those marks.  `expression?` and
`statement?` read what stands inside them.  `assemble` then nests: it keeps a stack of the choices
and loops that are open, and a template in which one stays open, or is closed twice, is unreadable.
`Template.engine` reads and fills in at once.
-/

namespace TaggedText.Template

/-! ### Cutting -/

/-- Where the reader is: in text, in a reference, in a statement, or in a comment. -/
inductive Mode where
  | text
  | reference
  | statement
  | comment
  deriving DecidableEq, Repr

/-- A stretch of a template. -/
inductive Segment where
  | text (value : List Char)
  | reference (inside : List Char)
  | statement (inside : List Char)
  deriving DecidableEq, Repr, Inhabited

/-- Text as a segment, unless there is none; `text` holds it last character first. -/
def textSegment (text : List Char) (rest : List Segment) : List Segment :=
  if text.isEmpty then rest else .text text.reverse :: rest

/-- Cuts a template at its marks; none if a mark is never closed.  `inside` holds, last first, what
has been read of the present stretch. -/
def segments : Mode → List Char → List Char → Option (List Segment)
  | .text, inside, [] => some (textSegment inside [])
  | _, _, [] => none
  | .text, inside, '{' :: '{' :: rest => (segments .reference [] rest).map (textSegment inside)
  | .text, inside, '{' :: '%' :: rest => (segments .statement [] rest).map (textSegment inside)
  | .text, inside, '{' :: '#' :: rest => (segments .comment [] rest).map (textSegment inside)
  | .reference, inside, '}' :: '}' :: rest =>
    (segments .text [] rest).map (.reference inside.reverse :: ·)
  | .statement, inside, '%' :: '}' :: rest =>
    (segments .text [] rest).map (.statement inside.reverse :: ·)
  | .comment, _, '#' :: '}' :: rest => segments .text [] rest
  | mode, inside, c :: rest => segments mode (c :: inside) rest

/-! ### Inside the marks -/

/-- The blanks that may stand between words. -/
def isSpace (c : Char) : Bool :=
  c == ' ' || c == '\t' || c == '\n' || c == '\r'

/-- The characters of names. -/
def isWordChar (c : Char) : Bool :=
  c.isAlphanum || c == '_'

/-- The rest after a word and the blanks in front of it.  Nothing need follow the word. -/
def keyword? (word : String) (cs : List Char) : Option (List Char) :=
  word.toList.isPrefixOf? (cs.dropWhile isSpace)

/-- The rest after a word that a blank sets off from what it introduces, and after that blank. -/
def introducer? (word : String) (cs : List Char) : Option (List Char) :=
  match keyword? word cs with
  | some (c :: rest) => if isSpace c then some rest else none
  | _ => none

/-- A name at the front, after blanks: word characters, the first of them no digit. -/
def name? (cs : List Char) : Option (String × List Char) :=
  let cs := cs.dropWhile isSpace
  match cs with
  | [] => none
  | c :: _ =>
    if isWordChar c && !c.isDigit then
      some (String.ofList (cs.takeWhile isWordChar), cs.dropWhile isWordChar)
    else none

/-- The steps at the front: each a point and word characters. -/
def steps : Nat → List Char → List String × List Char
  | fuel + 1, '.' :: rest =>
    if (rest.takeWhile isWordChar).isEmpty then ([], '.' :: rest)
    else
      let (more, after) := steps fuel (rest.dropWhile isWordChar)
      (String.ofList (rest.takeWhile isWordChar) :: more, after)
  | _, cs => ([], cs)

/-- A path at the front: a name and steps. -/
def path? (cs : List Char) : Option (Path × List Char) := do
  let (root, rest) ← name? cs
  let (steps, rest) := steps rest.length rest
  return (⟨root, steps⟩, rest)

/-- The spellings of the truth values. -/
def constants : List (String × Bool) :=
  [("true", true), ("false", false), ("True", true), ("False", false)]

/-- An operand at the front.  The spelling of a truth value is one wherever it stands at the front,
so that no name that begins with it can be referred to. -/
def operand? (cs : List Char) : Option (Operand × List Char) :=
  match constants.findSome? fun (word, value) => (keyword? word cs).map (value, ·) with
  | some (value, rest) => some (.constant value, rest)
  | none => (path? cs).map fun (path, rest) => (.path path, rest)

/-- An expression at the front.  The word `not` negates only if a blank follows; else it begins a
name. -/
def expression? (cs : List Char) : Option (Expression × List Char) :=
  match introducer? "not" cs with
  | some rest => (operand? rest).map fun (operand, rest) => (⟨true, operand⟩, rest)
  | none => (operand? cs).map fun (operand, rest) => (⟨false, operand⟩, rest)

/-- What has been read, if only blanks are left. -/
def finished? {α : Type} (read : α × List Char) : Option α :=
  if read.2.all isSpace then some read.1 else none

/-- What a statement says. -/
inductive Statement where
  | condition (expression : Expression)
  | otherCondition (expression : Expression)
  | otherwise
  | endCondition
  | repetition (name : String) (source : Operand)
  | endRepetition
  deriving DecidableEq, Repr

/-- The rest of a statement that begins a loop. -/
def repetition? (cs : List Char) : Option Statement := do
  let (name, rest) ← name? cs
  let rest ← introducer? "in" rest
  let source ← (operand? rest).bind finished?
  return .repetition name source

/-- What stands in a statement, if it is one.  A word that something follows needs a blank behind
it; one that stands alone needs none. -/
def statement? (inside : List Char) : Option Statement :=
  if let some rest := introducer? "if" inside then
    ((expression? rest).bind finished?).map .condition
  else if let some rest := introducer? "elif" inside then
    ((expression? rest).bind finished?).map .otherCondition
  else if let some rest := keyword? "else" inside then finished? (.otherwise, rest)
  else if let some rest := keyword? "endif" inside then finished? (.endCondition, rest)
  else if let some rest := introducer? "for" inside then repetition? rest
  else if let some rest := keyword? "endfor" inside then finished? (.endRepetition, rest)
  else none

/-! ### Nesting -/

/-- A choice or a loop that is still open, with the pieces in front of it, last first.  A choice
keeps its finished branches, last first, and the condition of the present one, if it has one; a loop
keeps its finished body, if the present one is for the case of no elements. -/
inductive Frame where
  | choice (finished : List (Expression × List Item)) (condition : Option Expression)
      (before : List Item)
  | loop (name : String) (source : Operand) (finished : Option (List Item)) (before : List Item)

/-- The finished branches of a choice, last first, as nested choices with `otherwise` innermost. -/
def nestChoices (otherwise : List Item) : List (Expression × List Item) → List Item
  | [] => otherwise
  | (condition, body) :: earlier => nestChoices [.choice condition body otherwise] earlier

/-- Nests the segments.  `frames` are the ones that are open, innermost first, and `items` the pieces
of the innermost body, last first. -/
def assemble (frames : List Frame) (items : List Item) : List Segment → Option (List Item)
  | [] => if frames.isEmpty then some items.reverse else none
  | .text value :: rest => assemble frames (.text (String.ofList value) :: items) rest
  | .reference inside :: rest =>
    match (expression? inside).bind finished? with
    | some expression => assemble frames (.reference expression :: items) rest
    | none => none
  | .statement inside :: rest =>
    match statement? inside, frames with
    | some (.condition e), _ => assemble (.choice [] (some e) items :: frames) [] rest
    | some (.otherCondition e), .choice finished (some condition) before :: outer =>
      assemble (.choice ((condition, items.reverse) :: finished) (some e) before :: outer) [] rest
    | some .otherwise, .choice finished (some condition) before :: outer =>
      assemble (.choice ((condition, items.reverse) :: finished) none before :: outer) [] rest
    | some .endCondition, .choice finished (some condition) before :: outer =>
      assemble outer ((nestChoices [] ((condition, items.reverse) :: finished)).reverse ++ before) rest
    | some .endCondition, .choice finished none before :: outer =>
      assemble outer ((nestChoices items.reverse finished).reverse ++ before) rest
    | some (.repetition name source), _ =>
      assemble (.loop name source none items :: frames) [] rest
    | some .otherwise, .loop name source none before :: outer =>
      assemble (.loop name source (some items.reverse) before :: outer) [] rest
    | some .endRepetition, .loop name source none before :: outer =>
      assemble outer (.loop name source items.reverse [] :: before) rest
    | some .endRepetition, .loop name source (some body) before :: outer =>
      assemble outer (.loop name source body items.reverse :: before) rest
    | _, _ => none

/-! ### Whole templates -/

/-- Reads a template. -/
def read? (template : String) : Option (List Item) :=
  (segments .text [] template.toList).bind (assemble [] [])

/-- **The template engine.**  Bindings are called `data` in templates. -/
def engine : TemplateEngine := fun template bindings =>
  match read? template with
  | none => .error .unreadable
  | some items =>
    match fill ⟨[], [("data", bindings)]⟩ items with
    | none => .error .unfillable
    | some output => .ok output

end TaggedText.Template
