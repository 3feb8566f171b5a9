import TaggedText.Template.Scope

/-!
# Templates

A template is text with references to data, choices and loops in it.  `Template.Item` is one of
these four, and since choices and loops hold templates again, `Template.fill` is a recursion over
items with the scope as its argument.

The one point that needs care is absence.  A reference to something that does not exist fails, and
with it the whole template, except in the condition of a choice and under a negation, where it
counts as false.
-/

namespace TaggedText.Template

/-- A truth value that is written out, or a path. -/
inductive Operand where
  | constant (value : Bool)
  | path (path : Path)
  deriving DecidableEq, Repr, Inhabited

/-- An operand, or the opposite of its truth. -/
structure Expression where
  negated : Bool
  operand : Operand
  deriving DecidableEq, Repr, Inhabited

/-- **A piece of a template.**  A choice takes one of two bodies; further conditions are choices in
the second.  A loop repeats its body for each element, under a name of its own, and has another body
for the case that there is none. -/
inductive Item where
  | text (value : String)
  | reference (expression : Expression)
  | choice (condition : Expression) (body otherwise : List Item)
  | loop (name : String) (source : Operand) (body otherwise : List Item)
  deriving Inhabited

/-- What an operand stands for. -/
def Operand.value? (scope : Scope) : Operand → Option Json
  | .constant value => some (.bool value)
  | .path p => scope.value? p

/-- Whether an operand counts as true; what does not exist is false. -/
def Operand.holds (scope : Scope) (operand : Operand) : Bool :=
  ((operand.value? scope).map Json.truthy).getD false

/-- What an expression stands for. -/
def Expression.value? (scope : Scope) (e : Expression) : Option Json :=
  if e.negated then some (.bool (!e.operand.holds scope)) else e.operand.value? scope

/-- Whether an expression counts as true. -/
def Expression.holds (scope : Scope) (e : Expression) : Bool :=
  e.operand.holds scope != e.negated

/-! ### Writing values -/

mutual

/-- How a value is written: text as it is, numbers without an exponent, null as nothing. -/
def display : Json → String
  | .null => ""
  | .bool b => if b then "true" else "false"
  | .integer n => toString n
  | .float x => Number.Layout.plain.render x
  | .string s => s
  | .array elements => "[" ++ displayElements elements ++ "]"
  | .object _ => "[object]"

/-- Elements with commas and spaces between them. -/
def displayElements : List Json → String
  | [] => ""
  | [x] => display x
  | x :: y :: rest => display x ++ ", " ++ displayElements (y :: rest)

end

/-! ### Filling in -/

/-- What a loop runs over: the elements of an array, or the characters of a text. -/
def elements? : Json → Option (List Json)
  | .array elements => some elements
  | .string s => some (s.toList.map fun c => .string (String.singleton c))
  | _ => none

mutual

/-- The output of one piece. -/
def fillItem (scope : Scope) : Item → Option String
  | .text value => some value
  | .reference expression => (expression.value? scope).map display
  | .choice condition body otherwise =>
    if condition.holds scope then fill scope body else fill scope otherwise
  | .loop name source body otherwise => do
    let elements ← (source.value? scope).bind elements?
    if elements.isEmpty then fill scope otherwise
    else
      let outputs ← (Turn.ofElements name elements).mapM fun turn => fill (scope.enter turn) body
      return String.join outputs

/-- The output of a template, if every reference leads somewhere. -/
def fill (scope : Scope) : List Item → Option String
  | [] => some ""
  | item :: rest => do
    let first ← fillItem scope item
    let more ← fill scope rest
    return first ++ more

end

end TaggedText.Template
