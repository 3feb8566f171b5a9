import TaggedText.Json

/-!
# What names stand for in a template

A name in a template is a path, as in `data.params.0`: a name and steps down from it.  What it leads
to depends on the loops around it, and a `Scope` is one `Turn` for each of these, innermost first,
and the bindings outside of all loops.

A path is looked up as a whole: first in the innermost loop, then in the loops around it, then in
the bindings.  A loop whose element has the name, but not the steps, does not hide what lies further
out.
-/

namespace TaggedText.Template

/-- A name, and the steps down from what it stands for. -/
structure Path where
  root : String
  steps : List String
  deriving DecidableEq, Repr, Inhabited

/-- What the steps lead to from a value: members of objects, and elements of arrays. -/
def descend? (steps : List String) (value : Json) : Option Json :=
  steps.foldl (fun value? step => value?.bind (Json.member? step)) (some value)

/-- **One turn of a loop:** the name and value of the element, the number of turns before this one,
and whether it is the last. -/
structure Turn where
  name : String
  element : Json
  index : Nat
  isLast : Bool
  deriving Inhabited

/-- The turns of a loop over some elements. -/
def Turn.ofElements (name : String) (elements : List Json) : List Turn :=
  elements.zipIdx.map fun (element, index) => ⟨name, element, index, index + 1 == elements.length⟩

/-- What a turn says about itself. -/
def Turn.status? (turn : Turn) : List String → Option Json
  | ["index"] => some (.integer (turn.index + 1))
  | ["index0"] => some (.integer turn.index)
  | ["first"] => some (.bool (turn.index == 0))
  | ["last"] => some (.bool turn.isLast)
  | _ => none

/-- What a path leads to within one turn.  The name `loop` means the turn itself, whatever the
element is called. -/
def Turn.value? (path : Path) (turn : Turn) : Option Json :=
  if path.root == "loop" then turn.status? path.steps
  else if path.root == turn.name then descend? path.steps turn.element
  else none

/-- The turns around a place, innermost first, and the bindings outside of them. -/
structure Scope where
  turns : List Turn
  bindings : List (String × Json)
  deriving Inhabited

/-- The scope within one more loop. -/
def Scope.enter (scope : Scope) (turn : Turn) : Scope :=
  { scope with turns := turn :: scope.turns }

/-- **What a path leads to**, the innermost loop first. -/
def Scope.value? (scope : Scope) (path : Path) : Option Json :=
  match scope.turns.findSome? (Turn.value? path) with
  | some value => some value
  | none => (Fields.find? path.root scope.bindings).bind (descend? path.steps)

end TaggedText.Template
