import TaggedText.Document.Basic

/-!
# Commands and packets

A command asks for one interpreter by name; a packet is one piece of output.

There are two ways in which commands come about.  A composed document nests them, in `current` and
`children`; commands made while a document is rendered are flat and carry a `subject` instead.  One
type serves both, so that composed and directly dispatched commands go through the same
interpreters, and the fields that an interpreter does not read are left at their defaults.

Packets are told apart by name.  Those called `html` are markup, those called `error` end the
rendering of the tag they come from, and any other name passes through unnoticed.
-/

namespace TaggedText

/-- How a piece of output is set: in the line, or as a block. -/
inductive Display where
  | inline
  | block
  deriving DecidableEq, Repr, Inhabited

/-- The part of a document that a command is about. -/
inductive Subject where
  | document (document : Document)
  | tag (tag : Tag)
  | text (value : String)
  | block (block : Block)
  deriving Inhabited

/-- A node as a subject. -/
def Subject.ofNode : Node → Subject
  | .tag t => .tag t
  | .text value => .text value

/-- **A named request.**  `name` selects the interpreter; the other fields are read by those
interpreters that need them. -/
structure Command where
  name : String
  subject : Option Subject := none
  index : Option Nat := none
  displayMode : Bool := false
  template : Option String := none
  data : Json := .null
  display : Option Display := none
  textContent : Option String := none
  current : Option Command := none
  children : List (List Command) := []

instance : Inhabited Command := ⟨{ name := "" }⟩

namespace Command

/-- The name of the command that stands in for a tag that nothing resolves. -/
def undefinedName : String := "#undefined"

/-- The stand-in for a tag that nothing resolves. -/
def undefined : Command :=
  { name := undefinedName }

/-- Renders a part of a document. -/
def render (subject : Subject) : Command :=
  { name := "render", subject := some subject }

/-- Fills in a template. -/
def html (template : String) : Command :=
  { name := "html", template := some template }

/-- Stands for a run of text in a composed document. -/
def text (content : String) : Command :=
  { name := "text", textContent := some content }

/-- Stands for a tag in a composed document: `current` runs when the `children` are rendered. -/
def tree (data : Json) (current : Command) (children : List (List Command)) : Command :=
  { name := "tree", data := data, current := some current, children := children }

/-- The command is the stand-in for a tag that nothing resolves. -/
def isUndefined (c : Command) : Bool :=
  c.name == undefinedName

/-- The tag that the command is about. -/
def tag? (c : Command) : Option Tag :=
  match c.subject with
  | some (.tag tag) => some tag
  | _ => none

end Command

/-! ### Packets -/

/-- **A piece of output.** -/
structure Packet where
  name : String
  display : Option Display := none
  content : String
  deriving DecidableEq, Repr, Inhabited

namespace Packet

/-- The name of packets that carry markup. -/
def htmlName : String := "html"

/-- The name of packets that end the rendering of the tag they come from. -/
def errorName : String := "error"

/-- A piece of markup. -/
def html (display : Option Display) (content : String) : Packet :=
  ⟨htmlName, display, content⟩

/-- A piece of output that ends the rendering of its tag. -/
def error (message : String) : Packet :=
  ⟨errorName, none, message⟩

/-- The packet carries markup. -/
def isHtml (p : Packet) : Bool :=
  p.name == htmlName

/-- The packet ends the rendering of its tag. -/
def isError (p : Packet) : Bool :=
  p.name == errorName

/-- The packet stands in a line; without a word about it a packet counts as a block. -/
def isInline (p : Packet) : Bool :=
  p.display == some .inline

/-- The contents of all packets of a name, joined. -/
def joined (name : String) (ps : List Packet) : String :=
  String.join ((ps.filter fun p => p.name == name).map Packet.content)

end Packet

end TaggedText
