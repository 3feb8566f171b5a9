import TaggedText.Dispatch.Resolver

/-!
# Templated resolvers

A tag that is rendered through one template.  The template sees `data.params`, `data.attrs`,
`data.blocks`, one rendered text per block, and `data.content`, all blocks joined.

These data come about in two ways.  A composed tag has its header at hand, and its blocks are
rendered before it, so `Templated.resolve` is just the template.  A tag that is rendered has to ask:
`Templated.sequence` inquires about the parameters, the attributes, the number of blocks and then
each block, and at last proposes the template with what came back.
-/

namespace TaggedText

/-- A template and how its output is set. -/
structure Templated where
  template : String
  display : Option Display := none
  deriving DecidableEq, Repr, Inhabited

namespace Templated

/-- The command that describes the tag. -/
def resolve (t : Templated) : Command :=
  { Command.html t.template with display := t.display }

/-- What the template sees. -/
def bindings (params attributes : Json) (blocks : List String) : Json :=
  .ofFields
    [("params", params),
      ("attrs", attributes),
      ("blocks", .array (blocks.map Json.string)),
      ("content", .string (String.join blocks))]

/-- Asks for `left` more blocks from `index` on, and then fills in the template.  `blocks` holds what
came back so far; a block that did not come back as text counts as empty. -/
def askBlocks (t : Templated) (params attributes : Json) (index : Nat) (blocks : List String) :
    Nat → Sequence
  | 0 =>
    .propose { t.resolve with data := bindings params attributes blocks } fun _ => .done
  | left + 1 =>
    .propose { name := "getBlock", index := some index } fun value =>
      askBlocks t params attributes (index + 1)
        (blocks ++ [(value.bind Json.text?).getD ""]) left

/-- **The proposals for one tag.**  What does not come back counts as no parameters, no attributes
and no blocks. -/
def sequence (t : Templated) : Sequence :=
  .propose { name := "getParams" } fun params =>
    .propose { name := "getAttrs" } fun attributes =>
      .propose { name := "blockCount" } fun count =>
        askBlocks t (params.getD (.array [])) (attributes.getD (.object [])) 0 []
          ((count.bind Json.natural?).getD 0)

/-- The template as a resolver. -/
def resolver (t : Templated) : Resolver where
  resolve _ := t.resolve
  sequence _ := t.sequence

end Templated

end TaggedText
