import TaggedText.Dispatch.Resolver

/-!
# Composing documents

A document can be turned into one command before anything is dispatched: a text becomes a `text`
command, and a tag becomes a `tree` command that holds what its resolver describes and, composed in
turn, its blocks.  `Document.compose` puts one more `tree` around all of it, whose current command
is the root template: on the HTML target it sends whatever the children rendered to, in one packet.
-/

namespace TaggedText

/-- What a resolver map describes a tag as. -/
def ResolverMap.describe (resolvers : ResolverMap) (target : String) (tag : Tag) : Command :=
  match resolvers.find? tag.name with
  | some resolver => resolver.resolve ⟨target, tag⟩
  | none => .undefined

/-- The header of a tag as the data of its command. -/
def Tag.composedData (tag : Tag) : Json :=
  .ofFields [("attrs", .object tag.attributeFields), ("params", .array tag.paramValues)]

mutual

/-- A node as a command. -/
def composeNode (resolvers : ResolverMap) (target : String) : Node → Command
  | .text value => .text value
  | .tag tag => composeTag resolvers target tag

/-- A tag as a command. -/
def composeTag (resolvers : ResolverMap) (target : String) : Tag → Command
  | ⟨name, params, attributes, blocks, span⟩ =>
    let tag : Tag := ⟨name, params, attributes, blocks, span⟩
    .tree tag.composedData (resolvers.describe target tag) (composeBlocks resolvers target blocks)

/-- Blocks as lists of commands. -/
def composeBlocks (resolvers : ResolverMap) (target : String) : List Block → List (List Command)
  | [] => []
  | ⟨_, body⟩ :: rest => composeNodes resolvers target body :: composeBlocks resolvers target rest

/-- Nodes as commands. -/
def composeNodes (resolvers : ResolverMap) (target : String) : List Node → List Command
  | [] => []
  | node :: rest => composeNode resolvers target node :: composeNodes resolvers target rest

end

/-- The template of the outermost command: whatever its children rendered to. -/
def rootTemplate : String := "\x7b\x7b data.content \x7d\x7d"

/-- **A document as one command**, with the whole document as its one block. -/
def Document.compose (d : Document) (resolvers : ResolverMap) (target : String) : Command :=
  .tree (.object []) (.html rootTemplate) [composeNodes resolvers target d.body]

end TaggedText
