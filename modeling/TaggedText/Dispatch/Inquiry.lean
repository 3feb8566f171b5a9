import TaggedText.Dispatch.Interpreter

/-!
# Inquiries about a tag

The public interpreters that tell a resolver about its tag: its header and the number of its blocks
(`getParams`, `getAttrs`, `blockCount`), and what is in a block, rendered or not (`getBlock`,
`getBlockChildNodes`, `textContent`).  They send nothing; their answer is the value they return.

A block is rendered by dispatching its nodes and keeping the markup.  So a fault inside a block ends
the inquiry, and nothing else that happens inside is seen outside.

In display mode the children of a block come back as runs of packets that stand in a line and
packets that do not (`joinRuns`), which alternate and begin with one in a line.
-/

namespace TaggedText.Inquiry

/-! ### The parts of a tag -/

/-- The tag that a command is about. -/
def subjectTag (context : Context) (command : Command) : Emitter (Option Tag) :=
  match command.tag? with
  | some tag => .done (some tag)
  | none => context.policy.settle (.missingTarget command.name)

/-- The block that a command is about: the first, if it names none. -/
def subjectBlock (context : Context) (command : Command) : Emitter (Option Block) :=
  (subjectTag context command).bind fun
    | none => .done none
    | some tag =>
      let index := command.index.getD 0
      match tag.block? index with
      | some block => .done (some block)
      | none => context.policy.settle (.blockOutOfRange tag.name index tag.blocks.length)

/-- The parameters in order. -/
def getParams : Behaviour := fun context command => do
  let tag ← subjectTag context command
  return tag.map fun tag => .array tag.paramValues

/-- The attributes as an object. -/
def getAttrs : Behaviour := fun context command => do
  let tag ← subjectTag context command
  return tag.map fun tag => .object tag.attributeFields

/-- The number of blocks. -/
def blockCount : Behaviour := fun context command => do
  let tag ← subjectTag context command
  return tag.map fun tag => .ofNat tag.blocks.length

/-! ### Blocks as text -/

/-- The markup packets of one part of a document; all other packets are dropped. -/
def htmlPackets (context : Context) (subject : Subject) : Emitter (List Packet) :=
  let (packets, result) := (context.dispatch (.render subject)).collect
  (Emitter.ofResult result).bind fun _ => .done (packets.filter Packet.isHtml)

/-- The markup packets of nodes, node by node. -/
def htmlPacketsOfNodes (context : Context) : List Subject → Emitter (List (List Packet))
  | [] => .done []
  | subject :: rest => do
    let packets ← htmlPackets context subject
    let more ← htmlPacketsOfNodes context rest
    return packets :: more

/-- The contents of packets, joined. -/
def contents (packets : List Packet) : String :=
  String.join (packets.map Packet.content)

/-- Runs of packets that all stand in a line, or all do not, joined.  `isInline` says which kind the
run that `chunk` belongs to is; a packet of the other kind begins a new run. -/
def joinRuns (isInline : Bool) (chunk : String) : List Packet → List String
  | [] => [chunk]
  | p :: rest =>
    if p.isInline == isInline then joinRuns isInline (chunk ++ p.content) rest
    else chunk :: joinRuns (!isInline) p.content rest

/-- The rendered block as one text. -/
def getBlock : Behaviour := fun context command => do
  match ← subjectBlock context command with
  | none => return some (.string "")
  | some block =>
    let packets ← htmlPacketsOfNodes context (block.body.map Subject.ofNode)
    return some (.string (contents packets.flatten))

/-- The children of a block as a list of texts: one for each child, or, in display mode, one for each
run of packets of one kind.  In display mode an empty text in front of a leading tag makes the first
run one that stands in a line. -/
def getBlockChildNodes : Behaviour := fun context command => do
  match ← subjectBlock context command with
  | none => return some (.array [])
  | some block =>
    match block.body with
    | [] => return some (.array [])
    | first :: _ =>
      let subjects := block.body.map Subject.ofNode
      if command.displayMode then
        let subjects := if first.isText then subjects else .text "" :: subjects
        let packets ← htmlPacketsOfNodes context subjects
        return some (.array ((joinRuns true "" packets.flatten).map Json.string))
      else
        let packets ← htmlPacketsOfNodes context subjects
        return some (.array (packets.map fun ps => .string (contents ps)))

/-- The text that stands directly in a block. -/
def textContent : Behaviour := fun context command => do
  match ← subjectBlock context command with
  | none => return some (.string "")
  | some block => return some (.string block.ownText)

end TaggedText.Inquiry
