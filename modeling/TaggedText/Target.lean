import TaggedText.Dispatch.Engine

/-!
# Output targets: running composed documents

The interpreters of composed documents are the same for every target but for those of the leaves.  A
`tree` command renders its children and then dispatches its `current` command with what they gave
(`Target.tree`).  Only markup is gathered from children; every other packet goes straight to the
caller.  The children of an undefined tag are never rendered, so every target drops them whole.

A `Printer` is an engine together with the name of the packets that its output consists of, and
there are two of them:

* **HTML** sends text as markup, as it is written, and fills in templates.  Since its engine has all
  built-in interpreters, it can also render a document tag by tag.
* **Plain text** sends text in packets of a name of their own, which no tree gathers, and has
  nothing for templates to do.
-/

namespace TaggedText

namespace Target

/-- Adds the content of a markup packet to the state, and passes every other packet on. -/
def gather (content : String) (packet : Packet) : Emitter (String × Answer) :=
  if packet.isHtml then .done (content ++ packet.content, .ok ())
  else (Emitter.offer packet).bind fun answer => .done (content, answer)

/-- Dispatches commands one after the other, with their markup behind `content`. -/
def renderBlock (context : Context) (content : String) : List Command → Emitter String
  | [] => .done content
  | command :: rest =>
    (Emitter.through gather content (context.dispatch command)).bind fun
      | (content, .ok _) => renderBlock context content rest
      | (_, .error interrupt) => .stop interrupt

/-- The markup of several blocks. -/
def renderBlocks (context : Context) : List (List Command) → Emitter (List String)
  | [] => .done []
  | block :: rest => do
    let content ← renderBlock context "" block
    let more ← renderBlocks context rest
    return content :: more

/-- The fields of an object; other data have none. -/
def fieldsOf : Json → List (String × Json)
  | .object fields => fields
  | _ => []

/-- What the current command of a tree sees: the data of the tree, its rendered blocks, and the
command's own data, which count most. -/
def bindings (data own : Json) (blocks : List String) : Json :=
  let withContent := Fields.insert "content" (.string (String.join blocks)) (fieldsOf data)
  let withBlocks := Fields.insert "blocks" (.array (blocks.map Json.string)) withContent
  .object (Fields.extend withBlocks (fieldsOf own))

/-- Renders the children, and then dispatches the current command with what they gave. -/
def tree : Behaviour := fun context command =>
  match command.current with
  | none => (renderBlocks context command.children).bind fun _ => .done none
  | some current =>
    if current.isUndefined then .done none
    else
      (renderBlocks context command.children).bind fun blocks =>
        context.dispatch { current with data := bindings command.data current.data blocks }

/-- A tag that nothing resolves gives nothing. -/
def undefinedTag : Behaviour := fun _ _ => .done none

end Target

/-! ### Printers -/

/-- **An output target**: an engine, and the name of the packets that make up the output. -/
structure Printer where
  engine : Engine
  packetName : String

namespace Printer

/-- The output of one dispatch. -/
def output (p : Printer) (d : Dispatch) : String :=
  Packet.joined p.packetName d.packets

/-- Runs commands one after the other; the first fault ends the run. -/
def run (p : Printer) : List Command → Except Fault String
  | [] => .ok ""
  | command :: rest => do
    let dispatch ← p.engine.dispatch command
    let more ← p.run rest
    return p.output dispatch ++ more

end Printer

/-! ### The HTML target -/

/-- Text of a composed document as a packet in the line, as it is written. -/
def Target.textAsHtml : Behaviour := fun _ command => do
  Emitter.send (.html (some .inline) (command.textContent.getD ""))
  return none

/-- The interpreters of the HTML target. -/
def Registry.html : Registry :=
  Registry.builtins
    |>.insert "tree" ⟨.isPublic, Target.tree⟩
    |>.insert "text" ⟨.isPublic, Target.textAsHtml⟩
    |>.insert Command.undefinedName ⟨.isPublic, Target.undefinedTag⟩

/-- The HTML target. -/
def Printer.html (templates : TemplateEngine) (resolvers : ResolverMap) (policy : Policy) :
    Printer where
  engine :=
    { registry := Registry.html
      resolvers := resolvers
      templates := templates
      policy := policy
      target := "html" }
  packetName := Packet.htmlName

/-- Renders a document as its tags' resolvers propose. -/
def Printer.renderDocument (p : Printer) (document : Document) : Except Fault String :=
  (p.engine.render document).map p.output

/-! ### The plain-text target -/

/-- The name of packets that carry plain text. -/
def Packet.textName : String := "text"

/-- Text of a composed document as plain text. -/
def Target.textLeaf : Behaviour := fun _ command => do
  Emitter.send ⟨Packet.textName, none, command.textContent.getD ""⟩
  return none

/-- Gives nothing. -/
def Target.discard : Behaviour := fun _ _ => .done none

/-- The interpreters of the plain-text target. -/
def Registry.text : Registry :=
  Table.empty
    |>.insert "tree" ⟨.isPublic, Target.tree⟩
    |>.insert Packet.textName ⟨.isPublic, Target.textLeaf⟩
    |>.insert Packet.htmlName ⟨.isPublic, Target.discard⟩
    |>.insert Command.undefinedName ⟨.isPublic, Target.undefinedTag⟩

/-- The plain-text target.  None of its interpreters fills in a template. -/
def Printer.text (resolvers : ResolverMap) (policy : Policy) : Printer where
  engine :=
    { registry := Registry.text
      resolvers := resolvers
      templates := fun _ _ => .error .unfillable
      policy := policy
      target := "text" }
  packetName := Packet.textName

end TaggedText
