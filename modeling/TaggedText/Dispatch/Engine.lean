import TaggedText.Dispatch.Inquiry
import TaggedText.Dispatch.Rendering

/-!
# The engine

An engine holds a registry, resolvers and templates for one target, and dispatches commands to the
interpreters of their names.  `Registry.builtins` is where it usually starts: the interpreters that
render documents, which are private, and those that answer inquiries and fill in templates, which
are public.

Dispatches nest, and the number of levels left is what `Engine.dispatchWithin` recurses on.  This is
the limit that the engine really has, and not a device of the definition: an interpreter that
dispatches its own command again runs out of levels and not out of time, and that it did is a fault
like others.

`Engine.dispatch` is a whole dispatch.  Nobody above it refuses packets, so they are all taken; a
fault gives up the packets that came before it.
-/

namespace TaggedText

/-! ### The built-in interpreters -/

/-- Fills in a template and sends the result; a template that fails is reported as an error.  Data
that are null count as no bindings. -/
def fillTemplate : Behaviour := fun context command => do
  let bindings :=
    match command.data with
    | .null => .object []
    | data => data
  match context.templates (command.template.getD "") bindings with
  | .ok rendered => Emitter.send (.html command.display rendered)
  | .error fault => Emitter.send (.error fault.message)
  return none

/-- All built-in interpreters. -/
def Registry.builtins : Registry :=
  Table.empty
    |>.insert "render" ⟨.isPrivate, Rendering.render⟩
    |>.insert "renderDocument" ⟨.isPrivate, Rendering.renderDocument⟩
    |>.insert "renderTag" ⟨.isPrivate, Rendering.renderTag⟩
    |>.insert "renderText" ⟨.isPrivate, Rendering.renderText⟩
    |>.insert "renderBlock" ⟨.isPrivate, Rendering.renderBlock⟩
    |>.insert "getParams" ⟨.isPublic, Inquiry.getParams⟩
    |>.insert "getAttrs" ⟨.isPublic, Inquiry.getAttrs⟩
    |>.insert "blockCount" ⟨.isPublic, Inquiry.blockCount⟩
    |>.insert "getBlock" ⟨.isPublic, Inquiry.getBlock⟩
    |>.insert "getBlockChildNodes" ⟨.isPublic, Inquiry.getBlockChildNodes⟩
    |>.insert "textContent" ⟨.isPublic, Inquiry.textContent⟩
    |>.insert "html" ⟨.isPublic, fillTemplate⟩

/-! ### Engines -/

/-- **Everything that dispatching depends on.** -/
structure Engine where
  registry : Registry
  resolvers : ResolverMap
  templates : TemplateEngine
  policy : Policy := .lenient
  target : String := "html"
  maxDepth : Nat := 256

/-- What a dispatch gave: its packets in order, and its value, if any. -/
structure Dispatch where
  packets : List Packet := []
  value : Option Json := none
  deriving Inhabited

namespace Engine

/-- Dispatches a command with `left` levels of nested dispatches left. -/
def dispatchWithin (e : Engine) : Nat → Command → Emitter (Option Json)
  | 0, command => e.policy.settle (.depthExceeded command.name e.maxDepth)
  | left + 1, command =>
    match e.registry.find? command.name with
    | none => e.policy.settle (.unknownCommand command.name)
    | some interpreter =>
      interpreter.behaviour
        { isPublic := e.registry.isPublic
          resolvers := e.resolvers
          templates := e.templates
          policy := e.policy
          target := e.target
          dispatch := dispatchWithin e left }
        command

/-- **Dispatches a command** and takes every packet.  Nobody above refuses packets, so a computation
that stops as if somebody had just gives no value. -/
def dispatch (e : Engine) (command : Command) : Except Fault Dispatch :=
  match (e.dispatchWithin e.maxDepth command).collect with
  | (packets, .ok value) => .ok ⟨packets, value⟩
  | (packets, .error .halted) => .ok ⟨packets, none⟩
  | (_, .error (.fault fault)) => .error fault

/-- Renders a whole document. -/
def render (e : Engine) (document : Document) : Except Fault Dispatch :=
  e.dispatch (.render (.document document))

end Engine

end TaggedText
