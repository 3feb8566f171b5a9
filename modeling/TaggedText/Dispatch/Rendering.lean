import TaggedText.Dispatch.Interpreter

/-!
# Rendering documents

The private interpreters, which take a document apart and render what it consists of.  No resolver
can ask for them; they are reached only from one another.  `render` routes to one of the other four
by the kind of its subject, and three of these are plain: nodes in order, for a document and for a
block, and text as it stands.

The fourth renders a tag by what its resolver proposes.  `runSequence` dispatches one proposal after
the other, each with the tag as subject, and feeds its value back to the sequence.  Besides a fault,
three things end it: the sequence itself, a proposal that is not public, and an error.

**Where packets are refused.**  `renderTag` is the only place.  A packet that reports an error is
not passed on, and the computation it came from is told to halt.  The refusal is remembered for this
one proposal, and consulted only when the proposal does halt; an interpreter that goes on regardless
is heard again with the packets that follow.
-/

namespace TaggedText.Rendering

/-- Routes by the kind of the subject. -/
def render : Behaviour := fun context command =>
  match command.subject with
  | none => .done none
  | some subject =>
    let name :=
      match subject with
      | .document _ => "renderDocument"
      | .tag _ => "renderTag"
      | .text _ => "renderText"
      | .block _ => "renderBlock"
    context.dispatch { command with name := name }

/-- Renders nodes one after the other. -/
def renderEach (context : Context) : List Node → Emitter Unit
  | [] => .done ()
  | node :: rest => do
    let _ ← context.dispatch (.render (.ofNode node))
    renderEach context rest

/-- Renders a document. -/
def renderDocument : Behaviour := fun context command => do
  match command.subject with
  | some (.document document) => renderEach context document.body
  | _ => pure ()
  return none

/-- Renders a block. -/
def renderBlock : Behaviour := fun context command => do
  match command.subject with
  | some (.block block) => renderEach context block.body
  | _ => pure ()
  return none

/-- Text goes out as it is written. -/
def renderText : Behaviour := fun _ command => do
  match command.subject with
  | some (.text value) => Emitter.send (.html (some .inline) value)
  | _ => pure ()
  return none

/-- Passes packets on, but stops at one that reports an error; the state says whether one came. -/
def errorGuard (aborted : Bool) (packet : Packet) : Emitter (Bool × Answer) :=
  if packet.isError then .done (true, .error .halted)
  else (Emitter.offer packet).bind fun answer => .done (aborted, answer)

/-- Dispatches what a sequence proposes, with the tag as subject, until it ends, proposes a command
that is not public, or is aborted by an error. -/
def runSequence (context : Context) (tag : Tag) : Sequence → Emitter Unit
  | .done => .done ()
  | .propose command next =>
    if context.isPublic command.name then
      (Emitter.through errorGuard false
        (context.dispatch { command with subject := some (.tag tag) })).bind fun
        | (_, .ok value) => runSequence context tag (next value)
        | (aborted, .error interrupt) =>
          if aborted && interrupt == .halted then .done () else .stop interrupt
    else .done ()

/-- Renders a tag by what its resolver proposes; a tag without a resolver gives nothing. -/
def renderTag : Behaviour := fun context command => do
  match command.tag? with
  | none => pure ()
  | some tag =>
    match context.resolvers.find? tag.name with
    | none => pure ()
    | some resolver => runSequence context tag (resolver.sequence ⟨context.target, tag⟩)
  return none

end TaggedText.Rendering
