import TaggedText.Proofs.Dispatch.Obedience

/-!
# A tag, proposal by proposal

The packets of a proposal are passed on while it runs, and its first error ends it from within.  If
the interpreters obey, the tag may as well let each proposal run to its end, look at all of its
packets, and pass on what came in front of the first error.  That is `Rendering.referenceRun`, and
`Engine.renderTag_eq_referenceRun` says that a tag is run as if by it.

A proposal that obeys stops at its first refusal, for whatever reason it is refused.  So what it
does in the sink of a tag is known from what it does when every packet is taken
(`Emitter.Obeys.guarded`), and the rest is an induction over the sequence.
-/

namespace TaggedText

namespace Rendering

/-- **The reference run of a sequence.**  A public proposal is dispatched, with the tag as subject, to
a caller that takes every packet.  If a packet reports an error, those in front of the first such
packet are sent on, and the tag is done.  Otherwise all packets are sent on, and the run ends with
the interrupt of the proposal or goes on with its value. -/
def referenceRun (context : Context) (tag : Tag) : Sequence → Emitter Unit
  | .done => .done ()
  | .propose command next =>
    if context.isPublic command.name then
      let (packets, result) :=
        (context.dispatch { command with subject := some (.tag tag) }).collect
      if packets.any Packet.isError then
        Emitter.forward (packets.takeWhile fun p => !p.isError)
      else do
        Emitter.forward packets
        let value ← Emitter.ofResult result
        referenceRun context tag (next value)
    else .done ()

/-- **A sequence is run as if its proposals ran to their ends**, if these obey. -/
theorem runSequence_eq_referenceRun {context : Context}
    (hdispatch : ∀ c, (context.dispatch c).Obeys) (tag : Tag) (s : Sequence) :
    runSequence context tag s = referenceRun context tag s := by
  induction s with
  | done => rfl
  | propose c next ih =>
      rw [runSequence_propose, (hdispatch _).guarded, funext ih]
      rfl

end Rendering

namespace Engine

/-- **A tag is rendered as if its proposals ran to their ends.**  Let every interpreter that is not of
the library pass refusals back unchanged, and not halt of its own accord.  Then, with any number of
levels left and whoever takes the packets, a tag does what the reference run of its sequence does. -/
theorem renderTag_eq_referenceRun (e : Engine)
    (hothers : e.registry.All fun _ i => i.behaviour.IsOwn ∨ i.behaviour.Obeys) (left : Nat)
    {command : Command} {tag : Tag} (htag : command.tag? = some tag) {resolver : Resolver}
    (hfind : e.resolvers.find? tag.name = some resolver) :
    Rendering.renderTag (e.contextWithin left) command =
      (Rendering.referenceRun (e.contextWithin left) tag
        (resolver.sequence ⟨e.target, tag⟩)).bind fun _ => .done none := by
  have hdispatch : ∀ c, ((e.contextWithin left).dispatch c).Obeys :=
    dispatchWithin_obeys hothers left
  have hresolver : (e.contextWithin left).resolvers.find? tag.name = some resolver := hfind
  rw [← Rendering.runSequence_eq_referenceRun hdispatch, Rendering.renderTag]
  simp only [htag, hresolver, Emitter.bind_eq, Emitter.pure_eq]
  rfl

end Engine

/-- Sends markup, reports an error, and raises a fault. -/
def Behaviour.failing : Behaviour := fun _ _ => do
  Emitter.send (.html none "a")
  Emitter.send (.error "b")
  Emitter.stop (.fault (.missingTarget "c"))

/-- Asks for the number of blocks, proposes it as text, and then asks for a failure. -/
def Sequence.counted : Sequence :=
  .propose { name := "blockCount" } fun value =>
    .propose (.text (toString ((value.bind Json.natural?).getD 7))) fun _ =>
      .script [{ name := "failing" }, .text "never"]

/-- An engine with an interpreter that fails. -/
def Engine.failing : Engine where
  registry := Registry.html.insert "failing" ⟨.isPublic, .failing⟩
  resolvers := Table.empty.insert "x" { sequence := fun _ => .counted }
  templates := fun _ _ => .error .unfillable
  policy := .strict

/-- A tag without blocks gives their number and what comes in front of the error, and no fault. -/
theorem Engine.renderTag_eq_referenceRun_failing :
    (Engine.failing.registry.All fun _ i => i.behaviour.IsOwn ∨ i.behaviour.Obeys) ∧
      Engine.failing.resolvers.find? "x" = some { sequence := fun _ => .counted } ∧
      Rendering.renderTag (Engine.failing.contextWithin 1) (.render (.tag { name := "x" })) =
        (Rendering.referenceRun (Engine.failing.contextWithin 1) { name := "x" } .counted).bind
          (fun _ => .done none) ∧
      (Rendering.renderTag (Engine.failing.contextWithin 1)
        (.render (.tag { name := "x" }))).collect =
          ([.html (some .inline) "0", .html none "a"], .ok none) := by
  have hfailing : Behaviour.failing.Obeys := fun _ _ _ =>
    (Emitter.Obeys.send _).bind fun _ => (Emitter.Obeys.send _).bind fun _ => .fault _
  have hothers : Engine.failing.registry.All fun _ i => i.behaviour.IsOwn ∨ i.behaviour.Obeys :=
    Table.All.insert (fun name i hfind => .inl ⟨name, i, .inl hfind, rfl⟩) (.inr hfailing)
  have hfind : Engine.failing.resolvers.find? "x" = some { sequence := fun _ => .counted } := by
    simp [Engine.failing]
  have htag : (Command.render (.tag { name := "x" })).tag? = some { name := "x" } := rfl
  exact ⟨hothers, hfind, Engine.renderTag_eq_referenceRun _ hothers 1 htag hfind, by cbv⟩

end TaggedText
