import TaggedText.Proofs.Collection
import TaggedText.Proofs.Document.Emission
import TaggedText.Target

/-!
# Dispatching built-in commands

One equation for each way in which the built-in interpreters dispatch further commands, for every
engine that has them.  Later files cite these and unfold no dispatcher.

An engine may have more interpreters than the built-in ones, and may have replaced some;
`Registry.Extends` is what is asked of its registry.  With `Engine.contextWithin`, the context that
an interpreter is given with some levels left, a dispatch is the behaviour that its name stands for
in that context (`Engine.dispatchWithin_succ`), and the other equations follow by looking the names
up.  The one that matters most is `dispatch_renderTag_of_find?_some`: a tag is rendered by what its
resolver proposes.
-/

namespace TaggedText

/-- What an interpreter is given when `left` levels of dispatches are left to it. -/
def Engine.contextWithin (e : Engine) (left : Nat) : Context where
  isPublic := e.registry.isPublic
  resolvers := e.resolvers
  templates := e.templates
  policy := e.policy
  target := e.target
  dispatch := e.dispatchWithin left

/-- The registry has every interpreter of `base`, under its name. -/
def Registry.Extends (r base : Registry) : Prop :=
  ∀ name i, base.find? name = some i → r.find? name = some i

theorem Registry.Extends.isPublic {r base : Registry} (h : r.Extends base) {name : String}
    (hname : base.isPublic name = true) : r.isPublic name = true := by
  unfold Registry.isPublic at hname ⊢
  cases hfind : base.find? name with
  | none => simp [hfind] at hname
  | some i =>
      rw [hfind] at hname
      rw [h name i hfind]
      exact hname

/-- An interpreter under a new name takes none away. -/
theorem Registry.Extends.insert {r base : Registry} (h : r.Extends base) {name : String}
    (i : Interpreter) (hname : base.find? name = none) :
    Registry.Extends (r.insert name i) base := by
  intro name' i' hfind
  have hne : name' ≠ name := by
    rintro rfl
    rw [hname] at hfind
    cases hfind
  rw [Table.find?_insert, if_neg hne]
  exact h name' i' hfind

/-- Nor does one that was there under the name already. -/
theorem Registry.Extends.insert_self {r base : Registry} (h : r.Extends base) {name : String}
    {i : Interpreter} (hname : base.find? name = some i) :
    Registry.Extends (r.insert name i) base := by
  intro name' i' hfind
  rw [Table.find?_insert]
  split
  · next heq => rw [← hname, ← heq, hfind]
  · exact h name' i' hfind

theorem Registry.Extends.refl (r : Registry) : r.Extends r :=
  fun _ _ h => h

theorem Registry.html_extends : Registry.Extends .html .builtins :=
  (((Registry.Extends.refl _).insert _ (by simp [Registry.builtins])).insert _
    (by simp [Registry.builtins])).insert _ (by simp [Registry.builtins, Command.undefinedName])

namespace Engine

variable {e : Engine} {left : Nat}

/-- **A dispatch is the behaviour of its name.** -/
theorem dispatchWithin_succ {command : Command} {i : Interpreter}
    (h : e.registry.find? command.name = some i) (left : Nat) :
    e.dispatchWithin (left + 1) command = i.behaviour (e.contextWithin left) command := by
  simp only [dispatchWithin, h]
  rfl

/-- **Induction on dispatches.**  A dispatch is settled by the policy, or it is the behaviour of its
name, for which the dispatches one level down come before it. -/
theorem dispatchWithin_induction {motive : Emitter (Option Json) → Prop}
    (settle : ∀ fault, motive (e.policy.settle fault))
    (step : ∀ left c i, e.registry.find? c.name = some i →
      (∀ c, motive (e.dispatchWithin left c)) → motive (i.behaviour (e.contextWithin left) c))
    (levels : Nat) (c : Command) : motive (e.dispatchWithin levels c) := by
  induction levels generalizing c with
  | zero => exact settle _
  | succ left ih =>
      cases hfind : e.registry.find? c.name with
      | none =>
          simp only [dispatchWithin, hfind]
          exact settle _
      | some i =>
          rw [dispatchWithin_succ hfind]
          exact step left c i hfind ih

section

variable (he : e.registry.Extends .builtins)

include he

theorem dispatchWithin_builtin (command : Command) {i : Interpreter}
    (h : Registry.builtins.find? command.name = some i) (left : Nat) :
    e.dispatchWithin (left + 1) command = i.behaviour (e.contextWithin left) command :=
  dispatchWithin_succ (he command.name i h) left

/-- Rendering is routed by the kind of the subject, one level down. -/
theorem dispatch_render (subject : Subject) :
    e.dispatchWithin (left + 1) (.render subject) =
      Rendering.render (e.contextWithin left) (.render subject) :=
  dispatchWithin_builtin he (.render subject) (i := ⟨.isPrivate, Rendering.render⟩)
    (by simp [Registry.builtins, Command.render]) left

/-- A document is rendered node by node, two levels down. -/
theorem dispatch_renderDocument (d : Document) :
    e.dispatchWithin (left + 2) (.render (.document d)) =
      (Rendering.renderEach (e.contextWithin left) d.body).bind fun _ => .done none := by
  rw [dispatch_render he]
  exact dispatchWithin_builtin he { Command.render (.document d) with name := "renderDocument" }
    (i := ⟨.isPrivate, Rendering.renderDocument⟩) (by simp [Registry.builtins]) left

/-- Text goes out two levels down. -/
theorem dispatch_renderText (value : String) :
    e.dispatchWithin (left + 2) (.render (.text value)) =
      (Emitter.send (.html (some .inline) value)).bind fun _ => .done none := by
  rw [dispatch_render he]
  exact dispatchWithin_builtin he { Command.render (.text value) with name := "renderText" }
    (i := ⟨.isPrivate, Rendering.renderText⟩) (by simp [Registry.builtins]) left

/-- A tag is rendered by its resolver, two levels down. -/
theorem dispatch_renderTag (tag : Tag) :
    e.dispatchWithin (left + 2) (.render (.tag tag)) =
      Rendering.renderTag (e.contextWithin left)
        { Command.render (.tag tag) with name := "renderTag" } := by
  rw [dispatch_render he]
  exact dispatchWithin_builtin he { Command.render (.tag tag) with name := "renderTag" }
    (i := ⟨.isPrivate, Rendering.renderTag⟩) (by simp [Registry.builtins]) left

/-- A tag without a resolver gives nothing. -/
theorem dispatch_renderTag_of_find?_none {tag : Tag} (h : e.resolvers.find? tag.name = none) :
    e.dispatchWithin (left + 2) (.render (.tag tag)) = .done none := by
  rw [dispatch_renderTag he, Rendering.renderTag]
  simp [Command.tag?, Command.render, contextWithin, h]

/-- **A tag is rendered by what its resolver proposes**, two levels down. -/
theorem dispatch_renderTag_of_find?_some {tag : Tag} {resolver : Resolver}
    (h : e.resolvers.find? tag.name = some resolver) :
    e.dispatchWithin (left + 2) (.render (.tag tag)) =
      (Rendering.runSequence (e.contextWithin left) tag
        (resolver.sequence ⟨e.target, tag⟩)).bind fun _ => .done none := by
  rw [dispatch_renderTag he, Rendering.renderTag]
  simp [Command.tag?, Command.render, contextWithin, h]

end

end Engine

/-! ### Proposals -/

namespace Rendering

variable {context : Context} {tag : Tag}

/-- A public proposal that reports no error passes its packets on, and its value goes into the next
step. -/
theorem collect_runSequence_propose {command : Command} {next : Option Json → Sequence}
    {packets : List Packet} {value : Option Json} (hpublic : context.isPublic command.name = true)
    (hdispatch : (context.dispatch { command with subject := some (.tag tag) }).collect =
      (packets, .ok value))
    (hpackets : ∀ p ∈ packets, p.isError = false) :
    (runSequence context tag (.propose command next)).collect =
      (packets ++ (runSequence context tag (next value)).collect.1,
        (runSequence context tag (next value)).collect.2) := by
  rw [runSequence, if_pos hpublic,
    Emitter.collect_bind_ok (Emitter.collect_through_errorGuard hdispatch hpackets false)]

/-- A public proposal that does nothing but report an error ends the tag, and nothing is seen. -/
theorem collect_runSequence_of_error {command : Command} {next : Option Json → Sequence}
    {message : String} {after : Unit → Emitter (Option Json)}
    (hpublic : context.isPublic command.name = true)
    (hdispatch : context.dispatch { command with subject := some (.tag tag) } =
      (Emitter.send (.error message)).bind after) :
    (runSequence context tag (.propose command next)).collect = ([], .ok ()) := by
  rw [runSequence, if_pos hpublic, hdispatch]
  rfl

end Rendering

/-! ### Templates -/

theorem fillTemplate_eq {context : Context} {command : Command} {fields : List (String × Json)}
    (hdata : command.data = .object fields) :
    fillTemplate context command =
      (Emitter.send (context.templates.packet (command.template.getD "") command.display
        (.object fields))).bind fun _ => .done none := by
  simp only [fillTemplate, hdata, TemplateEngine.packet]
  cases context.templates (command.template.getD "") (.object fields) <;> rfl

/-- **An `html` command sends one packet.** -/
theorem Engine.dispatch_html {e : Engine} (he : e.registry.Extends .builtins) {command : Command}
    {fields : List (String × Json)} (hname : command.name = "html")
    (hdata : command.data = .object fields) (left : Nat) :
    e.dispatchWithin (left + 1) command =
      (Emitter.send (e.templates.packet (command.template.getD "") command.display
        (.object fields))).bind fun _ => .done none := by
  rw [dispatchWithin_builtin he command (i := ⟨.isPublic, fillTemplate⟩)
    (by simp [Registry.builtins, hname])]
  exact fillTemplate_eq hdata

end TaggedText
