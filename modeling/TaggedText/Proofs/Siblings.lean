import TaggedText.Proofs.Dispatch.Halting

/-!
# Siblings do not disturb one another

A document is rendered node by node, and what ends the rendering of one node early, an error or a
refused proposal, ends no other.  Only a fault does, and then the whole document gives that fault.

`Engine.render_append` says so in one equation: rendering two lists of nodes is rendering the one
and then the other, where the first fault is the fault of the whole.  Two facts carry it.  The
errors of a tag stay inside it (`Rendering.errorless_renderEach`), and nothing halts of its own
accord, so a node that comes to an end lets the next one begin.
-/

namespace TaggedText

/-! ### Errors stay inside -/

namespace Emitter

variable {α β : Type}

/-- **When every packet is taken, none reports an error.** -/
def Errorless (x : Emitter α) : Prop :=
  ∀ p ∈ x.collect.1, p.isError = false

namespace Errorless

theorem done (a : α) : (Emitter.done a).Errorless :=
  nofun

theorem stop (i : Interrupt) : (Emitter.stop i : Emitter α).Errorless :=
  nofun

theorem settle (policy : Policy) (fault : Fault) :
    (policy.settle fault : Emitter (Option α)).Errorless :=
  match policy with
  | .lenient => done none
  | .strict => stop (.fault fault)

theorem bind {x : Emitter α} {f : α → Emitter β} (hx : x.Errorless) (hf : ∀ a, (f a).Errorless) :
    (x.bind f).Errorless := by
  intro p hp
  cases hresult : x.collect.2 with
  | error i =>
      rw [collect_bind_error (Prod.ext rfl hresult)] at hp
      exact hx p hp
  | ok a =>
      rw [collect_bind_ok (Prod.ext rfl hresult)] at hp
      rcases List.mem_append.mp hp with hp | hp
      · exact hx p hp
      · exact hf a p hp

/-- The sink of a tag lets no error through, whatever the computation does. -/
theorem errorGuard (x : Emitter α) (aborted : Bool) :
    (through Rendering.errorGuard aborted x).Errorless := by
  induction x generalizing aborted with
  | done a => exact done _
  | stop i => exact done _
  | emit packet resume ih =>
      rw [through, Rendering.errorGuard]
      split
      · exact ih _ true
      · next herror =>
          intro p hp
          rcases List.mem_cons.mp hp with rfl | hp
          · simpa using herror
          · exact ih (.ok ()) aborted p hp

end Errorless

end Emitter

namespace Rendering

theorem errorless_runSequence (context : Context) (tag : Tag) (s : Sequence) :
    (runSequence context tag s).Errorless := by
  induction s with
  | done => exact .done ()
  | propose c next ih =>
      rw [runSequence_propose]
      split
      · refine (Emitter.Errorless.errorGuard _ false).bind fun outcome => ?_
        obtain ⟨aborted, value | interrupt⟩ := outcome
        · dsimp only
          split
          · exact .done ()
          · exact .stop _
        · exact ih _
      · exact .done ()

theorem renderEach_append (context : Context) (xs ys : List Node) :
    renderEach context (xs ++ ys) =
      (renderEach context xs).bind fun _ => renderEach context ys := by
  induction xs with
  | nil => rfl
  | cons node rest ih =>
      rw [List.cons_append, renderEach, renderEach, ih, Emitter.bind_eq, Emitter.bind_eq,
        Emitter.bind_assoc]

end Rendering

namespace Engine

variable {e : Engine} (he : e.registry.Extends .builtins)

include he

/-- A node reports no error, however few levels are left. -/
theorem errorless_dispatch_node (left : Nat) (node : Node) :
    (e.dispatchWithin left (.render (.ofNode node))).Errorless := by
  match left with
  | 0 => exact .settle _ _
  | 1 =>
      rw [dispatch_render he]
      exact .settle _ _
  | left + 2 =>
      cases node with
      | text value =>
          rw [Subject.ofNode, dispatch_renderText he]
          intro p hp
          have hp : p ∈ [Packet.html (some .inline) value] := hp
          rw [List.mem_singleton.mp hp]
          rfl
      | tag tag =>
          rw [Subject.ofNode]
          cases hfind : e.resolvers.find? tag.name with
          | none =>
              rw [dispatch_renderTag_of_find?_none he hfind]
              exact .done none
          | some resolver =>
              rw [dispatch_renderTag_of_find?_some he hfind]
              exact (Rendering.errorless_runSequence _ tag _).bind fun _ => .done none

/-- **The errors of tags stay inside them.** -/
theorem errorless_renderEach (left : Nat) (nodes : List Node) :
    (Rendering.renderEach (e.contextWithin left) nodes).Errorless := by
  induction nodes with
  | nil => exact .done ()
  | cons node rest ih => exact (errorless_dispatch_node he left node).bind fun _ => ih

/-! ### Documents by their parts -/

/-- Where no level is left for the nodes, no document is looked into. -/
theorem exists_dispatch_eq_settle (hdepth : e.maxDepth < 2) :
    ∃ fault, ∀ d, e.dispatchWithin e.maxDepth (.render (.document d)) = e.policy.settle fault := by
  match hmax : e.maxDepth, hdepth with
  | 0, _ => exact ⟨.depthExceeded "render" e.maxDepth, fun _ => rfl⟩
  | 1, _ =>
      refine ⟨.depthExceeded "renderDocument" e.maxDepth, fun d => ?_⟩
      rw [dispatch_render he]
      rfl

section

variable {left : Nat} (hdepth : e.maxDepth = left + 2) {nodes : List Node} {packets : List Packet}

include hdepth

/-- A document ends as its nodes do. -/
theorem render_of_ok
    (h : (Rendering.renderEach (e.contextWithin left) nodes).collect = (packets, .ok ())) :
    e.render ⟨nodes⟩ = .ok ⟨packets, none⟩ := by
  have hcollect : (e.dispatchWithin e.maxDepth (.render (.document ⟨nodes⟩))).collect =
      (packets, .ok none) := by
    rw [hdepth, dispatch_renderDocument he, Emitter.collect_bind_ok h]
    simp
  rw [render, dispatch, hcollect]

theorem render_of_fault {fault : Fault}
    (h : (Rendering.renderEach (e.contextWithin left) nodes).collect =
      (packets, .error (.fault fault))) :
    e.render ⟨nodes⟩ = .error fault := by
  have hcollect : (e.dispatchWithin e.maxDepth (.render (.document ⟨nodes⟩))).collect =
      (packets, .error (.fault fault)) := by
    rw [hdepth, dispatch_renderDocument he, Emitter.collect_bind_error h]
  rw [render, dispatch, hcollect]

end

section

variable (hothers : e.registry.All fun name i =>
  Registry.builtins.find? name = none → i.behaviour.Persists)

include hothers

theorem renderEach_persists (left : Nat) (nodes : List Node) :
    (Rendering.renderEach (e.contextWithin left) nodes).Persists :=
  @Rendering.renderEach_related _ _ (e.contextWithin left) Emitter.Persists.relation_isCongruence
    nodes fun _ _ => dispatchWithin_persists he hothers left _

/-- Where levels are left for the nodes, a document is rendered by its parts. -/
theorem render_append_of_levels {left : Nat} (hdepth : e.maxDepth = left + 2) (xs ys : List Node) :
    e.render ⟨xs ++ ys⟩ = do
      let front ← e.render ⟨xs⟩
      let back ← e.render ⟨ys⟩
      return ⟨front.packets ++ back.packets, none⟩ := by
  have happend := congrArg Emitter.collect
    (Rendering.renderEach_append (e.contextWithin left) xs ys)
  rcases (renderEach_persists he hothers left xs).collect_cases with
    ⟨front, ⟨⟩, hxs⟩ | ⟨front, fault, hxs⟩
  · rw [Emitter.collect_bind_ok hxs] at happend
    rcases (renderEach_persists he hothers left ys).collect_cases with
      ⟨back, ⟨⟩, hys⟩ | ⟨back, fault, hys⟩
    · rw [hys] at happend
      rw [render_of_ok he hdepth happend, render_of_ok he hdepth hxs, render_of_ok he hdepth hys]
      rfl
    · rw [hys] at happend
      rw [render_of_fault he hdepth happend, render_of_ok he hdepth hxs,
        render_of_fault he hdepth hys]
      rfl
  · rw [Emitter.collect_bind_error hxs] at happend
    rw [render_of_fault he hdepth happend, render_of_fault he hdepth hxs]
    rfl

/-- **A document is rendered by its parts.**  Whatever the resolvers, the policy and the limit are,
and whatever interpreters there are besides the built-in ones, as long as they do not halt of their
own accord: the packets of two runs of nodes follow one another, the first fault is the fault of the
whole, and no error is seen. -/
theorem render_append :
    (∀ xs ys : List Node, e.render ⟨xs ++ ys⟩ = do
      let front ← e.render ⟨xs⟩
      let back ← e.render ⟨ys⟩
      return ⟨front.packets ++ back.packets, none⟩) ∧
    ∀ (d : Document) (outcome : Dispatch), e.render d = .ok outcome →
      ∀ p ∈ outcome.packets, p.name ≠ "error" := by
  by_cases hdepth : e.maxDepth < 2
  · obtain ⟨fault, hsettle⟩ := exists_dispatch_eq_settle he hdepth
    cases hpolicy : e.policy with
    | lenient =>
        have hrender : ∀ d, e.render d = .ok ⟨[], none⟩ := by
          intro d
          rw [render, dispatch, hsettle, hpolicy]
          rfl
        refine ⟨fun xs ys => ?_, fun d outcome houtcome => ?_⟩
        · rw [hrender, hrender, hrender]
          rfl
        · cases (hrender d).symm.trans houtcome
          nofun
    | strict =>
        have hrender : ∀ d, e.render d = .error fault := by
          intro d
          rw [render, dispatch, hsettle, hpolicy]
          rfl
        refine ⟨fun xs ys => ?_, fun d outcome houtcome => ?_⟩
        · rw [hrender, hrender]
          rfl
        · cases (hrender d).symm.trans houtcome
  · obtain ⟨left, hleft⟩ : ∃ left, e.maxDepth = left + 2 := ⟨e.maxDepth - 2, by omega⟩
    refine ⟨render_append_of_levels he hothers hleft, fun d outcome houtcome p hp => ?_⟩
    rcases (renderEach_persists he hothers left d.body).collect_cases with
      ⟨packets, ⟨⟩, hbody⟩ | ⟨packets, fault, hbody⟩
    · cases (render_of_ok he hleft hbody).symm.trans houtcome
      have herror := errorless_renderEach he left d.body p (by rwa [hbody])
      simpa [Packet.isError, Packet.errorName] using herror
    · cases (render_of_fault he hleft hbody).symm.trans houtcome

end

end Engine

/-- Reports an error, and goes on however it is answered. -/
def Behaviour.stubborn : Behaviour := fun _ _ =>
  .emit (.error "late") fun _ => .emit (.html none "more") fun _ => .done (some .null)

/-- Dispatches its own command again, and then raises a fault. -/
def Behaviour.relapsing : Behaviour := fun context c =>
  (context.dispatch c).bind fun _ => .stop (.fault (.missingTarget c.name))

/-- An engine with a stubborn and a relapsing interpreter; the tag `s` asks for the first of them
twice, and the tag `r` for the second. -/
def Engine.troubled : Engine where
  registry := Registry.builtins
    |>.insert "stubborn" ⟨.isPublic, .stubborn⟩
    |>.insert "relapsing" ⟨.isPublic, .relapsing⟩
  resolvers := Table.empty
    |>.insert "s" { sequence := fun _ => .script [{ name := "stubborn" }, { name := "stubborn" }] }
    |>.insert "r" { sequence := fun _ => .script [{ name := "relapsing" }] }
  templates := fun _ _ => .error .unfillable
  policy := .strict

/-- Neither interpreter halts of its own accord, and so siblings do not disturb one another. -/
theorem Engine.render_append_troubled :
    Engine.troubled.registry.Extends .builtins ∧
      (Engine.troubled.registry.All fun name i =>
        Registry.builtins.find? name = none → i.behaviour.Persists) ∧
      (Engine.troubled.render ⟨[.tag { name := "s" }] ++ [.text "t", .tag { name := "r" }]⟩ = do
        let front ← Engine.troubled.render ⟨[.tag { name := "s" }]⟩
        let back ← Engine.troubled.render ⟨[.text "t", .tag { name := "r" }]⟩
        return ⟨front.packets ++ back.packets, none⟩) ∧
      ∀ (d : Document) (outcome : Dispatch), Engine.troubled.render d = .ok outcome →
        ∀ p ∈ outcome.packets, p.name ≠ "error" := by
  have hextends : Engine.troubled.registry.Extends .builtins :=
    ((Registry.Extends.refl _).insert _ (by simp [Registry.builtins])).insert _
      (by simp [Registry.builtins])
  have hstubborn : Behaviour.stubborn.Persists := fun _ _ _ =>
    .emit _ fun _ _ => .emit _ fun _ _ => .done trivial
  have hrelapsing : Behaviour.relapsing.Persists := fun _ c hdispatch =>
    (hdispatch c).bind fun _ => .fault _
  have hothers : Engine.troubled.registry.All fun name i =>
      Registry.builtins.find? name = none → i.behaviour.Persists :=
    (Registry.builtins_all_of_other.insert fun _ => hstubborn).insert fun _ => hrelapsing
  have happend := Engine.render_append hextends hothers
  exact ⟨hextends, hothers, happend.1 _ _, happend.2⟩

end TaggedText
