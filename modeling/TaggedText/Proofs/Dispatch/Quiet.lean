import TaggedText.Proofs.Dispatch.Confined

/-!
# What is reached is felt

A private interpreter that does nothing but raise a fault is the sharpest probe for what a command
comes to.  Under a lenient policy, and with templates that never fail, no other interpreter of the
library raises anything or reports an error, so nothing keeps the fault from the caller.

Two properties carry this.  `Emitter.Quiet` says that a computation ends in no other fault and
reports no error on its way; all dispatches of a forgiving engine are quiet.  `Emitter.Fails` says
that it ends in the fault, and an error on the way would be all that could prevent it.  So along a
path by which a command reaches the private interpreter the fault comes up step by step
(`Engine.exists_dispatchWithin_fails`).
-/

namespace TaggedText

/-! ### Quiet computations -/

namespace Emitter

variable {α β : Type} {fault : Fault}

/-- When every packet is taken, the computation ends in the fault. -/
def Fails (fault : Fault) (x : Emitter α) : Prop :=
  x.collect.2 = .error (.fault fault)

/-- **When every packet is taken, none reports an error, and the computation ends in no other fault
than this one.** -/
structure Quiet (fault : Fault) (x : Emitter α) : Prop where
  packets : ∀ p ∈ x.collect.1, p.isError = false
  interrupt : ∀ i, x.collect.2 = .error i → i = .fault fault

theorem Fails.collect {x : Emitter α} (h : x.Fails fault) :
    x.collect = (x.collect.1, .error (.fault fault)) :=
  Prod.ext rfl h

theorem Fails.bind {x : Emitter α} (h : x.Fails fault) (f : α → Emitter β) :
    (x.bind f).Fails fault := by
  show (x.bind f).collect.2 = _
  rw [collect_bind_error h.collect]

namespace Quiet

theorem done (a : α) : (Emitter.done a).Quiet fault :=
  ⟨nofun, nofun⟩

theorem stop : (Emitter.stop (.fault fault) : Emitter α).Quiet fault :=
  ⟨nofun, by rintro i ⟨⟩; rfl⟩

theorem send {p : Packet} (h : p.isError = false) : (Emitter.send p).Quiet fault := by
  refine ⟨?_, nofun⟩
  intro q hq
  rw [collect_send, List.mem_singleton] at hq
  exact hq ▸ h

theorem bind {x : Emitter α} {f : α → Emitter β} (hx : x.Quiet fault)
    (hf : ∀ a, x.collect.2 = .ok a → (f a).Quiet fault) : (x.bind f).Quiet fault := by
  cases hresult : x.collect.2 with
  | error i =>
      have hcollect := collect_bind_error (f := f) (Prod.ext rfl hresult)
      refine ⟨?_, ?_⟩
      · rw [hcollect]
        exact hx.packets
      · rw [hcollect]
        rintro i' ⟨⟩
        exact hx.interrupt i hresult
  | ok a =>
      have hcollect := collect_bind_ok (f := f) (Prod.ext rfl hresult)
      refine ⟨?_, ?_⟩
      · rw [hcollect]
        intro p hp
        rcases List.mem_append.mp hp with hp | hp
        · exact hx.packets p hp
        · exact (hf a hresult).packets p hp
      · rw [hcollect]
        exact (hf a hresult).interrupt

/-- What comes after a quiet computation is felt: either it does not come to that, and then it ends
in the fault itself. -/
theorem bind_fails {x : Emitter α} {f : α → Emitter β} (hx : x.Quiet fault)
    (hf : ∀ a, x.collect.2 = .ok a → (f a).Fails fault) : (x.bind f).Fails fault := by
  cases hresult : x.collect.2 with
  | error i =>
      refine Fails.bind ?_ f
      rw [Fails, hresult, hx.interrupt i hresult]
  | ok a =>
      show (x.bind f).collect.2 = _
      rw [collect_bind_ok (Prod.ext rfl hresult)]
      exact hf a hresult

theorem settle (fault' : Fault) : (Policy.lenient.settle fault' : Emitter (Option α)).Quiet fault :=
  done none

/-- What a computation gave is as quiet as the computation. -/
theorem ofResult {x : Emitter α} (h : x.Quiet fault) :
    (Emitter.ofResult x.collect.2).Quiet fault := by
  cases hresult : x.collect.2 with
  | ok a => exact done a
  | error i =>
      refine ⟨nofun, ?_⟩
      rintro i' ⟨⟩
      exact h.interrupt i hresult

/-- The sink of a tag lets everything pass that is quiet. -/
theorem errorGuard {x : Emitter α} (h : x.Quiet fault) :
    (Emitter.through Rendering.errorGuard false x).Quiet fault := by
  have hcollect := collect_through_errorGuard (Prod.eta x.collect).symm h.packets false
  refine ⟨?_, ?_⟩
  · rw [hcollect]
    exact h.packets
  · rw [hcollect]
    nofun

/-- The sink of a tree does so too, but for the markup. -/
theorem gather {x : Emitter α} (h : x.Quiet fault) (content : String) :
    (Emitter.through Target.gather content x).Quiet fault := by
  have hcollect := collect_through_gather x content
  refine ⟨?_, ?_⟩
  · rw [hcollect]
    exact fun p hp => h.packets p (List.mem_filter.mp hp).1
  · rw [hcollect]
    nofun

end Quiet

end Emitter

/-! ### Quiet behaviours -/

/-- A context in which nothing but what is dispatched can fail. -/
structure Context.Forgiving (context : Context) : Prop where
  policy : context.policy = .lenient
  templates : ∀ template data, ∃ rendered, context.templates template data = .ok rendered

/-- **A behaviour that is quiet whenever everything that it dispatches is.** -/
def Behaviour.Quiet (fault : Fault) (behaviour : Behaviour) : Prop :=
  ∀ (context : Context) (command : Command), context.Forgiving →
    (∀ c, (context.dispatch c).Quiet fault) → (behaviour context command).Quiet fault

/-- Being quiet, as a relation that looks at one side. -/
def Emitter.Quiet.relation (fault : Fault) : Emitter.Relation :=
  fun _ x _ => x.Quiet fault

theorem Emitter.Quiet.relation_isCongruence (fault : Fault) :
    (Emitter.Quiet.relation fault).IsCongruence where
  done a := .done a
  bind hx hf := hx.bind fun a _ => hf a
  guarded {x _ _ _} hx hf := hx.errorGuard.bind fun outcome houtcome => by
    rw [collect_through_errorGuard (Prod.eta x.collect).symm hx.packets] at houtcome
    cases houtcome
    cases hresult : x.collect.2 with
    | ok value => exact hf value
    | error i => exact hx.interrupt i hresult ▸ .stop
  gathered content {x _ _ _} hx hf := (hx.gather content).bind fun outcome houtcome => by
    rw [collect_through_gather] at houtcome
    cases houtcome
    cases hresult : x.collect.2 with
    | ok value => exact hf _
    | error i => exact hx.interrupt i hresult ▸ .stop
  kept hx := hx.ofResult.bind fun _ _ => .done _

/-- Contexts in which nothing but what is dispatched can fail, and that is quiet. -/
theorem Context.Forgiving.related {fault : Fault} {context : Context} (h : context.Forgiving)
    (hdispatch : ∀ c, (context.dispatch c).Quiet fault) :
    Context.Related (Emitter.Quiet.relation fault) (fun _ => True) context context where
  isPublic := rfl
  resolvers := rfl
  templates := rfl
  target := rfl
  settle fault' := by
    rw [h.policy]
    exact .settle fault'
  markup _ _ := .send rfl
  failure template data _ hfails := by
    -- A template that does not fail reports no error.
    obtain ⟨rendered, hrendered⟩ := h.templates template data
    cases hrendered.symm.trans hfails
  dispatch c _ := hdispatch c
  proposals _ _ _ _ _ _ _ _ := trivial

/-- **All interpreters of the library are quiet.** -/
theorem Registry.composing_quiet (fault : Fault) :
    Registry.composing.All fun _ i => i.behaviour.Quiet fault :=
  fun key i hfind _ command hcontext hdispatch =>
    composing_respects (Emitter.Quiet.relation_isCongruence fault) Command.allowsRendering_true key
      i hfind _ _ command (hcontext.related hdispatch) fun _ => command.holdsOnly_true

/-! ### Dispatching -/

/-- A public proposal that ends in the fault takes its tag with it. -/
theorem Rendering.runSequence_fails {fault : Fault} {context : Context} {tag : Tag} {c : Command}
    (hpublic : context.isPublic c.name = true)
    (hquiet : (context.dispatch { c with subject := some (.tag tag) }).Quiet fault)
    (hfails : (context.dispatch { c with subject := some (.tag tag) }).Fails fault)
    (next : Option Json → Sequence) :
    (Rendering.runSequence context tag (.propose c next)).Fails fault := by
  rw [Rendering.runSequence, if_pos hpublic]
  refine hquiet.errorGuard.bind_fails fun outcome houtcome => ?_
  rw [Emitter.collect_through_errorGuard hfails.collect hquiet.packets] at houtcome
  cases houtcome
  rfl

namespace Target

variable {fault : Fault} {context : Context}
  (hcontext : Context.Related (Emitter.Quiet.relation fault) (fun _ => True) context context)

include hcontext

/-- A command that ends in the fault takes its block with it, whatever stands around it. -/
theorem renderBlock_fails (content : String) {commands : List Command} {c : Command}
    (hmem : c ∈ commands) (hfails : (context.dispatch c).Fails fault) :
    (renderBlock context content commands).Fails fault := by
  induction commands generalizing content with
  | nil => cases hmem
  | cons first rest ih =>
      have hfirst : (context.dispatch first).Quiet fault := hcontext.dispatch first trivial
      refine (hfirst.gather content).bind_fails fun outcome houtcome => ?_
      rw [Emitter.collect_through_gather] at houtcome
      cases houtcome
      cases hresult : (context.dispatch first).collect.2 with
      -- A command in front may stop the block too, but for no other fault.
      | error i => exact hfirst.interrupt i hresult ▸ rfl
      | ok value =>
          rcases List.mem_cons.mp hmem with rfl | hmem
          · cases hfails.symm.trans hresult
          · exact ih _ hmem

/-- A block that ends in the fault takes all blocks with it. -/
theorem renderBlocks_fails {blocks : List (List Command)} {block : List Command} {c : Command}
    (hblock : block ∈ blocks) (hmem : c ∈ block) (hfails : (context.dispatch c).Fails fault) :
    (renderBlocks context blocks).Fails fault := by
  induction blocks with
  | nil => cases hblock
  | cons first rest ih =>
      rcases List.mem_cons.mp hblock with rfl | hblock
      · exact (renderBlock_fails hcontext "" hmem hfails).bind _
      · have hfirst : (renderBlock context "" first).Quiet fault :=
          renderBlock_related (Emitter.Quiet.relation_isCongruence fault)
            (fun c _ => hcontext.dispatch c trivial) ""
        exact hfirst.bind_fails fun content _ => (ih hblock).bind _

end Target

namespace Engine

section

variable {e : Engine} {fault : Fault} (he : ∀ left, (e.contextWithin left).Forgiving)
  (hregistry : e.registry.All fun _ i => i.behaviour.Quiet fault)

include he hregistry

/-- **All dispatches are quiet**, if all behaviours are. -/
theorem dispatchWithin_quiet (levels : Nat) (c : Command) :
    (e.dispatchWithin levels c).Quiet fault := by
  refine dispatchWithin_induction ?settle ?step levels c
  case settle =>
    intro fault'
    rw [show e.policy = .lenient from (he 0).policy]
    exact .settle fault'
  case step =>
    intro left c i hfind ih
    exact hregistry c.name i hfind _ c (he left) ih

end

/-- **An engine that feels a private interpreter**: it forgives everything else, and the private
interpreter does nothing but raise the fault. -/
structure Probes (e : Engine) (name : String) (fault : Fault) : Prop where
  forgiving : ∀ left, (e.contextWithin left).Forgiving
  quiet : e.registry.All fun _ i => i.behaviour.Quiet fault
  tree : e.registry.find? "tree" = some ⟨.isPublic, Target.tree⟩
  raises : ∃ visibility, e.registry.find? name = some ⟨visibility, fun _ _ => .stop (.fault fault)⟩

/-- **A command that reaches the private interpreter ends in its fault**, when there are levels
enough; how many does not depend on the engine, nor on the subject and the data of the command. -/
theorem exists_dispatchWithin_fails {name : String} {c : Command} (hreaches : c.Reaches name) :
    ∃ levels, ∀ (e : Engine) (fault : Fault), e.Probes name fault → ∀ c' : Command,
      c'.name = c.name → c'.current = c.current → c'.children = c.children →
        (e.dispatchWithin levels c').Fails fault := by
  induction hreaches with
  | @here c h =>
      refine ⟨1, fun e fault he c' hname' _ _ => ?_⟩
      obtain ⟨visibility, hname⟩ := he.raises
      rw [dispatchWithin_succ ((congrArg _ (hname'.trans h)).trans hname)]
      rfl
  | @child c child block hc hdefined hblock hchild _ ih =>
      obtain ⟨levels, hlevels⟩ := ih
      refine ⟨levels + 1, fun e fault he c' hname' hcurrent' hchildren' => ?_⟩
      rw [dispatchWithin_succ ((congrArg _ (hname'.trans hc)).trans he.tree)]
      have hcontext := (he.forgiving levels).related
        (dispatchWithin_quiet he.forgiving he.quiet levels)
      have hfails : ((e.contextWithin levels).dispatch child).Fails fault :=
        hlevels e fault he child rfl rfl rfl
      have hblocks := Target.renderBlocks_fails hcontext hblock hchild hfails
      show (Target.tree _ _).Fails fault
      rw [← hchildren'] at hblocks
      unfold Target.tree
      -- The children are rendered whether there is a current command or not.
      split
      · exact hblocks.bind _
      · next current hsome =>
          rw [if_neg (by simp [hdefined current (hcurrent' ▸ hsome)])]
          exact hblocks.bind _
  | @current c current hc hsome hdefined _ ih =>
      obtain ⟨levels, hlevels⟩ := ih
      refine ⟨levels + 1, fun e fault he c' hname' hcurrent' hchildren' => ?_⟩
      rw [dispatchWithin_succ ((congrArg _ (hname'.trans hc)).trans he.tree)]
      show (Target.tree _ _).Fails fault
      simp only [Target.tree, hcurrent', hsome, hdefined, Bool.false_eq_true, if_false]
      have hcontext := (he.forgiving levels).related
        (dispatchWithin_quiet he.forgiving he.quiet levels)
      -- The levels serve for whatever data the blocks give to the current command.
      have hblocks : (Target.renderBlocks (e.contextWithin levels) c'.children).Quiet fault :=
        Target.renderBlocks_related (Emitter.Quiet.relation_isCongruence fault)
          fun _ _ c _ => hcontext.dispatch c trivial
      exact hblocks.bind_fails fun blocks _ => hlevels e fault he _ rfl rfl rfl

end Engine

end TaggedText
