import TaggedText.Proofs.Dispatch.CutOff
import TaggedText.Proofs.Dispatch.Halting

/-!
# What a refusal does to a computation

A computation *obeys* if it stops as soon as a packet of its is refused, with the reason that it is
given, and halts for no other reason.  This is more than persisting, which leaves open what happens
behind a refusal; here nothing may happen there.

Its caller may then let it run to the end and look at its packets afterwards: up to the first
refusal they are the packets that would have come anyway.  `Emitter.Obeys.guarded` says so for the
sink of a tag, with `Emitter.forward` for packets that are sent one after the other.

The interpreters of the library obey, and so do all dispatches if the interpreters do that are added
(`Behaviour.IsOwn.obeys`, `Engine.dispatchWithin_obeys`).
-/

namespace TaggedText

namespace Emitter

variable {α β : Type}

/-! ### Packets sent on -/

/-- Sends packets one after the other, and stops at the first that is refused. -/
def forward : List Packet → Emitter Unit
  | [] => .done ()
  | p :: rest => (send p).bind fun _ => forward rest

@[simp] theorem forward_nil : forward [] = .done () := rfl

theorem forward_cons (p : Packet) (rest : List Packet) :
    forward (p :: rest) = (send p).bind fun _ => forward rest := rfl

/-- What is left of a computation when a packet is refused does not matter where it stops anyway. -/
theorem emit_eq_send_bind {p : Packet} {resume : Answer → Emitter α}
    (hrefused : ∀ i, resume (.error i) = .stop i) :
    emit p resume = (send p).bind fun _ => resume (.ok ()) := by
  rw [send, emit_bind]
  refine congrArg (emit p) (funext fun answer => ?_)
  cases answer with
  | ok _ => rfl
  | error i => exact hrefused i

/-! ### Obeying -/

/-- **A computation that obeys**: where a packet is refused, it stops with the reason that it is
given, and it halts for no other reason. -/
inductive Obeys : Emitter α → Prop
  | done (a : α) : Obeys (.done a)
  | fault (fault : Fault) : Obeys (.stop (.fault fault))
  | emit (packet : Packet) {resume : Answer → Emitter α} :
      Obeys (resume (.ok ())) → (∀ i, resume (.error i) = .stop i) → Obeys (.emit packet resume)

namespace Obeys

theorem send (packet : Packet) : (Emitter.send packet).Obeys :=
  .emit packet (.done ()) fun _ => rfl

theorem settle (policy : Policy) (fault : Fault) :
    (policy.settle fault : Emitter (Option α)).Obeys :=
  match policy with
  | .lenient => .done none
  | .strict => .fault fault

theorem bind {x : Emitter α} {f : α → Emitter β} (hx : x.Obeys) (hf : ∀ a, (f a).Obeys) :
    (x.bind f).Obeys := by
  induction hx with
  | done a => exact hf a
  | fault fault => exact .fault fault
  | emit packet _ hrefused ih =>
      refine .emit packet ih fun i => ?_
      rw [hrefused]
      rfl

/-- A computation that obeys persists. -/
theorem persists {x : Emitter α} (hx : x.Obeys) : x.Persists := by
  induction hx with
  | done a => exact .done a
  | fault fault => exact .fault fault
  | emit packet _ hrefused ih =>
      refine .emit packet fun answer hanswer => ?_
      match answer with
      | .ok () => exact ih
      | .error (.fault reason) =>
          rw [hrefused]
          exact .fault reason
      | .error .halted => exact absurd rfl hanswer

theorem ofResult {x : Emitter α} (hx : x.Obeys) : (Emitter.ofResult x.collect.2).Obeys := by
  rcases hx.persists.collect_cases with ⟨packets, a, hcollect⟩ | ⟨packets, fault, hcollect⟩
  · rw [hcollect]
    exact .done a
  · rw [hcollect]
    exact .fault fault

/-! ### Uses of what is dispatched -/

/-- In the sink of its tag a computation that obeys is told to halt at its first error, and does. -/
theorem guarded {x : Emitter (Option Json)} (hx : x.Obeys) (resume : Option Json → Emitter Unit) :
    Rendering.guarded x resume =
      if x.collect.1.any Packet.isError then
        forward (x.collect.1.takeWhile fun p => !p.isError)
      else
        (forward x.collect.1).bind fun _ => (Emitter.ofResult x.collect.2).bind resume := by
  induction hx with
  | done a => rfl
  | fault fault => rfl
  | @emit packet next _ hrefused ih =>
      cases hp : packet.isError with
      | true =>
          have hhalts : next (.error .halted) = .stop .halted := hrefused .halted
          simp [Rendering.guarded, through, Rendering.errorGuard, hp, hhalts]
      | false =>
          -- Both sides send the packet first, and stop if it is refused.
          have hstep : Rendering.guarded (.emit packet next) resume =
              (Emitter.send packet).bind fun _ => Rendering.guarded (next (.ok ())) resume := by
            have hemit : Rendering.guarded (.emit packet next) resume =
                .emit packet fun answer => Rendering.guarded (next answer) resume := by
              simp [Rendering.guarded, through, Rendering.errorGuard, hp, offer]
            rw [hemit]
            refine emit_eq_send_bind fun i => ?_
            rw [hrefused]
            rfl
          rw [hstep, ih, collect_emit, List.any_cons, hp, Bool.false_or,
            List.takeWhile_cons_of_pos (by simp [hp])]
          split
          · rfl
          · rw [forward_cons, bind_assoc]

theorem forward (packets : List Packet) : (Emitter.forward packets).Obeys := by
  induction packets with
  | nil => exact .done ()
  | cons p rest ih => exact (send p).bind fun _ => ih

/-- In the sink of a tree a computation that obeys still does. -/
theorem gathered (content : String) {x : Emitter (Option Json)} {resume : String → Emitter String}
    (hx : x.Obeys) (hresume : ∀ content, (resume content).Obeys) :
    (Target.gathered content x resume).Obeys := by
  induction hx generalizing content with
  | done a => exact hresume content
  | fault fault => exact .fault fault
  | @emit packet next _ hrefused ih =>
      cases hp : packet.isHtml with
      | true =>
          have htaken : Target.gathered content (.emit packet next) resume =
              Target.gathered (content ++ packet.content) (next (.ok ())) resume := by
            simp [Target.gathered, through, Target.gather, hp]
          rw [htaken]
          exact ih _
      | false =>
          have hpassed : Target.gathered content (.emit packet next) resume =
              .emit packet fun answer => Target.gathered content (next answer) resume := by
            simp [Target.gathered, through, Target.gather, hp, offer]
          rw [hpassed]
          refine .emit packet (ih content) fun i => ?_
          rw [hrefused]
          rfl

/-- **No use of what is dispatched disobeys.** -/
theorem isCongruence : Emitter.Relation.IsCongruence fun _ x _ => x.Obeys where
  done := .done
  bind := bind
  guarded {x _ f _} hx hf := by
    rw [hx.guarded f]
    split
    · exact forward _
    · exact (forward _).bind fun _ => hx.ofResult.bind hf
  gathered content _ _ _ _ hx hf := gathered content hx hf
  kept hx := hx.ofResult.bind fun _ => .done _

end Obeys

end Emitter

/-! ### Dispatching -/

/-- **A behaviour that obeys** wherever everything does that it dispatches. -/
def Behaviour.Obeys (behaviour : Behaviour) : Prop :=
  ∀ (context : Context) (command : Command), (∀ c, (context.dispatch c).Obeys) →
    (behaviour context command).Obeys

/-- Contexts in which everything that is dispatched obeys. -/
theorem Context.related_obeys {context : Context} (h : ∀ c, (context.dispatch c).Obeys) :
    Context.Related (fun _ x _ => x.Obeys) (fun _ => True) context context where
  isPublic := rfl
  resolvers := rfl
  templates := rfl
  target := rfl
  settle fault := .settle context.policy fault
  markup _ _ := .send _
  failure _ _ _ _ := .send _
  dispatch c _ := h c
  proposals _ _ _ _ _ _ _ _ := trivial

/-- **All interpreters of the library obey.** -/
theorem Behaviour.IsOwn.obeys {behaviour : Behaviour} (h : behaviour.IsOwn) : behaviour.Obeys :=
  fun _ command hdispatch => h.respects Emitter.Obeys.isCongruence Emitter.Obeys.send
    (Context.related_obeys hdispatch) command

/-- **All dispatches obey**, if the interpreters do that are not of the library. -/
theorem Engine.dispatchWithin_obeys {e : Engine}
    (hothers : e.registry.All fun _ i => i.behaviour.IsOwn ∨ i.behaviour.Obeys) (levels : Nat)
    (c : Command) : (e.dispatchWithin levels c).Obeys := by
  refine dispatchWithin_induction (fun fault => .settle _ fault) ?step levels c
  case step =>
    intro left c i hfind ih
    rcases hothers c.name i hfind with hown | hobeys
    · exact hown.obeys _ c ih
    · exact hobeys _ c ih

end TaggedText
