import TaggedText.Proofs.Dispatch.Relating

/-!
# Who halts

A computation halts when somebody up the chain takes no more packets.  One that halts for no other
reason *persists*, and it matters because a halt of somebody's own accord would be taken for a
refusal further up.

`Emitter.Ends` asks about the branches on which no packet is answered by a halt: these end in a
fault, or in a value that has a property, and persisting is the case of no property.  What a
computation does once it has been told to halt is left open: it may stop, go on, or raise a fault.

The interesting sink is that of a tag, which tells what is in it to halt.  A computation that
persists halts there only after it has reported an error (`Persists.errorGuard`), so the tag takes
the halt for its own.  With that all interpreters of the library persist, and so does every dispatch
if the interpreters that are added to them do (`Engine.dispatchWithin_persists`).
-/

namespace TaggedText

namespace Emitter

variable {α β : Type} {q : α → Prop}

/-- **Where no packet is answered by a halt, the computation ends in a fault or in a value with the
property.** -/
inductive Ends (q : α → Prop) : Emitter α → Prop
  | done {a : α} : q a → Ends q (.done a)
  | fault (fault : Fault) : Ends q (.stop (.fault fault))
  | emit (packet : Packet) {resume : Answer → Emitter α} :
      (∀ answer, answer ≠ .error .halted → Ends q (resume answer)) → Ends q (.emit packet resume)

/-- **A computation that does not halt of its own accord.** -/
abbrev Persists (x : Emitter α) : Prop :=
  x.Ends fun _ => True

theorem Ends.bind {r : β → Prop} {x : Emitter α} {f : α → Emitter β} (hx : x.Ends q)
    (hf : ∀ a, q a → (f a).Ends r) : (x.bind f).Ends r := by
  induction hx with
  | done ha => exact hf _ ha
  | fault fault => exact .fault fault
  | emit packet _ ih => exact .emit packet ih

theorem Ends.mono {r : α → Prop} {x : Emitter α} (hx : x.Ends q) (h : ∀ a, q a → r a) :
    x.Ends r := by
  induction hx with
  | done ha => exact .done (h _ ha)
  | fault fault => exact .fault fault
  | emit packet _ ih => exact .emit packet ih

/-- An answer that is no halt is the value of an offer. -/
theorem ends_offer (packet : Packet) : (offer packet).Ends fun answer => answer ≠ .error .halted :=
  .emit packet fun _ hanswer => .done hanswer

namespace Persists

theorem done (a : α) : (Emitter.done a).Persists :=
  Ends.done trivial

theorem bind {x : Emitter α} {f : α → Emitter β} (hx : x.Persists) (hf : ∀ a, (f a).Persists) :
    (x.bind f).Persists :=
  Ends.bind hx fun a _ => hf a

theorem send (packet : Packet) : (Emitter.send packet).Persists :=
  .emit packet fun
    | .ok (), _ => .done trivial
    | .error (.fault fault), _ => .fault fault
    | .error .halted, hanswer => absurd rfl hanswer

theorem settle (policy : Policy) (fault : Fault) :
    (policy.settle fault : Emitter (Option α)).Persists :=
  match policy with
  | .lenient => .done none
  | .strict => .fault fault

/-- Under a caller that takes everything, the computation ends in a value or in a fault. -/
theorem collect_cases {x : Emitter α} (hx : x.Persists) :
    (∃ packets a, x.collect = (packets, .ok a)) ∨
      ∃ packets fault, x.collect = (packets, .error (.fault fault)) := by
  induction hx with
  | @done a _ => exact .inl ⟨[], a, rfl⟩
  | fault fault => exact .inr ⟨[], fault, rfl⟩
  | emit packet _ ih =>
      rcases ih (.ok ()) nofun with ⟨packets, a, hcollect⟩ | ⟨packets, fault, hcollect⟩
      · exact .inl ⟨packet :: packets, a, by rw [collect_emit, hcollect]⟩
      · exact .inr ⟨packet :: packets, fault, by rw [collect_emit, hcollect]⟩

theorem ofResult {x : Emitter α} (hx : x.Persists) : (Emitter.ofResult x.collect.2).Persists := by
  rcases hx.collect_cases with ⟨packets, a, hcollect⟩ | ⟨packets, fault, hcollect⟩
  · rw [hcollect]
    exact done a
  · rw [hcollect]
    exact .fault fault

/-- Once an error was reported, the sink of a tag remembers. -/
theorem through_errorGuard_true (x : Emitter α) :
    (through Rendering.errorGuard true x).Ends fun outcome => outcome.1 = true := by
  induction x with
  | done a => exact .done rfl
  | stop i => exact .done rfl
  | emit packet resume ih =>
      rw [through, Rendering.errorGuard]
      split
      · exact ih _
      · exact (ends_offer packet).bind fun answer _ => ih answer

/-- **In the sink of a tag, what halts has reported an error.** -/
theorem errorGuard {x : Emitter α} (hx : x.Persists) :
    (through Rendering.errorGuard false x).Ends
      fun outcome => outcome.2 = .error .halted → outcome.1 = true := by
  induction hx with
  | done _ => exact .done nofun
  | fault fault => exact .done nofun
  | emit packet _ ih =>
      rw [through, Rendering.errorGuard]
      split
      -- The computation is told to halt, and may do as it likes from now on.
      · exact (through_errorGuard_true _).mono fun _ haborted _ => haborted
      · exact (ends_offer packet).bind fun answer hanswer => ih answer hanswer

/-- In the sink of a tree nothing halts, as it refuses nothing itself. -/
theorem gather {x : Emitter α} (hx : x.Persists) (content : String) :
    (through Target.gather content x).Ends fun outcome => outcome.2 ≠ .error .halted := by
  induction hx generalizing content with
  | done _ => exact .done (by simp)
  | fault fault => exact .done (by simp)
  | emit packet _ ih =>
      rw [through, Target.gather]
      split
      · exact ih (.ok ()) (by simp) _
      · exact (ends_offer packet).bind fun answer hanswer => ih answer hanswer _

/-- Persisting, as a relation that looks at one side. -/
def relation : Emitter.Relation :=
  fun _ x _ => x.Persists

theorem relation_isCongruence : relation.IsCongruence where
  done := done
  bind := bind
  guarded hx hf := hx.errorGuard.bind fun
    | (_, .ok value), _ => hf value
    | (true, .error (.fault fault)), _ => .fault fault
    | (false, .error (.fault fault)), _ => .fault fault
    | (true, .error .halted), _ => .done trivial
    | (false, .error .halted), haborted => nomatch haborted rfl
  gathered content _ _ _ _ hx hf := (hx.gather content).bind fun
    | (content, .ok _), _ => hf content
    | (_, .error (.fault fault)), _ => .fault fault
    | (_, .error .halted), hne => absurd rfl hne
  kept hx := bind hx.ofResult fun _ => done _

end Persists

end Emitter

/-! ### Dispatching -/

/-- **A behaviour that does not halt of its own accord**: it persists wherever everything does that
it dispatches. -/
def Behaviour.Persists (behaviour : Behaviour) : Prop :=
  ∀ (context : Context) (command : Command), (∀ c, (context.dispatch c).Persists) →
    (behaviour context command).Persists

/-- Contexts in which everything that is dispatched persists. -/
theorem Context.related_persists {context : Context} (h : ∀ c, (context.dispatch c).Persists) :
    Context.Related Emitter.Persists.relation (fun _ => True) context context where
  isPublic := rfl
  resolvers := rfl
  templates := rfl
  target := rfl
  settle fault := .settle context.policy fault
  markup _ _ := .send _
  failure _ _ _ _ := .send _
  dispatch c _ := h c
  proposals _ _ _ _ _ _ _ _ := trivial

/-- **All interpreters of the library persist.** -/
theorem Registry.composing_persists : Registry.composing.All fun _ i => i.behaviour.Persists :=
  fun key i hfind _ command hdispatch =>
    composing_respects Emitter.Persists.relation_isCongruence Command.allowsRendering_true key i
      hfind _ _ command (Context.related_persists hdispatch) fun _ => command.holdsOnly_true

/-- Nothing has to be shown of built-in interpreters where the others alone are asked about. -/
theorem Registry.builtins_all_of_other {q : String → Interpreter → Prop} :
    Registry.builtins.All fun name i => Registry.builtins.find? name = none → q name i := by
  intro name i hfind hother
  cases hother.symm.trans hfind

namespace Engine

variable {e : Engine}

/-- **All dispatches persist**, if the interpreters do that are not built in. -/
theorem dispatchWithin_persists (he : e.registry.Extends .builtins)
    (hothers : e.registry.All fun name i =>
      Registry.builtins.find? name = none → i.behaviour.Persists)
    (levels : Nat) (c : Command) : (e.dispatchWithin levels c).Persists := by
  refine dispatchWithin_induction (fun fault => .settle _ fault) ?step levels c
  case step =>
    intro left c i hfind ih
    cases hbuiltin : Registry.builtins.find? c.name with
    | none => exact hothers c.name i hfind hbuiltin _ c ih
    | some i' =>
        obtain rfl : i' = i := Option.some.inj ((he c.name i' hbuiltin).symm.trans hfind)
        have hcomposing := Registry.composing_extends c.name i' hbuiltin
        exact Registry.composing_persists c.name i' hcomposing _ c ih

end Engine

end TaggedText
