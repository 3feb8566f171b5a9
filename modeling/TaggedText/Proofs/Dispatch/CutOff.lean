import TaggedText.Proofs.Dispatch.Relating
import TaggedText.Target

/-!
# What faults cut off

Where a fault is raised, everything that waits for it ends with the fault.  So of two runs that
differ in the faults they raise alone, the one with more faults is the other, cut off.

## A relation of trees

`Emitter.CutOff x y` says that `x` is `y` but for branches that are doomed, which means that they
end in a fault however their packets are answered.  Results would not do: whether a fault comes may
depend on the answers to packets, and a sink may look at what comes before it.

That no use of what is dispatched swallows a fault is `CutOff.isCongruence`.  Its hard case is the
sink of a tag, which does swallow halts, but only those that follow an error of its own.
`Faultless` is the companion: a computation that ends in no fault, unless it is answered with one.
`Emitter.Guarantees` stands behind both `Doomed` and `Faultless`: how a computation ends, if its
packets are answered in a certain way.

## Other interpreters

All interpreters of the library respect both (`Behaviour.IsOwn.respects`).  Of others it has to be
asked, by `PassesFaultsOn`, `IgnoresPolicy` and `RaisesNoFault`.  A `Routine`, a computation that
sees what it dispatches by the values and packets alone, passes faults on and reads no policy,
whatever it does (`Routine.passesFaultsOn`, `Routine.ignoresPolicy`).
-/

namespace TaggedText

namespace Emitter

variable {α β σ : Type}

/-! ### Guarantees -/

/-- **If its packets are answered in a certain way**, the computation ends in a value, or stops, as
it should. -/
inductive Guarantees (answers : Answer → Prop) (value : α → Prop) (stops : Interrupt → Prop) :
    Emitter α → Prop
  | done {a : α} : value a → Guarantees answers value stops (.done a)
  | stop {i : Interrupt} : stops i → Guarantees answers value stops (.stop i)
  | emit (packet : Packet) {resume : Answer → Emitter α} :
      (∀ answer, answers answer → Guarantees answers value stops (resume answer)) →
      Guarantees answers value stops (.emit packet resume)

/-- **A sink that gives only answers of a kind** where it gets only such, and always gives one. -/
def Answers (answers : Answer → Prop) (sink : σ → Packet → Emitter (σ × Answer)) : Prop :=
  ∀ s p, (sink s p).Guarantees answers (fun outcome => answers outcome.2) fun _ => False

section

variable {answers : Answer → Prop} {value : α → Prop} {stops : Interrupt → Prop}

theorem Guarantees.bind {value' : β → Prop} {stops' : Interrupt → Prop} {x : Emitter α}
    {f : α → Emitter β} (hx : x.Guarantees answers value stops) (hstops : ∀ i, stops i → stops' i)
    (hf : ∀ a, value a → (f a).Guarantees answers value' stops') :
    (x.bind f).Guarantees answers value' stops' := by
  induction hx with
  | done ha => exact hf _ ha
  | stop hi => exact .stop (hstops _ hi)
  | emit packet _ ih => exact .emit packet ih

/-- An offer has the answer as its value. -/
theorem Guarantees.offer (packet : Packet) :
    (Emitter.offer packet).Guarantees answers answers fun _ => False :=
  .emit packet fun _ hanswer => .done hanswer

/-- A caller that takes every packet sees what is guaranteed. -/
theorem Guarantees.collect_cases {x : Emitter α} (hx : x.Guarantees answers value stops)
    (htaken : answers (.ok ())) :
    (∃ a, x.collect.2 = .ok a ∧ value a) ∨ ∃ i, x.collect.2 = .error i ∧ stops i := by
  induction hx with
  | @done a ha => exact .inl ⟨a, rfl, ha⟩
  | @stop i hi => exact .inr ⟨i, rfl, hi⟩
  | emit packet _ ih => exact ih (.ok ()) htaken

/-- A sink hands on how the computation in it ends. -/
theorem Guarantees.through {sink : σ → Packet → Emitter (σ × Answer)} {x : Emitter α}
    (hx : x.Guarantees answers value stops) (hsink : Answers answers sink) (s : σ) :
    (through sink s x).Guarantees answers
      (fun outcome => match outcome.2 with
        | .ok a => value a
        | .error i => stops i)
      fun _ => False := by
  induction hx generalizing s with
  | done ha => exact .done ha
  | stop hi => exact .done hi
  | emit packet _ ih =>
      exact (hsink s packet).bind (fun _ h => h) fun outcome hanswer =>
        ih outcome.2 hanswer outcome.1

theorem answers_errorGuard (hhalted : answers (.error .halted)) :
    Answers answers Rendering.errorGuard := by
  intro aborted packet
  unfold Rendering.errorGuard
  split
  · exact .done hhalted
  · exact (Guarantees.offer packet).bind (fun _ h => h) fun _ hanswer => .done hanswer

theorem answers_gather (htaken : answers (.ok ())) : Answers answers Target.gather := by
  intro content packet
  unfold Target.gather
  split
  · exact .done htaken
  · exact (Guarantees.offer packet).bind (fun _ h => h) fun _ hanswer => .done hanswer

end

/-! ### Cutting off -/

/-- **The computation ends in a fault**, however its packets are answered. -/
abbrev Doomed (x : Emitter α) : Prop :=
  x.Guarantees (fun _ => True) (fun _ => False) fun i => i ≠ .halted

theorem Doomed.bind {x : Emitter α} (hx : x.Doomed) (f : α → Emitter β) : (x.bind f).Doomed :=
  Guarantees.bind hx (fun _ h => h) fun _ h => h.elim

/-- **The one computation is the other, but for the branches that are cut off by a fault.** -/
inductive CutOff : Emitter α → Emitter α → Prop
  | doomed {x y : Emitter α} : x.Doomed → CutOff x y
  | done (a : α) : CutOff (.done a) (.done a)
  | stop (i : Interrupt) : CutOff (.stop i) (.stop i)
  | emit (packet : Packet) {resume resume' : Answer → Emitter α} :
      (∀ answer, CutOff (resume answer) (resume' answer)) →
      CutOff (.emit packet resume) (.emit packet resume')

namespace CutOff

theorem refl (x : Emitter α) : x.CutOff x := by
  induction x with
  | done a => exact .done a
  | stop i => exact .stop i
  | emit packet resume ih => exact .emit packet ih

theorem bind {x y : Emitter α} {f g : α → Emitter β} (h : x.CutOff y)
    (hf : ∀ a, (f a).CutOff (g a)) : (x.bind f).CutOff (y.bind g) := by
  induction h with
  | doomed hx => exact .doomed (hx.bind f)
  | done a => exact hf a
  | stop i => exact .stop i
  | emit packet _ ih => exact .emit packet ih

/-- A caller that takes every packet sees a fault, or no difference. -/
theorem collect_cases {x y : Emitter α} (h : x.CutOff y) :
    (∃ fault, x.collect.2 = .error (.fault fault)) ∨ x.collect = y.collect := by
  induction h with
  | doomed hx =>
      rcases hx.collect_cases trivial with ⟨-, -, hfalse⟩ | ⟨i, hresult, hi⟩
      · exact hfalse.elim
      · cases i with
        | halted => exact absurd rfl hi
        | fault fault => exact .inl ⟨fault, hresult⟩
  | done a => exact .inr rfl
  | stop i => exact .inr rfl
  | emit packet _ ih =>
      rcases ih (.ok ()) with ⟨fault, hresult⟩ | hcollect
      · exact .inl ⟨fault, hresult⟩
      · exact .inr (by rw [collect_emit, collect_emit, hcollect])

/-- **What is cut off is still cut off behind a sink**, if what comes after the sink does not
swallow faults. -/
theorem through {sink : σ → Packet → Emitter (σ × Answer)}
    {resume resume' : σ × Except Interrupt α → Emitter β} {x y : Emitter α}
    (hsink : Answers (fun _ => True) sink)
    (hfault : ∀ s i, i ≠ .halted → (resume (s, .error i)).Doomed)
    (hresume : ∀ outcome, (resume outcome).CutOff (resume' outcome)) (h : x.CutOff y) (s : σ) :
    ((Emitter.through sink s x).bind resume).CutOff ((Emitter.through sink s y).bind resume') := by
  induction h generalizing s with
  | doomed hx =>
      refine .doomed ((Guarantees.through hx hsink s).bind (fun _ h => h.elim) ?_)
      rintro ⟨s, i | a⟩ houtcome
      · exact hfault s i houtcome
      · exact False.elim houtcome
  | done a => exact hresume _
  | stop i => exact hresume _
  | emit packet _ ih =>
      rw [Emitter.through, Emitter.through, bind_assoc, bind_assoc]
      exact (refl _).bind fun outcome => ih outcome.2 outcome.1

/-- **No use of what is dispatched swallows a fault.** -/
theorem isCongruence : Emitter.Relation.IsCongruence fun _ x y => x.CutOff y where
  done := done
  bind := bind
  guarded hx hf := by
    refine through (answers_errorGuard trivial) ?_ ?_ hx false
    · intro aborted i hi
      have hne : (aborted && i == .halted) = false := by simp [hi]
      simp only [hne, Bool.false_eq_true, if_false]
      exact .stop hi
    · rintro ⟨aborted, i | value⟩
      · exact refl _
      · exact hf value
  gathered content _ _ _ _ hx hf := by
    refine through (answers_gather trivial) ?_ ?_ hx content
    · intro content i hi
      exact .stop hi
    · rintro ⟨content, i | value⟩
      · exact refl _
      · exact hf content
  kept {x y} hx := by
    rcases hx.collect_cases with ⟨fault, hresult⟩ | hcollect
    · refine .doomed ?_
      rw [Inquiry.kept, hresult]
      exact .stop (by simp)
    · rw [Inquiry.kept, Inquiry.kept, hcollect]
      exact refl _

end CutOff

/-! ### No faults -/

/-- The answer is no fault. -/
def Spares (answer : Answer) : Prop :=
  ∀ i, answer = .error i → i = .halted

/-- **The computation ends in no fault**, unless it is answered with one. -/
abbrev Faultless (x : Emitter α) : Prop :=
  x.Guarantees Spares (fun _ => True) fun i => i = .halted

namespace Faultless

theorem done (a : α) : (Emitter.done a).Faultless :=
  Guarantees.done trivial

theorem bind {x : Emitter α} {f : α → Emitter β} (hx : x.Faultless) (hf : ∀ a, (f a).Faultless) :
    (x.bind f).Faultless :=
  Guarantees.bind hx (fun _ h => h) fun a _ => hf a

theorem send (packet : Packet) : (Emitter.send packet).Faultless :=
  .emit packet fun
    | .ok (), _ => .done trivial
    | .error i, hspares => .stop (hspares i rfl)

/-- **No use of what is dispatched makes a fault up.** -/
theorem isCongruence : Emitter.Relation.IsCongruence fun _ x _ => x.Faultless where
  done := done
  bind := bind
  guarded hx hf := by
    refine (Guarantees.through hx (answers_errorGuard ?_) false).bind (fun _ h => h.elim) ?_
    · rintro i ⟨⟩
      rfl
    · rintro ⟨aborted, i | value⟩ houtcome
      · dsimp only
        split
        · exact done ()
        · exact .stop houtcome
      · exact hf value
  gathered content _ _ _ _ hx hf := by
    refine (Guarantees.through hx (answers_gather nofun) content).bind (fun _ h => h.elim) ?_
    rintro ⟨content, i | value⟩ houtcome
    · exact .stop houtcome
    · exact hf content
  kept {x _} hx := by
    unfold Inquiry.kept
    rcases hx.collect_cases nofun with ⟨a, hresult, -⟩ | ⟨i, hresult, hi⟩
    · rw [hresult]
      exact done _
    · rw [hresult]
      exact .stop hi

end Faultless

end Emitter

/-! ### The interpreters of the library -/

/-- **A behaviour of the library**, whatever its name. -/
def Behaviour.IsOwn (behaviour : Behaviour) : Prop :=
  ∃ name i, (Registry.html.find? name = some i ∨ Registry.text.find? name = some i) ∧
    i.behaviour = behaviour

section

variable {R : Emitter.Relation} (hR : R.IsCongruence)
  (hsend : ∀ p, R (Emitter.send p) (Emitter.send p))

include hR hsend

theorem Registry.html_respects :
    Registry.html.All fun key i => i.behaviour.Respects R (fun _ => True) key := by
  have hbuiltins : Registry.builtins.All fun key i => i.behaviour.Respects R (fun _ => True) key :=
    fun key i hfind => composing_respects hR Command.allowsRendering_true key i
      (composing_extends key i hfind)
  unfold html
  refine .insert (.insert (.insert hbuiltins ?_) ?_) ?_
  · exact .tree hR
  · exact fun _ _ _ _ _ => hR.bind (hsend _) fun _ => hR.done none
  · exact .undefinedTag hR

theorem Registry.text_respects :
    Registry.text.All fun key i => i.behaviour.Respects R (fun _ => True) key := by
  unfold text
  repeat' refine Table.All.insert ?_ ?_
  · exact Table.all_empty
  · exact .tree hR
  · exact fun _ _ _ _ _ => hR.bind (hsend _) fun _ => hR.done none
  · exact fun _ _ _ _ _ => hR.done none
  · exact .undefinedTag hR

/-- **All interpreters of the library respect every congruence** that holds of what is sent. -/
theorem Behaviour.IsOwn.respects {behaviour : Behaviour} (h : behaviour.IsOwn)
    {context context' : Context} (hcontext : Context.Related R (fun _ => True) context context')
    (command : Command) : R (behaviour context command) (behaviour context' command) := by
  obtain ⟨name, i, hfind | hfind, rfl⟩ := h
  · exact Registry.html_respects hR hsend name i hfind _ _ command hcontext fun _ =>
      command.holdsOnly_true
  · exact Registry.text_respects hR hsend name i hfind _ _ command hcontext fun _ =>
      command.holdsOnly_true

end

/-! ### Other interpreters -/

/-- **A behaviour that does not read the policy.** -/
def Behaviour.IgnoresPolicy (behaviour : Behaviour) : Prop :=
  ∀ (context : Context) (policy : Policy) (command : Command),
    behaviour { context with policy := policy } command = behaviour context command

/-- **A behaviour that passes the faults of its dispatches on**: where these are cut off by faults,
it is cut off by a fault, and up to there it does what it did. -/
def Behaviour.PassesFaultsOn (behaviour : Behaviour) : Prop :=
  ∀ (context : Context) (dispatch : Command → Emitter (Option Json)) (command : Command),
    (∀ c, (context.dispatch c).CutOff (dispatch c)) →
      (behaviour context command).CutOff (behaviour { context with dispatch := dispatch } command)

/-- **A behaviour that raises no fault itself**: under a lenient policy it ends in no fault, unless
it dispatches something that does. -/
def Behaviour.RaisesNoFault (behaviour : Behaviour) : Prop :=
  ∀ (context : Context) (command : Command), context.policy = .lenient →
    (∀ c, (context.dispatch c).Faultless) → (behaviour context command).Faultless

/-- Under a strict policy, what is settled is a fault. -/
theorem Emitter.Doomed.settle {α : Type} (fault : Fault) :
    (Policy.strict.settle fault : Emitter (Option α)).Doomed :=
  .stop nofun

/-- **A context under a strict policy** with dispatches that are cut off, and the same context under
any policy. -/
theorem Context.related_cutOff {context : Context} {dispatch : Command → Emitter (Option Json)}
    (hpolicy : context.policy = .strict) (policy : Policy)
    (hdispatch : ∀ c, (context.dispatch c).CutOff (dispatch c)) :
    Context.Related (fun _ x y => x.CutOff y) (fun _ => True) context
      { context with policy := policy, dispatch := dispatch } where
  isPublic := rfl
  resolvers := rfl
  templates := rfl
  target := rfl
  settle fault := by
    rw [hpolicy]
    exact .doomed (.settle fault)
  markup _ _ := .refl _
  failure _ _ _ _ := .refl _
  dispatch c _ := hdispatch c
  proposals _ _ _ _ _ _ _ _ := trivial

/-- **A lenient context** with dispatches that end in no fault. -/
theorem Context.related_faultless {context : Context} (hpolicy : context.policy = .lenient)
    (hdispatch : ∀ c, (context.dispatch c).Faultless) :
    Context.Related (fun _ x _ => x.Faultless) (fun _ => True) context context where
  isPublic := rfl
  resolvers := rfl
  templates := rfl
  target := rfl
  settle fault := by
    rw [hpolicy]
    exact .done none
  markup _ _ := .send _
  failure _ _ _ _ := .send _
  dispatch c _ := hdispatch c
  proposals _ _ _ _ _ _ _ _ := trivial

/-- The interpreters of the library pass on faults under a strict policy, whatever policy they are
compared with. -/
theorem Behaviour.IsOwn.cutOff {behaviour : Behaviour} (h : behaviour.IsOwn) {context : Context}
    {dispatch : Command → Emitter (Option Json)} (hpolicy : context.policy = .strict)
    (policy : Policy) (hdispatch : ∀ c, (context.dispatch c).CutOff (dispatch c))
    (command : Command) :
    (behaviour context command).CutOff
      (behaviour { context with policy := policy, dispatch := dispatch } command) :=
  h.respects Emitter.CutOff.isCongruence (fun _ => .refl _)
    (Context.related_cutOff hpolicy policy hdispatch) command

/-- The interpreters of the library raise no fault under a lenient policy. -/
theorem Behaviour.IsOwn.raisesNoFault {behaviour : Behaviour} (h : behaviour.IsOwn) :
    behaviour.RaisesNoFault := by
  intro context command hpolicy hdispatch
  exact h.respects Emitter.Faultless.isCongruence Emitter.Faultless.send
    (Context.related_faultless hpolicy hdispatch) command

/-- So do others that do not read the policy and pass faults on. -/
theorem Behaviour.PassesFaultsOn.cutOff {behaviour : Behaviour} (h : behaviour.PassesFaultsOn)
    (hignores : behaviour.IgnoresPolicy) {context : Context}
    {dispatch : Command → Emitter (Option Json)} (policy : Policy)
    (hdispatch : ∀ c, (context.dispatch c).CutOff (dispatch c)) (command : Command) :
    (behaviour context command).CutOff
      (behaviour { context with policy := policy, dispatch := dispatch } command) := by
  rw [hignores { context with dispatch := dispatch } policy command]
  exact h context dispatch command hdispatch

/-- Under a strict policy they may read it. -/
theorem Behaviour.PassesFaultsOn.cutOff_strict {behaviour : Behaviour} (h : behaviour.PassesFaultsOn)
    {context : Context} {dispatch : Command → Emitter (Option Json)}
    (hpolicy : context.policy = .strict) (hdispatch : ∀ c, (context.dispatch c).CutOff (dispatch c))
    (command : Command) :
    (behaviour context command).CutOff
      (behaviour { context with policy := .strict, dispatch := dispatch } command) := by
  rw [← hpolicy]
  exact h context dispatch command hdispatch

/-! ### Routines -/

/-- **A computation that sees what it dispatches by the values and packets alone.**  It offers
packets and looks at the answers; a dispatch has a sink of its own, and where it stops, the routine
stops with it. -/
inductive Routine (α : Type) : Type 1 where
  | done (value : α)
  | stop (interrupt : Interrupt)
  | emit (packet : Packet) (resume : Answer → Routine α)
  | dispatch {σ : Type} (command : Command) (sink : σ → Packet → Emitter (σ × Answer))
      (answers : Emitter.Answers (fun _ => True) sink) (s : σ)
      (resume : σ → Option Json → Routine α)

namespace Routine

variable {α : Type}

/-- The computation, with something that dispatches its commands. -/
def run (dispatch : Command → Emitter (Option Json)) : Routine α → Emitter α
  | .done value => .done value
  | .stop interrupt => .stop interrupt
  | .emit packet resume => .emit packet fun answer => (resume answer).run dispatch
  | .dispatch command sink _ s resume =>
    (Emitter.through sink s (dispatch command)).bind fun
      | (s, .ok value) => (resume s value).run dispatch
      | (_, .error interrupt) => .stop interrupt

/-- **Where dispatches are cut off, a routine is cut off.** -/
theorem run_cutOff {dispatch dispatch' : Command → Emitter (Option Json)}
    (h : ∀ c, (dispatch c).CutOff (dispatch' c)) (r : Routine α) :
    (r.run dispatch).CutOff (r.run dispatch') := by
  induction r with
  | done value => exact .done value
  | stop interrupt => exact .stop interrupt
  | emit packet resume ih => exact .emit packet ih
  | dispatch command sink answers s resume ih =>
      rw [run, run]
      refine .through answers ?_ ?_ (h command) s
      · intro s i hi
        exact .stop hi
      · rintro ⟨s, i | value⟩
        · exact .refl _
        · exact ih s value

/-- The behaviour of routines, which see neither the policy nor the dispatcher. -/
def behaviour (routine : Context → Command → Routine (Option Json)) : Behaviour :=
  fun context command =>
    (routine { context with policy := .lenient, dispatch := fun _ => .done none } command).run
      context.dispatch

theorem ignoresPolicy (routine : Context → Command → Routine (Option Json)) :
    (behaviour routine).IgnoresPolicy :=
  fun _ _ _ => rfl

/-- **Routines pass faults on.** -/
theorem passesFaultsOn (routine : Context → Command → Routine (Option Json)) :
    (behaviour routine).PassesFaultsOn :=
  fun _ _ _ hdispatch => run_cutOff hdispatch _

end Routine

end TaggedText
