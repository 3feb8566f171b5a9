import TaggedText.Proofs.Dispatch.Obedience

/-!
# What comes after an error

A tag tells a proposal that reports an error to halt.  Whether the tag is done with that is up to
the proposal: one that goes on is heard again, and one that returns a value all the same lets the
sequence go on.  This file says exactly which proposals a tag is done with.

## Records

What is to be said is about the moment at which an error reaches the sink of a tag, and of this
nothing is left in the packets, since the error is refused.  So `recordedSequence` runs a sequence
with a record of what happens at the sink; `recordedSequence_forget` shows that the record changes
nothing.  `ErrorsLast` is said of one record, that nothing but errors comes after an error in it.
The caller of the tag may answer as it likes, and therefore `EndsAtErrors` asks this of all branches
of the computation and not only of the one on which every packet is taken.

## The exact condition

`Emitter.HeedsErrors` is said of one computation: once it has reported an error and was told to
halt, it sends nothing but errors and ends without a value.  `Engine.endsAtErrors_iff` shows that
errors end a tag, for all sequences, exactly if all public commands heed them.  Where they do not
there is a sequence to show it, the same proposal twice; `Engine.defiant_render` is such a case.
Interpreters that obey do heed errors (`Engine.endsAtErrors_of_obeys`).
-/

namespace TaggedText

/-! ### Heeding errors -/

namespace Emitter

variable {α : Type}

/-- **A computation that ceases**: told to halt, it sends nothing but errors, and ends without a
value. -/
inductive Ceases : Emitter α → Prop
  | stop (interrupt : Interrupt) : Ceases (.stop interrupt)
  | emit {packet : Packet} {resume : Answer → Emitter α} :
      packet.isError = true → Ceases (resume (.error .halted)) → Ceases (.emit packet resume)

/-- **A computation that heeds its errors**: it ceases when it is told to halt at the first of them,
however its packets before that are answered. -/
inductive HeedsErrors : Emitter α → Prop
  | done (value : α) : HeedsErrors (.done value)
  | stop (interrupt : Interrupt) : HeedsErrors (.stop interrupt)
  | error {packet : Packet} {resume : Answer → Emitter α} :
      packet.isError = true → Ceases (resume (.error .halted)) → HeedsErrors (.emit packet resume)
  | emit {packet : Packet} {resume : Answer → Emitter α} :
      packet.isError = false → (∀ answer, HeedsErrors (resume answer)) →
        HeedsErrors (.emit packet resume)

/-- What stops at every refusal heeds its errors. -/
theorem Obeys.heedsErrors {x : Emitter α} (hx : x.Obeys) : x.HeedsErrors := by
  induction hx with
  | done a => exact .done a
  | fault fault => exact .stop _
  | emit packet _ hrefused ih =>
      cases hp : packet.isError with
      | true =>
          refine .error hp ?_
          rw [hrefused]
          exact .stop _
      | false =>
          refine .emit hp fun answer => ?_
          match answer with
          | .ok () => exact ih
          | .error i =>
              rw [hrefused]
              exact .stop i

/-- A sink that does what another does, and keeps a state of its own besides, makes no difference to
what comes after it. -/
theorem through_bind_congr {σ τ β : Type} {sink : σ → Packet → Emitter (σ × Answer)}
    {sink' : τ → Packet → Emitter (τ × Answer)} (forget : σ → τ)
    {f : σ × Except Interrupt α → Emitter β} {g : τ × Except Interrupt α → Emitter β}
    (hsink : ∀ s p, (sink s p).bind (fun o => .done (forget o.1, o.2)) = sink' (forget s) p)
    (hf : ∀ o, f o = g (forget o.1, o.2)) (x : Emitter α) (s : σ) :
    (through sink s x).bind f = (through sink' (forget s) x).bind g := by
  induction x generalizing s with
  | done a => exact hf _
  | stop i => exact hf _
  | emit packet resume ih =>
      rw [through, through, ← hsink, bind_assoc, bind_assoc, bind_assoc]
      exact congrArg _ (funext fun o => ih o.2 o.1)

end Emitter

namespace Rendering

/-! ### Records -/

/-- **What happens while a sequence is run**: it is asked for its next proposal, or a packet comes to
the sink of the tag and is passed on or, if it reports an error, refused. -/
inductive Event where
  | stepped
  | forwarded (packet : Packet)
  | refused (packet : Packet)
  deriving DecidableEq, Repr, Inhabited

/-- An error was refused. -/
def Event.isRefused : Event → Bool
  | .refused _ => true
  | _ => false

/-- The sink of a tag, with a record of what comes to it. -/
def recordingGuard (state : Bool × List Event) (packet : Packet) :
    Emitter ((Bool × List Event) × Answer) :=
  if packet.isError then .done ((true, state.2 ++ [.refused packet]), .error .halted)
  else (Emitter.offer packet).bind fun answer =>
    .done ((state.1, state.2 ++ [.forwarded packet]), answer)

/-- A proposal in the sink of its tag, with a record; `resume` goes on with its value. -/
def recorded (state : Bool × List Event) (x : Emitter (Option Json))
    (resume : List Event → Option Json → Emitter (List Event × Except Interrupt Unit)) :
    Emitter (List Event × Except Interrupt Unit) :=
  (Emitter.through recordingGuard state x).bind fun
    | ((_, events), .ok value) => resume events value
    | ((aborted, events), .error interrupt) =>
      .done (events, if aborted && interrupt == .halted then .ok () else .error interrupt)

/-- **The run of a sequence with a record.** -/
def recordedSequence (context : Context) (tag : Tag) (events : List Event) :
    Sequence → Emitter (List Event × Except Interrupt Unit)
  | .done => .done (events ++ [.stepped], .ok ())
  | .propose command next =>
    if context.isPublic command.name then
      recorded (false, events ++ [.stepped])
        (context.dispatch { command with subject := some (.tag tag) })
        fun events value => recordedSequence context tag events (next value)
    else .done (events ++ [.stepped], .ok ())

/-- **The record changes nothing**: without it, the run is the run of the sequence. -/
theorem recordedSequence_forget (context : Context) (tag : Tag) (events : List Event)
    (s : Sequence) :
    (recordedSequence context tag events s).bind (fun o => Emitter.ofResult o.2) =
      runSequence context tag s := by
  induction s generalizing events with
  | done => rfl
  | propose c next ih =>
      rw [recordedSequence, runSequence_propose]
      split
      · rw [recorded, guarded, Emitter.bind_assoc]
        refine Emitter.through_bind_congr Prod.fst ?_ ?_ _ _
        · intro state packet
          unfold recordingGuard errorGuard
          split
          · rfl
          · rw [Emitter.bind_assoc]
            rfl
        · rintro ⟨⟨aborted, events⟩, i | value⟩
          · dsimp only
            split <;> rfl
          · exact ih value events
      · rfl

/-! ### Records that end with their errors -/

/-- **After an error was refused, nothing happens but that errors are refused.** -/
def ErrorsLast (events : List Event) : Prop :=
  events.Pairwise fun before after => before.isRefused = true → after.isRefused = true

/-- Whatever the caller answers, the record ends with its errors. -/
abbrev EndsErrorsLast (x : Emitter (List Event × Except Interrupt Unit)) : Prop :=
  x.Guarantees (fun _ => True) (fun o => ErrorsLast o.1) fun _ => False

/-- **Errors end the tag**: whatever its caller answers, after an error of its proposals nothing is
passed on, and the sequence is not asked again. -/
def EndsAtErrors (context : Context) (tag : Tag) (s : Sequence) : Prop :=
  EndsErrorsLast (recordedSequence context tag [] s)

section

variable {events more : List Event}

theorem ErrorsLast.of_append (h : ErrorsLast (events ++ more)) : ErrorsLast events :=
  (List.pairwise_append.mp h).1

theorem ErrorsLast.refused (h : ErrorsLast events) (packet : Packet) :
    ErrorsLast (events ++ [.refused packet]) := by
  refine List.pairwise_append.mpr ⟨h, List.pairwise_singleton _ _, ?_⟩
  intro before _ after hafter _
  rw [List.mem_singleton.mp hafter]
  rfl

/-- A record without errors. -/
def IsCalm (events : List Event) : Prop :=
  ∀ event ∈ events, event.isRefused = false

theorem IsCalm.errorsLast (h : IsCalm events) : ErrorsLast events := by
  refine List.pairwise_of_forall_mem_list fun before hbefore after _ hrefused => ?_
  rw [h before hbefore] at hrefused
  cases hrefused

theorem IsCalm.concat (h : IsCalm events) {event : Event} (hevent : event.isRefused = false) :
    IsCalm (events ++ [event]) := by
  intro other hother
  rcases List.mem_append.mp hother with hother | hother
  · exact h other hother
  · rwa [List.mem_singleton.mp hother]

/-- An event that is no error does not come after one. -/
theorem ErrorsLast.not_concat {packet : Packet} (hmem : .refused packet ∈ events) {event : Event}
    (hevent : event.isRefused = false) : ¬ ErrorsLast (events ++ [event]) := by
  intro h
  have hrefused := (List.pairwise_append.mp h).2.2 _ hmem event List.mem_cons_self rfl
  rw [hevent] at hrefused
  cases hrefused

end

/-! ### One proposal -/

section

variable {packet : Packet} {next : Answer → Emitter (Option Json)} (state : Bool × List Event)
  (resume : List Event → Option Json → Emitter (List Event × Except Interrupt Unit))

theorem recorded_error (hp : packet.isError = true) :
    recorded state (.emit packet next) resume =
      recorded (true, state.2 ++ [.refused packet]) (next (.error .halted)) resume := by
  rw [recorded, Emitter.through, recordingGuard, if_pos hp]
  rfl

theorem recorded_emit (hp : packet.isError = false) :
    recorded state (.emit packet next) resume =
      .emit packet fun answer =>
        recorded (state.1, state.2 ++ [.forwarded packet]) (next answer) resume := by
  rw [recorded, Emitter.through, recordingGuard, if_neg (by simp [hp])]
  rfl

end

section

variable {x : Emitter (Option Json)} {events : List Event}
  {resume : List Event → Option Json → Emitter (List Event × Except Interrupt Unit)}

theorem recorded_of_ceases (hx : x.Ceases) (hevents : ErrorsLast events) :
    EndsErrorsLast (recorded (true, events) x resume) := by
  induction hx generalizing events with
  | stop i => exact .done hevents
  | @emit packet next hp _ ih =>
      rw [recorded_error _ _ hp]
      exact ih (hevents.refused packet)

/-- A proposal that heeds its errors goes on without any, or not at all. -/
theorem recorded_of_heedsErrors (hx : x.HeedsErrors) (hevents : IsCalm events)
    (hresume : ∀ events value, IsCalm events → EndsErrorsLast (resume events value)) :
    EndsErrorsLast (recorded (false, events) x resume) := by
  induction hx generalizing events with
  | done value => exact hresume events value hevents
  | stop i => exact .done hevents.errorsLast
  | @error packet next hp hceases =>
      rw [recorded_error _ _ hp]
      exact recorded_of_ceases hceases (hevents.errorsLast.refused packet)
  | @emit packet next hp _ ih =>
      rw [recorded_emit _ _ hp]
      exact .emit packet fun answer _ => ih answer (hevents.concat rfl)

end

/-- **Where all public proposals heed their errors, errors end the tag.** -/
theorem recordedSequence_endsErrorsLast {context : Context} {tag : Tag}
    (hheeds : ∀ c : Command, context.isPublic c.name = true →
      (context.dispatch { c with subject := some (.tag tag) }).HeedsErrors)
    (s : Sequence) {events : List Event} (hevents : IsCalm events) :
    EndsErrorsLast (recordedSequence context tag events s) := by
  have hstepped : IsCalm (events ++ [.stepped]) := hevents.concat rfl
  induction s generalizing events with
  | done => exact .done hstepped.errorsLast
  | propose c next ih =>
      rw [recordedSequence]
      split
      · next hpublic =>
          exact recorded_of_heedsErrors (hheeds c hpublic) hstepped fun events value hevents =>
            ih value hevents (hevents.concat rfl)
      · exact .done hstepped.errorsLast

/-! ### The last proposal of a sequence

Behind it the sequence is asked once more, and has nothing to propose. -/

/-- A proposal behind which the sequence ends. -/
def recordedLast (state : Bool × List Event) (x : Emitter (Option Json)) :
    Emitter (List Event × Except Interrupt Unit) :=
  recorded state x fun events _ => .done (events ++ [.stepped], .ok ())

section

variable {x : Emitter (Option Json)} {state : Bool × List Event}

/-- What is recorded stays in front of what is recorded later. -/
theorem errorsLast_of_recordedLast (h : EndsErrorsLast (recordedLast state x)) :
    ErrorsLast state.2 := by
  induction x generalizing state with
  | done value =>
      cases h with
      | done hlast => exact hlast.of_append
  | stop i =>
      cases h with
      | done hlast => exact hlast
  | emit packet next ih =>
      cases hp : packet.isError with
      | true =>
          rw [recordedLast, recorded_error _ _ hp] at h
          exact (ih _ h).of_append
      | false =>
          rw [recordedLast, recorded_emit _ _ hp] at h
          cases h with
          | emit _ h => exact (ih (.ok ()) (h _ trivial)).of_append

/-- What comes after an error can only cease. -/
theorem ceases_of_recordedLast {packet : Packet} (hmem : .refused packet ∈ state.2)
    (h : EndsErrorsLast (recordedLast state x)) : x.Ceases := by
  induction x generalizing state with
  | done value =>
      cases h with
      | done hlast => exact absurd hlast (ErrorsLast.not_concat hmem rfl)
  | stop i => exact .stop i
  | emit later next ih =>
      cases hp : later.isError with
      | true =>
          rw [recordedLast, recorded_error _ _ hp] at h
          exact .emit hp (ih _ (List.mem_append_left _ hmem) h)
      | false =>
          rw [recordedLast, recorded_emit _ _ hp] at h
          cases h with
          | emit _ h =>
              have hlast := errorsLast_of_recordedLast (h (.ok ()) trivial)
              exact absurd hlast (ErrorsLast.not_concat hmem rfl)

theorem heedsErrors_of_recordedLast (h : EndsErrorsLast (recordedLast state x)) :
    x.HeedsErrors := by
  induction x generalizing state with
  | done value => exact .done value
  | stop i => exact .stop i
  | emit packet next ih =>
      cases hp : packet.isError with
      | true =>
          rw [recordedLast, recorded_error _ _ hp] at h
          exact .error hp (ceases_of_recordedLast (List.mem_append_right _ List.mem_cons_self) h)
      | false =>
          rw [recordedLast, recorded_emit _ _ hp] at h
          cases h with
          | emit _ h => exact .emit hp fun answer => ih answer (h answer trivial)

end

end Rendering

/-! ### Engines -/

namespace Engine

/-- **Errors end a tag exactly if all public commands heed them.**  On any engine, with any number of
levels left: whatever its resolver proposes and its caller answers, after an error nothing of the tag
is passed on and its sequence is not asked again, if and only if every public command that could be
proposed, once its first error is refused, sends nothing but errors and ends without a value. -/
theorem endsAtErrors_iff (e : Engine) (left : Nat) (tag : Tag) :
    (∀ s, Rendering.EndsAtErrors (e.contextWithin left) tag s) ↔
      ∀ c : Command, e.registry.isPublic c.name = true →
        (e.dispatchWithin left { c with subject := some (.tag tag) }).HeedsErrors := by
  constructor
  · intro hends c hpublic
    have hcontext : (e.contextWithin left).isPublic c.name = true := hpublic
    have hlast := hends (.propose c fun _ => .done)
    rw [Rendering.EndsAtErrors, Rendering.recordedSequence, if_pos hcontext] at hlast
    exact Rendering.heedsErrors_of_recordedLast hlast
  · intro hheeds s
    exact Rendering.recordedSequence_endsErrorsLast hheeds s nofun

/-- **Where interpreters obey, errors end their tags.** -/
theorem endsAtErrors_of_obeys {e : Engine}
    (hothers : e.registry.All fun _ i => i.behaviour.IsOwn ∨ i.behaviour.Obeys) (left : Nat)
    (tag : Tag) (s : Sequence) : Rendering.EndsAtErrors (e.contextWithin left) tag s :=
  Rendering.recordedSequence_endsErrorsLast
    (fun _ _ => (dispatchWithin_obeys hothers left _).heedsErrors) s nofun

end Engine

/-- Reports an error, goes on however it is answered, and returns a value. -/
def Behaviour.defiant : Behaviour := fun _ _ =>
  .emit (.error "late") fun _ => .emit (.html none "more") fun _ => .done (some .null)

/-- Asks twice for a defiant command. -/
def Sequence.defiant : Sequence :=
  .script [{ name := "defiant" }, { name := "defiant" }]

/-- An engine with a defiant interpreter. -/
def Engine.defiant : Engine where
  registry := Registry.builtins.insert "defiant" ⟨.isPublic, .defiant⟩
  resolvers := Table.empty.insert "x" { sequence := fun _ => .defiant }
  templates := fun _ _ => .error .unfillable
  policy := .strict

/-- After an error the tag passes a packet on, and its sequence is asked again. -/
theorem Engine.defiant_render :
    Engine.defiant.render ⟨[.tag { name := "x" }]⟩ =
        .ok ⟨[.html none "more", .html none "more"], none⟩ ∧
      (Rendering.recordedSequence (Engine.defiant.contextWithin 252) { name := "x" } []
        .defiant).collect =
          ([.html none "more", .html none "more"],
            .ok ([.stepped, .refused (.error "late"), .forwarded (.html none "more"),
              .stepped, .refused (.error "late"), .forwarded (.html none "more"), .stepped],
              .ok ())) ∧
      ¬ Rendering.EndsAtErrors (Engine.defiant.contextWithin 252) { name := "x" } .defiant := by
  have hrecord : (Rendering.recordedSequence (Engine.defiant.contextWithin 252) { name := "x" } []
      .defiant).collect =
        ([.html none "more", .html none "more"],
          .ok ([.stepped, .refused (.error "late"), .forwarded (.html none "more"),
            .stepped, .refused (.error "late"), .forwarded (.html none "more"), .stepped],
            .ok ())) := by rfl
  have hcollect : (Engine.defiant.dispatchWithin Engine.defiant.maxDepth
      (.render (.document ⟨[.tag { name := "x" }]⟩))).collect =
        ([.html none "more", .html none "more"], .ok none) := by cbv
  refine ⟨by rw [Engine.render, Engine.dispatch, hcollect], hrecord, fun hends => ?_⟩
  rcases hends.collect_cases trivial with ⟨record, hresult, hlast⟩ | ⟨_, _, hfalse⟩
  · rw [hrecord] at hresult
    cases hresult
    revert hlast
    unfold Rendering.ErrorsLast
    decide
  · exact hfalse

end TaggedText
