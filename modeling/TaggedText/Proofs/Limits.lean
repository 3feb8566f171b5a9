import TaggedText.Proofs.Dispatch.CutOff

/-!
# Policies and limits only cut off

What a strict engine with few levels of dispatches gives, every engine gives that forgives more or
has more levels.  And an engine that forgives gives something in any case.

The results of two runs cannot be compared directly, as a sink may look at what comes before the
cut.  The relation is one of trees, `Emitter.CutOff`, and `Engine.dispatchWithin_cutOff_of_policy`
carries it through all levels: a strict dispatch is every other with as many levels or more, cut off
by faults.  Interpreters besides the library's have to pass faults on for this and, if the other
engine is not strict too, must not read the policy.

`Engine.dispatch_limited` is both halves for whole dispatches.
-/

namespace TaggedText

namespace Engine

variable {e : Engine}

/-- The engine under another policy and another limit. -/
def limited (e : Engine) (policy : Policy) (limit : Nat) : Engine :=
  { e with policy := policy, maxDepth := limit }

/-- **A strict dispatch is every other with as many levels, cut off by faults.**  Only if the other
is not strict too, it matters that interpreters do not read the policy. -/
theorem dispatchWithin_cutOff_of_policy {policy : Policy}
    (hothers : e.registry.All fun _ i => i.behaviour.IsOwn ∨
      (policy = .strict ∨ i.behaviour.IgnoresPolicy) ∧ i.behaviour.PassesFaultsOn)
    (limit limit' : Nat) {left left' : Nat} (hle : left ≤ left') (c : Command) :
    ((e.limited .strict limit).dispatchWithin left c).CutOff
      ((e.limited policy limit').dispatchWithin left' c) := by
  induction left generalizing left' c with
  | zero => exact .doomed (.settle _)
  | succ left ih =>
      obtain ⟨left', rfl⟩ : ∃ n, left' = n + 1 := ⟨left' - 1, by omega⟩
      have hdispatch := fun c => ih (Nat.le_of_succ_le_succ hle) c
      cases hfind : e.registry.find? c.name with
      | none =>
          have hstrict : (e.limited .strict limit).registry.find? c.name = none := hfind
          simp only [dispatchWithin, hstrict]
          exact .doomed (.settle _)
      | some i =>
          have hstrict : (e.limited .strict limit).registry.find? c.name = some i := hfind
          have hother : (e.limited policy limit').registry.find? c.name = some i := hfind
          rw [dispatchWithin_succ hstrict, dispatchWithin_succ hother]
          -- The two contexts differ in their policies and dispatchers alone.
          rcases hothers c.name i hfind with hown | ⟨rfl | hignores, hpasses⟩
          · exact hown.cutOff rfl policy hdispatch c
          · exact hpasses.cutOff_strict rfl hdispatch c
          · exact hpasses.cutOff hignores policy hdispatch c

/-- So it is where no interpreter reads the policy. -/
theorem dispatchWithin_cutOff
    (hothers : e.registry.All fun _ i => i.behaviour.IsOwn ∨
      i.behaviour.IgnoresPolicy ∧ i.behaviour.PassesFaultsOn)
    (limit : Nat) (policy : Policy) (limit' : Nat) {left left' : Nat} (hle : left ≤ left')
    (c : Command) :
    ((e.limited .strict limit).dispatchWithin left c).CutOff
      ((e.limited policy limit').dispatchWithin left' c) :=
  dispatchWithin_cutOff_of_policy
    (fun name i hfind => (hothers name i hfind).imp_right fun h => ⟨.inr h.1, h.2⟩) limit limit' hle
    c

/-- **A lenient dispatch ends in no fault.** -/
theorem dispatchWithin_faultless
    (hothers : e.registry.All fun _ i => i.behaviour.IsOwn ∨ i.behaviour.RaisesNoFault)
    (hpolicy : e.policy = .lenient) (levels : Nat) (c : Command) :
    (e.dispatchWithin levels c).Faultless := by
  refine dispatchWithin_induction ?_ ?_ levels c
  · intro fault
    rw [hpolicy]
    exact .done none
  · intro left c i hfind ih
    rcases hothers c.name i hfind with hown | hraises
    · exact hown.raisesNoFault _ c hpolicy ih
    · exact hraises _ c hpolicy ih

/-- How the computation ends decides what the dispatch gives. -/
theorem dispatch_of_collect {c : Command} {result : Except Interrupt (Option Json)} :
    (e.dispatchWithin e.maxDepth c).collect.2 = result →
      e.dispatch c = match result with
        | .ok value => .ok ⟨(e.dispatchWithin e.maxDepth c).collect.1, value⟩
        | .error .halted => .ok ⟨(e.dispatchWithin e.maxDepth c).collect.1, none⟩
        | .error (.fault fault) => .error fault := by
  intro hresult
  have hcollect : (e.dispatchWithin e.maxDepth c).collect =
      ((e.dispatchWithin e.maxDepth c).collect.1, result) := Prod.ext rfl hresult
  rw [dispatch, hcollect]
  cases result with
  | ok value => rfl
  | error i => cases i <;> rfl

/-- Where no fault comes to the top, the dispatch gives something. -/
theorem exists_dispatch_eq_ok {c : Command} (h : (e.dispatchWithin e.maxDepth c).Faultless) :
    ∃ result, e.dispatch c = .ok result := by
  rcases h.collect_cases nofun with ⟨value, hvalue, -⟩ | ⟨i, hhalted, rfl⟩
  · exact ⟨_, dispatch_of_collect hvalue⟩
  · exact ⟨_, dispatch_of_collect hhalted⟩

/-- **Policies and limits only cut off.**  Let the interpreters that are not of the library neither
read the policy nor swallow the faults of what they dispatch.  Then what a strict engine with some
limit gives is given under every policy and every higher limit.  And if none of them raises a fault
itself, a lenient engine gives something for every command, whatever its limit. -/
theorem dispatch_limited (e : Engine)
    (hothers : e.registry.All fun _ i => i.behaviour.IsOwn ∨
      i.behaviour.IgnoresPolicy ∧ i.behaviour.PassesFaultsOn) :
    (∀ command limit result, (e.limited .strict limit).dispatch command = .ok result →
        ∀ policy limit', limit ≤ limit' →
          (e.limited policy limit').dispatch command = .ok result) ∧
      ((e.registry.All fun _ i => i.behaviour.IsOwn ∨ i.behaviour.RaisesNoFault) →
        ∀ command limit, ∃ result, (e.limited .lenient limit).dispatch command = .ok result) := by
  constructor
  · intro command limit result hresult policy limit' hle
    have hcut := dispatchWithin_cutOff hothers limit policy limit' hle command
    rcases hcut.collect_cases with ⟨fault, hfault⟩ | hcollect
    · -- A fault that comes to the top is no result.
      cases (dispatch_of_collect hfault).symm.trans hresult
    · rw [← hresult]
      unfold dispatch
      exact hcollect ▸ rfl
  · intro hraises command limit
    exact exists_dispatch_eq_ok
      (@dispatchWithin_faultless (e.limited .lenient limit) hraises rfl limit command)

end Engine

/-! ### An interpreter that counts -/

/-- Lets every packet pass and counts them. -/
def countPackets (n : Nat) (packet : Packet) : Emitter (Nat × Answer) :=
  (Emitter.offer packet).bind fun answer => .done (n + 1, answer)

theorem answers_countPackets {answers : Answer → Prop} : Emitter.Answers answers countPackets :=
  fun _ packet => (Emitter.Guarantees.offer packet).bind (fun _ h => h) fun _ hanswer =>
    .done hanswer

/-- Dispatches the current command, and says behind its packets how many they were. -/
def Routine.counting (_ : Context) (command : Command) : Routine (Option Json) :=
  match command.current with
  | none => .done none
  | some current =>
    .dispatch current countPackets answers_countPackets 0 fun n value =>
      .emit (.html (some .inline) (toString n)) fun
        | .ok () => .done value
        | .error i => .stop i

theorem Routine.counting_raisesNoFault : (behaviour counting).RaisesNoFault := by
  intro context command _ hdispatch
  unfold behaviour counting
  split
  · exact .done none
  · next current _ =>
      rw [run]
      refine (Emitter.Guarantees.through (hdispatch current) answers_countPackets 0).bind
        (fun _ h => h.elim) ?_
      rintro ⟨n, i | value⟩ houtcome
      · exact .stop houtcome
      · refine .emit _ fun answer hspares => ?_
        cases answer with
        | ok _ => exact Emitter.Faultless.done value
        | error i => exact .stop (hspares i rfl)

/-- An engine with an interpreter that counts. -/
def Engine.counting : Engine where
  registry := Registry.html.insert "count" ⟨.isPublic, Routine.behaviour Routine.counting⟩
  resolvers := Table.empty
  templates := fun _ _ => .error .unfillable

/-- The packets of a text, counted. -/
def Command.countedText : Command :=
  { name := "count", current := some (.text "a") }

/-- With two levels of dispatches a text can be counted. -/
theorem Engine.dispatch_countedText :
    (Engine.counting.limited .strict 2).dispatch .countedText =
      .ok ⟨[.html (some .inline) "a", .html (some .inline) "1"], none⟩ := by
  have hcount : (Engine.counting.limited .strict 2).registry.find? Command.countedText.name =
      some ⟨.isPublic, Routine.behaviour Routine.counting⟩ := by
    simp [Engine.limited, Engine.counting, Command.countedText]
  have htext : (Engine.counting.limited .strict 2).registry.find? (Command.text "a").name =
      some ⟨.isPublic, Target.textAsHtml⟩ := by
    simp [Engine.limited, Engine.counting, Registry.html, Command.undefinedName, Command.text]
  have hinner : (Engine.counting.limited .strict 2).dispatchWithin 1 (.text "a") =
      (Emitter.send (.html (some .inline) "a")).bind fun _ => .done none :=
    Engine.dispatchWithin_succ htext 0
  have hcollect : ((Engine.counting.limited .strict 2).dispatchWithin 2 .countedText).collect =
      ([.html (some .inline) "a", .html (some .inline) "1"], .ok none) := by
    rw [Engine.dispatchWithin_succ hcount]
    show (Routine.run ((Engine.counting.limited .strict 2).dispatchWithin 1)
      (.dispatch (.text "a") countPackets answers_countPackets 0 _)).collect = _
    rw [Routine.run, hinner]
    rfl
  have hlimit : (Engine.counting.limited .strict 2).maxDepth = 2 := rfl
  rw [Engine.dispatch, hlimit, hcollect]

/-- What a strict engine with two levels gives is given by a lenient one with more, and a lenient
one with a single level, in which the text is not reached, gives something too. -/
theorem Engine.dispatch_limited_countedText :
    (Engine.counting.registry.All fun _ i => i.behaviour.IsOwn ∨
        i.behaviour.IgnoresPolicy ∧ i.behaviour.PassesFaultsOn) ∧
      (Engine.counting.registry.All fun _ i => i.behaviour.IsOwn ∨ i.behaviour.RaisesNoFault) ∧
      (Engine.counting.limited .strict 2).dispatch .countedText =
        .ok ⟨[.html (some .inline) "a", .html (some .inline) "1"], none⟩ ∧
      (Engine.counting.limited .lenient 256).dispatch .countedText =
        .ok ⟨[.html (some .inline) "a", .html (some .inline) "1"], none⟩ ∧
      ∃ result, (Engine.counting.limited .lenient 1).dispatch .countedText = .ok result := by
  have hown : ∀ name i, Registry.html.find? name = some i → i.behaviour.IsOwn :=
    fun name i hfind => ⟨name, i, .inl hfind, rfl⟩
  have hothers : Engine.counting.registry.All fun _ i => i.behaviour.IsOwn ∨
      i.behaviour.IgnoresPolicy ∧ i.behaviour.PassesFaultsOn :=
    Table.All.insert (fun name i hfind => .inl (hown name i hfind))
      (.inr ⟨Routine.ignoresPolicy _, Routine.passesFaultsOn _⟩)
  have hraises : Engine.counting.registry.All fun _ i =>
      i.behaviour.IsOwn ∨ i.behaviour.RaisesNoFault :=
    Table.All.insert (fun name i hfind => .inl (hown name i hfind))
      (.inr Routine.counting_raisesNoFault)
  obtain ⟨hstrict, hlenient⟩ := Engine.dispatch_limited .counting hothers
  exact ⟨hothers, hraises, Engine.dispatch_countedText,
    hstrict _ 2 _ Engine.dispatch_countedText .lenient 256 (by decide), hlenient hraises _ 1⟩

end TaggedText
