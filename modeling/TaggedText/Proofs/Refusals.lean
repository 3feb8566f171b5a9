import TaggedText.Proofs.Dispatch.Scope

/-!
# What comes after a refused proposal

The first proposal of a sequence that is not public ends the rendering of its tag.  So a sequence is
heard up to there and no further (`Sequence.heard`), and running it is running what is heard of it
(`Rendering.runSequence_heard`).

From one tag to a whole document the argument is one of congruence.  Two maps of resolvers sound
alike if the same is heard of both (`ResolverMap.SoundsLike`), and a behaviour heeds refusals if it
cannot tell such maps apart (`Behaviour.HeedsRefusals`).  Where all interpreters do, maps that sound
alike give the same dispatches, level by level, and `Engine.render_script_refused` is the case of a
script with something behind a refused proposal.

**Why the condition is there.**  An interpreter is given the resolvers, and nothing but its own
discretion keeps one that is not of the library from asking them for more than would be heard.
Those of the library do not: most never look at the resolvers, and the one that does runs what it
hears.  `Engine.peeking_differs` has a public interpreter that looks, and a document that shows what
it saw.
-/

namespace TaggedText

/-! ### What is heard -/

/-- **What is heard of a sequence**: its proposals up to the first that is not public. -/
def Sequence.heard (isPublic : String → Bool) : Sequence → Sequence
  | .done => .done
  | .propose command next =>
    if isPublic command.name then .propose command fun value => (next value).heard isPublic
    else .done

/-- Nothing is heard of a script behind a refused proposal. -/
theorem Sequence.heard_script_refused {isPublic : String → Bool} {c : Command}
    (hc : isPublic c.name = false) (front back : List Command) :
    (script (front ++ [c] ++ back)).heard isPublic = (script front).heard isPublic := by
  induction front with
  | nil => simp [script, heard, hc]
  | cons first rest ih =>
      rw [List.cons_append, List.cons_append, script, script, heard, heard, ih]

/-- A resolver of whose sequences no more is left than is heard of them. -/
def Resolver.heard (isPublic : String → Bool) (r : Resolver) : Resolver :=
  { r with sequence := fun invocation => (r.sequence invocation).heard isPublic }

/-- A resolver that proposes a fixed list of commands. -/
def Resolver.scripted (r : Resolver) (commands : List Command) : Resolver :=
  { r with sequence := fun _ => .script commands }

/-- **The same is heard of both maps.** -/
def ResolverMap.SoundsLike (isPublic : String → Bool) (map map' : ResolverMap) : Prop :=
  ∀ name, (map.find? name).map (Resolver.heard isPublic) =
    (map'.find? name).map (Resolver.heard isPublic)

theorem ResolverMap.SoundsLike.insert {isPublic : String → Bool} (map : ResolverMap)
    {r r' : Resolver} (h : r.heard isPublic = r'.heard isPublic) (name : String) :
    SoundsLike isPublic (map.insert name r) (map.insert name r') := by
  intro name'
  rw [Table.find?_insert, Table.find?_insert]
  split
  · exact congrArg some h
  · rfl

/-! ### Running what is heard -/

/-- **A sequence is run as it is heard.** -/
theorem Rendering.runSequence_heard (context : Context) (tag : Tag) (s : Sequence) :
    runSequence context tag (s.heard context.isPublic) = runSequence context tag s := by
  induction s with
  | done => rfl
  | propose c next ih =>
      rw [Sequence.heard]
      split
      · rw [runSequence_propose, runSequence_propose, funext ih]
      · next hrefused => rw [runSequence_propose, if_neg hrefused, runSequence]

/-- A sequence that is being run does not look at the resolvers. -/
theorem Rendering.runSequence_resolvers (context : Context) (resolvers : ResolverMap) (tag : Tag)
    (s : Sequence) :
    runSequence { context with resolvers := resolvers } tag s = runSequence context tag s :=
  runSequence_related Emitter.Relation.isCongruence_eq (by rfl) tag fun _ _ _ => rfl

/-! ### Who looks at the resolvers -/

/-- **A behaviour that heeds refusals**: it cannot tell apart resolvers of which the same is heard. -/
def Behaviour.HeedsRefusals (behaviour : Behaviour) : Prop :=
  ∀ (context : Context) (resolvers : ResolverMap) (command : Command),
    ResolverMap.SoundsLike context.isPublic context.resolvers resolvers →
      behaviour { context with resolvers := resolvers } command = behaviour context command

/-- A tag runs what it hears of its resolver. -/
theorem Behaviour.HeedsRefusals.renderTag : HeedsRefusals Rendering.renderTag := by
  intro context resolvers command halike
  unfold Rendering.renderTag
  split
  · rfl
  · next tag _ =>
      have hheard := halike tag.name
      cases hfind : context.resolvers.find? tag.name with
      | none =>
          rw [hfind, Option.map_none, eq_comm, Option.map_eq_none_iff] at hheard
          simp only [hheard]
      | some r =>
          rw [hfind, Option.map_some, eq_comm, Option.map_eq_some_iff] at hheard
          obtain ⟨r', hfind', hsame⟩ := hheard
          have hsequence := congrArg (fun r => r.sequence ⟨context.target, tag⟩) hsame
          simp only [hfind']
          rw [Rendering.runSequence_resolvers, ← Rendering.runSequence_heard context tag,
            ← Rendering.runSequence_heard context tag (r.sequence _)]
          exact congrArg
            (fun s => (Rendering.runSequence context tag s).bind fun _ => .done none) hsequence

/-- Who does not look at the resolvers hears nothing of them. -/
theorem Behaviour.IsBlind.heedsRefusals {behaviour : Behaviour} (h : behaviour.IsBlind) :
    behaviour.HeedsRefusals :=
  fun context resolvers command _ =>
    (h (fun _ => True) context resolvers context.dispatch command (fun _ _ => rfl)
      (.of_forall (fun _ => trivial) command)).symm

/-- **The interpreters of the library heed refusals.** -/
theorem Behaviour.IsOwn.heedsRefusals {behaviour : Behaviour} (h : behaviour.IsOwn) :
    behaviour.HeedsRefusals := by
  rcases h.blind_or with hblind | rfl
  · exact hblind.heedsRefusals
  · exact .renderTag

/-! ### Engines -/

namespace Engine

/-- **What is not heard makes no difference to a dispatch.** -/
theorem dispatchWithin_congr_heard {e : Engine}
    (hothers : e.registry.All fun _ i => i.behaviour.IsOwn ∨ i.behaviour.HeedsRefusals)
    {resolvers : ResolverMap} (halike : e.resolvers.SoundsLike e.registry.isPublic resolvers)
    (left : Nat) (c : Command) :
    { e with resolvers := resolvers }.dispatchWithin left c = e.dispatchWithin left c := by
  induction left generalizing c with
  | zero => rfl
  | succ left ih =>
      cases hfind : e.registry.find? c.name with
      | none => simp only [dispatchWithin, hfind]
      | some i =>
          have hheeds : i.behaviour.HeedsRefusals :=
            (hothers c.name i hfind).elim Behaviour.IsOwn.heedsRefusals id
          -- One level down the two engines dispatch alike, so their contexts differ in resolvers.
          have hcontext : { e with resolvers := resolvers }.contextWithin left =
              { e.contextWithin left with resolvers := resolvers } := by
            rw [contextWithin, funext ih]
            rfl
          have hfind' : { e with resolvers := resolvers }.registry.find? c.name = some i := hfind
          rw [dispatchWithin_succ hfind', dispatchWithin_succ hfind, hcontext]
          exact hheeds (e.contextWithin left) resolvers c halike

/-- The engine with a resolver for the tags of a name, in place of what was there. -/
def resolving (e : Engine) (name : String) (r : Resolver) : Engine :=
  { e with resolvers := e.resolvers.insert name r }

/-- **What a script holds behind a refused proposal makes no difference.**  On any engine, for any
document, policy and limit: if the tags of a name are resolved by a script that proposes an
unregistered or private command, every document renders as if the script ended in front of it. -/
theorem render_script_refused (e : Engine)
    (hothers : e.registry.All fun _ i => i.behaviour.IsOwn ∨ i.behaviour.HeedsRefusals)
    (name : String) (r : Resolver) (front back : List Command) {c : Command}
    (hc : e.registry.isPublic c.name = false) (d : Document) :
    (e.resolving name (r.scripted (front ++ [c] ++ back))).render d =
      (e.resolving name (r.scripted front)).render d := by
  have hheard : (r.scripted (front ++ [c] ++ back)).heard e.registry.isPublic =
      (r.scripted front).heard e.registry.isPublic := by
    simp only [Resolver.heard, Resolver.scripted, Sequence.heard_script_refused hc front back]
  have hothers' : (e.resolving name (r.scripted front)).registry.All fun _ i =>
      i.behaviour.IsOwn ∨ i.behaviour.HeedsRefusals := hothers
  have hdispatch := dispatchWithin_congr_heard hothers'
    (ResolverMap.SoundsLike.insert e.resolvers hheard.symm name) e.maxDepth (.render (.document d))
  unfold render dispatch
  exact hdispatch ▸ rfl

end Engine

/-- Renders the first block of its tag between brackets. -/
def Behaviour.framing : Behaviour := fun context command => do
  Emitter.send (.html none "[")
  match command.tag?.bind fun tag => tag.block? 0 with
  | none => pure ()
  | some block => discard <| context.dispatch (.render (.block block))
  Emitter.send (.html none "]")
  return none

/-- Asks for the first block of a tag, and proposes what came back as a template. -/
def Sequence.retelling : Sequence :=
  .propose { name := "getBlock" } fun value => .script [.html ((value.bind Json.text?).getD "")]

/-- An engine with a framing interpreter, for which the tag `f` asks; the tag `g` retells its
block. -/
def Engine.framing : Engine where
  registry := Registry.builtins.insert "frame" ⟨.isPublic, .framing⟩
  resolvers := Table.empty
    |>.insert "f" { sequence := fun _ => .script [{ name := "frame" }] }
    |>.insert "g" { sequence := fun _ => .retelling }
  templates := fun template _ => .ok template
  policy := .strict

/-- The tag `x` on its own, in a frame, and in a block that is retold. -/
def Document.framed : Document where
  body := [.tag { name := "x" }, .tag { name := "f", blocks := [⟨false, [.tag { name := "x" }]⟩] },
    .tag { name := "g", blocks := [⟨false, [.tag { name := "x" }, .text "-"]⟩] }]

/-- Behind a private command, what the tag `x` proposes is lost wherever it stands. -/
theorem Engine.render_script_refused_framed :
    (Engine.framing.registry.All fun _ i => i.behaviour.IsOwn ∨ i.behaviour.HeedsRefusals) ∧
      Engine.framing.registry.isPublic "renderTag" = false ∧
      (Engine.framing.resolving "x"
          (Resolver.scripted {} ([.html "a"] ++ [{ name := "renderTag" }] ++ [.html "b"]))).render
            .framed =
        (Engine.framing.resolving "x" (Resolver.scripted {} [.html "a"])).render .framed ∧
      ((Engine.framing.resolving "x" (Resolver.scripted {} [.html "a"])).render .framed).toOption.map
          Dispatch.packets =
        some [.html none "a", .html none "[", .html none "a", .html none "]", .html none "a-"] := by
  have hothers : Engine.framing.registry.All fun _ i =>
      i.behaviour.IsOwn ∨ i.behaviour.HeedsRefusals := by
    refine Table.All.insert (fun name i hfind => .inl ?_) (.inr fun _ _ _ _ => rfl)
    exact ⟨name, i, .inl (Registry.html_extends name i hfind), rfl⟩
  have hrefused : Engine.framing.registry.isPublic "renderTag" = false := by decide
  exact ⟨hothers, hrefused,
    Engine.render_script_refused _ hothers "x" {} [.html "a"] [.html "b"] hrefused .framed,
    by decide +kernel⟩

/-! ### An interpreter that looks behind a refused proposal -/

/-- Asks the resolver of its tag for two proposals, and says whether there is a second. -/
def Behaviour.peeking : Behaviour := fun context command => do
  let second := do
    let tag ← command.tag?
    let resolver ← context.resolvers.find? tag.name
    ((resolver.sequence ⟨context.target, tag⟩).proposals [none, none])[1]?.join
  Emitter.send (.html none (if second.isSome then "more" else "last"))
  return none

/-- An engine that has it as a public interpreter. -/
def Engine.peeking : Engine where
  registry := Registry.builtins.insert "peek" ⟨.isPublic, .peeking⟩
  resolvers := Table.empty
  templates := fun template _ => .ok template
  policy := .strict

/-- **Who asks the resolver itself hears more**: where an interpreter does, a document shows what
its tag's script holds behind a refused proposal. -/
theorem Engine.peeking_differs :
    Engine.peeking.registry.isPublic "renderTag" = false ∧
      ((Engine.peeking.resolving "x"
          (Resolver.scripted {} ([{ name := "peek" }] ++ [{ name := "renderTag" }] ++ []))).render
            ⟨[.tag { name := "x" }]⟩).toOption.map Dispatch.packets = some [.html none "more"] ∧
      ((Engine.peeking.resolving "x" (Resolver.scripted {} [{ name := "peek" }])).render
        ⟨[.tag { name := "x" }]⟩).toOption.map Dispatch.packets = some [.html none "last"] := by
  refine ⟨?_, ?_, ?_⟩ <;> decide +kernel

end TaggedText
