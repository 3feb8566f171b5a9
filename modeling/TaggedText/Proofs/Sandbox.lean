import TaggedText.Proofs.Dispatch.Quiet

/-!
# What resolvers can trigger

Resolvers may ask for public interpreters alone, and that is checked of the name of a proposal. What
a proposed tree holds is dispatched without a check, so a private interpreter stays out of reach
exactly as long as no proposal holds it.  `Engine.render_independent_iff` states this for any set of
allowed proposals: the rendering of no document depends on a private interpreter, if and only if no
allowed proposal reaches its name.

One direction is confinement, dispatch by dispatch, and follows from what a command can reach.  For
the other, a proposal that does reach the name is turned into a document: one tag whose resolver
proposes it (`ResolverMap.proposing`), where the private interpreter raises a fault.  An engine that
forgives everything else ends in that fault, so two faults give two results.
-/

namespace TaggedText

/-! ### One proposal -/

/-- The tag `x` stands for one proposal. -/
def ResolverMap.proposing (c : Command) : ResolverMap :=
  Table.empty.insert "x" { sequence := fun _ => .script [c] }

/-- The tag `x` and nothing else. -/
def Document.loneTag : Document :=
  ⟨[.tag { name := "x" }]⟩

theorem ResolverMap.proposing_proposesOnly {allowed : Command → Prop} {c : Command}
    (h : allowed c) : (ResolverMap.proposing c).ProposesOnly allowed := by
  intro name resolver hfind invocation c' hproposes
  rw [ResolverMap.proposing, Table.find?_insert] at hfind
  split at hfind
  · cases hfind
    cases hproposes with
    | now => exact h
    | later _ hrest => cases hrest
  · cases hfind

namespace Engine

/-- The document is rendered by the one proposal, four levels down. -/
theorem dispatch_loneTag {e : Engine} (he : e.registry.Extends .builtins) {c : Command}
    (hresolvers : e.resolvers = .proposing c) (left : Nat) :
    e.dispatchWithin (left + 4) (.render (.document .loneTag)) =
      (((Rendering.runSequence (e.contextWithin left) { name := "x" } (.script [c])).bind fun _ =>
        .done none).bind fun (_ : Option Json) => .done ()).bind fun _ => .done none := by
  have hfind : e.resolvers.find? "x" = some { sequence := fun _ => .script [c] } := by
    rw [hresolvers]
    exact (Table.find?_insert _ _ _ _).trans (if_pos rfl)
  have htag : e.dispatchWithin (left + 2) (.render (.tag { name := "x" })) = _ :=
    dispatch_renderTag_of_find?_some he hfind
  rw [dispatch_renderDocument he]
  show (((e.dispatchWithin (left + 2) (.render (.tag { name := "x" }))).bind _).bind _) = _
  rw [htag]
  rfl

/-- An engine that forgives everything, whose resolver makes one proposal, with levels enough to
dispatch it with `levels` levels left. -/
def probe (name : String) (c : Command) (levels : Nat) (b : Behaviour) : Engine where
  registry := .withPrivate name b
  resolvers := .proposing c
  templates := fun _ _ => .ok ""
  policy := .lenient
  maxDepth := levels + 4

theorem probe_forgiving (name : String) (c : Command) (levels : Nat) (b : Behaviour) (left : Nat) :
    ((probe name c levels b).contextWithin left).Forgiving :=
  ⟨rfl, fun _ _ => ⟨"", rfl⟩⟩

/-- A dispatch that ends in a fault gives the fault. -/
theorem render_eq_error_of_fails {e : Engine} {d : Document} {fault : Fault}
    (h : (e.dispatchWithin e.maxDepth (.render (.document d))).Fails fault) :
    e.render d = .error fault := by
  unfold Engine.render Engine.dispatch
  rw [h.collect]

/-- One that ends in no other fault gives no other. -/
theorem eq_of_render_eq_error {e : Engine} {d : Document} {fault fault' : Fault}
    (hquiet : (e.dispatchWithin e.maxDepth (.render (.document d))).Quiet fault)
    (h : e.render d = .error fault') : fault' = fault := by
  unfold Engine.render Engine.dispatch at h
  split at h
  · cases h
  · cases h
  · next hcollect =>
      cases h
      have hinterrupt := hquiet.interrupt _ (congrArg Prod.snd hcollect)
      exact Interrupt.fault.inj hinterrupt

/-- The probe feels the private interpreter. -/
theorem probe_probes {name : String} (hname : Registry.composing.find? name = none) (c : Command)
    (levels : Nat) (fault : Fault) :
    (probe name c levels fun _ _ => .stop (.fault fault)).Probes name fault where
  forgiving := probe_forgiving name c levels _
  quiet := (Registry.composing_quiet fault).insert fun _ _ _ _ => .stop
  tree := Registry.withPrivate_extends hname _ _ Registry.composing_find?_tree
  raises := ⟨_, Registry.withPrivate_find?_self⟩

/-- **The probe ends in the fault** of a private interpreter that its proposal holds. -/
theorem exists_probe_render_eq_error {name : String} (hname : Registry.composing.find? name = none)
    {c : Command} (hother : c.name ≠ name) (hreaches : c.Reaches name) (fault : Fault) :
    ∃ levels, (probe name c levels fun _ _ => .stop (.fault fault)).render .loneTag =
      .error fault := by
  obtain ⟨levels, hlevels⟩ := exists_dispatchWithin_fails hreaches
  refine ⟨levels, render_eq_error_of_fails ?_⟩
  let e := probe name c levels fun _ _ => .stop (.fault fault)
  have he : e.Probes name fault := probe_probes hname c levels fault
  have hpublic : e.registry.isPublic c.name = true := by
    rw [hreaches.eq_tree hother, Registry.isPublic, he.tree]
    rfl
  show (e.dispatchWithin (levels + 4) (.render (.document .loneTag))).Fails fault
  rw [dispatch_loneTag (Registry.withPrivate_extends_builtins hname) rfl]
  refine Emitter.Fails.bind (Emitter.Fails.bind (Emitter.Fails.bind ?_ _) _) _
  refine Rendering.runSequence_fails hpublic ?_ ?_ _
  · exact dispatchWithin_quiet he.forgiving he.quiet levels _
  · exact hlevels e fault he _ rfl rfl rfl

/-! ### The sandbox -/

/-- **The proposals that keep a private interpreter out of reach.**  Whatever the documents, the
templates, the policy and the limit, rendering does not depend on what the private interpreter does
exactly if no proposal holds it: none reaches it but by asking for it outright, which is refused. -/
theorem render_independent_iff {name : String} (hname : Registry.composing.find? name = none)
    (allowed : Command → Prop) :
    (∀ e : Engine, e.resolvers.ProposesOnly allowed → ∀ (d : Document) (b b' : Behaviour),
        { e with registry := .withPrivate name b }.render d =
          { e with registry := .withPrivate name b' }.render d) ↔
      ∀ c, allowed c → c.name ≠ name → ¬ c.Reaches name := by
  constructor
  · intro hindependent c hallowed hother hreaches
    obtain ⟨levels, hrender⟩ :=
      exists_probe_render_eq_error hname hother hreaches (.unknownCommand "")
    have hsame := hindependent (probe name c levels fun _ _ => .done none)
      (ResolverMap.proposing_proposesOnly hallowed) .loneTag
      (fun _ _ => .stop (.fault (.unknownCommand ""))) fun _ _ => .done none
    -- A silent interpreter would have to end in the same fault, and cannot.
    have hsilent : (probe name c levels fun _ _ => .done none).render .loneTag =
        .error (.unknownCommand "") := hsame.symm.trans hrender
    have hregistry : (Registry.withPrivate name fun _ _ => .done none).All fun _ i =>
        i.behaviour.Quiet (.missingTarget "") :=
      (Registry.composing_quiet _).insert fun _ _ _ _ => .done none
    have hquiet := dispatchWithin_quiet
      (probe_forgiving name c levels fun _ _ => .done none) hregistry
    cases eq_of_render_eq_error (hquiet _ _) hsilent
  · intro hallowed e hproposes d b b'
    have hne : (Command.render (.document d)).name ≠ name :=
      Registry.ne_of_builtin hname (by simp [Registry.builtins, Command.render])
    have hrender : ¬ (Command.render (.document d)).Reaches name :=
      Command.not_reaches hne (by simp [Command.render])
    have hmap : e.resolvers.ProposesOnly fun c =>
        (Registry.withPrivate name b).isPublic c.name = true → ¬ c.Reaches name := by
      intro n resolver hfind invocation c hc hpublic
      -- What is public does not have the name of the private interpreter.
      refine hallowed c (hproposes n resolver hfind invocation c hc) ?_
      rintro rfl
      simp [Registry.isPublic] at hpublic
    unfold Engine.render Engine.dispatch
    rw [dispatchWithin_congr e hname b b' hmap _ hrender]

/-- Where a resolver proposes no tree, nothing private is in reach. -/
theorem render_independent_iff_noTree :
    Registry.composing.find? "secret" = none ∧
      ∀ e : Engine, e.resolvers.ProposesOnly (fun c => c.name ≠ "tree") →
        ∀ (d : Document) (b b' : Behaviour),
          { e with registry := .withPrivate "secret" b }.render d =
            { e with registry := .withPrivate "secret" b' }.render d := by
  have hname : Registry.composing.find? "secret" = none := by
    simp [Registry.composing, Registry.builtins, Command.undefinedName]
  exact ⟨hname, (render_independent_iff hname _).mpr fun c htree hother =>
    Command.not_reaches hother htree⟩

/-- A tree that holds a private command. -/
def privateTree : Command :=
  { name := "tree", current := some { name := "secret" } }

/-- An engine whose resolver proposes a tree that holds a private command. -/
def smuggling (b : Behaviour) : Engine where
  registry := .withPrivate "secret" b
  resolvers := .proposing privateTree
  templates := fun _ _ => .error .unfillable
  policy := .strict

/-- What the private interpreter gives is what the document gives. -/
theorem smuggling_render_eq {b : Behaviour} {packets : List Packet} {value : Option Json}
    (hb : ∀ context c, (b context c).collect = (packets, .ok value))
    (hpackets : ∀ p ∈ packets, p.isError = false) :
    (smuggling b).render .loneTag = .ok ⟨packets, none⟩ := by
  have hname : Registry.composing.find? "secret" = none := by
    simp [Registry.composing, Registry.builtins, Command.undefinedName]
  have hbuiltins : (smuggling b).registry.Extends .builtins :=
    Registry.withPrivate_extends_builtins hname
  have htree : (smuggling b).registry.find? privateTree.name = some ⟨.isPublic, Target.tree⟩ :=
    Registry.withPrivate_extends hname _ _ Registry.composing_find?_tree
  have hsecret : (smuggling b).registry.find? "secret" = some ⟨.isPrivate, b⟩ :=
    Registry.withPrivate_find?_self
  let proposed : Command := { privateTree with subject := some (.tag { name := "x" }) }
  have hproposed : (smuggling b).registry.find? proposed.name = some ⟨.isPublic, Target.tree⟩ :=
    htree
  have hdispatch : ((smuggling b).dispatchWithin 252 proposed).collect = (packets, .ok value) := by
    rw [dispatchWithin_succ hproposed 251]
    show ((smuggling b).dispatchWithin 251
      { name := "secret", data := Target.bindings .null .null [] }).collect = _
    rw [dispatchWithin_succ hsecret]
    exact hb _ _
  have hpublic : (smuggling b).registry.isPublic privateTree.name = true := by
    rw [Registry.isPublic, htree]
    rfl
  have hsequence : (Rendering.runSequence ((smuggling b).contextWithin 252) { name := "x" }
      (.script [privateTree])).collect = (packets, .ok ()) := by
    rw [Sequence.script, Rendering.collect_runSequence_propose hpublic hdispatch hpackets]
    simp [Sequence.script, Rendering.runSequence]
  have hcollect : ((smuggling b).dispatchWithin 256 (.render (.document .loneTag))).collect =
      (packets, .ok none) := by
    rw [dispatch_loneTag hbuiltins rfl]
    rw [Emitter.collect_bind_ok (Emitter.collect_bind_ok (Emitter.collect_bind_ok hsequence))]
    simp
  unfold Engine.render Engine.dispatch
  rw [show (smuggling b).maxDepth = 256 from rfl, hcollect]

/-- The private interpreter is heard, under the strict policy and the usual limit. -/
theorem smuggling_render :
    (smuggling fun _ _ => (Emitter.send (.html (some .inline) "leaked")).bind fun _ =>
        .done none).render .loneTag = .ok ⟨[.html (some .inline) "leaked"], none⟩ ∧
      (smuggling fun _ _ => .done none).render .loneTag = .ok ⟨[], none⟩ :=
  ⟨smuggling_render_eq (fun _ _ => rfl) (by decide), smuggling_render_eq (fun _ _ => rfl) nofun⟩

end Engine

end TaggedText
