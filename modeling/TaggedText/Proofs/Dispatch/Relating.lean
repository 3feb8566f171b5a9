import TaggedText.Proofs.Dispatch.Builtins

/-!
# What interpreters hand on

The interpreters of the library do little with what they dispatch: they run it as a part of
themselves, in the sink of a tag (`Rendering.guarded`), in the sink of a tree (`Target.gathered`),
or to keep its markup (`Inquiry.kept`).  A relation between computations that these few uses respect
passes from what is dispatched to every interpreter.

`Emitter.Relation.IsCongruence` is the list of what has to be shown of a relation, a field for each
use.  `Registry.composing_respects` is what comes of it: all interpreters of the library respect
every congruence (`Behaviour.Respects`), as long as the commands that they dispatch are among the
allowed ones.

A property of computations is a relation that looks at one side alone, and equality is one too.  So
the walk through all interpreters is made here once, for what can fail as for what can be reached,
and no later file goes through them again.
-/

namespace TaggedText

/-! ### Proposals -/

/-- The sequence proposes the command, if it is fed the right values. -/
inductive Sequence.Proposes (c : Command) : Sequence → Prop
  | now {next : Option Json → Sequence} : Proposes c (.propose c next)
  | later {c' : Command} {next : Option Json → Sequence} (value : Option Json) :
      Proposes c (next value) → Proposes c (.propose c' next)

/-- Whatever the resolvers of the map propose is allowed. -/
def ResolverMap.ProposesOnly (map : ResolverMap) (allowed : Command → Prop) : Prop :=
  ∀ name resolver, map.find? name = some resolver →
    ∀ invocation c, (resolver.sequence invocation).Proposes c → allowed c

/-! ### Uses of what is dispatched -/

/-- A proposal in the sink of its tag; `resume` goes on with its value. -/
def Rendering.guarded (x : Emitter (Option Json)) (resume : Option Json → Emitter Unit) :
    Emitter Unit :=
  (Emitter.through errorGuard false x).bind fun
    | (_, .ok value) => resume value
    | (aborted, .error interrupt) =>
      if aborted && interrupt == .halted then .done () else .stop interrupt

theorem Rendering.runSequence_propose (context : Context) (tag : Tag) (c : Command)
    (next : Option Json → Sequence) :
    runSequence context tag (.propose c next) =
      if context.isPublic c.name then
        guarded (context.dispatch { c with subject := some (.tag tag) }) fun value =>
          runSequence context tag (next value)
      else .done () := by
  rw [runSequence]
  rfl

/-- A child in the sink of its tree, with markup in front; `resume` goes on with the markup. -/
def Target.gathered (content : String) (x : Emitter (Option Json))
    (resume : String → Emitter String) : Emitter String :=
  (Emitter.through gather content x).bind fun
    | (content, .ok _) => resume content
    | (_, .error interrupt) => .stop interrupt

theorem Target.renderBlock_cons (context : Context) (content : String) (c : Command)
    (rest : List Command) :
    renderBlock context content (c :: rest) =
      gathered content (context.dispatch c) fun content => renderBlock context content rest := rfl

/-- What is kept of a part of a document: its markup. -/
def Inquiry.kept (x : Emitter (Option Json)) : Emitter (List Packet) :=
  (Emitter.ofResult x.collect.2).bind fun _ => .done (x.collect.1.filter Packet.isHtml)

theorem Inquiry.htmlPacketsOfNodes_cons (context : Context) (subject : Subject)
    (rest : List Subject) :
    htmlPacketsOfNodes context (subject :: rest) =
      (kept (context.dispatch (.render subject))).bind fun packets =>
        (htmlPacketsOfNodes context rest).bind fun more => .done (packets :: more) := rfl

/-! ### Congruences -/

/-- A relation between computations, whatever their values are. -/
abbrev Emitter.Relation := ∀ ⦃α : Type⦄, Emitter α → Emitter α → Prop

/-- **A relation that all uses of what is dispatched respect.** -/
structure Emitter.Relation.IsCongruence (R : Emitter.Relation) : Prop where
  done : ∀ {α : Type} (a : α), R (.done a) (.done a)
  bind : ∀ {α β : Type} {x y : Emitter α} {f g : α → Emitter β},
    R x y → (∀ a, R (f a) (g a)) → R (x.bind f) (y.bind g)
  guarded : ∀ {x y : Emitter (Option Json)} {f g : Option Json → Emitter Unit},
    R x y → (∀ value, R (f value) (g value)) → R (Rendering.guarded x f) (Rendering.guarded y g)
  gathered : ∀ (content : String) {x y : Emitter (Option Json)} {f g : String → Emitter String},
    R x y → (∀ content, R (f content) (g content)) →
      R (Target.gathered content x f) (Target.gathered content y g)
  kept : ∀ {x y : Emitter (Option Json)}, R x y → R (Inquiry.kept x) (Inquiry.kept y)

/-- Equality is respected by everything. -/
theorem Emitter.Relation.isCongruence_eq :
    Emitter.Relation.IsCongruence fun _ x y => x = y where
  done _ := rfl
  bind hx hf := by rw [hx, funext hf]
  guarded hx hf := by rw [hx, funext hf]
  gathered _ _ _ _ _ hx hf := by rw [hx, funext hf]
  kept hx := by rw [hx]

/-- The commands by which documents are rendered are allowed. -/
structure Command.AllowsRendering (allowed : Command → Prop) : Prop where
  render : ∀ subject, allowed (.render subject)
  part : ∀ (c : Command), ∀ name ∈ ["renderDocument", "renderTag", "renderText", "renderBlock"],
    allowed { c with name := name }

/-- **What the command holds as a tree is allowed**: its children and its current command, unless
that is undefined. -/
structure Command.HoldsOnly (allowed : Command → Prop) (c : Command) : Prop where
  child : (∀ current, c.current = some current → current.isUndefined = false) →
    ∀ block ∈ c.children, ∀ child ∈ block, allowed child
  current : ∀ current, c.current = some current → current.isUndefined = false →
    ∀ data, allowed { current with data := data }

theorem Command.allowsRendering_true : Command.AllowsRendering fun _ => True :=
  ⟨fun _ => trivial, fun _ _ _ => trivial⟩

theorem Command.holdsOnly_true (c : Command) : c.HoldsOnly fun _ => True :=
  ⟨fun _ _ _ _ _ => trivial, fun _ _ _ _ => trivial⟩

/-- **Contexts that are related on the allowed commands** and tell apart nothing else: their
dispatchers, and what they settle and send themselves, are related. -/
structure Context.Related (R : Emitter.Relation) (allowed : Command → Prop)
    (context context' : Context) : Prop where
  isPublic : context.isPublic = context'.isPublic
  resolvers : context.resolvers = context'.resolvers
  templates : context.templates = context'.templates
  target : context.target = context'.target
  settle : ∀ {α : Type} (fault : Fault),
    R (context.policy.settle fault : Emitter (Option α)) (context'.policy.settle fault)
  markup : ∀ display content,
    R (Emitter.send (.html display content)) (Emitter.send (.html display content))
  failure : ∀ template data fault, context.templates template data = .error fault →
    R (Emitter.send (.error fault.message)) (Emitter.send (.error fault.message))
  dispatch : ∀ c, allowed c → R (context.dispatch c) (context'.dispatch c)
  proposals : context.resolvers.ProposesOnly fun c => context.isPublic c.name = true →
    ∀ tag, allowed { c with subject := some (.tag tag) }

/-- **A behaviour that respects a relation**: in related contexts it answers a command with related
computations.  Under the name of trees, the command holds only what is allowed. -/
def Behaviour.Respects (R : Emitter.Relation) (allowed : Command → Prop) (key : String)
    (behaviour : Behaviour) : Prop :=
  ∀ (context context' : Context) (command : Command), Context.Related R allowed context context' →
    (key = "tree" → command.HoldsOnly allowed) →
      R (behaviour context command) (behaviour context' command)

/-! ### What is handed on -/

section

variable {R : Emitter.Relation} {context context' : Context} (hR : R.IsCongruence)

include hR

theorem Rendering.renderEach_related {nodes : List Node}
    (h : ∀ node ∈ nodes, R (context.dispatch (.render (.ofNode node)))
      (context'.dispatch (.render (.ofNode node)))) :
    R (Rendering.renderEach context nodes) (Rendering.renderEach context' nodes) := by
  induction nodes with
  | nil => exact hR.done ()
  | cons node rest ih =>
      exact hR.bind (h node List.mem_cons_self) fun _ =>
        ih fun node hnode => h node (List.mem_cons_of_mem _ hnode)

theorem Rendering.runSequence_related (hpublic : context.isPublic = context'.isPublic) (tag : Tag)
    {s : Sequence} (h : ∀ c, s.Proposes c → context.isPublic c.name = true →
      R (context.dispatch { c with subject := some (.tag tag) })
        (context'.dispatch { c with subject := some (.tag tag) })) :
    R (Rendering.runSequence context tag s) (Rendering.runSequence context' tag s) := by
  induction s with
  | done => exact hR.done ()
  | propose c next ih =>
      rw [runSequence_propose, runSequence_propose, ← hpublic]
      split
      · next hc =>
          exact hR.guarded (h c .now hc) fun value =>
            ih value fun c hproposes => h c (.later value hproposes)
      · exact hR.done ()

theorem Inquiry.htmlPacketsOfNodes_related {subjects : List Subject}
    (h : ∀ subject ∈ subjects, R (context.dispatch (.render subject))
      (context'.dispatch (.render subject))) :
    R (Inquiry.htmlPacketsOfNodes context subjects)
      (Inquiry.htmlPacketsOfNodes context' subjects) := by
  induction subjects with
  | nil => exact hR.done []
  | cons subject rest ih =>
      rw [htmlPacketsOfNodes_cons, htmlPacketsOfNodes_cons]
      exact hR.bind (hR.kept (h subject List.mem_cons_self)) fun _ =>
        hR.bind (ih fun subject hsubject => h subject (List.mem_cons_of_mem _ hsubject)) fun _ =>
          hR.done _

theorem Target.renderBlock_related {commands : List Command}
    (h : ∀ c ∈ commands, R (context.dispatch c) (context'.dispatch c)) (content : String) :
    R (Target.renderBlock context content commands)
      (Target.renderBlock context' content commands) := by
  induction commands generalizing content with
  | nil => exact hR.done content
  | cons c rest ih =>
      rw [renderBlock_cons, renderBlock_cons]
      exact hR.gathered content (h c List.mem_cons_self) fun _ =>
        ih (fun c hc => h c (List.mem_cons_of_mem _ hc)) _

theorem Target.renderBlocks_related {blocks : List (List Command)}
    (h : ∀ block ∈ blocks, ∀ c ∈ block, R (context.dispatch c) (context'.dispatch c)) :
    R (Target.renderBlocks context blocks) (Target.renderBlocks context' blocks) := by
  induction blocks with
  | nil => exact hR.done []
  | cons block rest ih =>
      have hblock := renderBlock_related hR (h block List.mem_cons_self) ""
      exact hR.bind hblock fun _ =>
        hR.bind (ih fun block hblock => h block (List.mem_cons_of_mem _ hblock)) fun _ =>
          hR.done _

end

section

variable {R : Emitter.Relation} {allowed : Command → Prop} {context context' : Context}
  (hR : R.IsCongruence) (hcontext : Context.Related R allowed context context')

include hR hcontext

theorem Inquiry.subjectTag_related (command : Command) :
    R (Inquiry.subjectTag context command) (Inquiry.subjectTag context' command) := by
  unfold subjectTag
  split
  · exact hR.done _
  · exact hcontext.settle _

theorem Inquiry.subjectBlock_related (command : Command) :
    R (Inquiry.subjectBlock context command) (Inquiry.subjectBlock context' command) := by
  refine hR.bind (subjectTag_related hR hcontext command) fun tag => ?_
  split
  · exact hR.done none
  · dsimp only
    split
    · exact hR.done _
    · exact hcontext.settle _

end

/-! ### The interpreters of the library -/

namespace Behaviour.Respects

variable {R : Emitter.Relation} {allowed : Command → Prop} {key : String}

section

variable (hR : R.IsCongruence)

include hR

theorem getParams : Respects R allowed key Inquiry.getParams :=
  fun _ _ command hcontext _ =>
    hR.bind (Inquiry.subjectTag_related hR hcontext command) fun _ => hR.done _

theorem getAttrs : Respects R allowed key Inquiry.getAttrs :=
  fun _ _ command hcontext _ =>
    hR.bind (Inquiry.subjectTag_related hR hcontext command) fun _ => hR.done _

theorem blockCount : Respects R allowed key Inquiry.blockCount :=
  fun _ _ command hcontext _ =>
    hR.bind (Inquiry.subjectTag_related hR hcontext command) fun _ => hR.done _

theorem textContent : Respects R allowed key Inquiry.textContent := by
  intro context context' command hcontext _
  refine hR.bind (Inquiry.subjectBlock_related hR hcontext command) fun found => ?_
  split <;> exact hR.done _

theorem undefinedTag : Respects R allowed key Target.undefinedTag :=
  fun _ _ _ _ _ => hR.done none

theorem renderText : Respects R allowed key Rendering.renderText := by
  intro context context' command hcontext _
  unfold Rendering.renderText
  split
  · exact hR.bind (hcontext.markup _ _) fun _ => hR.done none
  · exact hR.done none

/-- A tag hands on what its resolver proposes. -/
theorem renderTag : Respects R allowed key Rendering.renderTag := by
  intro context context' command hcontext _
  unfold Rendering.renderTag
  rw [← hcontext.resolvers, ← hcontext.target]
  split
  · exact hR.done none
  · dsimp only
    split
    · exact hR.done none
    · next resolver hfind =>
        refine hR.bind (Rendering.runSequence_related hR hcontext.isPublic _
          fun c hproposes hpublic => ?_) fun _ => hR.done none
        exact hcontext.dispatch _ (hcontext.proposals _ resolver hfind _ c hproposes hpublic _)

theorem fillTemplate : Respects R allowed key TaggedText.fillTemplate := by
  intro context context' command hcontext _
  unfold TaggedText.fillTemplate
  rw [← hcontext.templates]
  dsimp only
  split
  · exact hR.bind (hcontext.markup _ _) fun _ => hR.done none
  · next hfails => exact hR.bind (hcontext.failure _ _ _ hfails) fun _ => hR.done none

/-- A tree hands on what it holds. -/
theorem tree : Respects R allowed "tree" Target.tree := by
  intro context context' command hcontext hcommand
  have hholds := hcommand rfl
  have hblocks (hdefined : ∀ current, command.current = some current →
      current.isUndefined = false) :
      R (Target.renderBlocks context command.children)
        (Target.renderBlocks context' command.children) :=
    Target.renderBlocks_related hR fun block hblock c hc =>
      hcontext.dispatch c (hholds.child hdefined block hblock c hc)
  unfold Target.tree
  split
  · next hnone => exact hR.bind (hblocks (by simp [hnone])) fun _ => hR.done none
  · next current hsome =>
      split
      · exact hR.done none
      · next hundefined =>
          have hdefined : current.isUndefined = false := by simpa using hundefined
          -- The blocks only change the data of the current command.
          exact hR.bind (hblocks (by simpa [hsome] using hdefined)) fun blocks =>
            hcontext.dispatch _ (hholds.current current hsome hdefined _)

variable (hallowed : Command.AllowsRendering allowed)

include hallowed

theorem render : Respects R allowed key Rendering.render := by
  intro context context' command hcontext _
  unfold Rendering.render
  split
  · exact hR.done none
  · next subject hsubject =>
      refine hcontext.dispatch _ (hallowed.part command _ ?_)
      cases subject <;> simp

theorem renderDocument : Respects R allowed key Rendering.renderDocument := by
  intro context context' command hcontext _
  unfold Rendering.renderDocument
  split
  · exact hR.bind (Rendering.renderEach_related hR fun _ _ =>
      hcontext.dispatch _ (hallowed.render _)) fun _ => hR.done none
  · exact hR.done none

theorem renderBlock : Respects R allowed key Rendering.renderBlock := by
  intro context context' command hcontext _
  unfold Rendering.renderBlock
  split
  · exact hR.bind (Rendering.renderEach_related hR fun _ _ =>
      hcontext.dispatch _ (hallowed.render _)) fun _ => hR.done none
  · exact hR.done none

theorem getBlock : Respects R allowed key Inquiry.getBlock := by
  intro context context' command hcontext _
  refine hR.bind (Inquiry.subjectBlock_related hR hcontext command) fun found => ?_
  split
  · exact hR.done _
  · exact hR.bind (Inquiry.htmlPacketsOfNodes_related hR fun _ _ =>
      hcontext.dispatch _ (hallowed.render _)) fun _ => hR.done _

theorem getBlockChildNodes : Respects R allowed key Inquiry.getBlockChildNodes := by
  intro context context' command hcontext _
  have hnodes (subjects : List Subject) :
      R (Inquiry.htmlPacketsOfNodes context subjects)
        (Inquiry.htmlPacketsOfNodes context' subjects) :=
    Inquiry.htmlPacketsOfNodes_related hR fun _ _ => hcontext.dispatch _ (hallowed.render _)
  refine hR.bind (Inquiry.subjectBlock_related hR hcontext command) fun found => ?_
  split
  · exact hR.done _
  · split
    · exact hR.done _
    · dsimp only
      split
      · exact hR.bind (hnodes _) fun _ => hR.done _
      · exact hR.bind (hnodes _) fun _ => hR.done _

end

end Behaviour.Respects

/-! ### Registries -/

/-- Every entry of the table has the property, which may look at its key. -/
def Table.All {α : Type} (q : String → α → Prop) (t : Table α) : Prop :=
  ∀ key value, t.find? key = some value → q key value

section

variable {α : Type} {q : String → α → Prop}

theorem Table.all_empty : (Table.empty : Table α).All q :=
  nofun

theorem Table.All.insert {t : Table α} (h : t.All q) {key : String} {value : α}
    (hvalue : q key value) : (t.insert key value).All q := by
  intro key' value' hfind
  rw [Table.find?_insert] at hfind
  split at hfind
  · next heq =>
      cases hfind
      exact heq ▸ hvalue
  · exact h key' value' hfind

end

/-- The built-in interpreters, and those of composed documents. -/
def Registry.composing : Registry :=
  Registry.builtins
    |>.insert "tree" ⟨.isPublic, Target.tree⟩
    |>.insert "html" ⟨.isPublic, fillTemplate⟩
    |>.insert Command.undefinedName ⟨.isPublic, Target.undefinedTag⟩

theorem Registry.composing_extends : Registry.Extends .composing .builtins :=
  (((Registry.Extends.refl _).insert _ (by simp [Registry.builtins])).insert_self
    (by simp [Registry.builtins])).insert _ (by simp [Registry.builtins, Command.undefinedName])

theorem Registry.composing_find?_tree :
    Registry.composing.find? "tree" = some ⟨.isPublic, Target.tree⟩ := by
  simp [composing, Command.undefinedName]

/-- **All interpreters of the library respect every congruence.** -/
theorem Registry.composing_respects {R : Emitter.Relation} (hR : R.IsCongruence)
    {allowed : Command → Prop} (hallowed : Command.AllowsRendering allowed) :
    Registry.composing.All fun key i => i.behaviour.Respects R allowed key := by
  unfold composing builtins
  repeat' refine Table.All.insert ?_ ?_
  · exact Table.all_empty
  · exact .render hR hallowed
  · exact .renderDocument hR hallowed
  · exact .renderTag hR
  · exact .renderText hR
  · exact .renderBlock hR hallowed
  · exact .getParams hR
  · exact .getAttrs hR
  · exact .blockCount hR
  · exact .getBlock hR hallowed
  · exact .getBlockChildNodes hR hallowed
  · exact .textContent hR
  · exact .fillTemplate hR
  · exact .tree hR
  · exact .fillTemplate hR
  · exact .undefinedTag hR

end TaggedText
