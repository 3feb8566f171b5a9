import TaggedText.Proofs.Dispatch.CutOff
import TaggedText.Proofs.Document.Tags

/-!
# The scope of a command

A command is about a part of a document, and the interpreters of the library dispatch nothing that
is about anything else.  So the names of the tags that come up under a command are among those that
it starts with, and a resolver for another name is never looked for.

* **Within a scope.**  `Command.Within` is a command that is about tags with known names alone, and
  `Subject.tags` is where these are read off.
* **Blind and local behaviours.**  One that does not look at the resolvers at all is blind
  (`Behaviour.IsBlind`), and of all interpreters of the library only the one that renders tags is
  not.  That one looks for the name of its tag, and so it is local (`Behaviour.IsLocal`).
* **Proposals.**  What a resolver proposes is made to be about its tag, but the commands that a
  proposal holds as a tree stay as they are.  A proposal that holds none is within the scope of the
  tag, and this is what is asked of resolvers here.

`Engine.dispatchWithin_congr_resolvers` then is an induction over levels: resolvers of other names
make no difference to a dispatch.
-/

namespace TaggedText

variable {known : String → Prop}

/-! ### Parts of documents -/

/-- The tags of a part of a document, at any depth. -/
def Subject.tags : Subject → List Tag
  | .document d => d.tags
  | .tag t => t.tags
  | .text _ => []
  | .block b => nodesTags b.body

/-- All tags of the part have known names. -/
def Subject.Within (known : String → Prop) (subject : Subject) : Prop :=
  ∀ tag ∈ subject.tags, known tag.name

theorem Subject.Within.text (value : String) : (Subject.text value).Within known :=
  nofun

/-- Nodes have known names if their tags have. -/
theorem Subject.within_ofNode {nodes : List Node} (h : ∀ tag ∈ nodesTags nodes, known tag.name)
    {node : Node} (hnode : node ∈ nodes) : (Subject.ofNode node).Within known := by
  intro tag htag
  refine h tag (mem_nodesTags_of_mem hnode ?_)
  cases node <;> exact htag

theorem Subject.within_of_mem_map {nodes : List Node} (h : ∀ tag ∈ nodesTags nodes, known tag.name)
    {subject : Subject} (hsubject : subject ∈ nodes.map .ofNode) : subject.Within known := by
  obtain ⟨node, hnode, rfl⟩ := List.mem_map.mp hsubject
  exact within_ofNode h hnode

theorem Subject.Within.name {tag : Tag} (h : (Subject.tag tag).Within known) : known tag.name :=
  h tag (Tag.mem_tags_iff.mpr (.inl rfl))

theorem Subject.Within.block {tag : Tag} (h : (Subject.tag tag).Within known) {block : Block}
    (hblock : block ∈ tag.blocks) : (Subject.block block).Within known :=
  fun t ht => h t (Tag.mem_tags_of_mem_block hblock ht)

/-! ### Commands -/

/-- **The command is about tags with known names alone**, and so is every command that it holds. -/
inductive Command.Within (known : String → Prop) : Command → Prop
  | intro {c : Command} :
      (∀ subject, c.subject = some subject → subject.Within known) →
      (∀ current, c.current = some current → Within known current) →
      (∀ block ∈ c.children, ∀ child ∈ block, Within known child) → Within known c

/-- The command holds no others. -/
structure Command.IsBare (c : Command) : Prop where
  current : c.current = none
  children : c.children = []

namespace Command.Within

variable {c : Command}

theorem subject (h : c.Within known) {subject : Subject} (hsubject : c.subject = some subject) :
    subject.Within known := by
  cases h with
  | intro h _ _ => exact h subject hsubject

theorem current (h : c.Within known) {current : Command} (hcurrent : c.current = some current) :
    current.Within known := by
  cases h with
  | intro _ h _ => exact h current hcurrent

theorem child (h : c.Within known) {block : List Command} (hblock : block ∈ c.children)
    {child : Command} (hchild : child ∈ block) : child.Within known := by
  cases h with
  | intro _ _ h => exact h block hblock child hchild

theorem tag (h : c.Within known) {tag : Tag} (htag : c.tag? = some tag) :
    (Subject.tag tag).Within known := by
  unfold Command.tag? at htag
  split at htag
  · next hsubject =>
      cases htag
      exact h.subject hsubject
  · cases htag

/-- The scope depends on the subject and on the commands that are held. -/
theorem congr {c' : Command} (h : c.Within known) (hsubject : c'.subject = c.subject)
    (hcurrent : c'.current = c.current) (hchildren : c'.children = c.children) :
    c'.Within known :=
  .intro (fun _ hsome => h.subject (hsubject ▸ hsome)) (fun _ hsome => h.current (hcurrent ▸ hsome))
    fun _ hblock _ hchild => h.child (hchildren ▸ hblock) hchild

/-- A bare command about a part of a document has that part as its scope. -/
theorem of_isBare (hbare : c.IsBare)
    (h : ∀ subject, c.subject = some subject → subject.Within known) : c.Within known := by
  refine .intro h ?_ ?_
  · rw [hbare.current]
    exact nofun
  · rw [hbare.children]
    exact nofun

theorem render {subject : Subject} (h : subject.Within known) :
    (Command.render subject).Within known :=
  of_isBare ⟨rfl, rfl⟩ fun _ hsome => Option.some.inj hsome ▸ h

/-- A bare proposal of a tag is about the tag. -/
theorem proposal (hbare : c.IsBare) {tag : Tag} (h : (Subject.tag tag).Within known) :
    { c with subject := some (.tag tag) }.Within known :=
  of_isBare ⟨hbare.current, hbare.children⟩ fun _ hsome => Option.some.inj hsome ▸ h

/-- Where every name is known, every command is in scope. -/
theorem of_forall (h : ∀ name, known name) : ∀ c : Command, c.Within known
  | ⟨_, _, _, _, _, _, _, _, current, children⟩ =>
    .intro (fun _ _ tag _ => h tag.name) (fun held _ => of_forall h held)
      fun _ _ child _ => of_forall h child
termination_by c => sizeOf c
decreasing_by
  · rename_i hheld
    obtain rfl : current = some held := hheld
    simp only [Command.mk.sizeOf_spec, Option.some.sizeOf_spec]
    omega
  · rename_i hblock hchild
    have hlt := List.sizeOf_lt_of_mem hchild
    have hlt' := List.sizeOf_lt_of_mem (show _ ∈ children from hblock)
    simp only [Command.mk.sizeOf_spec]
    omega

end Command.Within

/-! ### Blind behaviours -/

/-- **A behaviour that does not look at the resolvers**, and dispatches nothing that its command is
not about. -/
def Behaviour.IsBlind (behaviour : Behaviour) : Prop :=
  ∀ (known : String → Prop) (context : Context) (resolvers : ResolverMap)
    (dispatch : Command → Emitter (Option Json)) (command : Command),
    (∀ c, c.Within known → context.dispatch c = dispatch c) → command.Within known →
      behaviour context command =
        behaviour { context with resolvers := resolvers, dispatch := dispatch } command

/-- The block that a command is about is a block of its tag. -/
theorem Inquiry.subjectBlock_bind_congr {α : Type} {context : Context} {command : Command}
    {f g : Option Block → Emitter α} (hcommand : command.Within known) (hnone : f none = g none)
    (hblock : ∀ block, (Subject.block block).Within known → f (some block) = g (some block)) :
    (subjectBlock context command).bind f = (subjectBlock context command).bind g := by
  have hsettle (fault : Fault) :
      (context.policy.settle fault).bind f = (context.policy.settle fault).bind g := by
    unfold Policy.settle
    split
    · exact hnone
    · rfl
  unfold subjectBlock subjectTag
  cases htag : command.tag? with
  | none =>
      unfold Policy.settle
      cases context.policy
      · exact hnone
      · rfl
  | some tag =>
      cases hfind : tag.block? (command.index.getD 0) with
      | none => simpa [hfind] using hsettle _
      | some block =>
          have hmem : block ∈ tag.blocks := List.mem_of_getElem? hfind
          simpa [hfind] using hblock block ((hcommand.tag htag).block hmem)

namespace Behaviour.IsBlind

open Emitter.Relation (isCongruence_eq)

theorem render : IsBlind Rendering.render := by
  intro known context resolvers dispatch command hdispatch hcommand
  unfold Rendering.render
  split
  · rfl
  · exact hdispatch _ (hcommand.congr rfl rfl rfl)

theorem renderDocument : IsBlind Rendering.renderDocument := by
  intro known context resolvers dispatch command hdispatch hcommand
  unfold Rendering.renderDocument
  split
  · next document hsubject =>
      refine isCongruence_eq.bind (Rendering.renderEach_related isCongruence_eq
        fun node hnode => ?_) fun _ => rfl
      exact hdispatch _ (.render (Subject.within_ofNode (hcommand.subject hsubject) hnode))
  · rfl

theorem renderBlock : IsBlind Rendering.renderBlock := by
  intro known context resolvers dispatch command hdispatch hcommand
  unfold Rendering.renderBlock
  split
  · next block hsubject =>
      refine isCongruence_eq.bind (Rendering.renderEach_related isCongruence_eq
        fun node hnode => ?_) fun _ => rfl
      exact hdispatch _ (.render (Subject.within_ofNode (hcommand.subject hsubject) hnode))
  · rfl

theorem getBlock : IsBlind Inquiry.getBlock := by
  intro known context resolvers dispatch command hdispatch hcommand
  refine Inquiry.subjectBlock_bind_congr hcommand rfl fun block hblock => ?_
  refine isCongruence_eq.bind (Inquiry.htmlPacketsOfNodes_related isCongruence_eq
    fun subject hsubject => ?_) fun _ => rfl
  exact hdispatch _ (.render (Subject.within_of_mem_map hblock hsubject))

theorem getBlockChildNodes : IsBlind Inquiry.getBlockChildNodes := by
  intro known context resolvers dispatch command hdispatch hcommand
  refine Inquiry.subjectBlock_bind_congr hcommand rfl fun block hblock => ?_
  have hnodes (subjects : List Subject) (hsubjects : ∀ subject ∈ subjects, subject.Within known) :
      Inquiry.htmlPacketsOfNodes context subjects = Inquiry.htmlPacketsOfNodes
        { context with resolvers := resolvers, dispatch := dispatch } subjects :=
    Inquiry.htmlPacketsOfNodes_related isCongruence_eq fun subject hsubject =>
      hdispatch _ (.render (hsubjects subject hsubject))
  have hbody : ∀ subject ∈ block.body.map Subject.ofNode, subject.Within known :=
    fun _ hsubject => Subject.within_of_mem_map hblock hsubject
  have htext : ∀ subject ∈ .text "" :: block.body.map Subject.ofNode, subject.Within known :=
    List.forall_mem_cons.mpr ⟨.text "", hbody⟩
  dsimp only
  split
  · rfl
  · split
    · refine isCongruence_eq.bind (hnodes _ ?_) fun _ => rfl
      split
      · exact hbody
      · exact htext
    · exact isCongruence_eq.bind (hnodes _ hbody) fun _ => rfl

theorem tree : IsBlind Target.tree := by
  intro known context resolvers dispatch command hdispatch hcommand
  have hblocks : Target.renderBlocks context command.children = Target.renderBlocks
      { context with resolvers := resolvers, dispatch := dispatch } command.children :=
    Target.renderBlocks_related isCongruence_eq fun _ hblock c hc =>
      hdispatch c (hcommand.child hblock hc)
  unfold Target.tree
  split
  · rw [hblocks]
  · next current hcurrent =>
      split
      · rfl
      · refine isCongruence_eq.bind hblocks fun _ => hdispatch _ ?_
        exact (hcommand.current hcurrent).congr rfl rfl rfl

/-- What only answers or sends is blind. -/
theorem of_forall {behaviour : Behaviour} (h : ∀ (context : Context) (resolvers : ResolverMap)
    (dispatch : Command → Emitter (Option Json)) (command : Command),
    behaviour context command =
      behaviour { context with resolvers := resolvers, dispatch := dispatch } command) :
    IsBlind behaviour :=
  fun _ context resolvers dispatch command _ _ => h context resolvers dispatch command

end Behaviour.IsBlind

theorem Registry.html_blind_or :
    Registry.html.All fun _ i => i.behaviour.IsBlind ∨ i.behaviour = Rendering.renderTag := by
  unfold html builtins
  repeat' refine Table.All.insert ?_ ?_
  · exact Table.all_empty
  · exact .inl .render
  · exact .inl .renderDocument
  · exact .inr rfl
  · exact .inl (.of_forall fun _ _ _ _ => rfl)
  · exact .inl .renderBlock
  · exact .inl (.of_forall fun _ _ _ _ => rfl)
  · exact .inl (.of_forall fun _ _ _ _ => rfl)
  · exact .inl (.of_forall fun _ _ _ _ => rfl)
  · exact .inl .getBlock
  · exact .inl .getBlockChildNodes
  · exact .inl (.of_forall fun _ _ _ _ => rfl)
  · exact .inl (.of_forall fun _ _ _ _ => rfl)
  · exact .inl .tree
  · exact .inl (.of_forall fun _ _ _ _ => rfl)
  · exact .inl (.of_forall fun _ _ _ _ => rfl)

theorem Registry.text_blind : Registry.text.All fun _ i => i.behaviour.IsBlind := by
  unfold text
  repeat' refine Table.All.insert ?_ ?_
  · exact Table.all_empty
  · exact .tree
  all_goals exact .of_forall fun _ _ _ _ => rfl

/-- **Of all interpreters of the library, only the one that renders tags looks at the
resolvers.** -/
theorem Behaviour.IsOwn.blind_or {behaviour : Behaviour} (h : behaviour.IsOwn) :
    behaviour.IsBlind ∨ behaviour = Rendering.renderTag := by
  obtain ⟨name, i, hfind | hfind, rfl⟩ := h
  · exact Registry.html_blind_or name i hfind
  · exact .inl (Registry.text_blind name i hfind)

/-! ### Local behaviours -/

/-- **A behaviour that looks for the resolvers of known names alone**, where its command is about
tags with known names, and resolvers propose nothing that holds other commands. -/
def Behaviour.IsLocal (behaviour : Behaviour) : Prop :=
  ∀ (known : String → Prop) (context : Context) (resolvers : ResolverMap)
    (dispatch : Command → Emitter (Option Json)) (command : Command),
    (∀ name, known name → context.resolvers.find? name = resolvers.find? name) →
      context.resolvers.ProposesOnly Command.IsBare →
      (∀ c, c.Within known → context.dispatch c = dispatch c) → command.Within known →
        behaviour context command =
          behaviour { context with resolvers := resolvers, dispatch := dispatch } command

theorem Behaviour.IsBlind.isLocal {behaviour : Behaviour} (h : behaviour.IsBlind) :
    behaviour.IsLocal :=
  fun known context resolvers dispatch command _ _ => h known context resolvers dispatch command

/-- A tag looks for its own name. -/
theorem Behaviour.IsLocal.renderTag : IsLocal Rendering.renderTag := by
  intro known context resolvers dispatch command hresolvers hproposes hdispatch hcommand
  unfold Rendering.renderTag
  split
  · rfl
  · next tag htag =>
      have hscope := hcommand.tag htag
      have hfind := hresolvers tag.name hscope.name
      dsimp only
      rw [← hfind]
      split
      · rfl
      · next resolver hsome =>
          have hrun (s : Sequence) (hs : ∀ c, s.Proposes c → c.IsBare) :
              Rendering.runSequence context tag s = Rendering.runSequence
                { context with resolvers := resolvers, dispatch := dispatch } tag s :=
            Rendering.runSequence_related Emitter.Relation.isCongruence_eq (by rfl) tag
              fun c hc _ => hdispatch _ (.proposal (hs c hc) hscope)
          rw [hrun _ (hproposes tag.name resolver hsome _)]

/-- **The interpreters of the library are local.** -/
theorem Behaviour.IsOwn.isLocal {behaviour : Behaviour} (h : behaviour.IsOwn) :
    behaviour.IsLocal := by
  rcases h.blind_or with hblind | rfl
  · exact hblind.isLocal
  · exact .renderTag

/-- **Resolvers of other names make no difference to a dispatch.** -/
theorem Engine.dispatchWithin_congr_resolvers {e : Engine}
    (hothers : e.registry.All fun _ i => i.behaviour.IsOwn ∨ i.behaviour.IsLocal)
    {resolvers : ResolverMap}
    (hresolvers : ∀ name, known name → e.resolvers.find? name = resolvers.find? name)
    (hproposes : e.resolvers.ProposesOnly Command.IsBare) (left : Nat) {c : Command}
    (hc : c.Within known) :
    e.dispatchWithin left c = { e with resolvers := resolvers }.dispatchWithin left c := by
  induction left generalizing c with
  | zero => rfl
  | succ left ih =>
      cases hfind : e.registry.find? c.name with
      | none => simp only [dispatchWithin, hfind]
      | some i =>
          have hlocal : i.behaviour.IsLocal :=
            (hothers c.name i hfind).elim Behaviour.IsOwn.isLocal id
          have hfind' : { e with resolvers := resolvers }.registry.find? c.name = some i := hfind
          -- One level down the two engines agree on what is in scope.
          have hdispatch : ∀ c, c.Within known → (e.contextWithin left).dispatch c =
              { e with resolvers := resolvers }.dispatchWithin left c := fun _ hc => ih hc
          rw [dispatchWithin_succ hfind, dispatchWithin_succ hfind']
          exact hlocal known (e.contextWithin left) resolvers _ c hresolvers hproposes hdispatch hc

end TaggedText
