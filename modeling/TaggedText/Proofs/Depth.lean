import TaggedText.Proofs.Dispatch.Rendered
import TaggedText.Proofs.Limits
import TaggedText.Proofs.Siblings

/-!
# The levels that a document takes

Where every resolver is a template, the nested dispatches of a rendering can be counted on the
document: four for a text, five for a tag, and three more for each block around it.  A strict engine
renders the document exactly if its limit is not below the greatest of these numbers, and otherwise
says that the limit was exceeded (`Engine.render_limited_iff`).

The numbers are read off as a list (`Node.needs`), and `Node.forall_needs_le_iff` ties its greatest
member to the levels that a rendering takes.  With that many levels the rendering goes through, by
what is known of templated tags.

The other direction is about a run that fails.  `Engine.Exceeds` says that a node stops for want of
levels, and `Engine.exceeds_of_lt` finds the first node that does.  It rests on one observation: a
tag sends its packets at the very end, when all of its blocks came back.  So a tag that stops for
want of levels has sent nothing, and its rendering is nothing but the stop; only among siblings
there may be packets in front of it.
-/

namespace TaggedText

/-! ### Levels read off a document -/

section

variable (resolved : Tag → Bool)

mutual

/-- The levels needed by what is rendered of a node with `around` blocks around it.  The blocks of a
tag that is not resolved are not rendered. -/
def Node.needs (around : Nat) : Node → List Nat
  | .text _ => [4 + 3 * around]
  | .tag tag => tag.needs around

/-- The levels needed by what is rendered of a tag, itself first. -/
def Tag.needs (around : Nat) : Tag → List Nat
  | ⟨name, params, attributes, blocks, span⟩ =>
    if resolved ⟨name, params, attributes, blocks, span⟩ then
      (5 + 3 * around) :: blocksNeeds (around + 1) blocks
    else [4 + 3 * around]

/-- The levels needed by what is rendered of some blocks, with `around` blocks around their nodes. -/
def blocksNeeds (around : Nat) : List Block → List Nat
  | [] => []
  | ⟨_, body⟩ :: rest => nodesNeeds around body ++ blocksNeeds around rest

/-- The levels needed by what is rendered of some nodes. -/
def nodesNeeds (around : Nat) : List Node → List Nat
  | [] => []
  | node :: rest => node.needs around ++ nodesNeeds around rest

end

end

/-- **The levels that a document needs**: two for itself, or what the most demanding of its nodes
needs.  A tag is resolved if the map knows its name. -/
def Document.need (d : Document) (resolvers : ResolverMap) : Nat :=
  (2 :: nodesNeeds (fun tag => resolvers.contains tag.name) 0 d.body).max (List.cons_ne_nil _ _)

section

variable {resolved : Tag → Bool} {rules : Rules} {around n limit : Nat}

theorem mem_nodesNeeds_iff {nodes : List Node} :
    n ∈ nodesNeeds resolved around nodes ↔ ∃ node ∈ nodes, n ∈ node.needs resolved around := by
  induction nodes with
  | nil => simp [nodesNeeds]
  | cons node rest ih => simp [nodesNeeds, ih]

theorem mem_blocksNeeds_iff {blocks : List Block} :
    n ∈ blocksNeeds resolved around blocks ↔
      ∃ block ∈ blocks, ∃ node ∈ block.body, n ∈ node.needs resolved around := by
  induction blocks with
  | nil => simp [blocksNeeds]
  | cons block rest ih =>
      obtain ⟨verbatim, body⟩ := block
      simp [blocksNeeds, mem_nodesNeeds_iff, ih]

theorem Node.needs_tag (tag : Tag) :
    (Node.tag tag).needs resolved around =
      if resolved tag then (5 + 3 * around) :: blocksNeeds resolved (around + 1) tag.blocks
      else [4 + 3 * around] := by
  obtain ⟨name, params, attributes, blocks, span⟩ := tag
  rw [Node.needs, Tag.needs]

theorem exists_of_lt_nodesLevels {nodes : List Node} (h : n < nodesLevels rules nodes) :
    ∃ node ∈ nodes, n < node.levels rules := by
  refine Classical.byContradiction fun hnone => absurd h (Nat.not_lt.mpr ?_)
  exact nodesLevels_le_iff.mpr fun node hnode => Nat.not_lt.mp fun hlt => hnone ⟨node, hnode, hlt⟩

theorem exists_of_lt_blocksLevels {blocks : List Block} (h : n < blocksLevels rules blocks) :
    ∃ block ∈ blocks, n < nodesLevels rules block.body := by
  refine Classical.byContradiction fun hnone => absurd h (Nat.not_lt.mpr ?_)
  exact blocksLevels_le_iff.mpr fun block hblock =>
    Nat.not_lt.mp fun hlt => hnone ⟨block, hblock, hlt⟩

/-- The levels that some blocks take are enough for each of their nodes. -/
theorem Node.levels_le_blocksLevels (rules : Rules) {blocks : List Block} {block : Block}
    {node : Node} (hblock : block ∈ blocks) (hnode : node ∈ block.body) :
    node.levels rules ≤ blocksLevels rules blocks :=
  nodesLevels_le_iff.mp (blocksLevels_le_iff.mp (Nat.le_refl _) block hblock) node hnode

/-- **The levels read off a node are those that its rendering takes**, with three for each block
around it and two for the document. -/
theorem Node.forall_needs_le_iff (hresolved : ∀ tag, resolved tag = (rules.tag tag).isSome)
    (node : Node) : ∀ around,
      (∀ n ∈ node.needs resolved around, n ≤ limit) ↔
        node.levels rules + 3 * around + 2 ≤ limit := by
  induction node using Node.induction with
  | text value =>
      intro around
      simp only [Node.needs, List.mem_singleton, forall_eq, levels_text]
      omega
  | tag tag ih =>
      intro around
      rw [Node.needs_tag, hresolved]
      cases hrule : rules.tag tag with
      | none =>
          simp only [Option.isSome_none, Bool.false_eq_true, if_false, List.mem_singleton,
            forall_eq, Node.levels_of_rule_none hrule]
          omega
      | some own =>
          simp only [Option.isSome_some, if_true, List.forall_mem_cons, mem_blocksNeeds_iff,
            Node.levels_of_rule_some hrule]
          constructor
          · rintro ⟨hown, hinside⟩
            have hblocks : blocksLevels rules tag.blocks ≤ limit - (5 + 3 * around) := by
              refine blocksLevels_le_iff.mpr fun block hblock => nodesLevels_le_iff.mpr ?_
              intro node hnode
              have hnode := (ih block hblock node hnode (around + 1)).mp fun n hn =>
                hinside n ⟨block, hblock, node, hnode, hn⟩
              omega
            omega
          · intro hlevels
            refine ⟨by omega, ?_⟩
            rintro n ⟨block, hblock, node, hnode, hn⟩
            have hle := Node.levels_le_blocksLevels rules hblock hnode
            exact (ih block hblock node hnode (around + 1)).mpr (by omega) n hn

/-- The levels that a document needs are those of its nodes, and two. -/
theorem Document.need_le_iff {d : Document} {resolvers : ResolverMap}
    (hresolved : ∀ tag : Tag, resolvers.contains tag.name = (rules.tag tag).isSome) :
    d.need resolvers ≤ limit ↔ nodesLevels rules d.body + 2 ≤ limit := by
  rw [Document.need, List.max_le_iff, List.forall_mem_cons]
  simp only [mem_nodesNeeds_iff]
  constructor
  · rintro ⟨htwo, hnodes⟩
    have hlevels : nodesLevels rules d.body ≤ limit - 2 := by
      refine nodesLevels_le_iff.mpr fun node hnode => ?_
      have hnode := (node.forall_needs_le_iff hresolved 0).mp fun n hn => hnodes n ⟨node, hnode, hn⟩
      omega
    omega
  · intro hlevels
    refine ⟨by omega, ?_⟩
    rintro n ⟨node, hnode, hn⟩
    have hle := nodesLevels_le_iff.mp (Nat.le_refl (nodesLevels rules d.body)) node hnode
    exact (node.forall_needs_le_iff hresolved 0).mpr (by omega) n hn

end

/-! ### Stopping for want of levels -/

variable {e : Engine} {find : String → Option Templated} {left : Nat}

namespace Rendering

variable {context : Context} {tag : Tag} {c : Command} {next : Option Json → Sequence}

/-- A public proposal that is a value at once goes into the next step. -/
theorem runSequence_of_done {value : Option Json} (hpublic : context.isPublic c.name = true)
    (hdispatch : context.dispatch (c.about tag) = .done value) :
    runSequence context tag (.propose c next) = runSequence context tag (next value) := by
  rw [runSequence, if_pos hpublic]
  show (Emitter.through errorGuard false (context.dispatch (c.about tag))).bind _ = _
  rw [hdispatch]
  rfl

/-- A public proposal that is a fault at once ends the tag with the fault. -/
theorem runSequence_of_fault {fault : Fault} (hpublic : context.isPublic c.name = true)
    (hdispatch : context.dispatch (c.about tag) = .stop (.fault fault)) :
    runSequence context tag (.propose c next) = .stop (.fault fault) := by
  rw [runSequence, if_pos hpublic]
  show (Emitter.through errorGuard false (context.dispatch (c.about tag))).bind _ = _
  rw [hdispatch]
  rfl

end Rendering

namespace Engine

/-- **A node whose rendering stops for want of levels**, and does nothing before that. -/
def Exceeds (e : Engine) (left : Nat) (node : Node) : Prop :=
  ∃ name, e.dispatchWithin left (.render (.ofNode node)) =
    .stop (.fault (.depthExceeded name e.maxDepth))

theorem RendersMarkup.not_exceeds {node : Node} (h : e.RendersMarkup find left node) :
    ¬ e.Exceeds left node := by
  rintro ⟨name, hname⟩
  rw [RendersMarkup, hname, Emitter.collect_stop] at h
  cases congrArg Prod.snd h

section

variable {nodes : List Node}
  (h : ∀ node ∈ nodes, e.RendersMarkup find left node ∨ e.Exceeds left node)
  (hexceeds : ∃ node ∈ nodes, e.Exceeds left node)

include h hexceeds

/-- If one of some nodes exceeds the levels, the inquiry about them stops at the first that does. -/
theorem exists_htmlPacketsOfNodes_eq_stop :
    ∃ name, Inquiry.htmlPacketsOfNodes (e.contextWithin left) (nodes.map .ofNode) =
      .stop (.fault (.depthExceeded name e.maxDepth)) := by
  induction nodes with
  | nil =>
      obtain ⟨node, hnode, -⟩ := hexceeds
      cases hnode
  | cons node rest ih =>
      rw [List.map_cons, Inquiry.htmlPacketsOfNodes_cons]
      show ∃ name, (Inquiry.kept (e.dispatchWithin left (.render (.ofNode node)))).bind _ = _
      rcases h node List.mem_cons_self with hnode | ⟨name, hname⟩
      · have hrest : ∃ node ∈ rest, e.Exceeds left node := by
          simpa [hnode.not_exceeds] using hexceeds
        obtain ⟨name, hname⟩ := ih (fun node hnode => h node (List.mem_cons_of_mem _ hnode)) hrest
        rw [RendersMarkup] at hnode
        rw [Inquiry.kept, hnode, hname]
        exact ⟨name, rfl⟩
      · rw [hname]
        exact ⟨name, rfl⟩

/-- So does their rendering, behind the packets of those in front of it. -/
theorem exists_renderEach_eq_fault :
    ∃ name, (Rendering.renderEach (e.contextWithin left) nodes).collect.2 =
      .error (.fault (.depthExceeded name e.maxDepth)) := by
  induction nodes with
  | nil =>
      obtain ⟨node, hnode, -⟩ := hexceeds
      cases hnode
  | cons node rest ih =>
      rw [Rendering.renderEach, Emitter.bind_eq]
      rcases h node List.mem_cons_self with hnode | ⟨name, hname⟩
      · have hrest : ∃ node ∈ rest, e.Exceeds left node := by
          simpa [hnode.not_exceeds] using hexceeds
        obtain ⟨name, hname⟩ := ih (fun node hnode => h node (List.mem_cons_of_mem _ hnode)) hrest
        have hcollect : ((e.contextWithin left).dispatch (.render (.ofNode node))).collect =
            ((node.emission (.markup e.templates find)).filter Packet.isHtml, .ok none) := hnode
        exact ⟨name, by rw [Emitter.collect_bind_ok hcollect, hname]⟩
      · exact ⟨name, congrArg Prod.snd
          (Emitter.collect_bind_error (congrArg Emitter.collect hname))⟩

end

section

variable (he : e.registry.Extends .builtins)

include he

/-! ### Tags -/

/-- A block does not come back if an inquiry about its nodes stops. -/
theorem dispatch_getBlock_of_stop {tag : Tag} {index : Nat} {block : Block} {i : Interrupt}
    (hblock : tag.blocks[index]? = some block)
    (hnodes : Inquiry.htmlPacketsOfNodes (e.contextWithin left) (block.body.map .ofNode) =
      .stop i) :
    e.dispatchWithin (left + 1) (.about tag { name := "getBlock", index := some index }) =
      .stop i := by
  rw [dispatchWithin_builtin he (.about tag { name := "getBlock", index := some index })
    (i := ⟨.isPublic, Inquiry.getBlock⟩) (by simp [Registry.builtins, Command.about])]
  simp [Inquiry.getBlock, Inquiry.subjectBlock, Inquiry.subjectTag, Command.tag?, Command.about,
    Tag.block?, hblock, hnodes]

section

variable {tag : Tag} (t : Templated)
  (h : ∀ block ∈ tag.blocks, ∀ node ∈ block.body,
    e.RendersMarkup find left node ∨ e.Exceeds left node)

include h

/-- Asking for the blocks from `index` on stops at the first in which a node exceeds the levels. -/
theorem exists_runSequence_askBlocks_eq_stop (params attributes : Json) :
    ∀ (remaining index : Nat) (texts : List String), index + remaining = tag.blocks.length →
      (∃ block ∈ tag.blocks.drop index, ∃ node ∈ block.body, e.Exceeds left node) →
        ∃ name, Rendering.runSequence (e.contextWithin (left + 1)) tag
            (t.askBlocks params attributes index texts remaining) =
          .stop (.fault (.depthExceeded name e.maxDepth)) := by
  intro remaining
  induction remaining with
  | zero =>
      intro index texts hlength hexceeds
      rw [List.drop_of_length_le (by omega)] at hexceeds
      obtain ⟨block, hblock, -⟩ := hexceeds
      cases hblock
  | succ remaining ih =>
      intro index texts hlength hexceeds
      have hlt : index < tag.blocks.length := by omega
      have hblock : tag.blocks[index]? = some tag.blocks[index] := List.getElem?_eq_getElem hlt
      have hnodes := h _ (List.getElem_mem hlt)
      have hpublic : (e.contextWithin (left + 1)).isPublic "getBlock" = true :=
        he.isPublic (by simp [Registry.builtins, Registry.isPublic])
      rw [Templated.askBlocks]
      by_cases hhere : ∃ node ∈ tag.blocks[index].body, e.Exceeds left node
      · obtain ⟨name, hname⟩ := exists_htmlPacketsOfNodes_eq_stop hnodes hhere
        exact ⟨name, Rendering.runSequence_of_fault hpublic
          (dispatch_getBlock_of_stop he hblock hname)⟩
      · have hrendered : ∀ node ∈ tag.blocks[index].body, e.RendersMarkup find left node :=
          fun node hnode => (hnodes node hnode).resolve_right fun hexceeds =>
            hhere ⟨node, hnode, hexceeds⟩
        rw [Rendering.runSequence_of_done hpublic
          (dispatch_getBlock he tag hblock (Inquiry.htmlPacketsOfNodes_eq hrendered))]
        refine ih (index + 1) _ (by omega) ?_
        rw [List.drop_eq_getElem_cons hlt] at hexceeds
        obtain ⟨block, hmem, hexceeds⟩ := hexceeds
        rcases List.mem_cons.mp hmem with rfl | hmem
        · exact absurd hexceeds hhere
        · exact ⟨block, hmem, hexceeds⟩

/-- So does the sequence of a template. -/
theorem exists_runSequence_sequence_eq_stop
    (hexceeds : ∃ block ∈ tag.blocks, ∃ node ∈ block.body, e.Exceeds left node) :
    ∃ name, Rendering.runSequence (e.contextWithin (left + 1)) tag t.sequence =
      .stop (.fault (.depthExceeded name e.maxDepth)) := by
  have hpublic : ∀ name, Registry.builtins.isPublic name = true →
      (e.contextWithin (left + 1)).isPublic name = true := fun name h => he.isPublic h
  rw [Templated.sequence,
    Rendering.runSequence_of_done (hpublic "getParams" (by simp [Registry.builtins,
      Registry.isPublic])) (dispatch_getParams he tag),
    Rendering.runSequence_of_done (hpublic "getAttrs" (by simp [Registry.builtins,
      Registry.isPublic])) (dispatch_getAttrs he tag),
    Rendering.runSequence_of_done (hpublic "blockCount" (by simp [Registry.builtins,
      Registry.isPublic])) (dispatch_blockCount he tag)]
  exact exists_runSequence_askBlocks_eq_stop he t h _ _ tag.blocks.length 0 []
    (Nat.zero_add _) hexceeds

end

/-! ### Nodes and documents -/

variable (hpolicy : e.policy = .strict)

include hpolicy

omit he in
/-- Without levels a strict engine dispatches nothing. -/
theorem dispatchWithin_zero (c : Command) :
    e.dispatchWithin 0 c = .stop (.fault (.depthExceeded c.name e.maxDepth)) := by
  rw [dispatchWithin, hpolicy]
  rfl

/-- No node is rendered with less than two levels. -/
theorem exceeds_of_lt_two (hleft : left < 2) (node : Node) : e.Exceeds left node := by
  match left, hleft with
  | 0, _ => exact ⟨_, dispatchWithin_zero hpolicy _⟩
  | 1, _ =>
      rw [Exceeds, dispatch_render he]
      cases node <;> exact ⟨_, dispatchWithin_zero hpolicy _⟩

variable (hfind : e.resolvers.Holds find)

include hfind

/-- **A node with too few levels stops for want of levels**, and does nothing before that. -/
theorem exceeds_of_lt (node : Node) :
    ∀ left, left < node.levels (.markup e.templates find) → e.Exceeds left node := by
  induction node using Node.induction with
  | text value =>
      intro left hleft
      exact exceeds_of_lt_two he hpolicy hleft _
  | tag tag ih =>
      intro left hleft
      by_cases htwo : left < 2
      · exact exceeds_of_lt_two he hpolicy htwo _
      obtain ⟨left, rfl⟩ : ∃ l, left = l + 2 := ⟨left - 2, by omega⟩
      cases hname : find tag.name with
      | none =>
          have hrule : (Rules.markup e.templates find).tag tag = none := by
            simp [Rules.markup, hname]
          rw [Node.levels_of_rule_none hrule] at hleft
          omega
      | some t =>
          have hrule : (Rules.markup e.templates find).tag tag = some fun texts =>
              [e.templates.packet t.template t.display (Templated.bindings (.array tag.paramValues)
                (.object tag.attributeFields) texts)] := by simp [Rules.markup, hname]
          rw [Node.levels_of_rule_some hrule] at hleft
          have hresolver : e.resolvers.find? tag.name = some t.resolver := by rw [hfind, hname]; rfl
          rw [Exceeds, Subject.ofNode, dispatch_renderTag_of_find?_some he hresolver]
          show ∃ name, (Rendering.runSequence (e.contextWithin left) tag t.sequence).bind _ = _
          have hsequence : ∃ name,
              Rendering.runSequence (e.contextWithin left) tag t.sequence =
                .stop (.fault (.depthExceeded name e.maxDepth)) := by
            cases left with
            | zero =>
                -- Not even the first proposal is dispatched.
                exact ⟨_, Rendering.runSequence_of_fault
                  (he.isPublic (by simp [Registry.builtins, Registry.isPublic]))
                  (dispatchWithin_zero hpolicy _)⟩
            | succ left =>
                have hnodes : ∀ block ∈ tag.blocks, ∀ node ∈ block.body,
                    e.RendersMarkup find left node ∨ e.Exceeds left node :=
                  fun block hblock node hnode =>
                    (Nat.lt_or_ge left (node.levels (.markup e.templates find))).symm.imp
                      (collect_render_node he hfind node left) (ih block hblock node hnode left)
                refine exists_runSequence_sequence_eq_stop he t hnodes ?_
                obtain ⟨block, hblock, hbody⟩ := exists_of_lt_blocksLevels
                  (show left < blocksLevels (.markup e.templates find) tag.blocks by omega)
                obtain ⟨node, hnode, hlt⟩ := exists_of_lt_nodesLevels hbody
                exact ⟨block, hblock, node, hnode, ih block hblock node hnode left hlt⟩
          obtain ⟨name, hname⟩ := hsequence
          exact ⟨name, by rw [hname]; rfl⟩

/-- **A document with too few levels gives the fault of exceeding the limit.** -/
theorem render_of_lt {d : Document}
    (hlevels : e.maxDepth < nodesLevels (.markup e.templates find) d.body + 2) :
    ∃ name, e.render d = .error (.depthExceeded name e.maxDepth) := by
  by_cases htwo : e.maxDepth < 2
  · match hdepth : e.maxDepth, htwo with
    | 0, _ =>
        refine ⟨"render", ?_⟩
        rw [render, dispatch, hdepth, dispatchWithin_zero hpolicy, hdepth]
        rfl
    | 1, _ =>
        refine ⟨"renderDocument", ?_⟩
        have hrender : e.dispatchWithin 1 (.render (.document d)) =
            .stop (.fault (.depthExceeded "renderDocument" e.maxDepth)) := by
          rw [dispatch_render he]
          exact dispatchWithin_zero hpolicy _
        rw [render, dispatch, hdepth, hrender, hdepth]
        rfl
  · obtain ⟨left, hleft⟩ : ∃ left, e.maxDepth = left + 2 := ⟨e.maxDepth - 2, by omega⟩
    have hnodes : ∀ node ∈ d.body, e.RendersMarkup find left node ∨ e.Exceeds left node :=
      fun node _ => (Nat.lt_or_ge left (node.levels (.markup e.templates find))).symm.imp
        (collect_render_node he hfind node left) (exceeds_of_lt he hpolicy hfind node left)
    obtain ⟨node, hnode, hlt⟩ := exists_of_lt_nodesLevels
      (show left < nodesLevels (.markup e.templates find) d.body by omega)
    obtain ⟨name, hname⟩ := exists_renderEach_eq_fault hnodes
      ⟨node, hnode, exceeds_of_lt he hpolicy hfind node left hlt⟩
    exact ⟨name, render_of_fault he hleft (Prod.ext rfl hname)⟩

end

/-- **A strict engine renders what it has the levels for.**  Where every resolver is a template, a
document is rendered if the limit is not below what it needs, and otherwise gives the fault of
exceeding the limit; no other fault occurs, whatever the templates do. -/
theorem render_limited_iff (e : Engine) (he : e.registry.Extends .builtins)
    (hresolvers : e.resolvers.IsTemplated) (d : Document) (limit : Nat) :
    ((∃ outcome, (e.limited .strict limit).render d = .ok outcome) ↔ d.need e.resolvers ≤ limit) ∧
      (limit < d.need e.resolvers →
        ∃ name, (e.limited .strict limit).render d = .error (.depthExceeded name limit)) := by
  obtain ⟨find, hfind⟩ := hresolvers.exists_holds
  have hresolved : ∀ tag : Tag, e.resolvers.contains tag.name =
      ((Rules.markup e.templates find).tag tag).isSome := by
    intro tag
    rw [Table.contains, hfind, Rules.markup, Option.isSome_map, Option.isSome_map]
  have hexceeds : limit < d.need e.resolvers →
      ∃ name, (e.limited .strict limit).render d = .error (.depthExceeded name limit) := by
    intro hlt
    have hlevels : ¬ nodesLevels (.markup e.templates find) d.body + 2 ≤ limit :=
      fun hle => absurd ((Document.need_le_iff hresolved).mpr hle) (Nat.not_le.mpr hlt)
    exact render_of_lt (e := e.limited .strict limit) he rfl hfind (Nat.not_le.mp hlevels)
  refine ⟨⟨?_, ?_⟩, hexceeds⟩
  · rintro ⟨outcome, houtcome⟩
    refine Nat.not_lt.mp fun hlt => ?_
    obtain ⟨name, hname⟩ := hexceeds hlt
    cases hname.symm.trans houtcome
  · intro hle
    exact ⟨_, render_eq_markup (e := e.limited .strict limit) he hfind d
      ((Document.need_le_iff hresolved).mp hle)⟩

end Engine

/-- An engine with the tags of the library, of which none can be filled in. -/
def Engine.unfilling : Engine where
  registry := Registry.builtins
  resolvers := TagSet.builtin.resolvers
  templates := fun _ _ => .error .unfillable

/-- A tag two blocks deep next to a text, and a tag that nothing resolves, with deeper ones in it. -/
def Document.uneven : Document where
  body := [.text "a",
    .tag { name := "b", blocks := [{ body := [] },
      { body := [.text "b", .tag { name := "i", blocks := [{ body := [.tag { name := "b" }] }] }] }] },
    .tag { name := "unknown", blocks := [{ body := [.tag { name := "b", blocks := [{ body :=
      [.tag { name := "b", blocks := [{ body := [.text "c"] }] }] }] }] }] }]

/-- It takes eleven levels, though all of its templates fail, and ten are too few. -/
theorem Engine.render_limited_iff_uneven :
    Engine.unfilling.registry.Extends .builtins ∧ Engine.unfilling.resolvers.IsTemplated ∧
      Document.uneven.need Engine.unfilling.resolvers = 11 ∧
      (∃ outcome, (Engine.unfilling.limited .strict 11).render .uneven = .ok outcome) ∧
      ∃ name, (Engine.unfilling.limited .strict 10).render .uneven =
        .error (.depthExceeded name 10) := by
  have hextends : Engine.unfilling.registry.Extends .builtins := .refl _
  have hresolvers : Engine.unfilling.resolvers.IsTemplated := TagSet.builtin.resolvers_isTemplated
  have hneed : Document.uneven.need Engine.unfilling.resolvers = 11 := by decide +kernel
  exact ⟨hextends, hresolvers, hneed,
    (Engine.render_limited_iff _ hextends hresolvers .uneven 11).1.mpr (Nat.le_of_eq hneed),
    (Engine.render_limited_iff _ hextends hresolvers .uneven 10).2 (by omega)⟩

end TaggedText
