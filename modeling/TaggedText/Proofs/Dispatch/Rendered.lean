import TaggedText.Proofs.Dispatch.Builtins

/-!
# Rendering a document by its templates

Where every resolver is a template and enough levels of dispatches are left, rendering a node gives
the markup of its emission, raises no fault and asks the policy nothing.

A template's sequence is walked once, with the block texts that came back so far as its state; what
it needs to know about blocks is only what `getBlock` returns for each index.  That in turn is the
markup of the nodes in the block, so `Engine.collect_render_node` is an induction over nodes in
which the hypothesis enters through one inquiry.  `Engine.render_eq_markup` is a whole document.
-/

namespace TaggedText

variable {e : Engine} {find : String → Option Templated} {left : Nat}

/-! ### Inquiries about a tag -/

/-- Asking about a tag: a command that a template proposes, with the tag as its subject. -/
def Command.about (tag : Tag) (command : Command) : Command :=
  { command with subject := some (.tag tag) }

namespace Engine

section

variable (he : e.registry.Extends .builtins) (tag : Tag)

include he

theorem dispatch_getParams :
    e.dispatchWithin (left + 1) (.about tag { name := "getParams" }) =
      .done (some (.array tag.paramValues)) :=
  dispatchWithin_builtin he (.about tag { name := "getParams" })
    (i := ⟨.isPublic, Inquiry.getParams⟩) (by simp [Registry.builtins, Command.about]) left

theorem dispatch_getAttrs :
    e.dispatchWithin (left + 1) (.about tag { name := "getAttrs" }) =
      .done (some (.object tag.attributeFields)) :=
  dispatchWithin_builtin he (.about tag { name := "getAttrs" })
    (i := ⟨.isPublic, Inquiry.getAttrs⟩) (by simp [Registry.builtins, Command.about]) left

theorem dispatch_blockCount :
    e.dispatchWithin (left + 1) (.about tag { name := "blockCount" }) =
      .done (some (.ofNat tag.blocks.length)) :=
  dispatchWithin_builtin he (.about tag { name := "blockCount" })
    (i := ⟨.isPublic, Inquiry.blockCount⟩) (by simp [Registry.builtins, Command.about]) left

/-- A block comes back as the markup of its nodes, one level further down. -/
theorem dispatch_getBlock {index : Nat} {block : Block} {packets : List (List Packet)}
    (hblock : tag.blocks[index]? = some block)
    (hnodes : Inquiry.htmlPacketsOfNodes (e.contextWithin left) (block.body.map .ofNode) =
      .done packets) :
    e.dispatchWithin (left + 1) (.about tag { name := "getBlock", index := some index }) =
      .done (some (.string (Inquiry.contents packets.flatten))) := by
  rw [dispatchWithin_builtin he (.about tag { name := "getBlock", index := some index })
    (i := ⟨.isPublic, Inquiry.getBlock⟩) (by simp [Registry.builtins, Command.about])]
  simp [Inquiry.getBlock, Inquiry.subjectBlock, Inquiry.subjectTag, Command.tag?, Command.about,
    Tag.block?, hblock, hnodes]

end

end Engine

/-! ### Nodes one after the other -/

/-- The nodes render to the markup of what they emit. -/
def Engine.RendersMarkup (e : Engine) (find : String → Option Templated) (left : Nat)
    (node : Node) : Prop :=
  (e.dispatchWithin left (.render (.ofNode node))).collect =
    ((node.emission (.markup e.templates find)).filter Packet.isHtml, .ok none)

theorem Inquiry.htmlPacketsOfNodes_eq {nodes : List Node}
    (h : ∀ node ∈ nodes, e.RendersMarkup find left node) :
    Inquiry.htmlPacketsOfNodes (e.contextWithin left) (nodes.map .ofNode) =
      .done (nodes.map fun node =>
        (node.emission (.markup e.templates find)).filter Packet.isHtml) := by
  induction nodes with
  | nil => rfl
  | cons node rest ih =>
      have hnode : Inquiry.htmlPackets (e.contextWithin left) (.ofNode node) =
          .done ((node.emission (.markup e.templates find)).filter Packet.isHtml) := by
        have hcollect := h node List.mem_cons_self
        rw [Engine.RendersMarkup] at hcollect
        simp [Inquiry.htmlPackets, Engine.contextWithin, hcollect, Emitter.ofResult,
          List.filter_filter]
      rw [List.map_cons, Inquiry.htmlPacketsOfNodes, hnode,
        ih fun node hnode => h node (List.mem_cons_of_mem _ hnode)]
      rfl

theorem Rendering.collect_renderEach {nodes : List Node}
    (h : ∀ node ∈ nodes, e.RendersMarkup find left node) :
    (Rendering.renderEach (e.contextWithin left) nodes).collect =
      ((nodesEmission (.markup e.templates find) nodes).filter Packet.isHtml, .ok ()) := by
  induction nodes with
  | nil => rfl
  | cons node rest ih =>
      have hnode : ((e.contextWithin left).dispatch (.render (.ofNode node))).collect =
          ((node.emission (.markup e.templates find)).filter Packet.isHtml, .ok none) :=
        h node List.mem_cons_self
      rw [Rendering.renderEach, Emitter.bind_eq, Emitter.collect_bind_ok hnode,
        ih fun node hnode => h node (List.mem_cons_of_mem _ hnode), nodesEmission,
        List.filter_append]

/-! ### The sequence of a template -/

theorem Inquiry.contents_flatten_map_filter (rules : Rules) (nodes : List Node) :
    Inquiry.contents
        (nodes.map fun node => (node.emission rules).filter Packet.isHtml).flatten =
      Packet.joined Packet.htmlName (nodesEmission rules nodes) := by
  rw [Packet.joined_htmlName, nodesEmission_eq_flatMap, List.filter_flatMap, List.flatMap]

namespace Engine

section

variable (he : e.registry.Extends .builtins) (tag : Tag) (t : Templated)

include he

/-- The last proposal: the filled template goes out, or its failure ends the tag unseen. -/
theorem collect_runSequence_fill (fields : List (String × Json)) :
    (Rendering.runSequence (e.contextWithin (left + 1)) tag
        (.propose { t.resolve with data := .object fields } fun _ => .done)).collect =
      ([e.templates.packet t.template t.display (.object fields)].filter Packet.isHtml,
        .ok ()) := by
  have hpublic : (e.contextWithin (left + 1)).isPublic "html" = true :=
    he.isPublic (by simp [Registry.builtins, Registry.isPublic])
  have hdispatch : e.dispatchWithin (left + 1)
        (.about tag { t.resolve with data := .object fields }) =
      (Emitter.send (e.templates.packet t.template t.display (.object fields))).bind
        fun _ => .done none := dispatch_html he rfl rfl left
  unfold TemplateEngine.packet at hdispatch ⊢
  cases hfilled : e.templates t.template (.object fields) with
  | ok rendered =>
      rw [hfilled] at hdispatch
      rw [Rendering.collect_runSequence_propose hpublic (congrArg Emitter.collect hdispatch)
        (by simp)]
      rfl
  | error fault =>
      rw [hfilled] at hdispatch
      rw [Rendering.collect_runSequence_of_error hpublic hdispatch]
      rfl

/-- Asking for the blocks from `index` on, with the texts of those before it at hand. -/
theorem collect_runSequence_askBlocks (params attributes : Json)
    (hblocks : ∀ block ∈ tag.blocks, ∀ node ∈ block.body, e.RendersMarkup find left node) :
    ∀ (remaining index : Nat), index + remaining = tag.blocks.length →
      (Rendering.runSequence (e.contextWithin (left + 1)) tag
          (t.askBlocks params attributes index
            ((tag.blocks.take index).map (Block.markup (.markup e.templates find)))
            remaining)).collect =
        ([e.templates.packet t.template t.display (Templated.bindings params attributes
            (tag.blocks.map (Block.markup (.markup e.templates find))))].filter Packet.isHtml,
          .ok ()) := by
  intro remaining
  induction remaining with
  | zero =>
      intro index hlength
      rw [List.take_of_length_le (by omega)]
      exact collect_runSequence_fill he tag t _
  | succ remaining ih =>
      intro index hlength
      have hlt : index < tag.blocks.length := by omega
      have hblock : tag.blocks[index]? = some tag.blocks[index] := List.getElem?_eq_getElem hlt
      have hpublic : (e.contextWithin (left + 1)).isPublic "getBlock" = true :=
        he.isPublic (by simp [Registry.builtins, Registry.isPublic])
      have hdispatch : e.dispatchWithin (left + 1)
            (.about tag { name := "getBlock", index := some index }) =
          .done (some (.string (tag.blocks[index].markup (.markup e.templates find)))) := by
        rw [dispatch_getBlock he tag hblock (Inquiry.htmlPacketsOfNodes_eq
            (hblocks _ (List.getElem_mem hlt))),
          Inquiry.contents_flatten_map_filter]
        rfl
      have hcollect := congrArg Emitter.collect hdispatch
      rw [Templated.askBlocks, Rendering.collect_runSequence_propose hpublic hcollect (by simp),
        List.nil_append]
      -- One text more is at hand when the next block is asked for.
      have hnext := ih (index + 1) (by omega)
      rw [List.take_add_one, hblock, List.map_append] at hnext
      exact hnext

/-- **The sequence of a template** renders its tag. -/
theorem collect_runSequence_sequence
    (hblocks : ∀ block ∈ tag.blocks, ∀ node ∈ block.body, e.RendersMarkup find left node) :
    (Rendering.runSequence (e.contextWithin (left + 1)) tag t.sequence).collect =
      ([e.templates.packet t.template t.display (Templated.bindings (.array tag.paramValues)
          (.object tag.attributeFields)
          (tag.blocks.map (Block.markup (.markup e.templates find))))].filter Packet.isHtml,
        .ok ()) := by
  have hpublic : ∀ name, Registry.builtins.isPublic name = true →
      (e.contextWithin (left + 1)).isPublic name = true := fun name h => he.isPublic h
  rw [Templated.sequence,
    Rendering.collect_runSequence_propose (hpublic "getParams" (by simp [Registry.builtins,
      Registry.isPublic])) (congrArg Emitter.collect (dispatch_getParams he tag)) (by simp),
    Rendering.collect_runSequence_propose (hpublic "getAttrs" (by simp [Registry.builtins,
      Registry.isPublic])) (congrArg Emitter.collect (dispatch_getAttrs he tag)) (by simp),
    Rendering.collect_runSequence_propose (hpublic "blockCount" (by simp [Registry.builtins,
      Registry.isPublic])) (congrArg Emitter.collect (dispatch_blockCount he tag)) (by simp)]
  exact collect_runSequence_askBlocks he tag t _ _ hblocks tag.blocks.length 0 (Nat.zero_add _)

end

/-! ### Nodes and documents -/

/-- **A node renders to the markup of what it emits**, where all its levels are left. -/
theorem collect_render_node (he : e.registry.Extends .builtins) (hfind : e.resolvers.Holds find)
    (node : Node) : ∀ left, node.levels (.markup e.templates find) ≤ left →
      e.RendersMarkup find left node := by
  induction node using Node.induction with
  | text value =>
      intro left hlevels
      obtain ⟨left, rfl⟩ : ∃ l, left = l + 2 := ⟨left - 2, by simp at hlevels; omega⟩
      rw [RendersMarkup, Subject.ofNode, dispatch_renderText he]
      rfl
  | tag tag ih =>
      intro left hlevels
      cases hname : find tag.name with
      | none =>
          have hrule : (Rules.markup e.templates find).tag tag = none := by
            simp [Rules.markup, hname]
          rw [Node.levels_of_rule_none hrule] at hlevels
          obtain ⟨left, rfl⟩ : ∃ l, left = l + 2 := ⟨left - 2, by omega⟩
          have hresolver : e.resolvers.find? tag.name = none := by rw [hfind, hname]; rfl
          rw [RendersMarkup, Subject.ofNode, dispatch_renderTag_of_find?_none he hresolver,
            Node.emission_of_rule_none hrule]
          rfl
      | some t =>
          have hrule : (Rules.markup e.templates find).tag tag = some fun texts =>
              [e.templates.packet t.template t.display (Templated.bindings (.array tag.paramValues)
                (.object tag.attributeFields) texts)] := by simp [Rules.markup, hname]
          rw [Node.levels_of_rule_some hrule] at hlevels
          -- Two levels down the sequence runs; a proposal takes one more.
          obtain ⟨left, rfl⟩ : ∃ l, left = l + 1 + 2 := ⟨left - 3, by omega⟩
          have hresolver : e.resolvers.find? tag.name = some t.resolver := by rw [hfind, hname]; rfl
          have hblocks : ∀ block ∈ tag.blocks, ∀ node ∈ block.body,
              e.RendersMarkup find left node := fun block hblock node hnode =>
            ih block hblock node hnode left (nodesLevels_le_iff.mp
              (blocksLevels_le_iff.mp (by omega) block hblock) node hnode)
          have hsequence : t.resolver.sequence ⟨e.target, tag⟩ = t.sequence := rfl
          rw [RendersMarkup, Subject.ofNode, dispatch_renderTag_of_find?_some he hresolver,
            hsequence,
            Emitter.collect_bind_ok (collect_runSequence_sequence he tag t hblocks),
            Node.emission_of_rule_some hrule, List.filter_append, Packet.filter_isHtml_filter_not,
            List.nil_append]
          simp

/-- **A document renders to the markup of what its nodes emit**, and raises no fault. -/
theorem render_eq_markup (he : e.registry.Extends .builtins) (hfind : e.resolvers.Holds find)
    (d : Document) (hlevels : nodesLevels (.markup e.templates find) d.body + 2 ≤ e.maxDepth) :
    e.render d =
      .ok ⟨(nodesEmission (.markup e.templates find) d.body).filter Packet.isHtml, none⟩ := by
  obtain ⟨left, hleft⟩ : ∃ l, e.maxDepth = l + 2 := ⟨e.maxDepth - 2, by omega⟩
  have hnodes : ∀ node ∈ d.body, e.RendersMarkup find left node := fun node hnode =>
    collect_render_node he hfind node left (nodesLevels_le_iff.mp (by omega) node hnode)
  have hcollect : (e.dispatchWithin e.maxDepth (.render (.document d))).collect =
      ((nodesEmission (.markup e.templates find) d.body).filter Packet.isHtml, .ok none) := by
    rw [hleft, dispatch_renderDocument he,
      Emitter.collect_bind_ok (Rendering.collect_renderEach hnodes)]
    simp
  rw [render, dispatch, hcollect]

end Engine

end TaggedText
