import TaggedText.Proofs.Agreement
import TaggedText.Proofs.Document.Tags

/-!
# Deleting what a tag set does not define

A tag that nothing defines disappears with its body.  The document from which all such tags are
deleted (`Document.keeping`) is rendered to the same output, and so is the command that is composed
from it.

An unknown tag has no resolver when it is rendered, and is described as undefined when it is
composed; on the two targets different interpreters pass over it.  The rules of the emission have
one case for all of these, and there the deletion is gone through once: `nodesEmission_keeping`
needs no more than that the rules go by names and headers, and have nothing for an unknown tag
(`Rules.Knows`).  `Printer.outputs_keeping` is then three instances of it, with the nesting of what
is left as the side condition.

Deletion does what its name says.  What is left is known, and where all tags are known everything is
left (`Document.name_known_of_mem_tags_keeping`, `Document.keeping_of_known`).
-/

namespace TaggedText

/-! ### Documents without unknown tags -/

section

variable (known : String → Bool)

mutual

/-- What is left of a node: nothing of an unknown tag. -/
def Node.keeping : Node → List Node
  | .text value => [.text value]
  | .tag tag => tag.keeping

/-- What is left of a tag: it goes with its body, or it stays with what is left of its blocks. -/
def Tag.keeping : Tag → List Node
  | ⟨name, params, attributes, blocks, span⟩ =>
    if known name then [.tag ⟨name, params, attributes, blocksKeeping blocks, span⟩] else []

/-- What is left of some blocks.  A block stays, even if nothing in it does. -/
def blocksKeeping : List Block → List Block
  | [] => []
  | ⟨verbatim, body⟩ :: rest => ⟨verbatim, nodesKeeping body⟩ :: blocksKeeping rest

/-- What is left of some nodes. -/
def nodesKeeping : List Node → List Node
  | [] => []
  | node :: rest => node.keeping ++ nodesKeeping rest

end

/-- **The document with its known tags alone**: every other tag, at any depth, is deleted with its
body. -/
def Document.keeping (d : Document) : Document :=
  ⟨nodesKeeping known d.body⟩

/-- What is left of a block. -/
def Block.keeping (block : Block) : Block :=
  ⟨block.verbatim, nodesKeeping known block.body⟩

end

section

variable {known : String → Bool}

theorem nodesKeeping_eq_flatMap (nodes : List Node) :
    nodesKeeping known nodes = nodes.flatMap (Node.keeping known) := by
  induction nodes with
  | nil => rfl
  | cons node rest ih => rw [nodesKeeping, ih, List.flatMap_cons]

theorem blocksKeeping_eq_map (blocks : List Block) :
    blocksKeeping known blocks = blocks.map (Block.keeping known) := by
  induction blocks with
  | nil => rfl
  | cons block rest ih =>
      obtain ⟨verbatim, body⟩ := block
      rw [blocksKeeping, ih, List.map_cons, Block.keeping]

theorem Node.keeping_of_unknown {tag : Tag} (h : known tag.name = false) :
    (Node.tag tag).keeping known = [] := by
  obtain ⟨name, params, attributes, blocks, span⟩ := tag
  simp only [Node.keeping, Tag.keeping, h, Bool.false_eq_true, if_false]

theorem Node.keeping_of_known {tag : Tag} (h : known tag.name = true) :
    (Node.tag tag).keeping known =
      [.tag { tag with blocks := tag.blocks.map (Block.keeping known) }] := by
  obtain ⟨name, params, attributes, blocks, span⟩ := tag
  simp only [Node.keeping, Tag.keeping, h, if_true, blocksKeeping_eq_map]

/-! ### What is left -/

mutual

theorem Node.name_known_of_mem_tags_keeping {t : Tag} :
    ∀ node : Node, t ∈ nodesTags (node.keeping known) → known t.name = true
  | .text _, ht => by simp [Node.keeping, nodesTags, Node.tags] at ht
  | .tag ⟨name, params, attributes, blocks, span⟩, ht => by
      rw [Node.keeping, Tag.keeping] at ht
      split at ht
      · next hname =>
          rw [nodesTags, nodesTags, List.append_nil, Node.tags, Tag.mem_tags_iff] at ht
          rcases ht with rfl | hinside
          · exact hname
          · exact name_known_of_mem_blocksTags_keeping blocks hinside
      · cases ht

theorem name_known_of_mem_blocksTags_keeping {t : Tag} :
    ∀ blocks : List Block, t ∈ blocksTags (blocksKeeping known blocks) → known t.name = true
  | [], ht => by cases ht
  | ⟨_, body⟩ :: rest, ht => by
      rw [blocksKeeping, blocksTags, List.mem_append] at ht
      rcases ht with hbody | hrest
      · exact name_known_of_mem_nodesTags_keeping body hbody
      · exact name_known_of_mem_blocksTags_keeping rest hrest

theorem name_known_of_mem_nodesTags_keeping {t : Tag} :
    ∀ nodes : List Node, t ∈ nodesTags (nodesKeeping known nodes) → known t.name = true
  | [], ht => by cases ht
  | node :: rest, ht => by
      rw [nodesKeeping, nodesTags_append, List.mem_append] at ht
      rcases ht with hnode | hrest
      · exact node.name_known_of_mem_tags_keeping hnode
      · exact name_known_of_mem_nodesTags_keeping rest hrest

end

/-- Every tag that is left is known. -/
theorem Document.name_known_of_mem_tags_keeping {d : Document} {t : Tag}
    (h : t ∈ (d.keeping known).tags) : known t.name = true :=
  name_known_of_mem_nodesTags_keeping d.body h

mutual

theorem Node.keeping_eq_singleton :
    ∀ node : Node, (∀ t ∈ node.tags, known t.name = true) → node.keeping known = [node]
  | .text _, _ => rfl
  | .tag ⟨name, params, attributes, blocks, span⟩, h => by
      have hname : known name = true := h _ (Tag.mem_tags_iff.mpr (.inl rfl))
      rw [Node.keeping, Tag.keeping, if_pos hname,
        blocksKeeping_of_known blocks fun t ht => h t (Tag.mem_tags_iff.mpr (.inr ht))]

theorem blocksKeeping_of_known :
    ∀ blocks : List Block, (∀ t ∈ blocksTags blocks, known t.name = true) →
      blocksKeeping known blocks = blocks
  | [], _ => rfl
  | ⟨_, body⟩ :: rest, h => by
      rw [blocksKeeping,
        nodesKeeping_of_known body fun t ht => h t (List.mem_append_left _ ht),
        blocksKeeping_of_known rest fun t ht => h t (List.mem_append_right _ ht)]

theorem nodesKeeping_of_known :
    ∀ nodes : List Node, (∀ t ∈ nodesTags nodes, known t.name = true) →
      nodesKeeping known nodes = nodes
  | [], _ => rfl
  | node :: rest, h => by
      rw [nodesKeeping, node.keeping_eq_singleton fun t ht => h t (List.mem_append_left _ ht),
        nodesKeeping_of_known rest fun t ht => h t (List.mem_append_right _ ht)]
      rfl

end

/-- A document whose tags are all known stays as it is. -/
theorem Document.keeping_of_known {d : Document} (h : ∀ t ∈ d.tags, known t.name = true) :
    d.keeping known = d := by
  rw [Document.keeping, nodesKeeping_of_known d.body h]

/-- What is left of nodes nests no deeper, if that is so of each. -/
theorem nodesNesting_keeping_le_of_forall {weight : Bool → Nat} {nodes : List Node}
    (h : ∀ node ∈ nodes, nodesNesting weight (node.keeping known) ≤ node.nesting weight) :
    nodesNesting weight (nodesKeeping known nodes) ≤ nodesNesting weight nodes := by
  rw [nodesKeeping_eq_flatMap, nodesNesting_le_iff]
  intro left hleft
  obtain ⟨node, hnode, hkept⟩ := List.mem_flatMap.mp hleft
  have hle := nodesNesting_le_iff.mp (h node hnode) left hkept
  have hnodes := nodesNesting_le_iff.mp (Nat.le_refl (nodesNesting weight nodes)) node hnode
  omega

/-- Nothing nests deeper for what is deleted. -/
theorem Node.nesting_keeping_le (weight : Bool → Nat) (node : Node) :
    nodesNesting weight (node.keeping known) ≤ node.nesting weight := by
  induction node using Node.induction with
  | text value => simp [Node.keeping, nodesNesting]
  | tag tag ih =>
      cases hname : known tag.name with
      | false => simp [Node.keeping_of_unknown hname, nodesNesting]
      | true =>
          rw [Node.keeping_of_known hname, nodesNesting, nodesNesting, Nat.max_zero,
            Node.nesting_tag_le_iff]
          intro kept hkept
          obtain ⟨block, hblock, rfl⟩ := List.mem_map.mp hkept
          have hbody := nodesNesting_keeping_le_of_forall (ih block hblock)
          have hle := Node.nesting_tag_le_iff.mp (Nat.le_refl ((Node.tag tag).nesting weight))
            block hblock
          simp only [Block.keeping]
          omega

theorem Document.nesting_keeping_le (weight : Bool → Nat) (d : Document) :
    (d.keeping known).nesting weight ≤ d.nesting weight :=
  nodesNesting_keeping_le_of_forall fun node _ => node.nesting_keeping_le weight

end

/-! ### The emission of what is left -/

/-- **The rules go by the name and the header of a tag**, and have nothing for an unknown tag. -/
structure Rules.Knows (rules : Rules) (known : String → Bool) : Prop where
  unknown : ∀ tag : Tag, known tag.name = false → rules.tag tag = none
  header : ∀ (tag : Tag) (blocks : List Block),
    rules.tag { tag with blocks := blocks } = rules.tag tag

theorem Table.find?_eq_none_of_contains {α : Type} {t : Table α} {key : String}
    (h : t.contains key = false) : t.find? key = none := by
  simpa [Table.contains] using h

theorem Rules.markup_knows (templates : TemplateEngine) (set : TagSet) :
    (Rules.markup templates set.find?).Knows set.contains where
  unknown tag h := by
    simp [Rules.markup, Table.find?_eq_none_of_contains h]
  header _ _ := rfl

theorem Rules.visible_knows (set : TagSet) :
    (Rules.visible fun tag => (set.find? tag.name).isNone).Knows set.contains where
  unknown tag h := by
    simp [Rules.visible, Table.find?_eq_none_of_contains h]
  header _ _ := rfl

section

variable {rules : Rules} {known : String → Bool}

theorem nodesEmission_keeping_of_forall {nodes : List Node}
    (h : ∀ node ∈ nodes, nodesEmission rules (node.keeping known) = node.emission rules) :
    nodesEmission rules (nodesKeeping known nodes) = nodesEmission rules nodes := by
  induction nodes with
  | nil => rfl
  | cons node rest ih =>
      rw [nodesKeeping, nodesEmission_append, h node List.mem_cons_self,
        ih fun node hnode => h node (List.mem_cons_of_mem _ hnode), nodesEmission]

/-- **A node emits what is left of it emits.** -/
theorem Node.emission_keeping (hrules : rules.Knows known) (node : Node) :
    nodesEmission rules (node.keeping known) = node.emission rules := by
  induction node using Node.induction with
  | text value => rw [Node.keeping, nodesEmission, nodesEmission, List.append_nil]
  | tag tag ih =>
      cases hname : known tag.name with
      | false =>
          rw [Node.keeping_of_unknown hname, Node.emission_of_rule_none (hrules.unknown tag hname)]
          rfl
      | true =>
          rw [Node.keeping_of_known hname, nodesEmission, nodesEmission, List.append_nil]
          have hrule := hrules.header tag (tag.blocks.map (Block.keeping known))
          have hblocks : ∀ block ∈ tag.blocks,
              nodesEmission rules (block.keeping known).body = nodesEmission rules block.body :=
            fun block hblock => nodesEmission_keeping_of_forall (ih block hblock)
          have hpackets : (tag.blocks.map (Block.keeping known)).map
              (fun block => nodesEmission rules block.body) =
                tag.blocks.map fun block => nodesEmission rules block.body := by
            rw [List.map_map]
            exact List.map_congr_left hblocks
          have htexts : (tag.blocks.map (Block.keeping known)).map (Block.markup rules) =
              tag.blocks.map (Block.markup rules) := by
            rw [List.map_map]
            exact List.map_congr_left fun block hblock =>
              congrArg (Packet.joined Packet.htmlName) (hblocks block hblock)
          cases hown : rules.tag tag with
          | none =>
              rw [Node.emission_of_rule_none hown, Node.emission_of_rule_none (hrule.trans hown)]
          | some own =>
              rw [Node.emission_of_rule_some hown, Node.emission_of_rule_some (hrule.trans hown),
                hpackets, htexts]

/-- **Unknown tags make no difference to the emission.** -/
theorem nodesEmission_keeping (hrules : rules.Knows known) (nodes : List Node) :
    nodesEmission rules (nodesKeeping known nodes) = nodesEmission rules nodes :=
  nodesEmission_keeping_of_forall fun node _ => node.emission_keeping hrules

end

/-! ### Outputs -/

namespace Printer

/-- **Tags that the set does not define disappear with their bodies.**  Where blocks nest at most 83
deep, every output is the same for the document from which these tags are deleted: the rendered one,
that of the composed document on the HTML target, and that on the text target. -/
theorem outputs_keeping (templates : TemplateEngine) (set : TagSet) (policy : Policy) (d : Document)
    (hdepth : d.nesting everyBlock ≤ 83) :
    (∃ output,
      (Printer.html templates set.resolvers policy).renderDocument d = .ok output ∧
        (Printer.html templates set.resolvers policy).renderDocument (d.keeping set.contains) =
          .ok output) ∧
      (∃ output,
        (Printer.html templates set.resolvers policy).run [d.compose set.resolvers "html"] =
            .ok output ∧
          (Printer.html templates set.resolvers policy).run
              [(d.keeping set.contains).compose set.resolvers "html"] = .ok output) ∧
      ∃ output,
        (Printer.text set.resolvers policy).run [d.compose set.resolvers "text"] = .ok output ∧
          (Printer.text set.resolvers policy).run
              [(d.keeping set.contains).compose set.resolvers "text"] = .ok output := by
  have hkept : (d.keeping set.contains).nesting everyBlock ≤ 83 :=
    Nat.le_trans (d.nesting_keeping_le everyBlock) hdepth
  have hlevels := d.levels_le (.markup templates set.find?)
  have hlevels' := (d.keeping set.contains).levels_le (.markup templates set.find?)
  have hmarkup := nodesEmission_keeping (Rules.markup_knows templates set) d.body
  have htext := nodesEmission_keeping (Rules.visible_knows set) d.body
  have hfind := set.resolvers_holds
  refine ⟨⟨_, renderDocument_eq_joined templates policy hfind (by omega), ?_⟩,
    ⟨_, html_run_compose templates policy hfind (by omega), ?_⟩,
    ⟨_, text_run_compose policy hfind (by omega), ?_⟩⟩
  · rw [renderDocument_eq_joined templates policy hfind (by omega), Document.keeping, hmarkup]
  · rw [html_run_compose templates policy hfind (by omega), Document.keeping, hmarkup]
  · rw [text_run_compose policy hfind (by omega), Document.keeping, htext]

/-- Tags that are not defined, between texts, in a block and around a tag that is defined. -/
def overgrownSample : Document where
  body := [.text "1",
    .tag { name := "weed", blocks := [{ body :=
      [.text "2", .tag { name := "b", blocks := [{ body := [.text "3"] }] }] }] },
    .tag { name := "b", blocks := [{ body :=
      [.text "4", .tag { name := "weed" }, .tag { name := "link", params := [.string "5"] }] }] },
    .text "6"]

/-- What is left of the sample has two tags, and its outputs are those of the sample. -/
theorem outputs_keeping_overgrownSample :
    overgrownSample.nesting everyBlock ≤ 83 ∧
      (overgrownSample.keeping TagSet.builtin.contains).tags.map Tag.name = ["b", "link"] ∧
      ((Printer.html Template.engine TagSet.builtin.resolvers .strict).renderDocument
        overgrownSample).toOption = some "1<strong>4<a href=\"5\"></a></strong>6" ∧
      (∃ output,
        (Printer.html Template.engine TagSet.builtin.resolvers .strict).renderDocument
            overgrownSample = .ok output ∧
          (Printer.html Template.engine TagSet.builtin.resolvers .strict).renderDocument
            (overgrownSample.keeping TagSet.builtin.contains) = .ok output) ∧
      (∃ output,
        (Printer.html Template.engine TagSet.builtin.resolvers .strict).run
            [overgrownSample.compose TagSet.builtin.resolvers "html"] = .ok output ∧
          (Printer.html Template.engine TagSet.builtin.resolvers .strict).run
            [(overgrownSample.keeping TagSet.builtin.contains).compose
              TagSet.builtin.resolvers "html"] = .ok output) ∧
      ∃ output,
        (Printer.text TagSet.builtin.resolvers .strict).run
            [overgrownSample.compose TagSet.builtin.resolvers "text"] = .ok output ∧
          (Printer.text TagSet.builtin.resolvers .strict).run
            [(overgrownSample.keeping TagSet.builtin.contains).compose
              TagSet.builtin.resolvers "text"] = .ok output := by
  have hdepth : overgrownSample.nesting everyBlock ≤ 83 := by decide
  have htags : (overgrownSample.keeping TagSet.builtin.contains).tags.map Tag.name =
      ["b", "link"] := by decide +kernel
  have hmarkup : ((Printer.html Template.engine TagSet.builtin.resolvers .strict).renderDocument
      overgrownSample).toOption = some "1<strong>4<a href=\"5\"></a></strong>6" := by
    decide +kernel
  exact ⟨hdepth, htags, hmarkup, outputs_keeping _ _ .strict _ hdepth⟩

end Printer

end TaggedText
