import TaggedText.Document.Basic

/-!
# The nesting of documents

How deep blocks stand inside blocks, and induction on documents.

Nodes, tags and blocks are one nested type, whose own recursion principle speaks of all three.
`Node.induction` is the one that is used: a property of texts that passes from the nodes in a tag's
blocks to the tag.

Readers and engines count blocks differently, the one passing over verbatim blocks and the other
not. So a block counts with a weight that depends on whether it is verbatim, and `Node.nesting` is
the greatest sum of weights along a way inwards; `everyBlock` and `plainBlocks` are the two weights
in use.  Where verbatim blocks hold text at most, the two differ by one level
(`Node.nesting_everyBlock_le`).
-/

namespace TaggedText

/-- **Induction on nodes.**  The nodes of all blocks of a tag come before the tag. -/
@[elab_as_elim]
theorem Node.induction {motive : Node → Prop} (text : ∀ value, motive (.text value))
    (tag : ∀ tag : Tag, (∀ block ∈ tag.blocks, ∀ node ∈ block.body, motive node) →
      motive (.tag tag)) :
    ∀ node, motive node
  | .text value => text value
  | .tag ⟨name, params, attributes, blocks, span⟩ =>
    tag _ fun block _ node _ => Node.induction text tag node
termination_by node => sizeOf node
decreasing_by
  rename_i hblock hnode
  have hlt := List.sizeOf_lt_of_mem hblock
  have hlt' := List.sizeOf_lt_of_mem hnode
  obtain ⟨verbatim, body⟩ := block
  simp only [Node.tag.sizeOf_spec, Tag.mk.sizeOf_spec, Block.mk.sizeOf_spec] at hlt hlt' ⊢
  omega

/-! ### Nesting -/

/-- Every block counts. -/
def everyBlock (_verbatim : Bool) : Nat := 1

/-- Plain blocks count, and verbatim blocks do not. -/
def plainBlocks (verbatim : Bool) : Nat := if verbatim then 0 else 1

section

variable (weight : Bool → Nat)

mutual

/-- The greatest depth of blocks within a node. -/
def Node.nesting : Node → Nat
  | .text _ => 0
  | .tag tag => tag.nesting

/-- The greatest depth of blocks within a tag. -/
def Tag.nesting : Tag → Nat
  | ⟨_, _, _, blocks, _⟩ => blocksNesting blocks

/-- The greatest depth of blocks within some blocks, these included. -/
def blocksNesting : List Block → Nat
  | [] => 0
  | ⟨verbatim, body⟩ :: rest => max (weight verbatim + nodesNesting body) (blocksNesting rest)

/-- The greatest depth of blocks within some nodes. -/
def nodesNesting : List Node → Nat
  | [] => 0
  | node :: rest => max node.nesting (nodesNesting rest)

end

/-- The greatest depth of blocks in a document. -/
def Document.nesting (d : Document) : Nat :=
  nodesNesting weight d.body

end

variable {weight : Bool → Nat} {n : Nat}

@[simp] theorem Node.nesting_text (value : String) : (Node.text value).nesting weight = 0 := rfl

theorem nodesNesting_le_iff {nodes : List Node} :
    nodesNesting weight nodes ≤ n ↔ ∀ node ∈ nodes, node.nesting weight ≤ n := by
  induction nodes with
  | nil => simp [nodesNesting]
  | cons node rest ih => rw [nodesNesting, Nat.max_le, ih, List.forall_mem_cons]

theorem nodesNesting_append (xs ys : List Node) :
    nodesNesting weight (xs ++ ys) = max (nodesNesting weight xs) (nodesNesting weight ys) := by
  induction xs with
  | nil => simp [nodesNesting]
  | cons node rest ih => rw [List.cons_append, nodesNesting, nodesNesting, ih, Nat.max_assoc]

theorem blocksNesting_le_iff {blocks : List Block} :
    blocksNesting weight blocks ≤ n ↔
      ∀ block ∈ blocks, weight block.verbatim + nodesNesting weight block.body ≤ n := by
  induction blocks with
  | nil => simp [blocksNesting]
  | cons block rest ih =>
      obtain ⟨verbatim, body⟩ := block
      rw [blocksNesting, Nat.max_le, ih, List.forall_mem_cons]

theorem Node.nesting_tag_le_iff {tag : Tag} :
    (Node.tag tag).nesting weight ≤ n ↔
      ∀ block ∈ tag.blocks, weight block.verbatim + nodesNesting weight block.body ≤ n := by
  obtain ⟨name, params, attributes, blocks, span⟩ := tag
  rw [Node.nesting, Tag.nesting, blocksNesting_le_iff]

/-- A node in a block of a tag nests less deep than the tag, by the weight of the block. -/
theorem Node.weight_add_nesting_le (weight : Bool → Nat) {tag : Tag} {block : Block} {node : Node}
    (hblock : block ∈ tag.blocks) (hnode : node ∈ block.body) :
    weight block.verbatim + node.nesting weight ≤ (Node.tag tag).nesting weight := by
  have htag := Node.nesting_tag_le_iff.mp (Nat.le_refl ((Node.tag tag).nesting weight)) block hblock
  have hbody := nodesNesting_le_iff.mp (Nat.le_refl (nodesNesting weight block.body)) node hnode
  omega

/-! ### Flat verbatim blocks -/

/-- A block whose nodes are all text. -/
def Block.IsText (b : Block) : Prop :=
  ∀ node ∈ b.body, node.isText = true

mutual

/-- Every verbatim block within a node holds text at most. -/
def Node.FlatVerbatim : Node → Prop
  | .text _ => True
  | .tag tag => tag.FlatVerbatim

/-- Every verbatim block within a tag holds text at most. -/
def Tag.FlatVerbatim : Tag → Prop
  | ⟨_, _, _, blocks, _⟩ => blocksFlatVerbatim blocks

/-- Every verbatim block among some blocks, and within them, holds text at most. -/
def blocksFlatVerbatim : List Block → Prop
  | [] => True
  | ⟨verbatim, body⟩ :: rest =>
    (verbatim = true → Block.IsText ⟨verbatim, body⟩) ∧ nodesFlatVerbatim body ∧
      blocksFlatVerbatim rest

/-- Every verbatim block within some nodes holds text at most. -/
def nodesFlatVerbatim : List Node → Prop
  | [] => True
  | node :: rest => node.FlatVerbatim ∧ nodesFlatVerbatim rest

end

theorem nodesFlatVerbatim_iff {nodes : List Node} :
    nodesFlatVerbatim nodes ↔ ∀ node ∈ nodes, node.FlatVerbatim := by
  induction nodes with
  | nil => simp [nodesFlatVerbatim]
  | cons node rest ih => simp [nodesFlatVerbatim, ih]

theorem blocksFlatVerbatim_iff {blocks : List Block} :
    blocksFlatVerbatim blocks ↔
      ∀ block ∈ blocks, (block.verbatim = true → block.IsText) ∧ nodesFlatVerbatim block.body := by
  induction blocks with
  | nil => simp [blocksFlatVerbatim]
  | cons block rest ih =>
      obtain ⟨verbatim, body⟩ := block
      simp [blocksFlatVerbatim, ih, and_assoc]

theorem Node.flatVerbatim_tag_iff {tag : Tag} :
    (Node.tag tag).FlatVerbatim ↔
      ∀ block ∈ tag.blocks,
        (block.verbatim = true → block.IsText) ∧ nodesFlatVerbatim block.body := by
  obtain ⟨name, params, attributes, blocks, span⟩ := tag
  rw [Node.FlatVerbatim, Tag.FlatVerbatim, blocksFlatVerbatim_iff]

/-- Text has no blocks. -/
theorem Node.nesting_of_isText {node : Node} (h : node.isText = true) :
    node.nesting weight = 0 := by
  cases node with
  | text value => rfl
  | tag tag => cases h

theorem Block.nodesNesting_of_isText {block : Block} (h : block.IsText) :
    nodesNesting weight block.body = 0 :=
  Nat.le_zero.mp (nodesNesting_le_iff.mpr fun node hnode =>
    Nat.le_of_eq (Node.nesting_of_isText (h node hnode)))

/-- Where verbatim blocks hold text at most, counting them adds one level at most. -/
theorem Node.nesting_everyBlock_le (node : Node) (hflat : node.FlatVerbatim) :
    node.nesting everyBlock ≤ node.nesting plainBlocks + 1 := by
  induction node using Node.induction with
  | text value => simp
  | tag tag ih =>
      rw [Node.flatVerbatim_tag_iff] at hflat
      rw [Node.nesting_tag_le_iff]
      intro block hblock
      obtain ⟨htext, hbody⟩ := hflat block hblock
      cases hverbatim : block.verbatim with
      | true =>
          rw [Block.nodesNesting_of_isText (htext hverbatim)]
          simp [everyBlock]
      | false =>
          have hnodes :
              nodesNesting everyBlock block.body ≤ (Node.tag tag).nesting plainBlocks := by
            rw [nodesNesting_le_iff]
            intro node hnode
            have hnode' := ih block hblock node hnode (nodesFlatVerbatim_iff.mp hbody node hnode)
            have hle := Node.weight_add_nesting_le plainBlocks hblock hnode
            simp only [hverbatim, plainBlocks, Bool.false_eq_true, if_false] at hle hnode'
            omega
          simp only [everyBlock]
          omega

end TaggedText
