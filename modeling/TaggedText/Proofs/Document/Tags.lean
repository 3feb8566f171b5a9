import TaggedText.Proofs.Document.Places

/-!
# The tags of a document

Every tag of a document, however deep it stands in blocks, has a derivation at its own place in the
source (`Document.tagBehind_of_read`).

`TagBehind` is what is kept of the derivation of the whole: the tag stands behind some characters,
some blocks are open around it, and nothing is wrong with it.  Since the source up to the tag is
part of it, it passes from the body of a block to the tag with the block by putting characters in
front.
-/

namespace TaggedText

/-! ### Tags at any depth -/

mutual

/-- The tags of a node: the node itself, if it is one, and the tags in its blocks. -/
def Node.tags : Node → List Tag
  | .text _ => []
  | .tag tag => tag.tags

/-- A tag and the tags in its blocks. -/
def Tag.tags : Tag → List Tag
  | ⟨name, params, attributes, blocks, span⟩ =>
    ⟨name, params, attributes, blocks, span⟩ :: blocksTags blocks

/-- The tags in some blocks. -/
def blocksTags : List Block → List Tag
  | [] => []
  | ⟨_, body⟩ :: rest => nodesTags body ++ blocksTags rest

/-- The tags among some nodes and in their blocks. -/
def nodesTags : List Node → List Tag
  | [] => []
  | node :: rest => node.tags ++ nodesTags rest

end

/-- All tags of a document. -/
def Document.tags (d : Document) : List Tag :=
  nodesTags d.body

theorem nodesTags_append (xs ys : List Node) :
    nodesTags (xs ++ ys) = nodesTags xs ++ nodesTags ys := by
  induction xs with
  | nil => rfl
  | cons node rest ih => rw [List.cons_append, nodesTags, nodesTags, ih, List.append_assoc]

theorem nodesTags_eq_flatMap (nodes : List Node) : nodesTags nodes = nodes.flatMap Node.tags := by
  induction nodes with
  | nil => rfl
  | cons node rest ih => rw [nodesTags, ih, List.flatMap_cons]

/-- The tags of a node are tags of the nodes it stands among. -/
theorem mem_nodesTags_of_mem {t : Tag} {nodes : List Node} {node : Node} (hnode : node ∈ nodes)
    (ht : t ∈ node.tags) : t ∈ nodesTags nodes := by
  rw [nodesTags_eq_flatMap]
  exact List.mem_flatMap.mpr ⟨node, hnode, ht⟩

theorem blocksTags_eq_flatMap (blocks : List Block) :
    blocksTags blocks = blocks.flatMap fun block => nodesTags block.body := by
  induction blocks with
  | nil => rfl
  | cons block rest ih =>
      obtain ⟨verbatim, body⟩ := block
      rw [blocksTags, ih, List.flatMap_cons]

@[simp] theorem nodesTags_textBody (text : List Char) : nodesTags (textBody text) = [] := by
  unfold textBody
  split <;> rfl

theorem Tag.mem_tags_iff {t tag : Tag} : t ∈ tag.tags ↔ t = tag ∨ t ∈ blocksTags tag.blocks := by
  cases tag
  rw [Tag.tags, List.mem_cons]

/-- The tags in a block of a tag are tags of the tag. -/
theorem Tag.mem_tags_of_mem_block {t tag : Tag} {block : Block} (hblock : block ∈ tag.blocks)
    (ht : t ∈ nodesTags block.body) : t ∈ tag.tags := by
  rw [Tag.mem_tags_iff, blocksTags_eq_flatMap]
  exact .inr (List.mem_flatMap.mpr ⟨block, hblock, ht⟩)

/-! ### Where tags stand -/

variable {options : ReaderOptions} {t : Tag}

/-- **The tag stands behind a place**, and has nothing wrong with it. -/
inductive TagBehind (options : ReaderOptions) (p : Place) (t : Tag) : Prop
  | intro {before rest : List Char} {depth start : Nat} {c : Char} {next : Place} :
      Place.Walk before p ⟨start, '\\' :: c :: rest⟩ → Text.isNameStart c = true →
      TagAt options depth start (c :: rest) ⟨t, [], next⟩ → TagBehind options p t

theorem TagBehind.of_walk {p q : Place} {run : List Char} (hwalk : Place.Walk run p q)
    (h : TagBehind options q t) : TagBehind options p t := by
  obtain ⟨hbefore, hstart, htag⟩ := h
  exact ⟨hwalk.trans hbefore, hstart, htag⟩

mutual

theorem NodesAt.tagBehind {depth : Nat} {p : Place} {nodes : Passage (List Node)} :
    NodesAt options depth p nodes → nodes.diagnostics = [] → t ∈ nodesTags nodes.value →
      TagBehind options p t
  | .last _ _, _, hmem => by simp at hmem
  | @NodesAt.tag _ _ start _ _ _ tag more htext htag hmore, hfaults, hmem => by
      obtain ⟨htagFaults, hmoreFaults⟩ := List.append_eq_nil_iff.mp hfaults
      obtain ⟨gap, hgap⟩ := exists_walk_of_readText htext
      obtain ⟨run, hrun⟩ := htag.exists_walk
      rw [nodesTags_append, nodesTags_textBody, List.nil_append, nodesTags, Node.tags,
        List.mem_append, Tag.mem_tags_iff] at hmem
      rcases hmem with (rfl | hinside) | hbehind
      · obtain ⟨c, rest, rfl, hstart⟩ := stopsText_backslash (stopsText_of_readText htext)
        obtain ⟨tag, faults, next⟩ := tag
        obtain rfl := htagFaults
        exact ⟨hgap, hstart, htag⟩
      · exact (htag.tagBehind htagFaults hinside).of_walk (hgap.trans (.cons (.refl _)))
      · exact (hmore.tagBehind hmoreFaults hbehind).of_walk (hgap.trans (.cons hrun))

theorem TagAt.tagBehind {depth start : Nat} {cs : List Char} {tag : Passage Tag} :
    TagAt options depth start cs tag → tag.diagnostics = [] → t ∈ blocksTags tag.value.blocks →
      TagBehind options ⟨start + 1, cs⟩ t
  | .intro hreading hblocks, hfaults, hmem => by
      obtain ⟨header, hheader⟩ := Header.exists_walk_readAt hreading
      exact (hblocks.tagBehind (List.append_eq_nil_iff.mp hfaults).2 hmem).of_walk
        ((Place.walk_name start cs).trans hheader)

theorem BlocksAt.tagBehind {depth : Nat} {p : Place} {blocks : Passage (List Block)} :
    BlocksAt options depth p blocks → blocks.diagnostics = [] → t ∈ blocksTags blocks.value →
      TagBehind options p t
  | .none _ _, _, hmem => by simp [blocksTags] at hmem
  | .unclosed hskip _ hbody, hfaults, hmem => by
      rw [blocksTags, blocksTags, List.append_nil] at hmem
      exact (hbody.tagBehind (List.append_eq_nil_iff.mp hfaults).1 hmem).of_walk
        ((Place.walk_skipBlanks hskip).trans (.cons (.refl _)))
  | .plain hskip _ hbody hmore, hfaults, hmem => by
      obtain ⟨hbodyFaults, hmoreFaults⟩ := List.append_eq_nil_iff.mp hfaults
      obtain ⟨body, hbodyWalk⟩ := hbody.exists_walk
      rw [blocksTags, List.mem_append] at hmem
      rcases hmem with hinside | hbehind
      · exact (hbody.tagBehind hbodyFaults hinside).of_walk
          ((Place.walk_skipBlanks hskip).trans (.cons (.refl _)))
      · have hmore' := hmore.tagBehind hmoreFaults hbehind
        obtain rfl := hbody.eq_brace
        exact hmore'.of_walk ((Place.walk_skipBlanks hskip).trans
          (.cons (hbodyWalk.trans (.cons (.refl _)))))
  | .verbatim hskip hopens hread hmore, hfaults, hmem => by
      obtain ⟨inside, hinside⟩ := exists_walk_readVerbatim hopens hread
      simp only [blocksTags, Verbatim.block, nodesTags_textBody, List.nil_append] at hmem
      exact (hmore.tagBehind (List.append_eq_nil_iff.mp hfaults).2 hmem).of_walk
        ((Place.walk_skipBlanks hskip).trans hinside)

end

/-- **Every tag of an accepted document stands in its source.** -/
theorem Document.tagBehind_of_read {source : String} {d : Document}
    (h : Document.read options source = .ok d) (ht : t ∈ d.tags) :
    TagBehind options ⟨0, source.toList⟩ t := by
  obtain ⟨next, hnodes⟩ := Document.read_eq_ok_iff.mp h
  exact hnodes.tagBehind rfl ht

end TaggedText
