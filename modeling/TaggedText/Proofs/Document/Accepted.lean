import TaggedText.Proofs.Document.Grammar
import TaggedText.Proofs.Document.Nesting

/-!
# What accepted documents look like

Two facts about accepted documents that the bounds on dispatches rest on: plain blocks nest no
deeper than the reader allows (`Document.nesting_le_of_read`), and verbatim blocks hold text at most
(`Document.flatVerbatim_of_read`).

Both are read off the derivations.  A block is only opened while the number of open ones is below
the limit, so the depth of what is inside and the number of blocks around it stay below the limit
together; and what a fence encloses becomes one text or nothing.
-/

namespace TaggedText

variable {options : ReaderOptions} {weight : Bool → Nat}

/-! ### Bodies that are text -/

theorem isText_of_mem_textBody {text : List Char} {node : Node} (h : node ∈ textBody text) :
    node.isText = true := by
  unfold textBody at h
  split at h
  · cases h
  · rw [List.mem_singleton] at h
    subst h
    rfl

theorem Verbatim.block_isText (v : Verbatim) : v.block.IsText :=
  fun _ hnode => isText_of_mem_textBody hnode

theorem nodesNesting_textBody (text : List Char) : nodesNesting weight (textBody text) = 0 := by
  unfold textBody
  split <;> rfl

theorem nodesFlatVerbatim_textBody (text : List Char) : nodesFlatVerbatim (textBody text) := by
  rw [nodesFlatVerbatim_iff]
  intro node hnode
  cases node with
  | text value => trivial
  | tag tag => cases isText_of_mem_textBody hnode

/-! ### Nesting -/

mutual

theorem NodesAt.nesting_le {depth : Nat} {p : Place} {nodes : Passage (List Node)} :
    NodesAt options depth p nodes → nodes.diagnostics = [] → depth ≤ options.maxDepth →
      depth + nodesNesting plainBlocks nodes.value ≤ options.maxDepth
  | .last _ _, _, hdepth => by
      rw [nodesNesting_textBody]
      exact hdepth
  | .tag _ htag hmore, hfaults, hdepth => by
      obtain ⟨htagFaults, hmoreFaults⟩ := List.append_eq_nil_iff.mp hfaults
      have htag := htag.nesting_le htagFaults hdepth
      have hmore := hmore.nesting_le hmoreFaults hdepth
      rw [nodesNesting_append, nodesNesting_textBody, nodesNesting]
      omega

theorem TagAt.nesting_le {depth start : Nat} {cs : List Char} {tag : Passage Tag} :
    TagAt options depth start cs tag → tag.diagnostics = [] → depth ≤ options.maxDepth →
      depth + (Node.tag tag.value).nesting plainBlocks ≤ options.maxDepth
  | .intro _ hblocks, hfaults, hdepth =>
      hblocks.nesting_le (List.append_eq_nil_iff.mp hfaults).2 hdepth

theorem BlocksAt.nesting_le {depth : Nat} {p : Place} {blocks : Passage (List Block)} :
    BlocksAt options depth p blocks → blocks.diagnostics = [] → depth ≤ options.maxDepth →
      depth + blocksNesting plainBlocks blocks.value ≤ options.maxDepth
  | .none _ _, _, hdepth => by simpa [blocksNesting] using hdepth
  | .unclosed _ hlt hbody, hfaults, _ => by
      have hbody := hbody.nesting_le (List.append_eq_nil_iff.mp hfaults).1 hlt
      simp only [blocksNesting, plainBlocks, Bool.false_eq_true, if_false] at hbody ⊢
      omega
  | .plain _ hlt hbody hmore, hfaults, hdepth => by
      obtain ⟨hbodyFaults, hmoreFaults⟩ := List.append_eq_nil_iff.mp hfaults
      have hbody := hbody.nesting_le hbodyFaults hlt
      have hmore := hmore.nesting_le hmoreFaults hdepth
      simp only [blocksNesting, plainBlocks, Bool.false_eq_true, if_false] at hbody ⊢
      omega
  | .verbatim _ _ _ hmore, hfaults, hdepth => by
      have hmore := hmore.nesting_le (List.append_eq_nil_iff.mp hfaults).2 hdepth
      simp only [blocksNesting, Verbatim.block, nodesNesting_textBody, plainBlocks, if_true]
      omega

end

/-! ### Flat verbatim blocks -/

mutual

theorem NodesAt.flatVerbatim {depth : Nat} {p : Place} {nodes : Passage (List Node)} :
    NodesAt options depth p nodes → nodesFlatVerbatim nodes.value
  | .last _ _ => nodesFlatVerbatim_textBody _
  | .tag _ htag hmore => by
      rw [nodesFlatVerbatim_iff]
      intro node hnode
      rcases List.mem_append.mp hnode with htext | hrest
      · exact nodesFlatVerbatim_iff.mp (nodesFlatVerbatim_textBody _) node htext
      · rcases List.mem_cons.mp hrest with rfl | hmem
        · exact htag.flatVerbatim
        · exact nodesFlatVerbatim_iff.mp hmore.flatVerbatim node hmem

theorem TagAt.flatVerbatim {depth start : Nat} {cs : List Char} {tag : Passage Tag} :
    TagAt options depth start cs tag → (Node.tag tag.value).FlatVerbatim
  | .intro _ hblocks => hblocks.flatVerbatim

theorem BlocksAt.flatVerbatim {depth : Nat} {p : Place} {blocks : Passage (List Block)} :
    BlocksAt options depth p blocks → blocksFlatVerbatim blocks.value
  | .none _ _ => trivial
  | .tooDeep _ _ hmore => ⟨nofun, trivial, hmore.flatVerbatim⟩
  | .unclosed _ _ hbody => ⟨nofun, hbody.flatVerbatim, trivial⟩
  | .plain _ _ hbody hmore => ⟨nofun, hbody.flatVerbatim, hmore.flatVerbatim⟩
  | .verbatim _ _ _ hmore =>
      ⟨fun _ => Verbatim.block_isText _, nodesFlatVerbatim_textBody _, hmore.flatVerbatim⟩

end

/-! ### Accepted documents -/

variable {source : String} {d : Document}

/-- **An accepted document nests no deeper than the reader allows.** -/
theorem Document.nesting_le_of_read (h : Document.read options source = .ok d) :
    d.nesting plainBlocks ≤ options.maxDepth := by
  obtain ⟨next, hnodes⟩ := Document.read_eq_ok_iff.mp h
  have hle := hnodes.nesting_le rfl (Nat.zero_le _)
  rwa [Nat.zero_add] at hle

/-- **The verbatim blocks of an accepted document hold text at most.** -/
theorem Document.flatVerbatim_of_read (h : Document.read options source = .ok d) :
    nodesFlatVerbatim d.body := by
  obtain ⟨next, hnodes⟩ := Document.read_eq_ok_iff.mp h
  exact hnodes.flatVerbatim

end TaggedText
