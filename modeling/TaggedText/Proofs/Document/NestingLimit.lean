import TaggedText.Proofs.Document.Accepted
import TaggedText.Proofs.Document.Slices

/-!
# The limit on nesting

How deep plain blocks may nest decides whether a source is accepted, and nothing else
(`Document.read_limit_iff`).

A block that nests too deep is passed over, so two readings with different limits have nothing in
common behind it.  But it is a fault, and where there is none the number of open blocks and the
depth of what is still to come never exceed the limit together.  This is what the induction carries:
a part without faults is read alike under every limit that its plain blocks keep to
(`NodesAt.relimit`, `TagAt.relimit`, `BlocksAt.relimit`).
-/

namespace TaggedText

variable {options : ReaderOptions} {limit : Nat}

/-! ### Parts without faults -/

mutual

theorem NodesAt.relimit {depth : Nat} {p : Place} {nodes : Passage (List Node)} :
    NodesAt options depth p nodes → nodes.diagnostics = [] →
      depth + nodesNesting plainBlocks nodes.value ≤ limit →
      NodesAt { options with maxDepth := limit } depth p nodes
  | .last htext hnext, _, _ => .last htext hnext
  | .tag htext htag hmore, hfaults, hlimit => by
      obtain ⟨htagFaults, hmoreFaults⟩ := List.append_eq_nil_iff.mp hfaults
      rw [nodesNesting_append, nodesNesting_textBody, nodesNesting] at hlimit
      exact .tag htext (htag.relimit htagFaults (by omega)) (hmore.relimit hmoreFaults (by omega))

theorem TagAt.relimit {depth start : Nat} {cs : List Char} {tag : Passage Tag} :
    TagAt options depth start cs tag → tag.diagnostics = [] →
      depth + (Node.tag tag.value).nesting plainBlocks ≤ limit →
      TagAt { options with maxDepth := limit } depth start cs tag
  | .intro hreading hblocks, hfaults, hlimit =>
      .intro hreading (hblocks.relimit (List.append_eq_nil_iff.mp hfaults).2 hlimit)

theorem BlocksAt.relimit {depth : Nat} {p : Place} {blocks : Passage (List Block)} :
    BlocksAt options depth p blocks → blocks.diagnostics = [] →
      depth + blocksNesting plainBlocks blocks.value ≤ limit →
      BlocksAt { options with maxDepth := limit } depth p blocks
  | .none hplain hverbatim, _, _ => .none hplain hverbatim
  | .unclosed hskip _ hbody, hfaults, hlimit => by
      simp only [blocksNesting, plainBlocks, Bool.false_eq_true, if_false] at hlimit
      have hdepth : depth < limit := by omega
      exact .unclosed hskip hdepth
        (hbody.relimit (List.append_eq_nil_iff.mp hfaults).1 (by simp only; omega))
  | .plain hskip _ hbody hmore, hfaults, hlimit => by
      obtain ⟨hbodyFaults, hmoreFaults⟩ := List.append_eq_nil_iff.mp hfaults
      simp only [blocksNesting, plainBlocks, Bool.false_eq_true, if_false] at hlimit
      have hdepth : depth < limit := by omega
      exact .plain hskip hdepth (hbody.relimit hbodyFaults (by simp only; omega))
        (hmore.relimit hmoreFaults (by omega))
  | .verbatim hskip hopens hread hmore, hfaults, hlimit => by
      simp only [blocksNesting, Verbatim.block, nodesNesting_textBody, plainBlocks, if_true]
        at hlimit
      exact .verbatim hskip hopens hread
        (hmore.relimit (List.append_eq_nil_iff.mp hfaults).2 (by omega))

end

/-! ### Documents -/

/-- A document is read alike under every limit that its plain blocks keep to. -/
theorem Document.read_relimit {source : String} {d : Document}
    (h : Document.read options source = .ok d) (hlimit : d.nesting plainBlocks ≤ limit) :
    Document.read { options with maxDepth := limit } source = .ok d := by
  obtain ⟨next, hnodes⟩ := Document.read_eq_ok_iff.mp h
  refine Document.read_eq_ok_iff.mpr ⟨next, hnodes.relimit rfl ?_⟩
  rw [Nat.zero_add]
  exact hlimit

/-- **The limit on nesting changes nothing but acceptance.**  A source is a document under a lower
limit exactly if it is the same document, with the same spans, under the higher one, and its plain
blocks keep to the lower. -/
theorem Document.read_limit_iff (strictFences : Bool) {limit limit' : Nat} (hle : limit ≤ limit')
    (source : String) (d : Document) :
    Document.read ⟨strictFences, limit⟩ source = .ok d ↔
      Document.read ⟨strictFences, limit'⟩ source = .ok d ∧ d.nesting plainBlocks ≤ limit := by
  constructor
  · intro hread
    have hnesting := Document.nesting_le_of_read hread
    exact ⟨Document.read_relimit hread (Nat.le_trans hnesting hle), hnesting⟩
  · rintro ⟨hread, hnesting⟩
    exact Document.read_relimit hread hnesting

/-- A tag in the block of a tag is a document where one block may be open, and none where no block
may. -/
theorem Document.read_limit_iff_nestedTags :
    1 ≤ 64 ∧
      Document.read ⟨false, 1⟩ "x\\a \x7b\\b \x7dy" =
        .ok ⟨[.text "x", .tag outerTag, .text "y"]⟩ ∧
      0 ≤ 64 ∧
      Document.read ⟨false, 0⟩ "x\\a \x7b\\b \x7dy" ≠
        .ok ⟨[.text "x", .tag outerTag, .text "y"]⟩ := by
  have hnesting :
      (Document.mk [.text "x", .tag outerTag, .text "y"]).nesting plainBlocks = 1 := by decide
  have hone : 1 ≤ 64 := by decide
  have hzero : 0 ≤ 64 := by decide
  refine ⟨hone, ?_, hzero, fun hread => ?_⟩
  · exact (Document.read_limit_iff false hone _ _).mpr
      ⟨Document.read_nestedTags, Nat.le_of_eq hnesting⟩
  · have hle := ((Document.read_limit_iff false hzero _ _).mp hread).2
    rw [hnesting] at hle
    exact Nat.not_succ_le_zero 0 hle

end TaggedText
