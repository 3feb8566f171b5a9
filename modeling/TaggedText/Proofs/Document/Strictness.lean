import TaggedText.Proofs.Document.Grammar

/-!
# Reading with and without strict fences

Whether an open block is a fault decides what is reported, and nothing else.
`ReaderOptions.reports` singles out the diagnostics that are reported at all, and a part that is
read with strict fences is read alike without, where its list of diagnostics is filtered by that
(`NodesAt.of_strict`, `TagAt.of_strict`, `BlocksAt.of_strict`).  The order survives the filter since
lists are only ever appended.
-/

namespace TaggedText

/-- With these options the fault is reported, where it is one with strict fences. -/
def ReaderOptions.reports (options : ReaderOptions) (d : Diagnostic) : Bool :=
  options.strictFences || !d.isUnterminated

/-- The same options, with strict fences. -/
def ReaderOptions.strict (options : ReaderOptions) : ReaderOptions :=
  { options with strictFences := true }

variable {options : ReaderOptions}

theorem ReaderOptions.reports_shift (options : ReaderOptions) (n : Nat) (d : Diagnostic) :
    options.reports (d.shift n) = options.reports d := by
  cases d <;> rfl

theorem ReaderOptions.filter_unterminated (options : ReaderOptions) (span : Span) (fence : Nat) :
    (options.strict.unterminated span fence).filter options.reports =
      options.unterminated span fence := by
  unfold unterminated strict
  cases hstrict : options.strictFences <;> simp [reports, hstrict, Diagnostic.isUnterminated]

/-! ### Headers -/

namespace Header

theorem isUnterminated_of_read {offset : Nat} {text : List Char} {ds : List Diagnostic}
    (h : read offset text = .error ds) : ∀ d ∈ ds, d.isUnterminated = false := by
  have hstray : ∀ d ∈ (invalid (pieces offset text)).map Piece.diagnostic,
      d.isUnterminated = false := by
    intro d hd
    obtain ⟨p, -, rfl⟩ := List.mem_map.mp hd
    rfl
  unfold read at h
  simp only at h
  split at h
  · split at h
    · cases h
    · cases h
      exact hstray
  · next u _ =>
      cases h
      intro d hd
      rcases List.mem_append.mp ((List.mergeSort_perm _ _).mem_iff.mp hd) with hmem | hmem
      · exact hstray d hmem
      · obtain rfl := List.mem_singleton.mp hmem
        unfold Unexpected.diagnostic
        cases u.found <;> rfl

/-- No fault of a header is an open block. -/
theorem isUnterminated_of_readAt {p : Place} {reading : Reading} (h : readAt p = reading) :
    ∀ d ∈ reading.diagnostics, d.isUnterminated = false := by
  subst h
  unfold readAt
  split
  · split
    · nofun
    · next h => exact isUnterminated_of_read h
  · intro d hd
    obtain rfl := List.mem_singleton.mp hd
    rfl

/-- All faults of a header are reported. -/
theorem filter_reports_of_readAt {p : Place} {reading : Reading} (h : readAt p = reading) :
    reading.diagnostics.filter options.reports = reading.diagnostics :=
  List.filter_eq_self.mpr fun d hd => by
    simp [ReaderOptions.reports, isUnterminated_of_readAt h d hd]

end Header

/-! ### Derivations -/

/-- A part, with the diagnostics that are reported with these options. -/
def Passage.reported {α : Type} (options : ReaderOptions) (part : Passage α) : Passage α :=
  { part with diagnostics := part.diagnostics.filter options.reports }

mutual

theorem NodesAt.of_strict {depth : Nat} {p : Place} {nodes : Passage (List Node)} :
    NodesAt options.strict depth p nodes → NodesAt options depth p (nodes.reported options)
  | .last htext hnext => .last htext hnext
  | .tag htext htag hmore => by
      rw [Passage.reported, List.filter_append]
      exact .tag htext htag.of_strict hmore.of_strict

theorem TagAt.of_strict {depth start : Nat} {cs : List Char} {tag : Passage Tag} :
    TagAt options.strict depth start cs tag → TagAt options depth start cs (tag.reported options)
  | .intro hreading hblocks => by
      rw [Passage.reported, List.filter_append, Header.filter_reports_of_readAt hreading]
      exact .intro hreading hblocks.of_strict

theorem BlocksAt.of_strict {depth : Nat} {p : Place} {blocks : Passage (List Block)} :
    BlocksAt options.strict depth p blocks → BlocksAt options depth p (blocks.reported options)
  | .none hplain hverbatim => .none hplain hverbatim
  | @BlocksAt.tooDeep _ _ start _ _ _ hskip hdepth hmore => by
      have hdepth' : options.maxDepth ≤ depth := hdepth
      have htooDeep :
          options.reports (.nestingTooDeep ⟨start, start + 1⟩ options.maxDepth) = true :=
        Bool.or_true _
      rw [Passage.reported, List.filter_cons, ReaderOptions.strict, if_pos htooDeep]
      exact .tooDeep hskip hdepth' hmore.of_strict
  | .unclosed hskip hdepth hbody => by
      have hdepth' : depth < options.maxDepth := hdepth
      rw [Passage.reported, List.filter_append, ReaderOptions.filter_unterminated]
      exact .unclosed hskip hdepth' hbody.of_strict
  | .plain hskip hdepth hbody hmore => by
      have hdepth' : depth < options.maxDepth := hdepth
      rw [Passage.reported, List.filter_append]
      exact .plain hskip hdepth' hbody.of_strict hmore.of_strict
  | @BlocksAt.verbatim _ _ _ here verbatim fence _ hskip hopens hread hmore => by
      have hfence : (if fence.closed = true then []
            else options.strict.unterminated ⟨here.offset, verbatim.next.offset⟩ fence.width).filter
              options.reports =
          if fence.closed = true then []
            else options.unterminated ⟨here.offset, verbatim.next.offset⟩ fence.width := by
        split
        · rfl
        · exact options.filter_unterminated _ _
      rw [Passage.reported, List.filter_append, hfence]
      exact .verbatim hskip hopens hread hmore.of_strict

end

end TaggedText
