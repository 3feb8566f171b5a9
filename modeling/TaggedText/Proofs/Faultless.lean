import TaggedText.Proofs.Agreement
import TaggedText.Proofs.Document.Accepted
import TaggedText.Render

/-!
# Accepted sources raise no fault

The engine has 256 levels for nested dispatches, and the reader bounds how deep plain blocks nest.
Where that bound is at most 83, the levels are enough for whatever the reader accepts, on both
targets and in both modes, and no fault is left for a policy to decide about
(`renderWith_raises_no_fault`).

Verbatim blocks do not count for the reader and do count for the engine, but they hold text at most.
Text takes one dispatch less than a tag, and with that the bound is exact: three dispatches for each
of 83 plain blocks, five for a tag with a verbatim block inside them, and two for the document.
-/

namespace TaggedText

/-- Enough levels are left to render a document within the bound tag by tag. -/
theorem Document.nodesLevels_add_two_le {d : Document} (rules : Rules)
    (hplain : d.nesting plainBlocks ≤ 83) (hflat : nodesFlatVerbatim d.body) :
    nodesLevels rules d.body + 2 ≤ 256 := by
  have hnodes : nodesLevels rules d.body ≤ 3 * 83 + 5 := by
    rw [nodesLevels_le_iff]
    intro node hnode
    have hnesting := nodesNesting_le_iff.mp hplain node hnode
    have hlevels := node.levels_le_of_flatVerbatim rules (nodesFlatVerbatim_iff.mp hflat node hnode)
    omega
  omega

/-- Verbatim blocks add one level to a document within the bound. -/
theorem Document.nesting_everyBlock_le {d : Document} (hplain : d.nesting plainBlocks ≤ 83)
    (hflat : nodesFlatVerbatim d.body) : d.nesting everyBlock ≤ 84 := by
  refine nodesNesting_le_iff.mpr fun node hnode => ?_
  have hnesting := nodesNesting_le_iff.mp hplain node hnode
  have hadd := node.nesting_everyBlock_le (nodesFlatVerbatim_iff.mp hflat node hnode)
  omega

/-- **A document within the bound has an output**, and every policy the same. -/
theorem renderDocumentWith_eq_ok (templates : TemplateEngine) (options : RenderOptions)
    (d : Document) (hplain : d.nesting plainBlocks ≤ 83) (hflat : nodesFlatVerbatim d.body) :
    ∃ output, ∀ policy,
      renderDocumentWith templates { options with policy := policy } d = .ok output := by
  obtain ⟨tags, target, mode, policy, reader⟩ := options
  have hfind := TagSet.resolvers_holds tags
  have hdepth := Document.nesting_everyBlock_le hplain hflat
  cases target with
  | html =>
      cases mode with
      | dynamic =>
          exact ⟨_, fun policy => Printer.renderDocument_eq_joined templates policy hfind
            (Document.nodesLevels_add_two_le _ hplain hflat)⟩
      | static =>
          exact ⟨_, fun policy => Printer.html_run_compose templates policy hfind (by omega)⟩
  | text => exact ⟨_, fun policy => Printer.text_run_compose policy hfind (by omega)⟩

/-- **Accepted sources raise no fault.**  Where plain blocks may nest at most 83 deep, there is an
output exactly if the source is accepted, the engine never faults, and the policy does not
matter. -/
theorem renderWith_raises_no_fault (templates : TemplateEngine) (options : RenderOptions)
    (source : String) (hdepth : options.reader.maxDepth ≤ 83) :
    ((∃ output, renderWith templates options source = .ok output) ↔
        ∃ d, Document.read options.reader source = .ok d) ∧
      (∀ fault, renderWith templates options source ≠ .error (.faulted fault)) ∧
      renderWith templates { options with policy := .strict } source =
        renderWith templates { options with policy := .lenient } source := by
  unfold renderWith
  cases hread : Document.read options.reader source with
  | error diagnostics => simp
  | ok d =>
      have hplain := Nat.le_trans (Document.nesting_le_of_read hread) hdepth
      obtain ⟨output, houtput⟩ := renderDocumentWith_eq_ok templates options d hplain
        (Document.flatVerbatim_of_read hread)
      have hown : renderDocumentWith templates options d = .ok output := houtput options.policy
      simp [hown, houtput]

/-- No fault under the strict policy and the widest bound, for a tag with a verbatim block in it. -/
theorem renderWith_raises_no_fault_widest :
    let options : RenderOptions := { policy := .strict, reader := ⟨true, 83⟩ }
    let source := "\\b\x7bx \\code=\x7by\x7d=\x7d"
    options.reader.maxDepth ≤ 83 ∧
      ((∃ output, renderWith Template.engine options source = .ok output) ↔
        ∃ d, Document.read options.reader source = .ok d) ∧
      (∀ fault, renderWith Template.engine options source ≠ .error (.faulted fault)) ∧
      renderWith Template.engine { options with policy := .strict } source =
        renderWith Template.engine { options with policy := .lenient } source :=
  ⟨Nat.le_refl 83, renderWith_raises_no_fault Template.engine _ _ (Nat.le_refl 83)⟩

end TaggedText
