import TaggedText.Proofs.Dispatch.Composed
import TaggedText.Proofs.Dispatch.Rendered
import TaggedText.Template.Reader

/-!
# Agreement of the two ways to markup

A document can be rendered tag by tag, as its resolvers propose, or it can be composed into one
command that is run.  `Printer.renderDocument_agrees_with_compose` says that both give the same
markup.

The packets of the two runs differ.  A tag whose template fails is silent when it is rendered, while
its report goes out when it is run, ahead of everything else; so neither run can be simulated by the
other step by step.  Both are compared to a third thing instead, the emission of the document
(`nodesEmission`), of which each gives the markup: `renderDocument_eq_joined` by what a templated
tag proposes, `run_compose_eq_joined` by the leaves of the tree.

**What is asked of the template engine.**  The composed document ends with the root template, which
the rendered one never sees.  So an engine has to render that one template to the content it is
given (`RendersContent`); about all other templates nothing is assumed, and the library's own engine
qualifies.
-/

namespace TaggedText

variable {templates : TemplateEngine} {resolvers : ResolverMap} {find : String → Option Templated}
  {policy : Policy} {d : Document}

/-- The engine renders the root of a composed document to the text that is bound as its content. -/
def TemplateEngine.RendersContent (templates : TemplateEngine) : Prop :=
  ∀ fields content, Fields.find? "content" fields = some (.string content) →
    templates rootTemplate (.object fields) = .ok content

/-- The library's own templates do. -/
theorem Template.engine_rendersContent : TemplateEngine.RendersContent Template.engine := by
  intro fields content hcontent
  have hread : Template.read? rootTemplate =
      some [.reference ⟨false, .path ⟨"data", ["content"]⟩⟩] := by rfl
  rw [Template.engine, hread]
  simp [fill, fillItem, Expression.value?, Operand.value?, Scope.value?, Fields.find?, descend?,
    Json.member?, hcontent, display]

/-- The root of a composed document sends the content. -/
theorem TemplateEngine.RendersContent.packet_root (hroot : templates.RendersContent)
    (content : String) :
    templates.packet rootTemplate none (.object (Printer.rootBindings content)) =
      .html none content := by
  rw [packet, hroot _ content (by simp [Printer.rootBindings, Fields.find?])]

namespace Printer

/-- Rendering tag by tag gives the markup of the emission. -/
theorem renderDocument_eq_joined (templates : TemplateEngine) (policy : Policy)
    (hfind : resolvers.Holds find)
    (hlevels : nodesLevels (.markup templates find) d.body + 2 ≤ 256) :
    (Printer.html templates resolvers policy).renderDocument d =
      .ok (Packet.joined Packet.htmlName (nodesEmission (.markup templates find) d.body)) := by
  rw [renderDocument, Engine.render_eq_markup Registry.html_extends hfind d hlevels]
  exact congrArg Except.ok Packet.joined_filter_isHtml

/-- Running the composed document gives the markup of the emission. -/
theorem run_compose_eq_joined (hroot : templates.RendersContent) (policy : Policy)
    (hfind : resolvers.Holds find) (hdepth : d.nesting everyBlock + 3 ≤ 256) :
    (Printer.html templates resolvers policy).run [d.compose resolvers "html"] =
      .ok (Packet.joined Packet.htmlName (nodesEmission (.markup templates find) d.body)) := by
  rw [html_run_compose templates policy hfind hdepth, hroot.packet_root,
    Packet.joined_htmlName_single_of_isHtml rfl]
  rfl

/-- **Rendering tag by tag and running the composed document agree.**  Where every resolver is a
template and blocks nest at most 83 deep, both give markup, and the same. -/
theorem renderDocument_agrees_with_compose (templates : TemplateEngine) (resolvers : ResolverMap)
    (policy : Policy) (d : Document) (hroot : templates.RendersContent)
    (hresolvers : resolvers.IsTemplated) (hdepth : d.nesting everyBlock ≤ 83) :
    ∃ markup,
      (Printer.html templates resolvers policy).renderDocument d = .ok markup ∧
        (Printer.html templates resolvers policy).run [d.compose resolvers "html"] =
          .ok markup := by
  obtain ⟨find, hfind⟩ := hresolvers.exists_holds
  have hlevels : nodesLevels (.markup templates find) d.body + 2 ≤ 256 := by
    have hnodes : nodesLevels (.markup templates find) d.body ≤ 3 * 83 + 3 := by
      rw [nodesLevels_le_iff]
      intro node hnode
      have hnesting := nodesNesting_le_iff.mp hdepth node hnode
      have hlevels := node.levels_le (.markup templates find)
      omega
    omega
  refine ⟨_, renderDocument_eq_joined templates policy hfind hlevels, ?_⟩
  exact run_compose_eq_joined hroot policy hfind (by omega)

/-- A failing template and a tag that nothing resolves, within another tag. -/
def mixedSample : Document :=
  ⟨[.tag
    { name := "b"
      blocks := [{ body :=
        [.text "x",
          .tag { name := "link", blocks := [{ verbatim := true, body := [.text "y"] }] },
          .tag { name := "unknown", blocks := [{ body := [.text "z"] }] }] }] }]⟩

/-- The two agree on the sample, with the library's own templates and tags. -/
theorem renderDocument_agrees_with_compose_mixedSample :
    TemplateEngine.RendersContent Template.engine ∧ TagSet.builtin.resolvers.IsTemplated ∧
      mixedSample.nesting everyBlock ≤ 83 ∧
        ∃ markup,
          (Printer.html Template.engine TagSet.builtin.resolvers .strict).renderDocument
              mixedSample = .ok markup ∧
            (Printer.html Template.engine TagSet.builtin.resolvers .strict).run
              [mixedSample.compose TagSet.builtin.resolvers "html"] = .ok markup := by
  have hroot := Template.engine_rendersContent
  have hresolvers := TagSet.builtin.resolvers_isTemplated
  have hdepth : mixedSample.nesting everyBlock ≤ 83 := by decide
  exact ⟨hroot, hresolvers, hdepth,
    renderDocument_agrees_with_compose _ _ .strict mixedSample hroot hresolvers hdepth⟩

end Printer

end TaggedText
