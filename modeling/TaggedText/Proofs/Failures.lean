import Mathlib.Data.List.Basic
import TaggedText.Proofs.Agreement

/-!
# Failing templates

A composed document fills in its tags one by one, each after what is in its blocks.  A tag whose
template fails is reported, and to the tag around it it is empty; rendering goes on.  This file says
which tags are filled in, in which order, and what each is told, and shows that the packets of a
composed document on the HTML target are the reports of the failures and the markup of the root.

`Tag.outcome?` is what becomes of a tag: nothing, markup or a failure.  From it two things are read
off a document, each by its own recursion and neither by running anything: the content of its nodes,
where a tag that fails is empty, and the reports of its tags in post-order.

The emission of a document holds both, interleaved, and is split in two: its markup is the content
(`Node.joined_emission_markup`), and the rest is the reports (`Node.filter_emission_markup`).  Each
is an induction over nodes, with the step for the blocks of a tag as a lemma of its own.
`Printer.dispatch_compose_eq_reports` follows, since a tree lets the rest pass and keeps the markup
for itself.
-/

namespace TaggedText

section

variable (templates : TemplateEngine) (find : String → Option Templated)

/-! ### Contents -/

/-- What becomes of a tag whose blocks gave `texts`: its template is filled in, if it has one. -/
def Tag.filled? (tag : Tag) (texts : List String) : Option (Except TemplateFault String) :=
  (find tag.name).map fun t =>
    templates t.template
      (Templated.bindings (.array tag.paramValues) (.object tag.attributeFields) texts)

mutual

/-- The markup of a node. -/
def Node.content : Node → String
  | .text value => value
  | .tag tag => tag.content

/-- The markup of a tag, which is told the markup of its blocks.  A tag without a template is empty,
and so is one whose template fails. -/
def Tag.content : Tag → String
  | ⟨name, params, attributes, blocks, span⟩ =>
    match Tag.filled? templates find ⟨name, params, attributes, blocks, span⟩
        (blocksContent blocks) with
    | some (.ok content) => content
    | _ => ""

/-- The markup of each of some blocks. -/
def blocksContent : List Block → List String
  | [] => []
  | ⟨_, body⟩ :: rest => nodesContent body :: blocksContent rest

/-- The markup of nodes, one after the other. -/
def nodesContent : List Node → String
  | [] => ""
  | node :: rest => node.content ++ nodesContent rest

end

/-- **What becomes of a tag**: its template is filled in with its header and the markup of its
blocks. -/
def Tag.outcome? (tag : Tag) : Option (Except TemplateFault String) :=
  tag.filled? templates find (blocksContent templates find tag.blocks)

/-- The report of a tag whose template fails. -/
def Tag.report? (tag : Tag) : Option Packet :=
  match tag.outcome? templates find with
  | some (.error fault) => some (.error fault.message)
  | _ => none

end

/-! ### Tags in post-order -/

section

variable (find : String → Option Templated)

mutual

/-- The tags of a node that are filled in. -/
def Node.resolved : Node → List Tag
  | .text _ => []
  | .tag tag => tag.resolved

/-- The tags in the blocks of a tag, and then the tag; nothing in a tag without a template is filled
in. -/
def Tag.resolved : Tag → List Tag
  | ⟨name, params, attributes, blocks, span⟩ =>
    if (find name).isSome then blocksResolved blocks ++ [⟨name, params, attributes, blocks, span⟩]
    else []

/-- The tags of some blocks that are filled in. -/
def blocksResolved : List Block → List Tag
  | [] => []
  | ⟨_, body⟩ :: rest => nodesResolved body ++ blocksResolved rest

/-- **The tags of some nodes that have a template and stand in none without one**, in post-order. -/
def nodesResolved : List Node → List Tag
  | [] => []
  | node :: rest => node.resolved ++ nodesResolved rest

end

end

/-- The reports of the tags of some nodes, in the order in which the tags are filled in. -/
def nodesReports (templates : TemplateEngine) (find : String → Option Templated)
    (nodes : List Node) : List Packet :=
  (nodesResolved find nodes).filterMap (Tag.report? templates find)

section

variable {templates : TemplateEngine} {find : String → Option Templated}

theorem blocksContent_eq_map (blocks : List Block) :
    blocksContent templates find blocks =
      blocks.map fun block => nodesContent templates find block.body := by
  induction blocks with
  | nil => rfl
  | cons block rest ih =>
      obtain ⟨verbatim, body⟩ := block
      rw [blocksContent, ih, List.map_cons]

theorem nodesContent_append (xs ys : List Node) :
    nodesContent templates find (xs ++ ys) =
      nodesContent templates find xs ++ nodesContent templates find ys := by
  induction xs with
  | nil => simp [nodesContent]
  | cons node rest ih => rw [List.cons_append, nodesContent, nodesContent, ih, String.append_assoc]

/-- The markup of a tag is what becomes of it. -/
theorem Node.content_tag (tag : Tag) :
    (Node.tag tag).content templates find =
      match tag.outcome? templates find with
      | some (.ok content) => content
      | _ => "" := by
  obtain ⟨name, params, attributes, blocks, span⟩ := tag
  rw [Node.content, Tag.content, Tag.outcome?]

/-- A tag that is reported is empty. -/
theorem Node.content_of_report?_isSome {tag : Tag} (h : (tag.report? templates find).isSome) :
    (Node.tag tag).content templates find = "" := by
  unfold Tag.report? at h
  rw [Node.content_tag]
  split at h
  · next fault hfault => rw [hfault]
  · cases h

/-- The markup of nodes does not show a tag that is reported. -/
theorem nodesContent_of_report?_isSome {child : Tag} (h : (child.report? templates find).isSome)
    (before after : List Node) :
    nodesContent templates find (before ++ .tag child :: after) =
      nodesContent templates find before ++ nodesContent templates find after := by
  rw [nodesContent_append, nodesContent, Node.content_of_report?_isSome h, String.empty_append]

theorem nodesResolved_eq_flatMap (nodes : List Node) :
    nodesResolved find nodes = nodes.flatMap (Node.resolved find) := by
  induction nodes with
  | nil => rfl
  | cons node rest ih => rw [nodesResolved, ih, List.flatMap_cons]

theorem blocksResolved_eq_flatMap (blocks : List Block) :
    blocksResolved find blocks = blocks.flatMap fun block => nodesResolved find block.body := by
  induction blocks with
  | nil => rfl
  | cons block rest ih =>
      obtain ⟨verbatim, body⟩ := block
      rw [blocksResolved, ih, List.flatMap_cons]

theorem Node.resolved_tag (tag : Tag) :
    (Node.tag tag).resolved find =
      if (find tag.name).isSome then
        (tag.blocks.flatMap fun block => nodesResolved find block.body) ++ [tag]
      else [] := by
  obtain ⟨name, params, attributes, blocks, span⟩ := tag
  rw [Node.resolved, Tag.resolved, blocksResolved_eq_flatMap]

/-! ### The emission of markup -/

theorem Rules.markup_of_none {tag : Tag} (h : find tag.name = none) :
    (Rules.markup templates find).tag tag = none :=
  congrArg (Option.map _) h

theorem Rules.markup_of_some {tag : Tag} {t : Templated} (h : find tag.name = some t) :
    (Rules.markup templates find).tag tag = some fun texts =>
      [templates.packet t.template t.display
        (Templated.bindings (.array tag.paramValues) (.object tag.attributeFields) texts)] :=
  congrArg (Option.map _) h

theorem Tag.outcome?_of_none {tag : Tag} (h : find tag.name = none) :
    tag.outcome? templates find = none :=
  congrArg (Option.map _) h

theorem Tag.outcome?_of_some {tag : Tag} {t : Templated} (h : find tag.name = some t) :
    tag.outcome? templates find =
      some (templates t.template (Templated.bindings (.array tag.paramValues)
        (.object tag.attributeFields) (blocksContent templates find tag.blocks))) :=
  congrArg (Option.map _) h

/-- The markup of what filling in a template sends. -/
theorem TemplateEngine.joined_packet (template : String) (display : Option Display)
    (bindings : Json) :
    Packet.joined Packet.htmlName [templates.packet template display bindings] =
      match templates template bindings with
      | .ok rendered => rendered
      | .error _ => "" := by
  rw [packet]
  cases templates template bindings with
  | ok rendered => exact Packet.joined_htmlName_single_of_isHtml rfl
  | error fault => exact Packet.joined_htmlName_single_of_not_isHtml rfl

/-- What else it sends. -/
theorem TemplateEngine.filter_packet (template : String) (display : Option Display)
    (bindings : Json) :
    ([templates.packet template display bindings].filter fun p => !p.isHtml) =
      match templates template bindings with
      | .ok _ => []
      | .error fault => [.error fault.message] := by
  rw [packet]
  cases templates template bindings <;> rfl

/-- The markup of nodes is their content if that of each is. -/
theorem joined_nodesEmission_of_forall {nodes : List Node}
    (h : ∀ node ∈ nodes, Packet.joined Packet.htmlName (node.emission (.markup templates find)) =
      node.content templates find) :
    Packet.joined Packet.htmlName (nodesEmission (.markup templates find) nodes) =
      nodesContent templates find nodes := by
  induction nodes with
  | nil => rfl
  | cons node rest ih =>
      rw [nodesEmission, nodesContent, Packet.joined_append, h node List.mem_cons_self,
        ih fun node hnode => h node (List.mem_cons_of_mem _ hnode)]

/-- So the blocks of a tag give what the tag is told, if that is so of each node in them. -/
theorem Tag.map_markup_blocks_of_forall {tag : Tag}
    (h : ∀ block ∈ tag.blocks, ∀ node ∈ block.body,
      Packet.joined Packet.htmlName (node.emission (.markup templates find)) =
        node.content templates find) :
    tag.blocks.map (Block.markup (.markup templates find)) =
      blocksContent templates find tag.blocks := by
  rw [blocksContent_eq_map]
  exact List.map_congr_left fun block hblock => joined_nodesEmission_of_forall (h block hblock)

/-- **The markup of what a node emits is its content.** -/
theorem Node.joined_emission_markup (node : Node) :
    Packet.joined Packet.htmlName (node.emission (.markup templates find)) =
      node.content templates find := by
  induction node using Node.induction with
  | text value => exact Packet.joined_htmlName_single_of_isHtml rfl
  | tag tag ih =>
      rw [Node.content_tag]
      cases hfind : find tag.name with
      | none =>
          rw [Node.emission_of_rule_none (Rules.markup_of_none hfind), Tag.outcome?_of_none hfind]
          rfl
      | some t =>
          rw [Node.emission_of_rule_some (Rules.markup_of_some hfind), Packet.joined_append,
            Packet.joined_filter_not_isHtml, String.empty_append, TemplateEngine.joined_packet,
            Tag.map_markup_blocks_of_forall ih, Tag.outcome?_of_some hfind]
          cases templates t.template _ <;> rfl

theorem joined_nodesEmission_markup (nodes : List Node) :
    Packet.joined Packet.htmlName (nodesEmission (.markup templates find) nodes) =
      nodesContent templates find nodes :=
  joined_nodesEmission_of_forall fun node _ => node.joined_emission_markup

/-- What filling in a tag sends besides markup is its report. -/
theorem Tag.filter_packet_eq_report? {tag : Tag} {t : Templated} (h : find tag.name = some t) :
    ([templates.packet t.template t.display (Templated.bindings (.array tag.paramValues)
        (.object tag.attributeFields) (blocksContent templates find tag.blocks))].filter
          fun p => !p.isHtml) =
      [tag].filterMap (Tag.report? templates find) := by
  rw [TemplateEngine.filter_packet, List.filterMap_cons, Tag.report?, Tag.outcome?_of_some h]
  cases templates t.template _ <;> rfl

/-- The blocks of a tag emit the reports of the tags in them, if that is so of each node in them. -/
theorem Tag.filter_blocks_of_forall {tag : Tag}
    (h : ∀ block ∈ tag.blocks, ∀ node ∈ block.body,
      ((node.emission (.markup templates find)).filter fun p => !p.isHtml) =
        (node.resolved find).filterMap (Tag.report? templates find)) :
    ((tag.blocks.map fun block =>
        nodesEmission (.markup templates find) block.body).flatten.filter fun p => !p.isHtml) =
      tag.blocks.flatMap fun block => nodesReports templates find block.body := by
  rw [← List.flatMap, List.filter_flatMap]
  refine List.flatMap_congr fun block hblock => ?_
  rw [nodesEmission_eq_flatMap, nodesReports, nodesResolved_eq_flatMap, List.filter_flatMap,
    List.filterMap_flatMap]
  exact List.flatMap_congr (h block hblock)

/-- **Besides markup a node emits the reports of its tags**, in the order in which they are filled
in. -/
theorem Node.filter_emission_markup (node : Node) :
    ((node.emission (.markup templates find)).filter fun p => !p.isHtml) =
      (node.resolved find).filterMap (Tag.report? templates find) := by
  induction node using Node.induction with
  | text value => rfl
  | tag tag ih =>
      rw [Node.resolved_tag]
      cases hfind : find tag.name with
      | none =>
          rw [Node.emission_of_rule_none (Rules.markup_of_none hfind)]
          rfl
      | some t =>
          rw [Node.emission_of_rule_some (Rules.markup_of_some hfind),
            Tag.map_markup_blocks_of_forall fun _ _ node _ => node.joined_emission_markup,
            List.filter_append, List.filter_filter, Tag.filter_packet_eq_report? hfind]
          simp only [Bool.and_self, Tag.filter_blocks_of_forall ih, Option.isSome_some, if_true,
            List.filterMap_append, List.filterMap_flatMap]
          rfl

theorem filter_nodesEmission_markup (nodes : List Node) :
    ((nodesEmission (.markup templates find) nodes).filter fun p => !p.isHtml) =
      nodesReports templates find nodes := by
  rw [nodesEmission_eq_flatMap, nodesReports, nodesResolved_eq_flatMap, List.filter_flatMap,
    List.filterMap_flatMap]
  exact List.flatMap_congr fun node _ => node.filter_emission_markup

/-- **What a tag with a template emits**: the reports of the tags in its blocks, and what its
template makes of its header and of the contents of its blocks. -/
theorem Node.emission_markup_of_some {tag : Tag} {t : Templated} (h : find tag.name = some t) :
    (Node.tag tag).emission (.markup templates find) =
      (tag.blocks.flatMap fun block => nodesReports templates find block.body) ++
        [templates.packet t.template t.display (Templated.bindings (.array tag.paramValues)
          (.object tag.attributeFields)
          (tag.blocks.map fun block => nodesContent templates find block.body))] := by
  rw [Node.emission_of_rule_some (Rules.markup_of_some h),
    Tag.filter_blocks_of_forall fun _ _ node _ => node.filter_emission_markup,
    Tag.map_markup_blocks_of_forall fun _ _ node _ => node.joined_emission_markup,
    blocksContent_eq_map]

/-- A report is an error. -/
theorem isError_of_mem_nodesReports {nodes : List Node} {p : Packet}
    (h : p ∈ nodesReports templates find nodes) : p.isError = true := by
  obtain ⟨tag, -, hreport⟩ := List.mem_filterMap.mp h
  unfold Tag.report? at hreport
  split at hreport
  · cases hreport
    rfl
  · cases hreport

end

/-! ### Composed documents -/

namespace Printer

variable {resolvers : ResolverMap} {find : String → Option Templated} {d : Document}

/-- **The packets of a composed document are the reports of its tags and its markup.**  Every tag
that has a template and stands in none without one, and whose template fails, is reported once, in
post-order; after the reports comes one packet of markup, that of the root.  A tag below the root
sends, besides the reports from its blocks, what its template makes of the contents of its blocks, and
in contents a tag that is reported does not show. -/
theorem dispatch_compose_eq_reports (templates : TemplateEngine) (policy : Policy)
    (hroot : templates.RendersContent) (hfind : resolvers.Holds find)
    (hdepth : d.nesting everyBlock ≤ 253) :
    (Printer.html templates resolvers policy).engine.dispatch (d.compose resolvers "html") =
        .ok ⟨nodesReports templates find d.body ++
          [.html none (nodesContent templates find d.body)], none⟩ ∧
      (∀ p ∈ nodesReports templates find d.body, p.isError = true) ∧
      (∀ (tag : Tag) (t : Templated) (left : Nat), find tag.name = some t →
        (Node.tag tag).nesting everyBlock + 2 ≤ left →
          ((Printer.html templates resolvers policy).engine.dispatchWithin left
            (composeNode resolvers "html" (.tag tag))).collect =
              ((tag.blocks.flatMap fun block => nodesReports templates find block.body) ++
                [templates.packet t.template t.display (Templated.bindings (.array tag.paramValues)
                  (.object tag.attributeFields)
                  (tag.blocks.map fun block => nodesContent templates find block.body))],
                .ok none)) ∧
      ∀ tag : Tag, (tag.report? templates find).isSome → ∀ before after,
        nodesContent templates find (before ++ .tag tag :: after) =
          nodesContent templates find before ++ nodesContent templates find after := by
  refine ⟨?_, fun p hp => isError_of_mem_nodesReports hp, ?_, ?_⟩
  · rw [html_dispatch_compose templates policy hfind (by omega), hroot.packet_root,
      filter_nodesEmission_markup, joined_nodesEmission_markup]
  · intro tag t left ht hleft
    rw [← Node.emission_markup_of_some ht]
    exact Engine.collect_composeNode (html_runsLeaves templates policy hfind) (.tag tag) left hleft
  · intro tag htag before after
    exact nodesContent_of_report?_isSome htag before after

/-- Three links without a target, two of them within another tag, and a fourth within a tag that
nothing resolves. -/
def brokenLinksSample : Document :=
  let link : List Block → Node := fun blocks => .tag { name := "link", blocks := blocks }
  ⟨[.tag
      { name := "b"
        blocks := [{ body :=
          [.text "1", link [{ verbatim := true, body := [.text "2"] }],
            .tag { name := "unknown", blocks := [{ body := [link []] }] }] }] },
    .text "3",
    link [{ body := [.text "4", .tag { name := "b", blocks := [{ body := [link []] }] }] }]]⟩

/-- The three are reported, and the text beside them is left. -/
theorem dispatch_compose_eq_reports_brokenLinks :
    TemplateEngine.RendersContent Template.engine ∧
      TagSet.builtin.resolvers.Holds TagSet.builtin.find? ∧
      brokenLinksSample.nesting everyBlock ≤ 253 ∧
      (nodesResolved TagSet.builtin.find? brokenLinksSample.body).map Tag.name =
        ["link", "b", "link", "b", "link"] ∧
      (Printer.html Template.engine TagSet.builtin.resolvers .strict).engine.dispatch
          (brokenLinksSample.compose TagSet.builtin.resolvers "html") =
        .ok ⟨List.replicate 3 (.error TemplateFault.unfillable.message) ++
          [.html none "<strong>1</strong>3"], none⟩ := by
  have hroot := Template.engine_rendersContent
  have hfind := TagSet.builtin.resolvers_holds
  have hdepth : brokenLinksSample.nesting everyBlock ≤ 253 := by decide
  have hresolved : (nodesResolved TagSet.builtin.find? brokenLinksSample.body).map Tag.name =
      ["link", "b", "link", "b", "link"] := by decide +kernel
  have hreports : nodesReports Template.engine TagSet.builtin.find? brokenLinksSample.body =
      List.replicate 3 (.error TemplateFault.unfillable.message) := by decide +kernel
  have hcontent : nodesContent Template.engine TagSet.builtin.find? brokenLinksSample.body =
      "<strong>1</strong>3" := by decide +kernel
  have hdispatch := (dispatch_compose_eq_reports Template.engine .strict hroot hfind hdepth).1
  rw [hreports, hcontent] at hdispatch
  exact ⟨hroot, hfind, hdepth, hresolved, hdispatch⟩

end Printer

end TaggedText
