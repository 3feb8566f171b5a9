import TaggedText.Proofs.Dispatch.Composed
import TaggedText.Proofs.Dispatch.Scope
import TaggedText.Proofs.Document.Slices
import TaggedText.Render

/-!
# Rendering looks up the tags of the source alone

Tag sets that give the same definitions to the tags of a document render it alike, to every target
and in every mode, whether a fault ends the rendering or not.  So a set that is put over another
changes nothing where none of its names is used (`renderWith_congr_tags`).

Composing a document looks up its tags and no others, which is seen from the definition
(`Document.compose_congr`).  Rendering is the harder half, since an engine is given all resolvers.
That its dispatches look up nothing else comes from the names that a command is about,
`Command.Within`: a templated resolver proposes commands that hold no others, and everything that is
dispatched for a tag is about that tag or what is inside it.  So agreement on the names of the
document is agreement on all that is ever looked up.
-/

namespace TaggedText

/-! ### Composed documents -/

section

variable {resolvers resolvers' : ResolverMap} {target : String} {known : String → Prop}

theorem composeNodes_congr_of_forall {nodes : List Node}
    (h : ∀ node ∈ nodes, composeNode resolvers target node = composeNode resolvers' target node) :
    composeNodes resolvers target nodes = composeNodes resolvers' target nodes := by
  rw [composeNodes_eq_map, composeNodes_eq_map]
  exact List.map_congr_left h

/-- A composed node depends on the resolvers of its tags. -/
theorem composeNode_congr (node : Node)
    (h : ∀ tag ∈ node.tags, resolvers.find? tag.name = resolvers'.find? tag.name) :
    composeNode resolvers target node = composeNode resolvers' target node := by
  induction node using Node.induction with
  | text value => rfl
  | tag tag ih =>
      have hdescribe : resolvers.describe target tag = resolvers'.describe target tag := by
        rw [ResolverMap.describe, ResolverMap.describe, h tag (Tag.mem_tags_iff.mpr (.inl rfl))]
      have hblocks : ∀ body ∈ tag.blocks.map Block.body,
          composeNodes resolvers target body = composeNodes resolvers' target body := by
        intro body hbody
        obtain ⟨block, hblock, rfl⟩ := List.mem_map.mp hbody
        refine composeNodes_congr_of_forall fun node hnode => ?_
        exact ih block hblock node hnode fun t ht =>
          h t (Tag.mem_tags_of_mem_block hblock (mem_nodesTags_of_mem hnode ht))
      rw [composeNode_tag, composeNode_tag, hdescribe, List.map_congr_left hblocks]

/-- **Composing looks up the tags of the document.** -/
theorem Document.compose_congr (d : Document)
    (h : ∀ tag ∈ d.tags, resolvers.find? tag.name = resolvers'.find? tag.name) :
    d.compose resolvers target = d.compose resolvers' target := by
  have hbody : composeNodes resolvers target d.body = composeNodes resolvers' target d.body :=
    composeNodes_congr_of_forall fun node hnode =>
      composeNode_congr node fun t ht => h t (mem_nodesTags_of_mem hnode ht)
  rw [Document.compose, Document.compose, hbody]

/-- A tree is in scope if what it holds is. -/
theorem Command.Within.tree {data : Json} {current : Command} {children : List (List Command)}
    (hcurrent : current.Within known)
    (hchildren : ∀ block ∈ children, ∀ child ∈ block, child.Within known) :
    (Command.tree data current children).Within known :=
  .intro nofun (fun _ hsome => Option.some.inj hsome ▸ hcurrent) hchildren

/-- A composed node is about no tag, but for what describes its tags. -/
theorem composeNode_within (hdescribe : ∀ tag, (resolvers.describe target tag).Within known)
    (node : Node) : (composeNode resolvers target node).Within known := by
  induction node using Node.induction with
  | text value => exact .of_isBare ⟨rfl, rfl⟩ nofun
  | tag tag ih =>
      rw [composeNode_tag]
      refine .tree (hdescribe tag) fun commands hcommands c hc => ?_
      obtain ⟨body, hbody, rfl⟩ := List.mem_map.mp hcommands
      obtain ⟨block, hblock, rfl⟩ := List.mem_map.mp hbody
      rw [composeNodes_eq_map] at hc
      obtain ⟨node, hnode, rfl⟩ := List.mem_map.mp hc
      exact ih block hblock node hnode

theorem Document.compose_within (hdescribe : ∀ tag, (resolvers.describe target tag).Within known)
    (d : Document) : (d.compose resolvers target).Within known := by
  refine .tree (.of_isBare ⟨rfl, rfl⟩ nofun) fun commands hcommands c hc => ?_
  obtain rfl := List.mem_singleton.mp hcommands
  rw [composeNodes_eq_map] at hc
  obtain ⟨node, _, rfl⟩ := List.mem_map.mp hc
  exact composeNode_within hdescribe node

end

/-! ### Templates -/

theorem Templated.isBare_of_proposes_askBlocks {t : Templated} {params attributes : Json}
    {c : Command} {left index : Nat} {blocks : List String}
    (h : (t.askBlocks params attributes index blocks left).Proposes c) : c.IsBare := by
  induction left generalizing index blocks with
  | zero =>
      cases h with
      | now => exact ⟨rfl, rfl⟩
      | later _ h => cases h
  | succ left ih =>
      cases h with
      | now => exact ⟨rfl, rfl⟩
      | later _ h => exact ih h

/-- A template proposes no trees. -/
theorem Templated.isBare_of_proposes {t : Templated} {c : Command} (h : t.sequence.Proposes c) :
    c.IsBare := by
  rcases h with _ | ⟨_, _ | ⟨_, _ | ⟨_, h⟩⟩⟩
  · exact ⟨rfl, rfl⟩
  · exact ⟨rfl, rfl⟩
  · exact ⟨rfl, rfl⟩
  · exact isBare_of_proposes_askBlocks h

theorem ResolverMap.IsTemplated.proposesOnly_isBare {map : ResolverMap} (h : map.IsTemplated) :
    map.ProposesOnly Command.IsBare := by
  intro name resolver hfind invocation c hc
  obtain ⟨t, rfl⟩ := h name resolver hfind
  exact Templated.isBare_of_proposes hc

/-- What describes a tag is about no part of the document. -/
theorem ResolverMap.IsTemplated.describe_within {map : ResolverMap} (h : map.IsTemplated)
    {known : String → Prop} (target : String) (tag : Tag) :
    (map.describe target tag).Within known := by
  unfold describe
  split
  · next resolver hfind =>
      obtain ⟨t, rfl⟩ := h tag.name resolver hfind
      exact .of_isBare ⟨rfl, rfl⟩ nofun
  · exact .of_isBare ⟨rfl, rfl⟩ nofun

/-! ### Engines and printers -/

theorem Registry.html_all_isOwn : Registry.html.All fun _ i => i.behaviour.IsOwn :=
  fun name i hfind => ⟨name, i, .inl hfind, rfl⟩

theorem Registry.text_all_isOwn : Registry.text.All fun _ i => i.behaviour.IsOwn :=
  fun name i hfind => ⟨name, i, .inr hfind, rfl⟩

/-- Whole dispatches agree too. -/
theorem Engine.dispatch_congr_resolvers {e : Engine} {known : String → Prop}
    (hown : e.registry.All fun _ i => i.behaviour.IsOwn) {resolvers : ResolverMap}
    (hresolvers : ∀ name, known name → e.resolvers.find? name = resolvers.find? name)
    (hproposes : e.resolvers.ProposesOnly Command.IsBare) {c : Command} (hc : c.Within known) :
    e.dispatch c = { e with resolvers := resolvers }.dispatch c := by
  have hdispatch := dispatchWithin_congr_resolvers (fun name i hfind => .inl (hown name i hfind))
    hresolvers hproposes e.maxDepth hc
  rw [dispatch, dispatch, hdispatch]

/-- Printers agree where their engines do. -/
theorem Printer.run_congr {p p' : Printer} (hname : p.packetName = p'.packetName)
    {commands : List Command} (h : ∀ c ∈ commands, p.engine.dispatch c = p'.engine.dispatch c) :
    p.run commands = p'.run commands := by
  induction commands with
  | nil => rfl
  | cons c rest ih =>
      have houtput : p.output = p'.output := by
        funext d
        rw [output, output, hname]
      rw [run, run, h c List.mem_cons_self, houtput,
        ih fun c hc => h c (List.mem_cons_of_mem _ hc)]

/-! ### Tag sets -/

/-- The name is that of a tag of the document. -/
def Document.usesName (d : Document) (name : String) : Prop :=
  ∃ tag ∈ d.tags, tag.name = name

/-- **Rendering looks up the tags of the document alone.** -/
theorem renderDocumentWith_congr_tags (templates : TemplateEngine) (options : RenderOptions)
    (tags' : TagSet) (d : Document)
    (h : ∀ tag ∈ d.tags, options.tags.find? tag.name = tags'.find? tag.name) :
    renderDocumentWith templates options d =
      renderDocumentWith templates { options with tags := tags' } d := by
  have hfind : ∀ tag ∈ d.tags,
      options.tags.resolvers.find? tag.name = tags'.resolvers.find? tag.name := by
    intro tag htag
    rw [options.tags.resolvers_holds, tags'.resolvers_holds, h tag htag]
  have hresolvers : ∀ name, d.usesName name →
      options.tags.resolvers.find? name = tags'.resolvers.find? name := by
    rintro _ ⟨tag, htag, rfl⟩
    exact hfind tag htag
  have hproposes := options.tags.resolvers_isTemplated.proposesOnly_isBare
  have hwithin (target : String) : (d.compose options.tags.resolvers target).Within d.usesName :=
    d.compose_within (options.tags.resolvers_isTemplated.describe_within target)
  have hscope : (Command.render (.document d)).Within d.usesName :=
    .render fun tag htag => ⟨tag, htag, rfl⟩
  unfold renderDocumentWith
  dsimp only
  rw [← d.compose_congr hfind]
  have hhtml (c : Command) (hc : c.Within d.usesName) :
      (Printer.html templates options.tags.resolvers options.policy).engine.dispatch c =
        (Printer.html templates tags'.resolvers options.policy).engine.dispatch c :=
    Engine.dispatch_congr_resolvers Registry.html_all_isOwn hresolvers hproposes hc
  have htext (c : Command) (hc : c.Within d.usesName) :
      (Printer.text options.tags.resolvers options.policy).engine.dispatch c =
        (Printer.text tags'.resolvers options.policy).engine.dispatch c :=
    Engine.dispatch_congr_resolvers Registry.text_all_isOwn hresolvers hproposes hc
  split
  · rw [Printer.renderDocument, Printer.renderDocument, Engine.render, Engine.render,
      hhtml _ hscope]
    rfl
  · exact Printer.run_congr (by rfl) (List.forall_mem_singleton.mpr (hhtml _ (hwithin _)))
  · exact Printer.run_congr (by rfl) (List.forall_mem_singleton.mpr (htext _ (hwithin _)))

/-- An extension changes nothing under a key that it does not have. -/
theorem Fields.find?_extend_of_none {α : Type} {key : String} {fields more : List (String × α)}
    (h : find? key more = none) : find? key (extend fields more) = find? key fields := by
  induction more generalizing fields with
  | nil => rfl
  | cons entry rest ih =>
      rw [find?] at h
      split at h
      · cases h
      · next hne =>
          have hinsert := find?_insert entry.1 key entry.2 fields
          rw [if_neg hne] at hinsert
          exact (ih h).trans hinsert

theorem TagSet.find?_merge_of_none {set upper : TagSet} {name : String}
    (h : upper.find? name = none) : (set.merge upper).find? name = set.find? name :=
  Fields.find?_extend_of_none h

/-- **Rendering depends on the tag set only through the tags of the source.**  Whatever the target,
the mode, the policy and the limits of the reader are, a source is rendered alike by tag sets that
give the same definition, or both none, to each of its tags.  In particular a set that is put over
another changes nothing for a source that uses none of its names. -/
theorem renderWith_congr_tags (templates : TemplateEngine) (options : RenderOptions)
    (source : String) :
    (∀ tags' : TagSet,
      (∀ d, Document.read options.reader source = .ok d → ∀ tag ∈ d.tags,
        options.tags.find? tag.name = tags'.find? tag.name) →
        renderWith templates options source =
          renderWith templates { options with tags := tags' } source) ∧
      ∀ upper : TagSet,
        (∀ d, Document.read options.reader source = .ok d → ∀ tag ∈ d.tags,
          upper.find? tag.name = none) →
          renderWith templates options source =
            renderWith templates { options with tags := options.tags.merge upper } source := by
  have hagree : ∀ tags' : TagSet,
      (∀ d, Document.read options.reader source = .ok d → ∀ tag ∈ d.tags,
        options.tags.find? tag.name = tags'.find? tag.name) →
        renderWith templates options source =
          renderWith templates { options with tags := tags' } source := by
    intro tags' h
    unfold renderWith
    dsimp only
    cases hread : Document.read options.reader source with
    | error diagnostics => rfl
    | ok d =>
        simp only
        rw [renderDocumentWith_congr_tags templates options tags' d (h d hread)]
  refine ⟨hagree, fun upper h => hagree _ fun d hread tag htag => ?_⟩
  exact (TagSet.find?_merge_of_none (h d hread tag htag)).symm

/-- A set with a definition of `a` and one of `c`, which has a template of its own. -/
def TagSet.lettered (template : String) : TagSet :=
  Table.empty
    |>.insert "a" ⟨"<\x7b\x7b data.content \x7d\x7d>", none⟩
    |>.insert "c" ⟨template, none⟩

/-- The tags `a` and `b`, one in the other. -/
def letteredSource : String := "x\\a \x7b\\b \x7dy"

/-- The source has the same output with every such set, and with a definition of `c` put over it. -/
theorem renderWith_congr_tags_letteredSource :
    (∀ d, Document.read {} letteredSource = .ok d → ∀ tag ∈ d.tags,
        (TagSet.lettered "1").find? tag.name = (TagSet.lettered "2").find? tag.name) ∧
      (∀ d, Document.read {} letteredSource = .ok d → ∀ tag ∈ d.tags,
        (Table.empty.insert "c" ⟨"3", none⟩ : TagSet).find? tag.name = none) ∧
      (renderWith Template.engine { tags := .lettered "1" } letteredSource).toOption =
        some "x< >y" ∧
      renderWith Template.engine { tags := .lettered "1" } letteredSource =
        renderWith Template.engine { tags := .lettered "2" } letteredSource ∧
      renderWith Template.engine { tags := .lettered "1" } letteredSource =
        renderWith Template.engine
          { tags := (TagSet.lettered "1").merge (Table.empty.insert "c" ⟨"3", none⟩) }
          letteredSource := by
  have hread : Document.read {} letteredSource = .ok ⟨[.text "x", .tag outerTag, .text "y"]⟩ :=
    Document.read_nestedTags
  have hnames : ∀ d, Document.read {} letteredSource = .ok d → ∀ tag ∈ d.tags,
      tag.name = "a" ∨ tag.name = "b" := by
    intro d hd
    obtain rfl := Except.ok.inj (hread.symm.trans hd)
    decide +kernel
  have hsame : ∀ d, Document.read {} letteredSource = .ok d → ∀ tag ∈ d.tags,
      (TagSet.lettered "1").find? tag.name = (TagSet.lettered "2").find? tag.name := by
    intro d hd tag htag
    rcases hnames d hd tag htag with hname | hname <;> simp [hname, TagSet.lettered]
  have hunused : ∀ d, Document.read {} letteredSource = .ok d → ∀ tag ∈ d.tags,
      (Table.empty.insert "c" ⟨"3", none⟩ : TagSet).find? tag.name = none := by
    intro d hd tag htag
    rcases hnames d hd tag htag with hname | hname <;> simp [hname]
  have hagree := renderWith_congr_tags Template.engine { tags := .lettered "1" } letteredSource
  refine ⟨hsame, hunused, ?_, hagree.1 _ hsame, hagree.2 _ hunused⟩
  rw [renderWith, hread]
  decide +kernel

end TaggedText
