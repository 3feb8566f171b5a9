import TaggedText.Compose
import TaggedText.Proofs.Dispatch.Builtins
import TaggedText.Target

/-!
# Running composed documents

A composed document is run by `tree` commands, which render their children first.  What one gives
depends on the target only through its leaves: what a text gives, and what the command that
describes a tag gives for the markup of the tag's blocks.

So the two targets share one proof.  `Rules` say what leaves give, `Engine.RunsLeaves` that an
engine's leaves give it, and under that hypothesis alone `Engine.collect_composeNode` shows by
induction over nodes that a composed node gives its emission.  The emission is defined on the
document, with no engine in it.  `Engine.dispatch_compose` adds the root, which closes a document.

## The two targets

* **HTML**, where every resolver is a template: a tag gives its template, filled in
  (`Printer.html_runsLeaves`).
* **Plain text**, where resolvers may be anything that describes tags as markup or as undefined
  (`ResolverMap.DescribesMarkup`): a tag gives what is in its blocks and nothing of its own, and
  nothing at all if it is hidden (`Rules.visible`, `ResolverMap.hides`).  Templates are the case in
  which a tag is hidden if it has none.
-/

namespace TaggedText

/-! ### Composition, list by list -/

section

variable (resolvers : ResolverMap) (target : String)

theorem composeNodes_eq_map (nodes : List Node) :
    composeNodes resolvers target nodes = nodes.map (composeNode resolvers target) := by
  induction nodes with
  | nil => rfl
  | cons node rest ih => rw [composeNodes, ih, List.map_cons]

theorem composeBlocks_eq_map (blocks : List Block) :
    composeBlocks resolvers target blocks =
      (blocks.map Block.body).map (composeNodes resolvers target) := by
  induction blocks with
  | nil => rfl
  | cons block rest ih =>
      obtain ⟨verbatim, body⟩ := block
      rw [composeBlocks, ih, List.map_cons, List.map_cons]

theorem composeNode_tag (tag : Tag) :
    composeNode resolvers target (.tag tag) =
      .tree tag.composedData (resolvers.describe target tag)
        ((tag.blocks.map Block.body).map (composeNodes resolvers target)) := by
  obtain ⟨name, params, attributes, blocks, span⟩ := tag
  rw [composeNode, composeTag, composeBlocks_eq_map]

end

/-! ### Leaves -/

/-- **The leaves of composed documents give what the rules say**, with one level left to them, if a
tag is described by `describe`. -/
structure Engine.RunsLeaves (e : Engine) (rules : Rules) (describe : Tag → Command) : Prop where
  tree : e.registry.find? "tree" = some ⟨.isPublic, Target.tree⟩
  text : ∀ value left,
    (e.dispatchWithin (left + 1) (.text value)).collect = (rules.text value, .ok none)
  unresolved : ∀ tag, rules.tag tag = none → (describe tag).isUndefined = true
  defined : ∀ tag own, rules.tag tag = some own → (describe tag).isUndefined = false
  resolved : ∀ tag own, rules.tag tag = some own → ∀ texts left,
    (e.dispatchWithin (left + 1) { describe tag with
      data := Target.bindings tag.composedData (describe tag).data texts }).collect =
        (own texts, .ok none)

/-- A composed node gives what the node emits. -/
def Engine.RunsNode (e : Engine) (rules : Rules) (compose : Node → Command) (left : Nat)
    (node : Node) : Prop :=
  (e.dispatchWithin left (compose node)).collect = (node.emission rules, .ok none)

/-! ### Trees -/

namespace Target

variable {e : Engine} {rules : Rules} {compose : Node → Command} {left : Nat}

theorem collect_renderBlock {nodes : List Node}
    (h : ∀ node ∈ nodes, e.RunsNode rules compose left node) (content : String) :
    (renderBlock (e.contextWithin left) content (nodes.map compose)).collect =
      ((nodesEmission rules nodes).filter fun p => !p.isHtml,
        .ok (content ++ Packet.joined Packet.htmlName (nodesEmission rules nodes))) := by
  induction nodes generalizing content with
  | nil => simp [renderBlock, nodesEmission]
  | cons node rest ih =>
      have hnode : (e.dispatchWithin left (compose node)).collect =
          (node.emission rules, .ok none) := h node List.mem_cons_self
      -- The block keeps the markup of the node and lets the rest pass.
      have hgather := Emitter.collect_through_gather (e.dispatchWithin left (compose node)) content
      rw [hnode] at hgather
      rw [List.map_cons, renderBlock]
      refine (Emitter.collect_bind_ok hgather).trans ?_
      simp only [ih fun node hnode => h node (List.mem_cons_of_mem _ hnode)]
      rw [nodesEmission, List.filter_append, Packet.joined_append, String.append_assoc]

/-- Blocks give what their nodes emit besides markup, and their markup as the result. -/
theorem collect_renderBlocks {bodies : List (List Node)}
    (h : ∀ body ∈ bodies, ∀ node ∈ body, e.RunsNode rules compose left node) :
    (renderBlocks (e.contextWithin left) (bodies.map fun body => body.map compose)).collect =
      ((bodies.map (nodesEmission rules)).flatten.filter fun p => !p.isHtml,
        .ok (bodies.map fun body => Packet.joined Packet.htmlName (nodesEmission rules body))) := by
  induction bodies with
  | nil => rfl
  | cons body rest ih =>
      have hbody := collect_renderBlock (h body List.mem_cons_self) ""
      have hrest := ih fun body hbody => h body (List.mem_cons_of_mem _ hbody)
      rw [List.map_cons, renderBlocks, Emitter.bind_eq, Emitter.collect_bind_ok hbody,
        Emitter.bind_eq, Emitter.collect_bind_ok hrest]
      simp

/-- **A tree** gives what its blocks emit besides markup, and then what its current command makes of
their markup. -/
theorem collect_tree {bodies : List (List Node)} (data : Json) (current : Command)
    {own : List Packet} (hdefined : current.isUndefined = false)
    (h : ∀ body ∈ bodies, ∀ node ∈ body, e.RunsNode rules compose left node)
    (hcurrent : (e.dispatchWithin left { current with
      data := bindings data current.data (bodies.map fun body =>
        Packet.joined Packet.htmlName (nodesEmission rules body)) }).collect = (own, .ok none)) :
    (tree (e.contextWithin left)
        (.tree data current (bodies.map fun body => body.map compose))).collect =
      (((bodies.map (nodesEmission rules)).flatten.filter fun p => !p.isHtml) ++ own,
        .ok none) := by
  simp only [tree, Command.tree, hdefined, Bool.false_eq_true, if_false]
  rw [Emitter.collect_bind_ok (collect_renderBlocks h)]
  exact congrArg (fun r : List Packet × Except Interrupt (Option Json) =>
    (((bodies.map (nodesEmission rules)).flatten.filter fun p => !p.isHtml) ++ r.1, r.2)) hcurrent

end Target

/-! ### Nodes and documents -/

namespace Engine

variable {e : Engine} {rules : Rules} {resolvers : ResolverMap} {target : String}

/-- **A composed node gives what the node emits**, where two levels more are left than blocks
nest. -/
theorem collect_composeNode (h : e.RunsLeaves rules (resolvers.describe target)) (node : Node) :
    ∀ left, node.nesting everyBlock + 2 ≤ left →
      e.RunsNode rules (composeNode resolvers target) left node := by
  induction node using Node.induction with
  | text value =>
      intro left hleft
      obtain ⟨left, rfl⟩ : ∃ l, left = l + 1 := ⟨left - 1, by omega⟩
      exact h.text value left
  | tag tag ih =>
      intro left hleft
      obtain ⟨left, rfl⟩ : ∃ l, left = l + 1 + 1 := ⟨left - 2, by omega⟩
      rw [RunsNode, composeNode_tag, dispatchWithin_succ h.tree]
      cases hrule : rules.tag tag with
      | none =>
          -- The children of an undefined tag are not even rendered.
          rw [Node.emission_of_rule_none hrule]
          simp [Target.tree, Command.tree, h.unresolved tag hrule]
      | some own =>
          have hnodes : ∀ body ∈ tag.blocks.map Block.body, ∀ node ∈ body,
              e.RunsNode rules (composeNode resolvers target) (left + 1) node := by
            intro body hbody node hnode
            obtain ⟨block, hblock, rfl⟩ := List.mem_map.mp hbody
            have hnesting := Node.weight_add_nesting_le everyBlock hblock hnode
            simp only [everyBlock] at hnesting hleft
            exact ih block hblock node hnode (left + 1) (by omega)
          have htree := Target.collect_tree tag.composedData _ (h.defined tag own hrule) hnodes
            (h.resolved tag own hrule _ left)
          have hcompose : (fun body : List Node => body.map (composeNode resolvers target)) =
              composeNodes resolvers target := by
            funext body
            rw [composeNodes_eq_map]
          rw [hcompose] at htree
          rw [Node.emission_of_rule_some hrule, htree, List.map_map, List.map_map]
          rfl

/-- **A composed document** gives what its nodes emit besides markup, and then what its root makes
of their markup. -/
theorem dispatch_compose (h : e.RunsLeaves rules (resolvers.describe target)) (d : Document)
    (hdepth : d.nesting everyBlock + 3 ≤ e.maxDepth) (root : List Packet)
    (hroot : ∀ left, (e.dispatchWithin (left + 1) { Command.html rootTemplate with
      data := Target.bindings (.object []) .null
        [Packet.joined Packet.htmlName (nodesEmission rules d.body)] }).collect =
          (root, .ok none)) :
    e.dispatch (d.compose resolvers target) =
      .ok ⟨((nodesEmission rules d.body).filter fun p => !p.isHtml) ++ root, none⟩ := by
  obtain ⟨left, hleft⟩ : ∃ l, e.maxDepth = l + 1 + 1 := ⟨e.maxDepth - 2, by omega⟩
  rw [hleft] at hdepth
  have hnodes : ∀ body ∈ [d.body], ∀ node ∈ body,
      e.RunsNode rules (composeNode resolvers target) (left + 1) node := by
    intro body hbody node hnode
    rw [List.mem_singleton] at hbody
    subst hbody
    have hnesting := nodesNesting_le_iff.mp (Nat.le_refl (d.nesting everyBlock)) node hnode
    exact collect_composeNode h node (left + 1) (by omega)
  have htree := Target.collect_tree (.object []) (.html rootTemplate) rfl hnodes (hroot left)
  rw [dispatch, hleft, Document.compose, composeNodes_eq_map, dispatchWithin_succ h.tree]
  simp only [List.map_cons, List.map_nil, List.flatten_cons, List.flatten_nil,
    List.append_nil] at htree
  rw [htree]

end Engine

/-! ### Hidden tags -/

/-- Nothing resolves the tag, or its resolver describes it as undefined. -/
def ResolverMap.hides (resolvers : ResolverMap) (target : String) (tag : Tag) : Bool :=
  match resolvers.find? tag.name with
  | none => true
  | some resolver => (resolver.resolve ⟨target, tag⟩).isUndefined

/-- Every resolver describes its tags as undefined or by an `html` command. -/
def ResolverMap.DescribesMarkup (resolvers : ResolverMap) (target : String) : Prop :=
  ∀ (tag : Tag) (resolver : Resolver), resolvers.find? tag.name = some resolver →
    (resolver.resolve ⟨target, tag⟩).isUndefined = true ∨
      (resolver.resolve ⟨target, tag⟩).name = "html"

theorem ResolverMap.isUndefined_describe (resolvers : ResolverMap) (target : String) (tag : Tag) :
    (resolvers.describe target tag).isUndefined = resolvers.hides target tag := by
  unfold describe hides
  cases resolvers.find? tag.name <;> rfl

/-- What is not hidden is described by an `html` command. -/
theorem ResolverMap.DescribesMarkup.describe_name {resolvers : ResolverMap} {target : String}
    (h : resolvers.DescribesMarkup target) {tag : Tag}
    (hshown : resolvers.hides target tag = false) :
    (resolvers.describe target tag).name = "html" := by
  unfold ResolverMap.describe
  unfold ResolverMap.hides at hshown
  cases hfind : resolvers.find? tag.name with
  | none => simp [hfind] at hshown
  | some resolver =>
      rw [hfind] at hshown
      exact (h tag resolver hfind).resolve_left (by simp [hshown])

/-! ### The two targets -/

/-- A tree's own data, its blocks and no data of the current command are what a template sees. -/
theorem Target.bindings_composedData (tag : Tag) (texts : List String) :
    Target.bindings tag.composedData .null texts =
      Templated.bindings (.array tag.paramValues) (.object tag.attributeFields) texts := by
  simp only [Target.bindings, Templated.bindings, Tag.composedData, Json.ofFields, Fields.extend,
    Fields.insert, Target.fieldsOf, List.foldl_cons, List.foldl_nil, String.reduceLT,
    String.reduceEq, if_true, if_false]

/-- A text as a packet of the text target. -/
def Packet.text (value : String) : Packet :=
  ⟨Packet.textName, none, value⟩

@[simp] theorem Packet.isHtml_text (value : String) : (Packet.text value).isHtml = false := rfl

/-- Texts go out in packets of their own, and a tag that is not hidden gives nothing but what is in
its blocks. -/
def Rules.visible (hides : Tag → Bool) : Rules where
  text value := [.text value]
  tag tag := if hides tag then none else some fun _ => []

theorem Rules.hides_of_visible_none {hides : Tag → Bool} {tag : Tag}
    (h : (Rules.visible hides).tag tag = none) : hides tag = true := by
  simpa [Rules.visible] using h

theorem Rules.hides_of_visible_some {hides : Tag → Bool} {tag : Tag}
    {own : List String → List Packet} (h : (Rules.visible hides).tag tag = some own) :
    hides tag = false ∧ own = fun _ => [] := by
  have h : (if hides tag then none else some fun _ => []) = some own := h
  split at h
  · cases h
  · next hshown => exact ⟨by simpa using hshown, (Option.some.inj h).symm⟩

section

variable {resolvers : ResolverMap} {find : String → Option Templated} {tag : Tag}

theorem ResolverMap.Holds.describe_of_none (hfind : resolvers.Holds find)
    (h : find tag.name = none) (target : String) :
    resolvers.describe target tag = .undefined := by
  rw [describe, hfind, h]
  rfl

theorem ResolverMap.Holds.describe_of_some (hfind : resolvers.Holds find) {t : Templated}
    (h : find tag.name = some t) (target : String) :
    resolvers.describe target tag = t.resolve := by
  rw [describe, hfind, h]
  rfl

theorem ResolverMap.Holds.describesMarkup (hfind : resolvers.Holds find) (target : String) :
    resolvers.DescribesMarkup target := by
  intro tag resolver hresolver
  rw [hfind] at hresolver
  obtain ⟨t, -, rfl⟩ := Option.map_eq_some_iff.mp hresolver
  exact .inr rfl

/-- A map of templates hides the tags that it does not know. -/
theorem ResolverMap.Holds.hides_eq_isNone (hfind : resolvers.Holds find) (target : String)
    (tag : Tag) : resolvers.hides target tag = (find tag.name).isNone := by
  rw [hides, hfind]
  cases find tag.name <;> rfl

/-- On the HTML target a composed tag is its template, filled in. -/
theorem Printer.html_runsLeaves (templates : TemplateEngine) (policy : Policy)
    (hfind : resolvers.Holds find) :
    (Printer.html templates resolvers policy).engine.RunsLeaves (.markup templates find)
      (resolvers.describe "html") where
  tree := by simp [html, Registry.html, Command.undefinedName]
  text value left := by
    rw [Engine.dispatchWithin_succ (i := ⟨.isPublic, Target.textAsHtml⟩)
      (by simp [html, Registry.html, Command.text, Command.undefinedName])]
    rfl
  unresolved tag htag := by
    rw [hfind.describe_of_none (by simpa [Rules.markup] using htag)]
    rfl
  defined tag own htag := by
    obtain ⟨t, ht, -⟩ := Option.map_eq_some_iff.mp htag
    rw [hfind.describe_of_some ht]
    rfl
  resolved tag own htag texts left := by
    obtain ⟨t, ht, rfl⟩ := Option.map_eq_some_iff.mp htag
    have hdata : t.resolve.data = .null := rfl
    rw [hfind.describe_of_some ht, hdata, Target.bindings_composedData]
    exact congrArg Emitter.collect (Engine.dispatch_html Registry.html_extends rfl rfl left)

/-- On the text target a tag that is not hidden gives nothing of its own. -/
theorem Printer.text_runsLeaves {target : String} (policy : Policy)
    (hmarkup : resolvers.DescribesMarkup target) :
    (Printer.text resolvers policy).engine.RunsLeaves (.visible (resolvers.hides target))
      (resolvers.describe target) where
  tree := by simp [text, Registry.text, Command.undefinedName, Packet.textName, Packet.htmlName]
  text value left := by
    rw [Engine.dispatchWithin_succ (i := ⟨.isPublic, Target.textLeaf⟩)
      (by simp [text, Registry.text, Command.text, Command.undefinedName, Packet.textName,
        Packet.htmlName])]
    rfl
  unresolved tag htag := by
    rw [resolvers.isUndefined_describe]
    exact Rules.hides_of_visible_none htag
  defined tag own htag := by
    rw [resolvers.isUndefined_describe]
    exact (Rules.hides_of_visible_some htag).1
  resolved tag own htag texts left := by
    obtain ⟨hshown, rfl⟩ := Rules.hides_of_visible_some htag
    have hname := hmarkup.describe_name hshown
    rw [Engine.dispatchWithin_succ (i := ⟨.isPublic, Target.discard⟩)
      (by simp [text, Registry.text, hname, Command.undefinedName, Packet.textName,
        Packet.htmlName])]
    rfl

end

/-! ### Whole documents -/

namespace Printer

variable {resolvers : ResolverMap} {find : String → Option Templated} {d : Document}

/-- A command that is run alone gives what its dispatch gives. -/
theorem run_singleton {p : Printer} {command : Command} {dispatch : Dispatch}
    (h : p.engine.dispatch command = .ok dispatch) : p.run [command] = .ok (p.output dispatch) := by
  rw [run, h]
  show Except.ok (p.output dispatch ++ "") = Except.ok (p.output dispatch)
  rw [String.append_empty]

/-- What the root of a composed document is told: the markup of the document. -/
def rootBindings (content : String) : List (String × Json) :=
  [("blocks", .array [.string content]), ("content", .string content)]

theorem bindings_root (content : String) :
    Target.bindings (.object []) .null [content] = .object (rootBindings content) := by
  have hjoin : String.join [content] = content := by simp
  simp only [Target.bindings, Target.fieldsOf, Fields.insert, Fields.extend, rootBindings,
    List.foldl_nil, List.map_cons, List.map_nil, String.reduceLT, if_true, hjoin]

/-- **A composed document on the HTML target** gives what its nodes emit besides markup, and then
what its root makes of their markup. -/
theorem html_dispatch_compose (templates : TemplateEngine) (policy : Policy)
    (hfind : resolvers.Holds find) (hdepth : d.nesting everyBlock + 3 ≤ 256) :
    (Printer.html templates resolvers policy).engine.dispatch (d.compose resolvers "html") =
      .ok ⟨((nodesEmission (.markup templates find) d.body).filter fun p => !p.isHtml) ++
        [templates.packet rootTemplate none (.object (rootBindings
          (Packet.joined Packet.htmlName (nodesEmission (.markup templates find) d.body))))],
        none⟩ := by
  refine Engine.dispatch_compose (html_runsLeaves templates policy hfind) d hdepth _ fun left => ?_
  rw [bindings_root]
  exact congrArg Emitter.collect (Engine.dispatch_html Registry.html_extends rfl rfl left)

/-- Only what the root makes of the markup is output. -/
theorem html_run_compose (templates : TemplateEngine) (policy : Policy)
    (hfind : resolvers.Holds find) (hdepth : d.nesting everyBlock + 3 ≤ 256) :
    (Printer.html templates resolvers policy).run [d.compose resolvers "html"] =
      .ok (Packet.joined Packet.htmlName [templates.packet rootTemplate none (.object (rootBindings
        (Packet.joined Packet.htmlName (nodesEmission (.markup templates find) d.body))))]) := by
  rw [run_singleton (html_dispatch_compose templates policy hfind hdepth), output]
  refine congrArg Except.ok ?_
  show Packet.joined Packet.htmlName _ = _
  rw [Packet.joined_append, Packet.joined_filter_not_isHtml, String.empty_append]

/-- **A composed document on the text target** gives its text, by whatever rules its leaves run. -/
theorem text_run_of_runsLeaves {rules : Rules} {target : String} {policy : Policy}
    (h : (Printer.text resolvers policy).engine.RunsLeaves rules (resolvers.describe target))
    (hdepth : d.nesting everyBlock + 3 ≤ 256) :
    (Printer.text resolvers policy).run [d.compose resolvers target] =
      .ok (Packet.joined Packet.textName
        ((nodesEmission rules d.body).filter fun p => !p.isHtml)) := by
  have hroot : ∀ left, ((Printer.text resolvers policy).engine.dispatchWithin (left + 1)
      { Command.html rootTemplate with
        data := Target.bindings (.object []) .null
          [Packet.joined Packet.htmlName (nodesEmission rules d.body)] }).collect =
        ([], .ok none) := by
    intro left
    rw [Engine.dispatchWithin_succ (i := ⟨.isPublic, Target.discard⟩)
      (by simp [text, Registry.text, Command.html, Command.undefinedName, Packet.textName,
        Packet.htmlName])]
    rfl
  rw [run_singleton (Engine.dispatch_compose h d hdepth _ hroot), output, List.append_nil]
  rfl

/-- Where every resolver is a template, a tag is hidden if it has none. -/
theorem text_run_compose (policy : Policy) (hfind : resolvers.Holds find)
    (hdepth : d.nesting everyBlock + 3 ≤ 256) :
    (Printer.text resolvers policy).run [d.compose resolvers "text"] =
      .ok (Packet.joined Packet.textName
        ((nodesEmission (.visible fun tag => (find tag.name).isNone) d.body).filter
          fun p => !p.isHtml)) :=
  funext (hfind.hides_eq_isNone "text") ▸
    text_run_of_runsLeaves (text_runsLeaves policy (hfind.describesMarkup "text")) hdepth

end Printer

end TaggedText
