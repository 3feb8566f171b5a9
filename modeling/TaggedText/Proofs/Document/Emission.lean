import TaggedText.Proofs.Collection
import TaggedText.Proofs.Document.Nesting
import TaggedText.TagSet

/-!
# What a document emits

The meaning of a document without any dispatching: which packets its nodes give, when it is said
what a text gives and what a tag makes of its blocks, and how many nested dispatches a rendering
takes.

`Rules` say what texts and tags give.  A tag without a rule gives nothing, and neither do its
blocks. The emission of a tag is whatever is no markup in its blocks, in the order in which it is
met, and then what the tag gives of its own, for which it is told the markup of each block.  With
the rules of templates (`Rules.markup`) the markup among a node's packets is what the node renders
to; its other packets are the failed templates within it.

## Levels

`Node.levels` is defined by the same recursion.  The bounds on it are what makes the limit of an
engine a matter of nesting: three dispatches for each block around a node, and three for the node
(`Node.levels_le`); two more are enough where verbatim blocks hold text at most, and are not counted
(`Node.levels_le_of_flatVerbatim`).
-/

namespace TaggedText

/-! ### Maps of templates -/

/-- Every resolver of the map is a template. -/
def ResolverMap.IsTemplated (map : ResolverMap) : Prop :=
  ∀ name resolver, map.find? name = some resolver → ∃ t : Templated, resolver = t.resolver

/-- The map holds exactly the templates that `find` knows. -/
def ResolverMap.Holds (map : ResolverMap) (find : String → Option Templated) : Prop :=
  ∀ name, map.find? name = (find name).map Templated.resolver

theorem ResolverMap.IsTemplated.exists_holds {map : ResolverMap} (h : map.IsTemplated) :
    ∃ find, map.Holds find := by
  have hname : ∀ name, ∃ t? : Option Templated, map.find? name = t?.map Templated.resolver := by
    intro name
    cases hfind : map.find? name with
    | none => exact ⟨none, rfl⟩
    | some resolver =>
        obtain ⟨t, rfl⟩ := h name resolver hfind
        exact ⟨some t, rfl⟩
  exact ⟨fun name => (hname name).choose, fun name => (hname name).choose_spec⟩

theorem Fields.find?_map {α β : Type} (f : α → β) (key : String) (fields : List (String × α)) :
    Fields.find? key (fields.map fun entry => (entry.1, f entry.2)) =
      (Fields.find? key fields).map f := by
  induction fields with
  | nil => rfl
  | cons field rest ih =>
      rw [List.map_cons, Fields.find?, Fields.find?, ih]
      split <;> rfl

/-- The resolvers of a tag set are the templates of its tags. -/
theorem TagSet.resolvers_holds (set : TagSet) : set.resolvers.Holds set.find? :=
  fun name => Fields.find?_map Templated.resolver name set.entries

theorem TagSet.resolvers_isTemplated (set : TagSet) : set.resolvers.IsTemplated := by
  intro name resolver hfind
  rw [set.resolvers_holds] at hfind
  obtain ⟨t, -, rfl⟩ := Option.map_eq_some_iff.mp hfind
  exact ⟨t, rfl⟩

/-! ### Packets -/

/-- **What the parts of a document give** on an output target.  A tag that is not resolved has no
rule; any other has one that turns the markup of its blocks into packets. -/
structure Rules where
  text : String → List Packet
  tag : Tag → Option (List String → List Packet)

/-- What filling in a template sends: its markup, or the report of its failure. -/
def TemplateEngine.packet (templates : TemplateEngine) (template : String)
    (display : Option Display) (bindings : Json) : Packet :=
  match templates template bindings with
  | .ok rendered => .html display rendered
  | .error fault => .error fault.message

/-- Text is markup as it stands, and a tag is its template, filled in. -/
def Rules.markup (templates : TemplateEngine) (find : String → Option Templated) : Rules where
  text value := [.html (some .inline) value]
  tag tag := (find tag.name).map fun t texts =>
    [templates.packet t.template t.display
      (Templated.bindings (.array tag.paramValues) (.object tag.attributeFields) texts)]

section

variable (rules : Rules)

mutual

/-- The packets of a node. -/
def Node.emission : Node → List Packet
  | .text value => rules.text value
  | .tag tag => tag.emission

/-- The packets of a tag: those of its blocks that are no markup, and then its own. -/
def Tag.emission : Tag → List Packet
  | ⟨name, params, attributes, blocks, span⟩ =>
    let parts := blocksEmission blocks
    match rules.tag ⟨name, params, attributes, blocks, span⟩ with
    | none => []
    | some own =>
      parts.flatten.filter (fun p => !p.isHtml) ++ own (parts.map (Packet.joined Packet.htmlName))

/-- The packets of each of some blocks. -/
def blocksEmission : List Block → List (List Packet)
  | [] => []
  | ⟨_, body⟩ :: rest => nodesEmission body :: blocksEmission rest

/-- The packets of nodes, one node after the other. -/
def nodesEmission : List Node → List Packet
  | [] => []
  | node :: rest => node.emission ++ nodesEmission rest

end

/-- The markup of a block: that of what its nodes emit. -/
def Block.markup (block : Block) : String :=
  Packet.joined Packet.htmlName (nodesEmission rules block.body)

/-! ### Levels -/

mutual

/-- The nested dispatches that it takes to render a node. -/
def Node.levels : Node → Nat
  | .text _ => 2
  | .tag tag => tag.levels

/-- The nested dispatches that it takes to render a tag: a tag without a rule is not entered. -/
def Tag.levels : Tag → Nat
  | ⟨name, params, attributes, blocks, span⟩ =>
    if (rules.tag ⟨name, params, attributes, blocks, span⟩).isSome then 3 + blocksLevels blocks
    else 2

/-- The nested dispatches that the nodes of some blocks take. -/
def blocksLevels : List Block → Nat
  | [] => 0
  | ⟨_, body⟩ :: rest => max (nodesLevels body) (blocksLevels rest)

/-- The nested dispatches that some nodes take. -/
def nodesLevels : List Node → Nat
  | [] => 0
  | node :: rest => max node.levels (nodesLevels rest)

end

end

variable {rules : Rules} {n : Nat}

/-! ### Emission by cases -/

theorem nodesEmission_eq_flatMap (nodes : List Node) :
    nodesEmission rules nodes = nodes.flatMap (Node.emission rules) := by
  induction nodes with
  | nil => rfl
  | cons node rest ih => rw [nodesEmission, ih, List.flatMap_cons]

theorem nodesEmission_append (xs ys : List Node) :
    nodesEmission rules (xs ++ ys) = nodesEmission rules xs ++ nodesEmission rules ys := by
  simp only [nodesEmission_eq_flatMap, List.flatMap_append]

theorem blocksEmission_eq_map (blocks : List Block) :
    blocksEmission rules blocks = blocks.map fun block => nodesEmission rules block.body := by
  induction blocks with
  | nil => rfl
  | cons block rest ih =>
      obtain ⟨verbatim, body⟩ := block
      rw [blocksEmission, ih, List.map_cons]

/-- A tag without a rule emits nothing. -/
theorem Node.emission_of_rule_none {tag : Tag} (h : rules.tag tag = none) :
    (Node.tag tag).emission rules = [] := by
  obtain ⟨name, params, attributes, blocks, span⟩ := tag
  simp only [Node.emission, Tag.emission, h]

/-- A tag with a rule emits what its blocks emit besides markup, and what the rule gives. -/
theorem Node.emission_of_rule_some {tag : Tag} {own : List String → List Packet}
    (h : rules.tag tag = some own) :
    (Node.tag tag).emission rules =
      ((tag.blocks.map fun block => nodesEmission rules block.body).flatten.filter
          fun p => !p.isHtml) ++
        own (tag.blocks.map (Block.markup rules)) := by
  obtain ⟨name, params, attributes, blocks, span⟩ := tag
  simp only [Node.emission, Tag.emission, h, blocksEmission_eq_map, List.map_map, Function.comp_def]
  rfl

/-! ### Levels by cases -/

theorem nodesLevels_le_iff {nodes : List Node} :
    nodesLevels rules nodes ≤ n ↔ ∀ node ∈ nodes, node.levels rules ≤ n := by
  induction nodes with
  | nil => simp [nodesLevels]
  | cons node rest ih => rw [nodesLevels, Nat.max_le, ih, List.forall_mem_cons]

theorem blocksLevels_le_iff {blocks : List Block} :
    blocksLevels rules blocks ≤ n ↔ ∀ block ∈ blocks, nodesLevels rules block.body ≤ n := by
  induction blocks with
  | nil => simp [blocksLevels]
  | cons block rest ih =>
      obtain ⟨verbatim, body⟩ := block
      rw [blocksLevels, Nat.max_le, ih, List.forall_mem_cons]

@[simp] theorem Node.levels_text (value : String) : (Node.text value).levels rules = 2 := rfl

theorem Node.levels_of_rule_none {tag : Tag} (h : rules.tag tag = none) :
    (Node.tag tag).levels rules = 2 := by
  obtain ⟨name, params, attributes, blocks, span⟩ := tag
  simp [Node.levels, Tag.levels, h]

theorem Node.levels_of_rule_some {tag : Tag} {own : List String → List Packet}
    (h : rules.tag tag = some own) :
    (Node.tag tag).levels rules = 3 + blocksLevels rules tag.blocks := by
  obtain ⟨name, params, attributes, blocks, span⟩ := tag
  simp [Node.levels, Tag.levels, h]

/-- Text, and a tag that is not entered, take two dispatches; an entered tag takes three more than
the nodes in its blocks. -/
theorem Node.levels_tag_le {tag : Tag}
    (h : ∀ block ∈ tag.blocks, ∀ node ∈ block.body, node.levels rules ≤ n) :
    (Node.tag tag).levels rules ≤ n + 3 := by
  cases hrule : rules.tag tag with
  | none =>
      rw [Node.levels_of_rule_none hrule]
      omega
  | some own =>
      have hblocks : blocksLevels rules tag.blocks ≤ n :=
        blocksLevels_le_iff.mpr fun block hblock => nodesLevels_le_iff.mpr (h block hblock)
      rw [Node.levels_of_rule_some hrule]
      omega

/-- **Three dispatches for each block around a node, and three for the node.** -/
theorem Node.levels_le (rules : Rules) (node : Node) :
    node.levels rules ≤ 3 * node.nesting everyBlock + 3 := by
  induction node using Node.induction with
  | text value => simp
  | tag tag ih =>
      refine Node.levels_tag_le fun block hblock node hnode => ?_
      have hnesting := Node.weight_add_nesting_le everyBlock hblock hnode
      have hlevels := ih block hblock node hnode
      simp only [everyBlock] at hnesting
      omega

theorem Document.levels_le (rules : Rules) (d : Document) :
    nodesLevels rules d.body ≤ 3 * d.nesting everyBlock + 3 := by
  rw [nodesLevels_le_iff]
  intro node hnode
  have hnesting := nodesNesting_le_iff.mp (Nat.le_refl (d.nesting everyBlock)) node hnode
  have hlevels := node.levels_le rules
  omega

/-- With verbatim blocks not counted: what stands in one is text, which takes a dispatch less. -/
theorem Node.levels_le_of_flatVerbatim (rules : Rules) (node : Node) (hflat : node.FlatVerbatim) :
    node.levels rules ≤ 3 * node.nesting plainBlocks + 5 := by
  induction node using Node.induction with
  | text value => simp
  | tag tag ih =>
      have hlevels : ∀ block ∈ tag.blocks, ∀ node ∈ block.body,
          node.levels rules ≤ 3 * (Node.tag tag).nesting plainBlocks + 2 := by
        intro block hblock node hnode
        obtain ⟨htext, hbody⟩ := Node.flatVerbatim_tag_iff.mp hflat block hblock
        cases hverbatim : block.verbatim with
        | true =>
            have hnodeText := htext hverbatim node hnode
            cases node with
            | text value => simp
            | tag tag => cases hnodeText
        | false =>
            have hnesting := Node.weight_add_nesting_le plainBlocks hblock hnode
            have hlevels := ih block hblock node hnode (nodesFlatVerbatim_iff.mp hbody node hnode)
            simp only [hverbatim, plainBlocks, Bool.false_eq_true, if_false] at hnesting
            omega
      exact Node.levels_tag_le hlevels

end TaggedText
