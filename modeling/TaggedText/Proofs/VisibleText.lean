import Mathlib.Data.List.Basic
import TaggedText.Proofs.Dispatch.Composed

/-!
# The visible text of a document

On the text target a composed document gives its text and nothing else: the texts that stand in no
tag that is hidden, in the order in which they are read (`Document.visibleTexts`).  A tag is hidden
if nothing resolves it, or if it is described as undefined.

Such texts are read off the document by a recursion over its nodes, and `nodesEmission_visible`
shows that they are what the nodes emit, packet by packet.  `Printer.text_run_eq_join_visibleTexts`
follows from what is known of composed documents.  That the output depends on nothing else is said
with `Document.withHeaders`, the same document with other parameters and attributes.
-/

namespace TaggedText

/-! ### Visible texts -/

section

variable (hides : Tag → Bool)

mutual

/-- The texts of a node that no hidden tag encloses, in order. -/
def Node.visibleTexts : Node → List String
  | .text value => [value]
  | .tag tag => tag.visibleTexts

/-- The texts in the blocks of a tag, unless it is hidden. -/
def Tag.visibleTexts : Tag → List String
  | ⟨name, params, attributes, blocks, span⟩ =>
    if hides ⟨name, params, attributes, blocks, span⟩ then [] else blocksVisibleTexts blocks

/-- The visible texts of some blocks. -/
def blocksVisibleTexts : List Block → List String
  | [] => []
  | ⟨_, body⟩ :: rest => nodesVisibleTexts body ++ blocksVisibleTexts rest

/-- The visible texts of some nodes. -/
def nodesVisibleTexts : List Node → List String
  | [] => []
  | node :: rest => node.visibleTexts ++ nodesVisibleTexts rest

end

/-- **The visible texts of a document**: those that no hidden tag encloses, in the order in which
they are read. -/
def Document.visibleTexts (d : Document) : List String :=
  nodesVisibleTexts hides d.body

end

section

variable {hides : Tag → Bool}

theorem nodesVisibleTexts_eq_flatMap (nodes : List Node) :
    nodesVisibleTexts hides nodes = nodes.flatMap (Node.visibleTexts hides) := by
  induction nodes with
  | nil => rfl
  | cons node rest ih => rw [nodesVisibleTexts, ih, List.flatMap_cons]

theorem blocksVisibleTexts_eq_flatMap (blocks : List Block) :
    blocksVisibleTexts hides blocks =
      blocks.flatMap fun block => nodesVisibleTexts hides block.body := by
  induction blocks with
  | nil => rfl
  | cons block rest ih =>
      obtain ⟨verbatim, body⟩ := block
      rw [blocksVisibleTexts, ih, List.flatMap_cons]

theorem Node.visibleTexts_tag (tag : Tag) :
    (Node.tag tag).visibleTexts hides =
      if hides tag then []
      else tag.blocks.flatMap fun block => nodesVisibleTexts hides block.body := by
  obtain ⟨name, params, attributes, blocks, span⟩ := tag
  rw [Node.visibleTexts, Tag.visibleTexts, blocksVisibleTexts_eq_flatMap]

end

/-! ### Packets of text -/

theorem Packet.filter_not_isHtml_map_text (values : List String) :
    ((values.map Packet.text).filter fun p => !p.isHtml) = values.map Packet.text := by
  rw [List.filter_eq_self]
  simp

theorem Packet.joined_map_text (values : List String) :
    Packet.joined Packet.textName (values.map Packet.text) = String.join values := by
  have hname : ((values.map Packet.text).filter fun p => p.name == Packet.textName) =
      values.map Packet.text := by
    rw [List.filter_eq_self]
    simp [Packet.text]
  rw [Packet.joined, hname, List.map_map]
  exact congrArg String.join (List.map_id values)

section

variable {hides : Tag → Bool}

/-- **The packets of a node are its visible texts.** -/
theorem Node.emission_visible (node : Node) :
    node.emission (.visible hides) = (node.visibleTexts hides).map Packet.text := by
  induction node using Node.induction with
  | text value => rfl
  | tag tag ih =>
      rw [Node.visibleTexts_tag]
      cases hhides : hides tag with
      | true =>
          rw [Node.emission_of_rule_none (if_pos hhides)]
          rfl
      | false =>
          have hrule : (Rules.visible hides).tag tag = some fun _ => [] := by
            simp [Rules.visible, hhides]
          have hblocks : (tag.blocks.flatMap fun block =>
              nodesEmission (.visible hides) block.body) =
                (tag.blocks.flatMap fun block => nodesVisibleTexts hides block.body).map
                  Packet.text := by
            rw [List.map_flatMap]
            refine List.flatMap_congr fun block hblock => ?_
            rw [nodesEmission_eq_flatMap, nodesVisibleTexts_eq_flatMap, List.map_flatMap]
            exact List.flatMap_congr fun node hnode => ih block hblock node hnode
          -- Texts are no markup, so they pass through every tag.
          rw [Node.emission_of_rule_some hrule, List.append_nil, ← List.flatMap, hblocks,
            Packet.filter_not_isHtml_map_text]
          rfl

/-- So are those of several nodes. -/
theorem nodesEmission_visible (nodes : List Node) :
    nodesEmission (.visible hides) nodes = (nodesVisibleTexts hides nodes).map Packet.text := by
  rw [nodesEmission_eq_flatMap, nodesVisibleTexts_eq_flatMap, List.map_flatMap]
  exact List.flatMap_congr fun node _ => node.emission_visible

end

/-! ### Other headers -/

section

variable (header : Tag → List Literal × List Attribute)

mutual

/-- The same node, with other headers. -/
def Node.withHeaders : Node → Node
  | .text value => .text value
  | .tag tag => .tag tag.withHeaders

/-- The same tag, with another header, and so the tags in its blocks. -/
def Tag.withHeaders : Tag → Tag
  | ⟨name, params, attributes, blocks, span⟩ =>
    let own := header ⟨name, params, attributes, blocks, span⟩
    ⟨name, own.1, own.2, blocksWithHeaders blocks, span⟩

/-- The same blocks, with other headers of their tags. -/
def blocksWithHeaders : List Block → List Block
  | [] => []
  | ⟨verbatim, body⟩ :: rest => ⟨verbatim, nodesWithHeaders body⟩ :: blocksWithHeaders rest

/-- The same nodes, with other headers. -/
def nodesWithHeaders : List Node → List Node
  | [] => []
  | node :: rest => node.withHeaders :: nodesWithHeaders rest

end

/-- The same document, with the parameters and the attributes that `header` gives to its tags. -/
def Document.withHeaders (d : Document) : Document :=
  ⟨nodesWithHeaders header d.body⟩

mutual

theorem Node.nesting_withHeaders (weight : Bool → Nat) :
    ∀ node : Node, (node.withHeaders header).nesting weight = node.nesting weight
  | .text _ => rfl
  | .tag tag => tag.nesting_withHeaders weight

theorem Tag.nesting_withHeaders (weight : Bool → Nat) :
    ∀ tag : Tag, (tag.withHeaders header).nesting weight = tag.nesting weight
  | ⟨_, _, _, blocks, _⟩ => blocksNesting_withHeaders weight blocks

theorem blocksNesting_withHeaders (weight : Bool → Nat) :
    ∀ blocks, blocksNesting weight (blocksWithHeaders header blocks) = blocksNesting weight blocks
  | [] => rfl
  | ⟨_, body⟩ :: rest => by
      rw [blocksWithHeaders, blocksNesting, blocksNesting, nodesNesting_withHeaders weight body,
        blocksNesting_withHeaders weight rest]

theorem nodesNesting_withHeaders (weight : Bool → Nat) :
    ∀ nodes, nodesNesting weight (nodesWithHeaders header nodes) = nodesNesting weight nodes
  | [] => rfl
  | node :: rest => by
      rw [nodesWithHeaders, nodesNesting, nodesNesting, node.nesting_withHeaders weight,
        nodesNesting_withHeaders weight rest]

end

/-- Headers do not nest. -/
theorem Document.nesting_withHeaders (weight : Bool → Nat) (d : Document) :
    (d.withHeaders header).nesting weight = d.nesting weight :=
  nodesNesting_withHeaders header weight d.body

section

variable {header} {hides hides' : Tag → Bool}

mutual

theorem Node.visibleTexts_withHeaders
    (h : ∀ tag : Tag, hides' (tag.withHeaders header) = hides tag) :
    ∀ node : Node, (node.withHeaders header).visibleTexts hides' = node.visibleTexts hides
  | .text _ => rfl
  | .tag tag => tag.visibleTexts_withHeaders h

theorem Tag.visibleTexts_withHeaders
    (h : ∀ tag : Tag, hides' (tag.withHeaders header) = hides tag) :
    ∀ tag : Tag, (tag.withHeaders header).visibleTexts hides' = tag.visibleTexts hides
  | ⟨name, params, attributes, blocks, span⟩ => by
      have htag := h ⟨name, params, attributes, blocks, span⟩
      rw [Tag.withHeaders] at htag ⊢
      rw [Tag.visibleTexts, Tag.visibleTexts, htag, blocksVisibleTexts_withHeaders h blocks]

theorem blocksVisibleTexts_withHeaders
    (h : ∀ tag : Tag, hides' (tag.withHeaders header) = hides tag) :
    ∀ blocks, blocksVisibleTexts hides' (blocksWithHeaders header blocks) =
      blocksVisibleTexts hides blocks
  | [] => rfl
  | ⟨_, body⟩ :: rest => by
      rw [blocksWithHeaders, blocksVisibleTexts, blocksVisibleTexts,
        nodesVisibleTexts_withHeaders h body, blocksVisibleTexts_withHeaders h rest]

theorem nodesVisibleTexts_withHeaders
    (h : ∀ tag : Tag, hides' (tag.withHeaders header) = hides tag) :
    ∀ nodes, nodesVisibleTexts hides' (nodesWithHeaders header nodes) =
      nodesVisibleTexts hides nodes
  | [] => rfl
  | node :: rest => by
      rw [nodesWithHeaders, nodesVisibleTexts, nodesVisibleTexts, node.visibleTexts_withHeaders h,
        nodesVisibleTexts_withHeaders h rest]

end

/-- Texts do not stand in headers, and so they stay visible where the same tags are hidden. -/
theorem Document.visibleTexts_withHeaders
    (h : ∀ tag : Tag, hides' (tag.withHeaders header) = hides tag) (d : Document) :
    (d.withHeaders header).visibleTexts hides' = d.visibleTexts hides :=
  nodesVisibleTexts_withHeaders h d.body

end

end

/-! ### The text target -/

namespace Printer

variable {resolvers : ResolverMap} {target : String} {d : Document}

/-- **The text target gives the visible text of a document.**  Where every resolver describes its
tags as undefined or by an `html` command, and blocks nest at most 253 deep, the output is made of
the texts that no hidden tag encloses.  So it is the same under every policy, with whatever commands
describe the tags and whatever headers they have, as long as the same tags are hidden. -/
theorem text_run_eq_join_visibleTexts (resolvers : ResolverMap) (target : String) (policy : Policy)
    (d : Document) (hmarkup : resolvers.DescribesMarkup target)
    (hdepth : d.nesting everyBlock ≤ 253) :
    (Printer.text resolvers policy).run [d.compose resolvers target] =
        .ok (String.join (d.visibleTexts (resolvers.hides target))) ∧
      ∀ (resolvers' : ResolverMap) (policy' : Policy)
        (header : Tag → List Literal × List Attribute),
        resolvers'.DescribesMarkup target →
        (∀ tag : Tag, resolvers'.hides target (tag.withHeaders header) =
          resolvers.hides target tag) →
          (Printer.text resolvers' policy').run [(d.withHeaders header).compose resolvers' target] =
            (Printer.text resolvers policy).run [d.compose resolvers target] := by
  have hrun : ∀ (resolvers : ResolverMap) (policy : Policy) (d : Document),
      resolvers.DescribesMarkup target → d.nesting everyBlock ≤ 253 →
        (Printer.text resolvers policy).run [d.compose resolvers target] =
          .ok (String.join (d.visibleTexts (resolvers.hides target))) := by
    intro resolvers policy d hmarkup hdepth
    rw [text_run_of_runsLeaves (text_runsLeaves policy hmarkup) (by omega),
      nodesEmission_visible, Packet.filter_not_isHtml_map_text, Packet.joined_map_text]
    rfl
  refine ⟨hrun resolvers policy d hmarkup hdepth, ?_⟩
  intro resolvers' policy' header hmarkup' hsame
  rw [hrun resolvers policy d hmarkup hdepth, hrun resolvers' policy' _ hmarkup'
    (by rwa [Document.nesting_withHeaders]), Document.visibleTexts_withHeaders hsame]

end Printer

/-- Describes a tag with parameters by an `html` command, and a tag without as undefined. -/
def Resolver.shy (template : String) : Resolver where
  resolve invocation :=
    if invocation.tag.params.isEmpty then .undefined
    else { Command.html template with current := some .undefined }

/-- Two tags, one of which is shy, with the same template. -/
def ResolverMap.shy (template : String) : ResolverMap :=
  Table.empty |>.insert "b" (Templated.resolver ⟨template, none⟩) |>.insert "shy" (.shy template)

theorem ResolverMap.shy_find? (template name : String) :
    (ResolverMap.shy template).find? name =
      if name = "shy" then some (.shy template)
      else if name = "b" then some (Templated.resolver ⟨template, none⟩)
      else none := by
  simp [ResolverMap.shy]

theorem ResolverMap.shy_describesMarkup (template target : String) :
    (ResolverMap.shy template).DescribesMarkup target := by
  intro tag resolver hresolver
  rw [shy_find?] at hresolver
  split at hresolver
  · cases hresolver
    unfold Resolver.shy
    dsimp only
    split
    · exact .inl rfl
    · exact .inr rfl
  · split at hresolver
    · cases hresolver
      exact .inr rfl
    · cases hresolver

/-- The template makes no difference to what is hidden, and neither do attributes. -/
theorem ResolverMap.shy_hides (template template' target : String) (tag : Tag) :
    (ResolverMap.shy template').hides target (tag.withHeaders fun tag => (tag.params, [])) =
      (ResolverMap.shy template).hides target tag := by
  obtain ⟨name, params, attributes, blocks, span⟩ := tag
  by_cases hshy : name = "shy"
  · subst hshy
    cases params <;> rfl
  · by_cases hb : name = "b"
    · subst hb
      rfl
    · simp [hides, shy_find?, Tag.withHeaders, hshy, hb]

/-- Texts in tags of all kinds. -/
def Document.shaded : Document where
  body := [.text "1",
    .tag { name := "b", attributes := [⟨"id", .word "a"⟩], blocks := [
      { body := [.text "2", .tag { name := "shy", blocks := [{ body := [.text "3"] }] }] },
      { verbatim := true, body := [.text "4"] }] },
    .tag { name := "shy", params := [.bool true], blocks := [{ body := [.text "5"] }] },
    .tag { name := "unknown", blocks := [{ body := [.tag { name := "b", blocks :=
      [{ body := [.text "6"] }] }] }] }]

/-- Three of its texts are hidden, whatever the template is, with attributes or without. -/
theorem Printer.text_run_eq_join_visibleTexts_shaded :
    (ResolverMap.shy "x").DescribesMarkup "text" ∧ Document.shaded.nesting everyBlock ≤ 253 ∧
      (Printer.text (.shy "x") .strict).run [Document.shaded.compose (.shy "x") "text"] =
        .ok "1245" ∧
      (ResolverMap.shy "y").DescribesMarkup "text" ∧
      (∀ tag : Tag, (ResolverMap.shy "y").hides "text"
        (tag.withHeaders fun tag => (tag.params, [])) = (ResolverMap.shy "x").hides "text" tag) ∧
      (Printer.text (.shy "y") .lenient).run
          [(Document.shaded.withHeaders fun tag => (tag.params, [])).compose (.shy "y") "text"] =
        (Printer.text (.shy "x") .strict).run [Document.shaded.compose (.shy "x") "text"] := by
  have hmarkup := fun template => ResolverMap.shy_describesMarkup template "text"
  have hdepth : Document.shaded.nesting everyBlock ≤ 253 := by decide
  have hhides := ResolverMap.shy_hides "x" "y" "text"
  have hrun := Printer.text_run_eq_join_visibleTexts _ "text" .strict _ (hmarkup "x") hdepth
  refine ⟨hmarkup "x", hdepth, hrun.1.trans ?_, hmarkup "y", hhides,
    hrun.2 _ .lenient _ (hmarkup "y") hhides⟩
  decide +kernel

end TaggedText
