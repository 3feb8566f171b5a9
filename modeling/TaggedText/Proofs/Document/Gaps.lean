import TaggedText.Proofs.Document.Tags

/-!
# Text between tags

At the top level of a document everything that is no part of a tag is text: the text nodes say what
stands between the tags, and tags stand apart and in order at every level.

A source is compared with its document by cutting.  `gapsBetween` is what is left of a source when
ranges are cut out of it, and `interleave` puts texts and tags in turn; `NodesAt.value_eq` shows
that nodes are what stands between their tags, with the tags, where a gap without characters gives
no text.

That the ranges can be cut out at all is that they stand apart and in order between two bounds,
`Span.InOrder`.  The bounds make it a property that can be appended, and so it passes from the parts
of a tag to the tag and from siblings to a body.  `Document.read_gaps` is about accepted documents.
-/

namespace TaggedText

/-! ### Tags at one level -/

/-- The node as a tag, if it is one. -/
def Node.tag? : Node → Option Tag
  | .text _ => none
  | .tag t => some t

/-- The tags directly among some nodes. -/
def topTags (nodes : List Node) : List Tag :=
  nodes.filterMap Node.tag?

/-- The tags directly in the blocks of a tag. -/
def Tag.children (t : Tag) : List Tag :=
  t.blocks.flatMap fun b => topTags b.body

@[simp] theorem topTags_textBody (text : List Char) : topTags (textBody text) = [] := by
  unfold textBody
  split <;> simp [topTags, Node.tag?]

theorem topTags_textBody_append (text : List Char) (tag : Tag) (nodes : List Node) :
    topTags (textBody text ++ .tag tag :: nodes) = tag :: topTags nodes := by
  have happend : topTags (textBody text ++ .tag tag :: nodes) =
      topTags (textBody text) ++ topTags (.tag tag :: nodes) := List.filterMap_append
  rw [happend, topTags_textBody, List.nil_append]
  rfl

/-! ### Ranges in order -/

/-- **The ranges stand apart and in order** between two bounds, and none is empty. -/
structure Span.InOrder (low high : Nat) (spans : List Span) : Prop where
  within : ∀ s ∈ spans, low ≤ s.start ∧ s.start < s.stop ∧ s.stop ≤ high
  apart : spans.Pairwise fun a b => a.stop ≤ b.start

namespace Span.InOrder

variable {low low' middle high high' : Nat} {spans spans' : List Span}

theorem nil : InOrder low high [] :=
  ⟨nofun, .nil⟩

theorem mono (h : InOrder low high spans) (hlow : low' ≤ low) (hhigh : high ≤ high') :
    InOrder low' high' spans := by
  refine ⟨fun s hs => ?_, h.apart⟩
  have := h.within s hs
  omega

theorem append (h : InOrder low middle spans) (h' : InOrder middle high spans')
    (hlow : low ≤ middle) (hhigh : middle ≤ high) : InOrder low high (spans ++ spans') where
  within s hs := by
    rcases List.mem_append.mp hs with hmem | hmem
    · have := h.within s hmem
      omega
    · have := h'.within s hmem
      omega
  apart := by
    refine List.pairwise_append.mpr ⟨h.apart, h'.apart, fun a ha b hb => ?_⟩
    have := h.within a ha
    have := h'.within b hb
    omega

theorem cons {s : Span} (hlow : low ≤ s.start) (hne : s.start < s.stop) (hhigh : s.stop ≤ high)
    (h : InOrder s.stop high spans) : InOrder low high (s :: spans) where
  within a ha := by
    rcases List.mem_cons.mp ha with rfl | hmem
    · exact ⟨hlow, hne, hhigh⟩
    · have := h.within a hmem
      omega
  apart := List.pairwise_cons.mpr ⟨fun a ha => (h.within a ha).1, h.apart⟩

end Span.InOrder

/-! ### Gaps -/

/-- What is left of the characters when as many bytes as fit are taken from their front. -/
def Text.dropBytes (n : Nat) (cs : List Char) : List Char :=
  cs.drop (takeBytes n cs).length

theorem Text.dropBytes_width_append (cs ds : List Char) :
    dropBytes (width cs) (cs ++ ds) = ds := by
  rw [dropBytes, takeBytes_width_append, List.drop_left]

/-- **What is left of a source when ranges are cut out**, in front of each and behind the last. -/
def gapsBetween (offset : Nat) (cs : List Char) : List Span → List (List Char)
  | [] => [cs]
  | s :: rest =>
    Text.takeBytes (s.start - offset) cs ::
      gapsBetween s.stop (Text.dropBytes (s.stop - offset) cs) rest

/-- Texts and tags in turn, without the texts that are empty. -/
def interleave : List (List Char) → List Tag → List Node
  | text :: texts, tag :: tags => textBody text ++ .tag tag :: interleave texts tags
  | text :: _, [] => textBody text
  | [], _ => []

variable {options : ReaderOptions}

theorem gapsBetween_cons {p q : Place} {gap inside : List Char} {start : Nat}
    (hgap : Place.Walk gap p ⟨start, '\\' :: (inside ++ q.rest)⟩)
    (hinside : Place.Walk inside ⟨start + 1, inside ++ q.rest⟩ q) (spans : List Span) :
    gapsBetween p.offset p.rest (⟨start, q.offset⟩ :: spans) =
      gap :: gapsBetween q.offset q.rest spans := by
  have hbackslash : '\\'.utf8Size = 1 := rfl
  have hwhole : Place.Walk (gap ++ '\\' :: inside) p q := hgap.trans (.cons hinside)
  have hstart : start - p.offset = Text.width gap := by
    have := hgap.offset_eq
    dsimp only at this
    omega
  have hstop : q.offset - p.offset = Text.width (gap ++ '\\' :: inside) := by
    have := hwhole.offset_eq
    omega
  have hfront : Text.takeBytes (Text.width gap) p.rest = gap := by
    rw [hgap.rest_eq, Text.takeBytes_width_append]
  have hback : Text.dropBytes (Text.width (gap ++ '\\' :: inside)) p.rest = q.rest := by
    rw [hwhole.rest_eq, Text.dropBytes_width_append]
  rw [gapsBetween, hstart, hstop, hfront, hback]

/-- Text that ends with the source says what stands there. -/
theorem eq_unescapeText_of_readText {inBlock : Bool} {offset : Nat} {cs text : List Char}
    {next : Place} (h : readText inBlock [] offset cs = ⟨text, next⟩) (hnext : next.rest = []) :
    text = unescapeText cs := by
  rcases readText_cases h with ⟨gap, hgap, -, hcs, -⟩ | ⟨gap, inner, hgap, hcs, rfl, -⟩
  · rw [hcs, hnext, List.append_nil, hgap.unescapeText]
  · rw [hcs, hgap.unescapeText_append, unescapeText]

/-- Text that ends at a tag says what stands in front of the tag. -/
theorem exists_gap_of_readText {inBlock : Bool} {offset start : Nat} {cs text rest : List Char}
    (h : readText inBlock [] offset cs = ⟨text, ⟨start, '\\' :: rest⟩⟩) :
    ∃ gap, Place.Walk gap ⟨offset, cs⟩ ⟨start, '\\' :: rest⟩ ∧ unescapeText gap = text := by
  rcases readText_cases h with ⟨gap, hgap, -, hcs, hoffset⟩ | ⟨gap, inner, -, -, -, hnext⟩
  · exact ⟨gap, ⟨hcs, hoffset⟩, hgap.unescapeText⟩
  · cases hnext

/-- **Nodes at the top level are what stands between their tags**, unescaped, with the tags. -/
theorem NodesAt.value_eq {depth : Nat} {p : Place} {nodes : Passage (List Node)}
    (h : NodesAt options depth p nodes) (hdepth : depth = 0) :
    nodes.value = interleave ((gapsBetween p.offset p.rest
      ((topTags nodes.value).map Tag.span)).map unescapeText) (topTags nodes.value) := by
  induction h using NodesAt.induction with
  | last htext hnext =>
      have hend := (next_cases_of_readText htext hnext).resolve_right (by simp [hdepth])
      simp only [topTags_textBody, List.map_nil, gapsBetween, List.map_cons, interleave,
        ← eq_unescapeText_of_readText htext hend]
  | tag htext htag hmore ih =>
      obtain ⟨gap, hgap, hunescape⟩ := exists_gap_of_readText htext
      obtain ⟨run, hrun⟩ := htag.exists_walk
      have hrest := hrun.rest_eq
      dsimp only at hrest
      subst hrest
      rw [topTags_textBody_append, List.map_cons, htag.span_eq, gapsBetween_cons hgap hrun,
        List.map_cons, hunescape, interleave, ← ih hdepth]

/-! ### Order -/

/-- Tags among nodes stand in order. -/
theorem NodesAt.inOrder {depth : Nat} {p : Place} {nodes : Passage (List Node)}
    (h : NodesAt options depth p nodes) :
    Span.InOrder p.offset nodes.next.offset ((topTags nodes.value).map Tag.span) := by
  induction h using NodesAt.induction with
  | last _ _ =>
      rw [topTags_textBody]
      exact .nil
  | tag htext htag hmore ih =>
      obtain ⟨gap, hgap⟩ := exists_walk_of_readText htext
      obtain ⟨run, hrun⟩ := htag.exists_walk
      obtain ⟨tail, htail⟩ := hmore.exists_walk
      rw [topTags_textBody_append, List.map_cons, htag.span_eq]
      exact .cons hgap.offset_le (Nat.lt_of_succ_le hrun.offset_le) htail.offset_le ih

/-- The tags directly in blocks stand in order. -/
theorem BlocksAt.inOrder {depth : Nat} {p : Place} {blocks : Passage (List Block)}
    (h : BlocksAt options depth p blocks) :
    Span.InOrder p.offset blocks.next.offset
      ((blocks.value.flatMap fun b => topTags b.body).map Tag.span) := by
  induction h using BlocksAt.induction with
  | none _ _ => exact .nil
  | tooDeep hskip _ _ ih =>
      obtain ⟨inside, hinside⟩ := exists_walk_passBlock 0 _ _
      exact ih.mono ((Place.walk_skipBlanks hskip).trans (.cons hinside)).offset_le
        (Nat.le_refl _)
  | unclosed hskip _ hbody =>
      have hopen := (Place.walk_skipBlanks hskip).trans (.cons (.refl _))
      rw [List.flatMap_singleton]
      exact hbody.inOrder.mono hopen.offset_le (Nat.le_refl _)
  | plain hskip _ hbody hmore ih =>
      obtain ⟨body, hbodyWalk⟩ := hbody.exists_walk
      obtain ⟨run, hrun⟩ := hmore.exists_walk
      have hopen := (Place.walk_skipBlanks hskip).trans (.cons (.refl _))
      have hbodyOrder := hbody.inOrder.mono hopen.offset_le (Nat.le_succ _)
      have hbodyStop := (hopen.trans hbodyWalk).offset_le
      rw [List.flatMap_cons, List.map_append]
      exact hbodyOrder.append ih (Nat.le_succ_of_le hbodyStop) hrun.offset_le
  | verbatim hskip hopens hread _ ih =>
      obtain ⟨inside, hinside⟩ := exists_walk_readVerbatim hopens hread
      rw [List.flatMap_cons, Verbatim.block, topTags_textBody, List.nil_append]
      exact ih.mono ((Place.walk_skipBlanks hskip).trans hinside).offset_le (Nat.le_refl _)

theorem TagAt.children_inOrder {depth start : Nat} {cs : List Char} {tag : Passage Tag}
    (h : TagAt options depth start cs tag) :
    Span.InOrder (start + 1) tag.next.offset (tag.value.children.map Tag.span) := by
  cases h with
  | intro hreading hblocks =>
      obtain ⟨header, hheader⟩ := Header.exists_walk_readAt hreading
      exact hblocks.inOrder.mono ((Place.walk_name start cs).trans hheader).offset_le
        (Nat.le_refl _)

/-! ### Documents -/

/-- A text that begins with an escaped brace and ends with a backslash, and a tag between. -/
theorem Document.read_escapes :
    Document.read {} "\\\x7b\\a\\" =
      .ok ⟨[.text "\x7b", .tag { name := "a", span := ⟨2, 4⟩ }, .text "\\"]⟩ := by
  have htag : TagAt {} 0 2 ['a', '\\'] ⟨{ name := "a", span := ⟨2, 4⟩ }, [], ⟨4, ['\\']⟩⟩ :=
    @TagAt.intro {} 0 2 ['a', '\\'] ⟨{}, [], ⟨4, ['\\']⟩⟩ ⟨[], [], ⟨4, ['\\']⟩⟩
      (Header.readAt_of_head _ (by decide) (by decide)) (.none (by decide) (by decide))
  have hfinish : NodesAt {} 0 ⟨4, ['\\']⟩ ⟨[.text "\\"], [], ⟨5, []⟩⟩ :=
    @NodesAt.last {} 0 ⟨4, ['\\']⟩ ⟨5, []⟩ ['\\'] rfl (by decide)
  exact Document.read_eq_ok_iff.mpr ⟨⟨5, []⟩,
    @NodesAt.tag {} 0 2 ⟨0, _⟩ ['{'] _ _ _ rfl htag hfinish⟩

/-- **What an accepted document is made of.**  Its tags stand apart and in order; the text nodes say
what stands between them, where that is not empty; and the tags directly in the blocks of any tag
stand apart and in order within that tag. -/
theorem Document.read_gaps {source : String} {d : Document}
    (h : Document.read options source = .ok d) :
    Span.InOrder 0 (Text.width source.toList) ((topTags d.body).map Tag.span) ∧
      d.body = interleave ((gapsBetween 0 source.toList
        ((topTags d.body).map Tag.span)).map unescapeText) (topTags d.body) ∧
      ∀ t ∈ d.tags, Span.InOrder (t.span.start + 1) t.span.stop (t.children.map Tag.span) := by
  refine ⟨?_, ?_, fun t ht => ?_⟩
  · obtain ⟨next, hnodes⟩ := Document.read_eq_ok_iff.mp h
    obtain ⟨run, hrun⟩ := hnodes.exists_walk
    refine hnodes.inOrder.mono (Nat.le_refl 0) ?_
    have hoffset := hrun.offset_eq
    have hrest := congrArg Text.width hrun.rest_eq
    rw [Text.width_append] at hrest
    dsimp only at hoffset hrest ⊢
    omega
  · obtain ⟨next, hnodes⟩ := Document.read_eq_ok_iff.mp h
    exact hnodes.value_eq rfl
  · obtain ⟨-, -, htag⟩ := Document.tagBehind_of_read h ht
    have hspan := htag.span_eq
    dsimp only at hspan
    rw [hspan]
    exact htag.children_inOrder

/-- What stands in front of the tag, and behind it. -/
theorem Document.read_gaps_escapes :
    ∃ tag : Tag, Document.read {} "\\\x7b\\a\\" = .ok ⟨[.text "\x7b", .tag tag, .text "\\"]⟩ ∧
      Span.InOrder 0 5 [tag.span] ∧
      [.text "\x7b", .tag tag, .text "\\"] = interleave ((gapsBetween 0 ['\\', '{', '\\', 'a', '\\']
        [tag.span]).map unescapeText) [tag] ∧
      ∀ t ∈ [tag], Span.InOrder (t.span.start + 1) t.span.stop (t.children.map Tag.span) :=
  ⟨_, Document.read_escapes, Document.read_gaps Document.read_escapes⟩

end TaggedText
