import TaggedText.Proofs.Document.Lines
import TaggedText.Proofs.Document.RoundTrip

/-!
# Sources that are cut off

A block that is open at the end of its source is a fault with strict fences, and otherwise it ends
there.  The faults that strict fences add say what is missing: the source with the braces and fences
of these blocks behind it, the innermost first, is the same document.

## What is missing

`openFences` is the blocks that are open at the end, and `closers` is what closes them.  Only the
last block of a part can be open at the end, and only the last tag has such a block.  So a part with
an open block leaves nothing, and of two parts in a row only the second has one.  There is one lemma
for each way in which a part is put in front of what is missing.

## Putting it behind

A brace behind a source closes a block only if it is not taken for text (`Closable`): if the first
block to be closed is a plain one, no backslash may await a character. With this a part that is cut
off is read alike with what it misses behind it (`NodesAt.exists_closed`, `TagAt.exists_closed`,
`BlocksAt.exists_closed`).  The ends of its last tags move, and `Document.unended` is the document
without them.  `Document.read_closed` is the statement for documents, and `Document.read_lenient`
that strict fences add faults and change nothing else.
-/

namespace TaggedText

variable {options : ReaderOptions}

/-! ### With and without strict fences -/

/-- **Strict fences add faults, and change nothing else.**  Without them a source has the same
faults in the same order, but for open blocks; it fails exactly if it has another fault; and a
document with strict fences is the same document without. -/
theorem Document.read_lenient (maxDepth : Nat) (source : String) :
    Document.diagnostics ⟨false, maxDepth⟩ source =
        (Document.diagnostics ⟨true, maxDepth⟩ source).filter (fun d => !d.isUnterminated) ∧
      ((∃ ds, Document.read ⟨false, maxDepth⟩ source = .error ds) ↔
        ∃ d ∈ Document.diagnostics ⟨true, maxDepth⟩ source, d.isUnterminated = false) ∧
      ∀ d, Document.read ⟨true, maxDepth⟩ source = .ok d →
        Document.read ⟨false, maxDepth⟩ source = .ok d := by
  have hstrict := readNodes_at ⟨true, maxDepth⟩ 0 0 source.toList
  generalize (readNodes ⟨true, maxDepth⟩ 0 0 source.toList).passage = nodes at hstrict
  have hlenient := @NodesAt.of_strict ⟨false, maxDepth⟩ _ _ _ hstrict
  have hreports : ReaderOptions.reports ⟨false, maxDepth⟩ = fun d => !d.isUnterminated :=
    funext fun d => Bool.false_or _
  rw [Passage.reported, hreports] at hlenient
  rw [Document.diagnostics_eq hstrict, Document.diagnostics_eq hlenient,
    Document.read_eq hstrict, Document.read_eq hlenient]
  refine ⟨rfl, ?_, ?_⟩
  · split
    · next hempty => simpa using hempty
    · next hempty => simpa using hempty
  · intro d hread
    split at hread
    · next hempty =>
        rw [List.isEmpty_iff.mp hempty]
        exact hread
    · cases hread

/-- A tag with a verbatim block whose text ends with a backslash, cut off at its end. -/
def verbatimTag (start stop : Nat) : Tag :=
  { name := "c"
    blocks := [⟨true, [.text "a\\"]⟩]
    span := ⟨start, stop⟩ }

/-- A tag with such a tag in a plain block, which is cut off with it. -/
def cutOffTwice : Tag :=
  { name := "b"
    blocks := [⟨false, [.tag (verbatimTag 3 9)]⟩]
    span := ⟨0, 9⟩ }

/-- A source that is cut off in a verbatim block within a plain one. -/
theorem Document.nodesAt_cutOffTwice :
    NodesAt ⟨true, 1⟩ 0 ⟨0, "\\b\x7b\\c=\x7ba\\".toList⟩
      ⟨[.tag cutOffTwice], [.unterminatedBlock ⟨5, 9⟩ 1, .unterminatedBlock ⟨2, 9⟩ 0],
        ⟨9, []⟩⟩ := by
  let fenced : List Char := ['=', '{', 'a', '\\']
  have hnone : BlocksAt ⟨true, 1⟩ 1 ⟨9, []⟩ ⟨[], [], ⟨9, []⟩⟩ := .none nofun rfl
  have hfenced : BlocksAt ⟨true, 1⟩ 1 ⟨5, fenced⟩
      ⟨[⟨true, [.text "a\\"]⟩], [.unterminatedBlock ⟨5, 9⟩ 1], ⟨9, []⟩⟩ :=
    @BlocksAt.verbatim ⟨true, 1⟩ 1 ⟨5, fenced⟩ _ ⟨['a', '\\'], false, ⟨9, []⟩⟩ ⟨1, false⟩
      ⟨[], [], ⟨9, []⟩⟩ rfl (by decide) (by decide) hnone
  have hinner : TagAt ⟨true, 1⟩ 1 3 ('c' :: fenced)
      ⟨verbatimTag 3 9, [.unterminatedBlock ⟨5, 9⟩ 1], ⟨9, []⟩⟩ :=
    @TagAt.intro ⟨true, 1⟩ 1 3 ('c' :: fenced) ⟨{}, [], ⟨5, fenced⟩⟩ _
      (Header.readAt_of_head _ (by decide) (by decide)) hfenced
  have hbody : NodesAt ⟨true, 1⟩ 1 ⟨3, '\\' :: 'c' :: fenced⟩
      ⟨[.tag (verbatimTag 3 9)], [.unterminatedBlock ⟨5, 9⟩ 1], ⟨9, []⟩⟩ :=
    @NodesAt.tag ⟨true, 1⟩ 1 3 ⟨3, '\\' :: 'c' :: fenced⟩ [] _ _ ⟨[], [], ⟨9, []⟩⟩ rfl hinner
      (@NodesAt.last ⟨true, 1⟩ 1 ⟨9, []⟩ ⟨9, []⟩ [] rfl nofun)
  have hblocks : BlocksAt ⟨true, 1⟩ 0 ⟨2, '{' :: '\\' :: 'c' :: fenced⟩
      ⟨cutOffTwice.blocks, [.unterminatedBlock ⟨5, 9⟩ 1, .unterminatedBlock ⟨2, 9⟩ 0], ⟨9, []⟩⟩ :=
    @BlocksAt.unclosed ⟨true, 1⟩ 0 2 9 ⟨2, '{' :: '\\' :: 'c' :: fenced⟩ _ _ _ rfl (by decide) hbody
  have houter : TagAt ⟨true, 1⟩ 0 0 ('b' :: '{' :: '\\' :: 'c' :: fenced)
      ⟨cutOffTwice, [.unterminatedBlock ⟨5, 9⟩ 1, .unterminatedBlock ⟨2, 9⟩ 0], ⟨9, []⟩⟩ :=
    @TagAt.intro ⟨true, 1⟩ 0 0 ('b' :: '{' :: '\\' :: 'c' :: fenced)
      ⟨{}, [], ⟨2, '{' :: '\\' :: 'c' :: fenced⟩⟩ _
      (Header.readAt_of_head _ (by decide) (by decide)) hblocks
  exact @NodesAt.tag ⟨true, 1⟩ 0 0 ⟨0, _⟩ [] _ _ ⟨[], [], ⟨9, []⟩⟩ rfl houter
    (@NodesAt.last ⟨true, 1⟩ 0 ⟨9, []⟩ ⟨9, []⟩ [] rfl nofun)

/-- A source whose verbatim block is closed behind a backslash. -/
theorem Document.read_closedFence :
    Document.read ⟨true, 1⟩ "\\c=\x7ba\\\x7d=" = .ok ⟨[.tag (verbatimTag 0 8)]⟩ := by
  let fenced : List Char := ['=', '{', 'a', '\\', '}', '=']
  have hnone : BlocksAt ⟨true, 1⟩ 0 ⟨8, []⟩ ⟨[], [], ⟨8, []⟩⟩ := .none nofun rfl
  have hfenced : BlocksAt ⟨true, 1⟩ 0 ⟨2, fenced⟩ ⟨[⟨true, [.text "a\\"]⟩], [], ⟨8, []⟩⟩ :=
    @BlocksAt.verbatim ⟨true, 1⟩ 0 ⟨2, fenced⟩ _ ⟨['a', '\\'], true, ⟨8, []⟩⟩ ⟨1, true⟩
      ⟨[], [], ⟨8, []⟩⟩ rfl (by decide) (by decide) hnone
  have htag : TagAt ⟨true, 1⟩ 0 0 ('c' :: fenced) ⟨verbatimTag 0 8, [], ⟨8, []⟩⟩ :=
    @TagAt.intro ⟨true, 1⟩ 0 0 ('c' :: fenced) ⟨{}, [], ⟨2, fenced⟩⟩ _
      (Header.readAt_of_head _ (by decide) (by decide)) hfenced
  exact Document.read_eq_ok_iff.mpr ⟨⟨8, []⟩,
    @NodesAt.tag ⟨true, 1⟩ 0 0 ⟨0, _⟩ [] _ _ ⟨[], [], ⟨8, []⟩⟩ rfl htag
      (@NodesAt.last ⟨true, 1⟩ 0 ⟨8, []⟩ ⟨8, []⟩ [] rfl nofun)⟩

/-- Two open blocks are no faults without strict fences, and a source without open blocks is the
same document. -/
theorem Document.read_lenient_openBlocks :
    Document.diagnostics ⟨false, 1⟩ "\\b\x7b\\c=\x7ba\\" = [] ∧
      Document.read ⟨true, 1⟩ "\\c=\x7ba\\\x7d=" = .ok ⟨[.tag (verbatimTag 0 8)]⟩ ∧
      Document.read ⟨false, 1⟩ "\\c=\x7ba\\\x7d=" = .ok ⟨[.tag (verbatimTag 0 8)]⟩ := by
  obtain ⟨hdiagnostics, -, -⟩ := Document.read_lenient 1 "\\b\x7b\\c=\x7ba\\"
  rw [Document.diagnostics_eq Document.nodesAt_cutOffTwice] at hdiagnostics
  obtain ⟨-, -, hread⟩ := Document.read_lenient 1 "\\c=\x7ba\\\x7d="
  exact ⟨hdiagnostics, Document.read_closedFence, hread _ Document.read_closedFence⟩

/-! ### What is missing -/

/-- The width of the fence of a block that is open at the end. -/
def Diagnostic.openFence? : Diagnostic → Option Nat
  | .unterminatedBlock _ fence => some fence
  | _ => none

/-- The fences of the blocks that are open at the end, the innermost first; that of a plain block
has no width. -/
def openFences (ds : List Diagnostic) : List Nat :=
  ds.filterMap Diagnostic.openFence?

/-- What closes a block: a brace and its fence. -/
def closer (fence : Nat) : List Char :=
  '}' :: List.replicate fence '='

/-- What closes blocks that lie in one another, the innermost first. -/
def closers (fences : List Nat) : List Char :=
  fences.flatMap closer

@[simp] theorem openFences_append (ds ds' : List Diagnostic) :
    openFences (ds ++ ds') = openFences ds ++ openFences ds' :=
  List.filterMap_append

theorem openFences_unterminated (hstrict : options.strictFences = true) (span : Span)
    (fence : Nat) : openFences (options.unterminated span fence) = [fence] := by
  rw [ReaderOptions.unterminated, if_pos hstrict]
  rfl

/-- What is missing begins with a brace, and what follows it goes on with no part of a tag. -/
theorem inert_closers (fences : List Nat) {rest : List Char} (h : Inert rest) :
    Inert (closers fences ++ rest) := by
  cases fences with
  | nil => exact h
  | cons fence fences => exact .cons rfl rfl (by decide) _

/-! ### Trees without the ends of their tags -/

section

variable (f : Span → Span)

mutual

/-- The node with other ranges. -/
def Node.mapSpans : Node → Node
  | .text value => .text value
  | .tag tag => .tag tag.mapSpans

/-- The tag with other ranges, its own and those of the tags in its blocks. -/
def Tag.mapSpans : Tag → Tag
  | ⟨name, params, attributes, blocks, span⟩ =>
    ⟨name, params, attributes, blocksMapSpans blocks, f span⟩

/-- The blocks with other ranges. -/
def blocksMapSpans : List Block → List Block
  | [] => []
  | ⟨verbatim, body⟩ :: rest => ⟨verbatim, nodesMapSpans body⟩ :: blocksMapSpans rest

/-- The nodes with other ranges. -/
def nodesMapSpans : List Node → List Node
  | [] => []
  | node :: rest => node.mapSpans :: nodesMapSpans rest

end

@[simp] theorem nodesMapSpans_append (xs ys : List Node) :
    nodesMapSpans f (xs ++ ys) = nodesMapSpans f xs ++ nodesMapSpans f ys := by
  induction xs with
  | nil => rfl
  | cons node xs ih => rw [List.cons_append, nodesMapSpans, nodesMapSpans, ih, List.cons_append]

end

/-- The range without its end. -/
def Span.unended (s : Span) : Span :=
  { s with stop := 0 }

/-- **The document without the ends of its tags.** -/
def Document.unended (d : Document) : Document :=
  ⟨nodesMapSpans Span.unended d.body⟩

/-! ### Where a closing brace counts -/

/-- **A closing brace behind the text is not taken for text**, if a plain block is the first that
it has to close: no backslash awaits a character. -/
def Closable (fences : List Nat) (cs : List Char) : Prop :=
  fences.headD 0 = 0 → Text.escaping false cs = false

/-- What lies behind a text that leaves no backslash awaiting a character is left alike. -/
theorem Closable.of_append {fences : List Nat} {front cs : List Char}
    (h : Closable fences (front ++ cs)) (hfront : Text.escaping false front = false) :
    Closable fences cs := by
  intro hplain
  have hescaping := h hplain
  rwa [Text.escaping_append, hfront] at hescaping

theorem Closable.of_walk {fences : List Nat} {run : List Char} {p q : Place}
    (h : Closable fences p.rest) (hwalk : Place.Walk run p q) (hclear : Text.EndsClear run) :
    Closable fences q.rest := by
  rw [hwalk.rest_eq] at h
  refine h.of_append ?_
  by_cases hne : run = []
  · rw [hne]
    rfl
  · exact hclear.escaping hne false

/-- A brace behind the closers asks for no more. -/
theorem Closable.of_concat {fences : List Nat} {cs : List Char}
    (h : Closable (fences ++ [0]) cs) : Closable fences cs := by
  intro hplain
  refine h ?_
  cases fences with
  | nil => rfl
  | cons fence fences => exact hplain

/-- A tag that begins behind a text has no part in the backslashes of the text. -/
theorem Closable.of_readText {fences : List Nat} {inBlock : Bool} {offset start : Nat}
    {cs text behind : List Char} (h : Closable fences cs)
    (htext : readText inBlock [] offset cs = ⟨text, ⟨start, '\\' :: behind⟩⟩) :
    Closable fences behind := by
  rcases readText_cases htext with ⟨gap, hgap, hstops, hcs, -⟩ | ⟨gap, inner, -, -, -, hnext⟩
  · obtain ⟨c, rest, rfl, hstart⟩ := stopsText_backslash hstops
    have hc : (c == '\\') = false :=
      beq_eq_false_iff_ne.mpr (Text.ne_of_isNameChar (Text.isNameChar_of_isNameStart hstart) rfl)
    rw [hcs] at h
    intro hplain
    have hescaping := h.of_append hgap.escaping hplain
    simpa [Text.escaping, hc] using hescaping
  · cases hnext

/-- An even number of backslashes leaves none that awaits a character, and a verbatim block has no
escapes. -/
theorem closable_of_or {fences : List Nat} {cs : List Char}
    (h : Text.trailingBackslashes cs % 2 = 0 ∨ ∃ fence ∈ fences.head?, 0 < fence) :
    Closable fences cs := by
  intro hplain
  rcases h with heven | ⟨fence, hhead, hpos⟩
  · rw [Text.escaping_eq_decide]
    simp [heven]
  · obtain ⟨fences, rfl⟩ := List.head?_eq_some_iff.mp hhead
    obtain rfl : fence = 0 := hplain
    cases hpos

/-! ### Parts with an open block leave nothing -/

theorem NodesAt.eq_of_rest_eq_nil {depth : Nat} {p : Place} {nodes : Passage (List Node)}
    (h : NodesAt options depth p nodes) (hrest : p.rest = []) : nodes = ⟨[], [], p⟩ := by
  obtain ⟨offset, cs⟩ := p
  obtain rfl := hrest
  exact h.unique (@NodesAt.last options depth ⟨offset, []⟩ ⟨offset, []⟩ [] rfl nofun)

theorem BlocksAt.eq_of_rest_eq_nil {depth : Nat} {p : Place} {blocks : Passage (List Block)}
    (h : BlocksAt options depth p blocks) (hrest : p.rest = []) : blocks = ⟨[], [], p⟩ := by
  obtain ⟨offset, cs⟩ := p
  obtain rfl := hrest
  have hnone : BlocksAt options depth ⟨offset, []⟩ ⟨[], [], ⟨offset, []⟩⟩ :=
    .none nofun rfl
  exact h.read_eq.symm.trans hnone.read_eq

mutual

theorem NodesAt.next_rest_eq_nil {d : Diagnostic} (hopen : d.isUnterminated = true) {depth : Nat}
    {p : Place} {nodes : Passage (List Node)} :
    NodesAt options depth p nodes → d ∈ nodes.diagnostics → nodes.next.rest = []
  | .last _ _, hd => nomatch hd
  | .tag _ htag hmore, hd => by
      rcases List.mem_append.mp hd with hd | hd
      · have hnext := htag.next_rest_eq_nil hopen hd
        rw [hmore.eq_of_rest_eq_nil hnext]
        exact hnext
      · exact hmore.next_rest_eq_nil hopen hd

/-- **A tag with an open block leaves nothing.** -/
theorem TagAt.next_rest_eq_nil {d : Diagnostic} (hopen : d.isUnterminated = true)
    {depth start : Nat} {cs : List Char} {tag : Passage Tag} :
    TagAt options depth start cs tag → d ∈ tag.diagnostics → tag.next.rest = []
  | .intro hreading hblocks, hd => by
      rcases List.mem_append.mp hd with hd | hd
      · rw [Header.isUnterminated_of_readAt hreading d hd] at hopen
        cases hopen
      · exact hblocks.next_rest_eq_nil hopen hd

theorem BlocksAt.next_rest_eq_nil {d : Diagnostic} (hopen : d.isUnterminated = true) {depth : Nat}
    {p : Place} {blocks : Passage (List Block)} :
    BlocksAt options depth p blocks → d ∈ blocks.diagnostics → blocks.next.rest = []
  | .none _ _, hd => nomatch hd
  | .tooDeep _ _ hmore, hd => by
      rcases List.mem_cons.mp hd with rfl | hd
      · cases hopen
      · exact hmore.next_rest_eq_nil hopen hd
  | .unclosed _ _ _, _ => rfl
  | .plain _ _ hbody hmore, hd => by
      rcases List.mem_append.mp hd with hd | hd
      · cases hbody.next_rest_eq_nil hopen hd
      · exact hmore.next_rest_eq_nil hopen hd
  | @BlocksAt.verbatim _ _ _ _ _ fence _ _ _ hread hmore, hd => by
      rcases List.mem_append.mp hd with hd | hd
      · have hclosed : fence.closed = false := by
          cases hfence : fence.closed with
          | false => rfl
          | true =>
              rw [hfence] at hd
              cases hd
        have hnext := next_rest_of_readVerbatim hread hclosed
        rw [hmore.eq_of_rest_eq_nil hnext]
        exact hnext
      · exact hmore.next_rest_eq_nil hopen hd

end

/-! ### Verbatim blocks that are cut off -/

/-- The scan of a text without its closing fence goes on to the closer behind it. -/
theorem scanVerbatim_closer {width : Nat} {text : List Char} {offset : Nat} {cs rest : List Char}
    (hopen : (scanVerbatim width text offset cs).closed = false) (hrest : rest.head? ≠ some '=') :
    ∃ stop, scanVerbatim width text offset (cs ++ (closer width ++ rest)) =
      ⟨(scanVerbatim width text offset cs).text, true, ⟨stop, rest⟩⟩ := by
  obtain ⟨hnone, hscan⟩ := scanVerbatim_open hopen
  rw [closer, List.cons_append, scanVerbatim_closingFence hnone hrest, hscan]
  exact ⟨_, rfl⟩

/-- What opens a verbatim block is found alike, whatever stands behind the block. -/
theorem fence_append {cs inside : List Char} (h : afterFence cs = '{' :: inside)
    (behind : List Char) :
    fenceWidth (cs ++ behind) = fenceWidth cs ∧
      afterFence (cs ++ behind) = '{' :: (inside ++ behind) := by
  have hcs : cs = cs.takeWhile (· == '=') ++ '{' :: inside := by
    rw [← h]
    exact List.takeWhile_append_dropWhile.symm
  have hlength : (cs.takeWhile (· == '=')).length ≠ cs.length := by
    intro hlength
    have := congrArg List.length hcs
    simp only [List.length_append, List.length_cons] at this
    omega
  constructor
  · rw [fenceWidth, List.takeWhile_append, if_neg hlength, fenceWidth]
  · rw [afterFence] at h
    rw [afterFence, List.dropWhile_append, h]
    rfl

/-- **A verbatim block that is cut off is read alike with its closer behind it.** -/
theorem readVerbatim_closer {p : Place} {verbatim : Verbatim} {fence : Fence} {rest : List Char}
    (hopens : opensVerbatim p.rest = true) (hread : readVerbatim p = (verbatim, fence))
    (hopen : fence.closed = false) (hrest : rest.head? ≠ some '=') :
    opensVerbatim (p.rest ++ (closer fence.width ++ rest)) = true ∧
      ∃ stop, readVerbatim ⟨p.offset, p.rest ++ (closer fence.width ++ rest)⟩ =
        (⟨verbatim.text, true, ⟨stop, rest⟩⟩, ⟨fence.width, true⟩) := by
  obtain ⟨offset, cs⟩ := p
  obtain ⟨hfence, hbrace⟩ := opensVerbatim_iff.mp hopens
  obtain ⟨inside, hafter⟩ : ∃ inside, afterFence cs = '{' :: inside :=
    List.head?_eq_some_iff.mp hbrace
  rw [readVerbatim_eq hafter] at hread
  cases hread
  obtain ⟨stop, hstop⟩ := scanVerbatim_closer hopen hrest
  obtain ⟨hwidth, hafter'⟩ := fence_append hafter (closer (fenceWidth cs) ++ rest)
  refine ⟨opensVerbatim_iff.mpr ⟨?_, by rw [hafter']; rfl⟩, stop, ?_⟩
  · rw [List.head?_append, hfence]
    rfl
  · rw [readVerbatim_eq hafter', hwidth, hstop]

/-! ### What is missing is put behind -/

/-- Text that ends at a tag is read alike, whatever is put behind the source. -/
theorem readText_tag_append {inBlock : Bool} {offset start : Nat} {cs text behind : List Char}
    (h : readText inBlock [] offset cs = ⟨text, ⟨start, '\\' :: behind⟩⟩) (w : List Char) :
    readText inBlock [] offset (cs ++ w) = ⟨text, ⟨start, '\\' :: (behind ++ w)⟩⟩ := by
  obtain ⟨gap, hgap⟩ := exists_walk_of_readText h
  obtain ⟨c, rest, rfl, hstart⟩ := stopsText_backslash (stopsText_of_readText h)
  have hread := readText_append h (List.cons_ne_nil _ _) hgap
    (.tag hstart : StopsText inBlock ('\\' :: c :: (rest ++ w)))
  have hcs : cs = gap ++ '\\' :: c :: rest := hgap.rest_eq
  rw [hcs, List.append_assoc]
  exact hread

theorem Closes.inert {depth : Nat} {rest : List Char} (h : Closes depth rest) : Inert rest := by
  rcases h with ⟨-, rfl⟩ | ⟨-, more, rfl⟩
  · exact .nil
  · exact .cons rfl rfl (by decide) more

/-- No block goes on with a text that goes on with no part of a tag. -/
theorem BlocksAt.none_of_inert {depth : Nat} {rest : List Char} (h : Inert rest) (offset : Nat) :
    BlocksAt options depth ⟨offset, rest⟩ ⟨[], [], ⟨offset, rest⟩⟩ :=
  @BlocksAt.none_recut [] rest options rest depth ⟨offset, []⟩ h nofun rfl ⟨[], rfl, rfl⟩

/-- **A plain block is read alike** in front of a text that goes on with no part of it, and the
blocks that stand there are read behind it. -/
theorem BlocksAt.plain_append {depth start stop : Nat} {p : Place} {inside rest w : List Char}
    {nodes : List Node} {more : Passage (List Block)} (hstrict : options.strictFences = true)
    (hw : Inert w) (hskip : p.skipBlanks = ⟨start, '{' :: inside⟩)
    (hdepth : depth < options.maxDepth)
    (hbody : NodesAt options (depth + 1) ⟨start + 1, inside⟩ ⟨nodes, [], ⟨stop, '}' :: rest⟩⟩)
    (hmore : BlocksAt options depth ⟨stop + 1, rest ++ w⟩ more) :
    BlocksAt options depth ⟨p.offset, p.rest ++ w⟩
      ⟨{ body := nodes } :: more.value, more.diagnostics, more.next⟩ := by
  obtain ⟨body, hwalk⟩ := hbody.exists_walk
  have hbody' := hbody.recut hw (.inr hstrict) nofun hwalk rfl
    ⟨rest, (List.append_nil _).symm, rfl⟩
  have hinside : inside = body ++ '}' :: rest := hwalk.rest_eq
  rw [← List.cons_append, ← List.append_assoc, ← hinside] at hbody'
  exact .plain (Place.skipBlanks_append_rest hskip (List.cons_ne_nil _ _) w) hdepth hbody' hmore

/-- **A closed verbatim block is read alike** in front of a text that goes on with no part of it,
and the blocks that stand there are read behind it. -/
theorem BlocksAt.verbatim_append {depth : Nat} {p here : Place} {verbatim : Verbatim}
    {fence : Fence} {w : List Char} {more : Passage (List Block)} (hw : Inert w)
    (hskip : p.skipBlanks = here) (hopens : opensVerbatim here.rest = true)
    (hread : readVerbatim here = (verbatim, fence)) (hclosed : fence.closed = true)
    (hmore : BlocksAt options depth ⟨verbatim.next.offset, verbatim.next.rest ++ w⟩ more) :
    BlocksAt options depth ⟨p.offset, p.rest ++ w⟩
      ⟨verbatim.block :: more.value, more.diagnostics, more.next⟩ := by
  obtain ⟨fenced, hwalk, -, hhead, hagain⟩ := readVerbatim_cases hopens hread hclosed
  have hcut : Recut [] w verbatim.next.rest (verbatim.next.rest ++ w) :=
    ⟨verbatim.next.rest, (List.append_nil _).symm, rfl⟩
  obtain ⟨hopens', hread'⟩ := hagain _ fun hequals =>
    hhead (hcut.head?_eq (hw.head?_ne (by decide)) hequals)
  have hskip' := Place.skipBlanks_append hskip hwalk.rest_eq
    (fenced ++ (verbatim.next.rest ++ w))
  have hblocks := BlocksAt.verbatim hskip' hopens' hread' hmore
  rw [if_pos hclosed, List.nil_append] at hblocks
  rw [((Place.walk_skipBlanks hskip).trans hwalk).rest_eq, List.append_assoc, List.append_assoc]
  exact hblocks

/-- **A verbatim block that is cut off is read alike with its closer behind it.** -/
theorem BlocksAt.verbatim_closer {depth : Nat} {p here : Place} {verbatim : Verbatim}
    {fence : Fence} {rest : List Char} (hrest : Inert rest) (hskip : p.skipBlanks = here)
    (hopens : opensVerbatim here.rest = true) (hread : readVerbatim here = (verbatim, fence))
    (hopen : fence.closed = false) :
    ∃ stop, BlocksAt options depth ⟨p.offset, p.rest ++ (closer fence.width ++ rest)⟩
      ⟨[verbatim.block], [], ⟨stop, rest⟩⟩ := by
  obtain ⟨hopens', stop, hread'⟩ := readVerbatim_closer hopens hread hopen
    (hrest.head?_ne (by decide))
  have hne : here.rest ≠ [] := by
    intro hnil
    rw [hnil] at hopens
    cases hopens
  have hskip' := Place.skipBlanks_append_rest hskip hne (closer fence.width ++ rest)
  exact ⟨stop, .verbatim hskip' hopens' hread' (.none_of_inert hrest stop)⟩

mutual

/-- **Nodes that are cut off are read alike with what they miss behind them.** -/
theorem NodesAt.exists_closed (hstrict : options.strictFences = true) {depth : Nat} {p : Place}
    {nodes : Passage (List Node)} {rest' : List Char} (hrest' : Closes depth rest') :
    NodesAt options depth p nodes → (∀ d ∈ nodes.diagnostics, d.isUnterminated = true) →
    nodes.next.rest = [] → Closable (openFences nodes.diagnostics) p.rest →
      ∃ value stop,
        NodesAt options depth
            ⟨p.offset, p.rest ++ (closers (openFences nodes.diagnostics) ++ rest')⟩
            ⟨value, [], ⟨stop, rest'⟩⟩ ∧
          nodesMapSpans Span.unended value = nodesMapSpans Span.unended nodes.value
  | @NodesAt.last _ _ p next text htext hnext, _, hend, hclosable => by
      rcases readText_cases htext with ⟨gap, hgap, -, hcs, -⟩ | ⟨gap, inner, hgap, hcs, -, -⟩
      · rw [hend, List.append_nil] at hcs
        refine ⟨textBody text, p.offset + Text.width gap, .last ?_ hrest'.head?_ne, rfl⟩
        rw [hcs]
        exact (hgap.readText [] rest' p.offset).trans (by
          rw [hrest'.stopsText.readText, List.append_nil, List.reverse_reverse])
      · -- The backslash at the end awaits a character.
        have hescaping := hclosable rfl
        rw [hcs, Text.escaping_append, hgap.escaping] at hescaping
        cases hescaping
  | @NodesAt.tag _ _ start p text behind tag more htext htag hmore, hopen, hend, hclosable => by
      obtain ⟨htagOpen, hmoreOpen⟩ := List.forall_mem_append.mp hopen
      by_cases hne : tag.diagnostics = []
      · -- The tag is closed, and it is read alike.
        have htagFaults : ∀ d ∈ tag.diagnostics, d.IsHeaderFault := by
          rw [hne]
          nofun
        have hescaping := htag.escaping_rest hstrict htext htagFaults
        rw [hne, List.nil_append] at hclosable ⊢
        obtain ⟨value, stop, hvalue, hspans⟩ := hmore.exists_closed hstrict hrest' hmoreOpen hend
          fun hplain => hescaping.symm.trans (hclosable hplain)
        have hnodes := NodesAt.tag_append hstrict (inert_closers _ hrest'.inert) htext htag
          htagFaults hvalue
        rw [hne] at hnodes
        exact ⟨_, stop, hnodes, by simp [nodesMapSpans, hspans]⟩
      · -- The tag is cut off, and nothing follows it.
        obtain ⟨d, hd⟩ := List.exists_mem_of_ne_nil _ hne
        obtain rfl := hmore.eq_of_rest_eq_nil (htag.next_rest_eq_nil (htagOpen d hd) hd)
        rw [List.append_nil] at hclosable ⊢
        have hstops := stopsText_of_readText htext
        obtain ⟨value, stop, hvalue, hspans⟩ := htag.exists_closed hstrict hrest'.inert htagOpen
          hne (hclosable.of_readText htext)
        have hbehind := @NodesAt.last options _ ⟨stop, rest'⟩ _ _
          (hrest'.stopsText.readText [] stop) hrest'.head?_ne
        have hnodes := @NodesAt.tag options _ start ⟨p.offset, p.rest ++ _⟩ text _ _ _
          (readText_tag_append htext _) hvalue hbehind
        exact ⟨_, stop, hnodes, by simp [nodesMapSpans, Node.mapSpans, hspans, textBody]⟩

theorem TagAt.exists_closed (hstrict : options.strictFences = true) {depth start : Nat}
    {cs : List Char} {tag : Passage Tag} {rest' : List Char} (hrest' : Inert rest') :
    TagAt options depth start cs tag → (∀ d ∈ tag.diagnostics, d.isUnterminated = true) →
    tag.diagnostics ≠ [] → Closable (openFences tag.diagnostics) cs →
      ∃ value stop,
        TagAt options depth start (cs ++ (closers (openFences tag.diagnostics) ++ rest'))
            ⟨value, [], ⟨stop, rest'⟩⟩ ∧
          value.mapSpans Span.unended = tag.value.mapSpans Span.unended
  | @TagAt.intro _ _ _ _ reading blocks hreading hblocks, hopen, hne, hclosable => by
      obtain ⟨hheaderOpen, hblocksOpen⟩ := List.forall_mem_append.mp hopen
      -- No fault of a header is an open block, so the header has none.
      have hheader : reading.diagnostics = [] := by
        refine List.eq_nil_iff_forall_not_mem.mpr fun d hd => ?_
        cases (Header.isUnterminated_of_readAt hreading d hd).symm.trans (hheaderOpen d hd)
      have hfaults : ∀ d ∈ reading.diagnostics, d.IsHeaderFault := by
        rw [hheader]
        nofun
      rw [hheader, List.nil_append] at hclosable hne ⊢
      obtain ⟨header, hheaderWalk⟩ := Header.exists_walk_readAt hreading
      have hwalk := (Place.walk_name start cs).trans hheaderWalk
      have hclear := (Text.endsClear_name cs).append
        (Header.endsClear_of_readAt hreading hfaults hheaderWalk)
      obtain ⟨value, stop, hvalue, hspans⟩ := hblocks.exists_closed hstrict hrest' hblocksOpen hne
        (hclosable.of_walk hwalk hclear)
      have htag := TagAt.of_recut (inert_closers (openFences blocks.diagnostics) hrest')
        hreading hfaults hheaderWalk ⟨reading.next.rest, (List.append_nil _).symm, rfl⟩ hvalue
      rw [← List.append_assoc, ← List.append_assoc, ← hwalk.rest_eq, hheader] at htag
      exact ⟨_, stop, htag, by simp [Tag.mapSpans, hspans, Span.unended]⟩

theorem BlocksAt.exists_closed (hstrict : options.strictFences = true) {depth : Nat} {p : Place}
    {blocks : Passage (List Block)} {rest' : List Char} (hrest' : Inert rest') :
    BlocksAt options depth p blocks → (∀ d ∈ blocks.diagnostics, d.isUnterminated = true) →
    blocks.diagnostics ≠ [] → Closable (openFences blocks.diagnostics) p.rest →
      ∃ value stop,
        BlocksAt options depth
            ⟨p.offset, p.rest ++ (closers (openFences blocks.diagnostics) ++ rest')⟩
            ⟨value, [], ⟨stop, rest'⟩⟩ ∧
          blocksMapSpans Span.unended value = blocksMapSpans Span.unended blocks.value
  | .none _ _, _, hne, _ => absurd rfl hne
  | .tooDeep _ _ _, hopen, _, _ => nomatch hopen _ List.mem_cons_self
  | @BlocksAt.unclosed _ depth start stop p inside nodes faults hskip hdepth hbody, hopen, _,
      hclosable => by
      have hfences : openFences (faults ++ options.unterminated ⟨start, stop⟩ 0) =
          openFences faults ++ [0] := by
        rw [openFences_append, openFences_unterminated hstrict]
      have hclosers : closers (openFences faults ++ [0]) ++ rest' =
          closers (openFences faults) ++ '}' :: rest' := by
        simp [closers, closer]
      obtain ⟨run, hwalk, hclear⟩ := Place.exists_walk_open hskip
      rw [hfences] at hclosable
      obtain ⟨value, stop', hvalue, hspans⟩ := hbody.exists_closed hstrict
        (.inr ⟨Nat.succ_ne_zero depth, rest', rfl⟩) (List.forall_mem_append.mp hopen).1 rfl
        (hclosable.of_walk hwalk hclear).of_concat
      have hskip' := Place.skipBlanks_append_rest hskip (List.cons_ne_nil _ _)
        (closers (openFences faults) ++ '}' :: rest')
      rw [hfences, hclosers]
      exact ⟨_, stop' + 1, .plain hskip' hdepth hvalue (.none_of_inert hrest' _),
        by simp [blocksMapSpans, hspans]⟩
  | @BlocksAt.plain _ _ start stop p inside rest c nodes faults more hskip hdepth hbody hmore,
      hopen, hne, hclosable => by
      obtain ⟨hbodyOpen, hmoreOpen⟩ := List.forall_mem_append.mp hopen
      obtain rfl := hbody.eq_brace
      -- The body leaves a brace, so no block in it is open.
      obtain rfl : faults = [] := by
        refine List.eq_nil_iff_forall_not_mem.mpr fun d hd => ?_
        cases hbody.next_rest_eq_nil (hbodyOpen d hd) hd
      rw [List.nil_append] at hclosable hne ⊢
      obtain ⟨front, hfront, hfrontClear⟩ := Place.exists_walk_open hskip
      obtain ⟨run, hrun, hrunClear⟩ := hbody.exists_walk_close
      obtain ⟨value, stop', hvalue, hspans⟩ := hmore.exists_closed hstrict hrest' hmoreOpen hne
        (hclosable.of_walk (hfront.trans hrun) (hfrontClear.append hrunClear))
      exact ⟨_, stop', .plain_append hstrict (inert_closers _ hrest') hskip hdepth hbody hvalue,
        by simp [blocksMapSpans, hspans]⟩
  | @BlocksAt.verbatim _ _ p here verbatim fence more hskip hopens hread hmore, hopen, hne,
      hclosable => by
      obtain ⟨hfenceOpen, hmoreOpen⟩ := List.forall_mem_append.mp hopen
      cases hclosed : fence.closed with
      | true =>
          simp only [hclosed, if_true, List.nil_append] at hclosable hne ⊢
          obtain ⟨fenced, hwalk, hclear, -, -⟩ := readVerbatim_cases hopens hread hclosed
          have hfrontClear := hclear.append_of_ne_nil (List.cons_ne_nil _ _)
            (p.rest.takeWhile Text.isBlank)
          obtain ⟨value, stop, hvalue, hspans⟩ := hmore.exists_closed hstrict hrest' hmoreOpen hne
            (hclosable.of_walk ((Place.walk_skipBlanks hskip).trans hwalk) hfrontClear)
          exact ⟨_, stop,
            .verbatim_append (inert_closers _ hrest') hskip hopens hread hclosed hvalue, by
              simp [Verbatim.block, blocksMapSpans, hspans]⟩
      | false =>
          -- The block is open, and nothing follows it.
          obtain rfl := hmore.eq_of_rest_eq_nil (next_rest_of_readVerbatim hread hclosed)
          obtain ⟨stop, hblocks⟩ := BlocksAt.verbatim_closer hrest' hskip hopens hread hclosed
          simp only [Bool.false_eq_true, if_false, List.append_nil, openFences_unterminated hstrict,
            closers, List.flatMap_singleton]
          exact ⟨_, stop, hblocks, rfl⟩

end

/-! ### Documents -/

/-- **A source that is cut off is read alike with its closers.**  Let a source be a document without
strict fences, and let it end with no backslash that awaits a character, unless the first block that
is open at its end is a verbatim one.  Then the source with the closers of its open blocks behind it
is a document with strict fences, and the same but for the ends of its tags. -/
theorem Document.read_closed {maxDepth : Nat} {source : String} {d : Document}
    (hread : Document.read ⟨false, maxDepth⟩ source = .ok d)
    (hclosable : Text.trailingBackslashes source.toList % 2 = 0 ∨
      ∃ fence ∈ (openFences (Document.diagnostics ⟨true, maxDepth⟩ source)).head?, 0 < fence) :
    ∃ d', Document.read ⟨true, maxDepth⟩ (source ++ String.ofList
        (closers (openFences (Document.diagnostics ⟨true, maxDepth⟩ source)))) = .ok d' ∧
      d'.unended = d.unended := by
  have hstrict := readNodes_at ⟨true, maxDepth⟩ 0 0 source.toList
  generalize (readNodes ⟨true, maxDepth⟩ 0 0 source.toList).passage = nodes at hstrict
  have hlenient := @NodesAt.of_strict ⟨false, maxDepth⟩ _ _ _ hstrict
  rw [Document.read_eq hlenient] at hread
  rw [Document.diagnostics_eq hstrict] at hclosable ⊢
  split at hread
  · next hempty =>
      cases hread
      have hopen : ∀ d ∈ nodes.diagnostics, d.isUnterminated = true := by
        simpa [Passage.reported, ReaderOptions.reports] using hempty
      have hend := hstrict.next_cases.resolve_right (by simp)
      obtain ⟨value, stop, hvalue, hspans⟩ := hstrict.exists_closed rfl (.inl ⟨rfl, rfl⟩) hopen hend
        (closable_of_or hclosable)
      refine ⟨⟨value⟩, Document.read_eq_ok_iff.mpr ⟨⟨stop, []⟩, ?_⟩, congrArg Document.mk hspans⟩
      simpa using hvalue
  · cases hread

/-- The backslash at the end is text of the verbatim block, so what closes that counts. -/
theorem Document.read_closed_cutOffTwice :
    openFences (Document.diagnostics ⟨true, 1⟩ "\\b\x7b\\c=\x7ba\\") = [1, 0] ∧
      Document.read ⟨false, 1⟩ "\\b\x7b\\c=\x7ba\\" = .ok ⟨[.tag cutOffTwice]⟩ ∧
      ∃ d', Document.read ⟨true, 1⟩ "\\b\x7b\\c=\x7ba\\\x7d=\x7d" = .ok d' ∧
        d'.unended = (Document.mk [.tag cutOffTwice]).unended := by
  have hfences : openFences (Document.diagnostics ⟨true, 1⟩ "\\b\x7b\\c=\x7ba\\") = [1, 0] := by
    rw [Document.diagnostics_eq Document.nodesAt_cutOffTwice]
    rfl
  have hread : Document.read ⟨false, 1⟩ "\\b\x7b\\c=\x7ba\\" = .ok ⟨[.tag cutOffTwice]⟩ :=
    Document.read_eq (@NodesAt.of_strict ⟨false, 1⟩ _ _ _ Document.nodesAt_cutOffTwice)
  obtain ⟨d', hclosed, hspans⟩ := Document.read_closed hread
    (.inr ⟨1, by rw [hfences]; rfl, Nat.zero_lt_one⟩)
  rw [hfences] at hclosed
  exact ⟨hfences, hread, d', hclosed, hspans⟩

end TaggedText
