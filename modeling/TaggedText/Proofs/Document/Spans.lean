import TaggedText.Proofs.Document.Lines
import TaggedText.Proofs.Header.Spans

/-!
# Where diagnostics point

Every diagnostic points between characters of the source.  Its range runs forwards, unless it tells
that the tokens of a header ran out: then it runs backwards, from the end of the header to the end
of its last token.

A byte lies between characters if a walk from the start of the source can stop there. `Place.Meets`
says this of what a place leaves, so that it passes from a part of the source to the whole by
composing walks, and `Place.Locates` is a diagnostic both of whose ends are met, in the right order
or for the reason above.  For headers this is known from their pieces (`Header.locates_of_readAt`);
what is wrong with nodes, tags and blocks follows by derivation, and
`Document.span_of_mem_diagnostics` is about sources.

The backward case does occur.  At the end of the file a string stands in a header that the search
for its end sees to its end, and the tokens do not.
-/

namespace TaggedText

/-- **A byte that is met on the way** from a place: one in front of a character, or behind the
last. -/
def Place.Meets (p : Place) (n : Nat) : Prop :=
  ∃ run q, Place.Walk run p q ∧ q.offset = n

/-- **A diagnostic that points behind a place.**  It begins and ends between characters, and ends in
front of its start exactly if it tells that the tokens of a header ran out. -/
structure Place.Locates (p : Place) (d : Diagnostic) : Prop where
  start : p.Meets d.span.start
  stop : p.Meets d.span.stop
  ordered_iff : d.span.start ≤ d.span.stop ↔ d.tellsEnd = false
  escapes : d.tellsEnd = true → Header.EscapesLineFeed p.rest

variable {options : ReaderOptions} {p q r : Place} {run run' : List Char} {d : Diagnostic} {n : Nat}

theorem Place.Meets.of_walk (h : Place.Walk run p q) (hn : q.Meets n) : p.Meets n := by
  obtain ⟨more, r, hmore, rfl⟩ := hn
  exact ⟨_, r, h.trans hmore, rfl⟩

theorem Place.Walk.meets (h : Place.Walk run p q) : p.Meets q.offset :=
  ⟨run, q, h, rfl⟩

namespace Place.Locates

/-- What points behind a place points behind every place in front of it. -/
theorem of_walk (h : Place.Walk run p q) (hd : q.Locates d) : p.Locates d where
  start := hd.start.of_walk h
  stop := hd.stop.of_walk h
  ordered_iff := hd.ordered_iff
  escapes htells := by
    rw [h.rest_eq]
    exact (hd.escapes htells).append_left

/-- A diagnostic that points at the way between two places. -/
theorem of_span (h : Place.Walk run p q) (h' : Place.Walk run' q r)
    (hspan : d.span = ⟨q.offset, r.offset⟩) (htells : d.tellsEnd = false) : p.Locates d where
  start := hspan ▸ h.meets
  stop := hspan ▸ (h.trans h').meets
  ordered_iff := iff_of_true (hspan ▸ h'.offset_le) htells
  escapes htells' := by
    rw [htells] at htells'
    cases htells'

end Place.Locates

/-! ### Headers -/

namespace Header

/-- A fault of a header that is closed points into it. -/
theorem locates_of_read {text rest : List Char} {ds : List Diagnostic}
    (hextent : extent p.rest = .closed text rest) (h : read p.offset text = .error ds)
    (hd : d ∈ ds) : p.Locates d := by
  have hsource := extent_eq hextent
  rcases cases_of_read_error h hd with ⟨htells, piece, hpiece, hspan⟩ | ⟨htells, hspan, hrunOut⟩
  · obtain ⟨-, -, front, behind, rfl, hstart, hstop⟩ := mem_pieces hpiece
    have hfront : Place.Walk front p (p.pass front (piece.text ++ (behind ++ rest))) :=
      .pass p (by rw [hsource]; simp)
    have hrange : piece.span = ⟨p.offset + Text.width front,
        p.offset + Text.width front + Text.width piece.text⟩ := by
      rw [Text.width_append, ← Nat.add_assoc, ← hstart] at hstop
      rw [← hstart, ← hstop]
    exact .of_span hfront (.pass _ rfl) (hspan.symm.trans hrange) htells
  · obtain ⟨expected, hrunOut⟩ := hrunOut
    obtain ⟨t, piece, -, hpiece, -, hpieceSpan, hend⟩ := exists_getLast?_of_readTokens hrunOut
    obtain ⟨hne, -, front, behind, hsplit, -, hstop⟩ := mem_pieces hpiece
    have htext : text ≠ [] := by
      rw [hsplit]
      simp [hne]
    obtain ⟨close, token, hclose, hcloses, hlast⟩ := getLast?_of_extent hextent htext
    have hlt := tokensEnd_lt hclose hcloses hlast hrunOut
    refine ⟨?_, ?_, ?_, fun _ => ?_⟩
    · rw [hspan]
      exact (Place.Walk.pass p hsource).meets
    · have hpass : Place.Walk (front ++ piece.text) p
          (p.pass (front ++ piece.text) (behind ++ rest)) :=
        .pass p (by rw [hsource, hsplit]; simp)
      rw [hspan]
      show p.Meets (tokensEnd p.offset text)
      rw [hend, ← hpieceSpan, hstop]
      exact hpass.meets
    · rw [hspan, htells]
      exact iff_of_false (Nat.not_le.mpr hlt) nofun
    · rw [hsource]
      exact (escapesLineFeed_of_readTokens hextent hrunOut).append_right

/-- **The faults of a header** point behind its start. -/
theorem locates_of_readAt {reading : Reading} (h : readAt p = reading) :
    ∀ d ∈ reading.diagnostics, p.Locates d := by
  subst h
  unfold readAt
  split
  · next text rest hextent =>
      split
      · nofun
      · next ds hread => exact fun d hd => locates_of_read hextent hread hd
  · next close hextent =>
      intro d hd
      obtain rfl := List.mem_singleton.mp hd
      exact .of_span (.refl p) (.pass p (List.append_nil _).symm) rfl rfl

end Header

/-! ### Nodes, tags and blocks -/

theorem ReaderOptions.locates_unterminated (h : Place.Walk run p q) (h' : Place.Walk run' q r)
    (fence : Nat) : ∀ d ∈ options.unterminated ⟨q.offset, r.offset⟩ fence, p.Locates d := by
  intro d hd
  unfold unterminated at hd
  split at hd
  · obtain rfl := List.mem_singleton.mp hd
    exact .of_span h h' rfl rfl
  · cases hd

mutual

theorem NodesAt.locates {depth : Nat} {p : Place} {nodes : Passage (List Node)} :
    NodesAt options depth p nodes → ∀ d ∈ nodes.diagnostics, p.Locates d
  | .last _ _ => nofun
  | .tag htext htag hmore => by
      obtain ⟨gap, hgap⟩ := exists_walk_of_readText htext
      obtain ⟨run, hrun⟩ := htag.exists_walk
      have hbackslash := hgap.trans (.cons (.refl _))
      refine List.forall_mem_append.mpr ⟨?_, ?_⟩
      · intro d hd
        exact (htag.locates d hd).of_walk hbackslash
      · intro d hd
        exact (hmore.locates d hd).of_walk (hbackslash.trans hrun)

theorem TagAt.locates {depth start : Nat} {cs : List Char} {tag : Passage Tag} :
    TagAt options depth start cs tag → ∀ d ∈ tag.diagnostics, Place.Locates ⟨start + 1, cs⟩ d
  | .intro hreading hblocks => by
      have hname := Place.walk_name start cs
      obtain ⟨header, hheader⟩ := Header.exists_walk_readAt hreading
      refine List.forall_mem_append.mpr ⟨?_, ?_⟩
      · intro d hd
        exact (Header.locates_of_readAt hreading d hd).of_walk hname
      · intro d hd
        exact (hblocks.locates d hd).of_walk (hname.trans hheader)

theorem BlocksAt.locates {depth : Nat} {p : Place} {blocks : Passage (List Block)} :
    BlocksAt options depth p blocks → ∀ d ∈ blocks.diagnostics, p.Locates d
  | .none _ _ => nofun
  | .tooDeep hskip _ hmore => by
      have hblanks := Place.walk_skipBlanks hskip
      obtain ⟨inside, hinside⟩ := exists_walk_passBlock 0 _ _
      refine List.forall_mem_cons.mpr ⟨?_, ?_⟩
      · exact .of_span hblanks (.cons (.refl _)) rfl rfl
      · intro d hd
        exact (hmore.locates d hd).of_walk (hblanks.trans (.cons hinside))
  | .unclosed hskip _ hbody => by
      have hblanks := Place.walk_skipBlanks hskip
      obtain ⟨inside, hinside⟩ := hbody.exists_walk
      refine List.forall_mem_append.mpr ⟨?_, ?_⟩
      · intro d hd
        exact (hbody.locates d hd).of_walk (hblanks.trans (.cons (.refl _)))
      · exact ReaderOptions.locates_unterminated hblanks (.cons hinside) 0
  | .plain hskip _ hbody hmore => by
      have hblanks := Place.walk_skipBlanks hskip
      have hinsideLocates := hbody.locates
      obtain ⟨inside, hinside⟩ := hbody.exists_walk
      obtain rfl := hbody.eq_brace
      refine List.forall_mem_append.mpr ⟨?_, ?_⟩
      · intro d hd
        exact (hinsideLocates d hd).of_walk (hblanks.trans (.cons (.refl _)))
      · intro d hd
        exact (hmore.locates d hd).of_walk
          (hblanks.trans (.cons (hinside.trans (.cons (.refl _)))))
  | @BlocksAt.verbatim _ _ _ _ _ fence _ hskip hopens hread hmore => by
      have hblanks := Place.walk_skipBlanks hskip
      obtain ⟨inside, hinside⟩ := exists_walk_readVerbatim hopens hread
      refine List.forall_mem_append.mpr ⟨?_, ?_⟩
      · split
        · nofun
        · exact ReaderOptions.locates_unterminated hblanks hinside fence.width
      · intro d hd
        exact (hmore.locates d hd).of_walk (hblanks.trans hinside)

end

/-! ### Sources -/

/-- What is met on the way through a source are its positions. -/
theorem Place.Meets.isValid {source : String} (h : Place.Meets ⟨0, source.toList⟩ n) :
    String.Pos.Raw.IsValid source ⟨n⟩ := by
  obtain ⟨run, q, hwalk, rfl⟩ := h
  refine String.Pos.Raw.isValid_iff_exists_append.mpr
    ⟨String.ofList run, String.ofList q.rest, ?_, ?_⟩
  · rw [← String.ofList_append, ← hwalk.rest_eq, String.ofList_toList]
  · rw [hwalk.offset_eq, String.Pos.Raw.ext_iff]
    show 0 + Text.width run = (String.ofList run).utf8ByteSize
    rw [Text.utf8ByteSize_ofList, Nat.zero_add]

/-- **Every diagnostic points between characters of the source**, and its range runs forwards
exactly if it does not tell that the tokens of a header ran out.  That is told only of a source in
which a backslash stands in front of a line feed. -/
theorem Document.span_of_mem_diagnostics {source : String}
    (h : d ∈ Document.diagnostics options source) :
    (d.span.start ≤ source.utf8ByteSize ∧ d.span.stop ≤ source.utf8ByteSize) ∧
      (String.Pos.Raw.IsValid source ⟨d.span.start⟩ ∧
        String.Pos.Raw.IsValid source ⟨d.span.stop⟩) ∧
      (d.span.start ≤ d.span.stop ↔ d.tellsEnd = false) ∧
      (d.tellsEnd = true → ['\\', '\n'] <:+: source.toList) := by
  have hnodes := readNodes_at options 0 0 source.toList
  rw [Document.diagnostics_eq hnodes] at h
  have hlocates := hnodes.locates d h
  have hstart := hlocates.start.isValid
  have hstop := hlocates.stop.isValid
  exact ⟨⟨hstart.le_utf8ByteSize, hstop.le_utf8ByteSize⟩, ⟨hstart, hstop⟩, hlocates.ordered_iff,
    hlocates.escapes⟩

/-! ### A string that only the search sees to its end -/

/-- The text of a header whose string is broken by an escaped line feed. -/
def brokenHeader : List Char :=
  ['(', '"', '\\', '\n', '"', ')']

/-- What is wrong with it: the pieces of the string, and that nothing closes the parameters. -/
def brokenHeaderFaults : List Diagnostic :=
  [.malformed ⟨3, 4⟩ "Unexpected character '\"'" [],
    .malformed ⟨4, 5⟩ "Unexpected character '\\'" [],
    .malformed ⟨6, 8⟩ "Unexpected character '\")'" [],
    .malformed ⟨8, 3⟩ "Unexpected end of tag header" ["value", "')'"]]

theorem Header.readAt_brokenHeader :
    Header.readAt ⟨2, brokenHeader⟩ = ⟨{}, brokenHeaderFaults, ⟨8, []⟩⟩ := by
  have hpieces : pieces 2 brokenHeader =
      [⟨some .openParen, ['('], ⟨2, 3⟩⟩, ⟨none, ['"'], ⟨3, 4⟩⟩, ⟨none, ['\\'], ⟨4, 5⟩⟩,
        ⟨none, ['"', ')'], ⟨6, 8⟩⟩] := by
    have hopen : scan '(' ['"', '\\', '\n', '"', ')'] =
        ⟨some .openParen, ['('], ['"', '\\', '\n', '"', ')']⟩ := rfl
    have hbroken : scan '"' ['\\', '\n', '"', ')'] = ⟨none, ['"'], ['\\', '\n', '"', ')']⟩ := rfl
    have hbackslash : scan '\\' ['\n', '"', ')'] = ⟨none, ['\\'], ['\n', '"', ')']⟩ := rfl
    have hunended : scan '"' [')'] = ⟨none, ['"', ')'], []⟩ := rfl
    have hfeed : isGap '\n' = true := rfl
    rw [brokenHeader, pieces_cons rfl hopen, pieces_cons rfl hbroken, pieces_cons rfl hbackslash,
      pieces, if_pos hfeed, pieces_cons rfl hunended, pieces]
    rfl
  have hread : read 2 brokenHeader = .error brokenHeaderFaults := by
    have hsorted : brokenHeaderFaults.Pairwise
        fun a b => decide (a.span.start ≤ b.span.start) = true := by
      decide
    rw [read, hpieces, ← List.mergeSort_of_pairwise hsorted]
    rfl
  have hextent : extent brokenHeader = .closed brokenHeader [] := rfl
  rw [readAt, hextent]
  simp only [hread]
  rfl

theorem Document.diagnostics_brokenHeader :
    Document.diagnostics {} "\\a(\"\\\n\")" = brokenHeaderFaults := by
  have htag : TagAt {} 0 0 ('a' :: brokenHeader)
      ⟨{ name := "a", span := ⟨0, 8⟩ }, brokenHeaderFaults, ⟨8, []⟩⟩ :=
    @TagAt.intro {} 0 0 ('a' :: brokenHeader) _ ⟨[], [], ⟨8, []⟩⟩ Header.readAt_brokenHeader
      (.none (by decide) (by decide))
  have hfinish : NodesAt {} 0 ⟨8, []⟩ ⟨[], [], ⟨8, []⟩⟩ :=
    @NodesAt.last {} 0 ⟨8, []⟩ ⟨8, []⟩ [] rfl nofun
  exact Document.diagnostics_eq (@NodesAt.tag {} 0 0 ⟨0, _⟩ [] _ _ _ rfl htag hfinish)

/-- The last fault points backwards. -/
theorem Document.span_of_mem_diagnostics_brokenHeader :
    .malformed ⟨8, 3⟩ "Unexpected end of tag header" ["value", "')'"] ∈
        Document.diagnostics {} "\\a(\"\\\n\")" ∧
      String.Pos.Raw.IsValid "\\a(\"\\\n\")" ⟨8⟩ ∧ String.Pos.Raw.IsValid "\\a(\"\\\n\")" ⟨3⟩ ∧
      ['\\', '\n'] <:+: "\\a(\"\\\n\")".toList := by
  have hmem : .malformed ⟨8, 3⟩ "Unexpected end of tag header" ["value", "')'"] ∈
      Document.diagnostics {} "\\a(\"\\\n\")" := by
    rw [Document.diagnostics_brokenHeader]
    decide
  obtain ⟨-, ⟨hstart, hstop⟩, -, hescapes⟩ := Document.span_of_mem_diagnostics hmem
  exact ⟨hmem, hstart, hstop, hescapes rfl⟩

/-- **Not every range runs forwards.** -/
theorem Document.span_backwards_brokenHeader :
    ¬ ∀ d ∈ Document.diagnostics {} "\\a(\"\\\n\")", d.span.start ≤ d.span.stop := by
  rw [Document.diagnostics_brokenHeader]
  decide

end TaggedText
