import TaggedText.Proofs.Document.Local
import TaggedText.Proofs.Document.Shift
import TaggedText.Proofs.Document.Strictness
import TaggedText.Proofs.Header.RoundTrip

/-!
# Sources line by line

Nothing reaches across the end of a line that a source could end with: a source and a line feed in
front of another source are read as the one, the line feed, and the other.

**What could reach across.**  A block that is open, a header that is not closed, and a backslash
that awaits a character.  The first two are faults, so it is asked of the source in front that
strict fences find nothing wrong with it but headers that were closed; the last is asked of its
characters. A tag never looks further than the line feed, since a line feed goes on with no part of
it.

Two texts may come to stand side by side at the seam, and there is only one text node for them in
the whole.  `mergeTexts` makes neighbouring texts one, and `NodesAt.join` carries a text in progress
through the derivation of the line in front.  `Document.read_append_line` is the law for whole
sources, diagnostics and all.
-/

namespace TaggedText

/-! ### Neighbouring texts -/

/-- **Neighbouring texts are made one.** -/
def mergeTexts : List Node → List Node
  | [] => []
  | .tag tag :: rest => .tag tag :: mergeTexts rest
  | .text value :: rest =>
    match mergeTexts rest with
    | .text more :: behind => .text (value ++ more) :: behind
    | behind => .text value :: behind

theorem mergeTexts_textBody_tag (text : List Char) (tag : Tag) (nodes : List Node) :
    mergeTexts (textBody text ++ .tag tag :: nodes) =
      textBody text ++ .tag tag :: mergeTexts nodes := by
  unfold textBody
  split <;> rfl

theorem mergeTexts_textBody (text : List Char) : mergeTexts (textBody text) = textBody text := by
  unfold textBody
  split <;> rfl

theorem mergeTexts_textBody_append (text more : List Char) (nodes : List Node) :
    mergeTexts (textBody text ++ (textBody more ++ nodes)) =
      mergeTexts (textBody (text ++ more) ++ nodes) := by
  cases text with
  | nil => rfl
  | cons c text =>
      cases more with
      | nil => rw [List.append_nil]; rfl
      | cons d more =>
          simp only [textBody, List.isEmpty_cons, List.cons_append, Bool.false_eq_true, if_false,
            List.nil_append, mergeTexts]
          cases mergeTexts nodes with
          | nil => simp [String.ofList_append, String.append_assoc]
          | cons node rest =>
              cases node <;> simp [String.ofList_append, String.append_assoc]

variable {options : ReaderOptions}

/-- Nodes that are read have no neighbouring texts. -/
theorem NodesAt.mergeTexts_value {depth : Nat} {p : Place} {nodes : Passage (List Node)}
    (h : NodesAt options depth p nodes) : mergeTexts nodes.value = nodes.value := by
  induction h using NodesAt.induction with
  | last _ _ => exact mergeTexts_textBody _
  | tag _ _ _ ih => rw [mergeTexts_textBody_tag, ih]

/-! ### Text in front -/

/-- What has been read of a text stays in front of the rest. -/
theorem readText_eq (inBlock : Bool) (before : List Char) (offset : Nat) (cs : List Char) :
    readText inBlock before offset cs =
      ⟨before.reverse ++ (readText inBlock [] offset cs).text,
        (readText inBlock [] offset cs).next⟩ := by
  obtain ⟨gap, text, tail, rfl, hgap, hstops | rfl⟩ := exists_spelled inBlock cs
  · simp [hgap.readText, hstops.readText]
  · simp [hgap.readText, readText]

theorem Spelled.append {inBlock : Bool} {gap text gap' text' : List Char}
    (h : Spelled inBlock gap text) (h' : Spelled inBlock gap' text') :
    Spelled inBlock (gap ++ gap') (text ++ text') := by
  induction h with
  | nil => exact h'
  | escape hstart _ ih => exact .escape hstart ih
  | char hbackslash hbrace _ ih => exact .char hbackslash hbrace ih

/-- Text in front of nodes becomes one with the text that they begin with. -/
theorem NodesAt.prepend {depth offset : Nat} {gap text rest : List Char}
    {nodes : Passage (List Node)} (hgap : Spelled (depth != 0) gap text)
    (h : NodesAt options depth ⟨offset + Text.width gap, rest⟩ nodes) :
    NodesAt options depth ⟨offset, gap ++ rest⟩
      { nodes with value := mergeTexts (textBody text ++ nodes.value) } := by
  have hread : readText (depth != 0) [] offset (gap ++ rest) =
      ⟨text ++ (readText (depth != 0) [] (offset + Text.width gap) rest).text,
        (readText (depth != 0) [] (offset + Text.width gap) rest).next⟩ := by
    rw [hgap.readText, readText_eq]
    simp
  cases h with
  | @last _ _ next more htext hnext =>
      have hvalue := mergeTexts_textBody_append text more []
      rw [List.append_nil, List.append_nil, mergeTexts_textBody] at hvalue
      rw [hvalue]
      exact .last (by rw [hread, htext]) hnext
  | @tag _ _ _ more _ tag behind htext htag hmore =>
      rw [mergeTexts_textBody_append, mergeTexts_textBody_tag, hmore.mergeTexts_value]
      exact .tag (by rw [hread, htext]) htag hmore

/-! ### A line in front -/

/-- No backslash awaits a character behind a tag. -/
theorem TagAt.escaping_eq_false {inBlock : Bool} {depth start : Nat} {cs run : List Char}
    {tag : Passage Tag} (hstrict : options.strictFences = true)
    (h : TagAt options depth start cs tag) (hfaults : ∀ d ∈ tag.diagnostics, d.IsHeaderFault)
    (hwalk : Place.Walk run ⟨start + 1, cs⟩ tag.next) (hstops : StopsText inBlock ('\\' :: cs))
    (awaiting : Bool) : Text.escaping awaiting ('\\' :: run) = false := by
  have hne : run ≠ [] := by
    rintro rfl
    obtain ⟨c, rest, hnil, -⟩ := stopsText_backslash (h.stopsText_append hwalk hstops [])
    cases hnil
  have hclear := (h.endsClear hstrict hfaults hwalk).append_of_ne_nil hne ['\\']
  exact hclear.escaping (List.cons_ne_nil _ _) awaiting

/-- What a tag and the text in front of it leave open is open behind them. -/
theorem TagAt.escaping_rest {depth start : Nat} {p : Place} {text behind : List Char}
    {tag : Passage Tag} (hstrict : options.strictFences = true)
    (htext : readText (depth != 0) [] p.offset p.rest = ⟨text, ⟨start, '\\' :: behind⟩⟩)
    (h : TagAt options depth start behind tag) (hfaults : ∀ d ∈ tag.diagnostics, d.IsHeaderFault) :
    Text.escaping false p.rest = Text.escaping false tag.next.rest := by
  obtain ⟨gap, hgap⟩ := exists_walk_of_readText htext
  obtain ⟨run, hrun⟩ := h.exists_walk
  have hfront : Place.Walk (gap ++ '\\' :: run) p tag.next := hgap.trans (.cons hrun)
  rw [hfront.rest_eq, Text.escaping_append, Text.escaping_append,
    h.escaping_eq_false hstrict hfaults hrun (stopsText_of_readText htext)]

/-- **A tag and the text in front of it are read alike** in front of a text that goes on with no
part of the tag, and what stands there is read behind them. -/
theorem NodesAt.tag_append {depth start : Nat} {p : Place} {text behind w : List Char}
    {tag : Passage Tag} {more : Passage (List Node)} (hstrict : options.strictFences = true)
    (hw : Inert w)
    (htext : readText (depth != 0) [] p.offset p.rest = ⟨text, ⟨start, '\\' :: behind⟩⟩)
    (htag : TagAt options depth start behind tag)
    (hfaults : ∀ d ∈ tag.diagnostics, d.IsHeaderFault)
    (hmore : NodesAt options depth ⟨tag.next.offset, tag.next.rest ++ w⟩ more) :
    NodesAt options depth ⟨p.offset, p.rest ++ w⟩
      ⟨textBody text ++ .tag tag.value :: more.value, tag.diagnostics ++ more.diagnostics,
        more.next⟩ := by
  obtain ⟨gap, hgap⟩ := exists_walk_of_readText htext
  obtain ⟨run, hrun⟩ := htag.exists_walk
  have hstops := htag.stopsText_append hrun (stopsText_of_readText htext) (tag.next.rest ++ w)
  have htext' := readText_append htext (List.cons_ne_nil _ _) hgap hstops
  have hcut : Recut [] w tag.next.rest (tag.next.rest ++ w) :=
    ⟨tag.next.rest, (List.append_nil _).symm, rfl⟩
  have htag' := htag.recut hw (.inr hstrict) hfaults hrun hcut
  have hsource : gap ++ '\\' :: (run ++ (tag.next.rest ++ w)) = p.rest ++ w := by
    rw [(hgap.trans (.cons hrun)).rest_eq]
    simp
  rw [hsource] at htext'
  have hnodes :=
    @NodesAt.tag options depth start ⟨p.offset, p.rest ++ w⟩ text _ _ more htext' htag' hmore
  exact hnodes

/-- **Nodes that end with their source go on behind a line feed** with the nodes that stand there,
where no block is open and no backslash awaits a character. -/
theorem NodesAt.join {depth : Nat} {p : Place} {nodes more : Passage (List Node)}
    {rest : List Char} (hstrict : options.strictFences = true) (hdepth : depth = 0)
    (h : NodesAt options depth p nodes) (hfaults : ∀ d ∈ nodes.diagnostics, d.IsHeaderFault)
    (hclear : Text.escaping false p.rest = false)
    (hrest : NodesAt options depth ⟨p.offset + Text.width p.rest + 1, rest⟩ more) :
    NodesAt options depth ⟨p.offset, p.rest ++ '\n' :: rest⟩
      ⟨mergeTexts (nodes.value ++ .text "\n" :: more.value),
        nodes.diagnostics ++ more.diagnostics, more.next⟩ := by
  induction h using NodesAt.induction with
  | @last depth p next text htext hnext =>
      have hend := (next_cases_of_readText htext hnext).resolve_right (by simp [hdepth])
      rcases readText_cases htext with ⟨gap, hgap, -, hcs, -⟩ | ⟨gap, inner, hgap, hcs, -, -⟩
      · have hfeed : Spelled (depth != 0) ['\n'] ['\n'] := .char (by decide) (by simp [hdepth]) .nil
        rw [hend, List.append_nil] at hcs
        have hwidth : p.offset + Text.width p.rest + 1 = p.offset + Text.width (gap ++ ['\n']) := by
          have hfeedWidth : '\n'.utf8Size = 1 := rfl
          simp [hcs, hfeedWidth, Nat.add_assoc]
        rw [hwidth] at hrest
        have hjoin := hrest.prepend (hgap.append hfeed)
        rw [← mergeTexts_textBody_append, List.append_assoc, ← hcs] at hjoin
        exact hjoin
      · -- The backslash at the end awaits a character.
        rw [hcs, Text.escaping_append, hgap.escaping] at hclear
        cases hclear
  | @tag depth start p text behind tag tail htext htag hmore ih =>
      obtain ⟨htagFaults, htailFaults⟩ := List.forall_mem_append.mp hfaults
      obtain ⟨gap, hgap⟩ := exists_walk_of_readText htext
      obtain ⟨run, hrun⟩ := htag.exists_walk
      have hfront : Place.Walk (gap ++ '\\' :: run) p tag.next := hgap.trans (.cons hrun)
      have hwidth : p.offset + Text.width p.rest + 1 =
          tag.next.offset + Text.width tag.next.rest + 1 := by
        rw [hfront.offset_eq, hfront.rest_eq, Text.width_append]
        omega
      rw [htag.escaping_rest hstrict htext htagFaults] at hclear
      rw [hwidth] at hrest
      have hjoin := ih hdepth htailFaults hclear hrest
      -- The tag is read alike, since no part of it begins with a line feed.
      have hfeed : Inert ('\n' :: rest) := .cons rfl rfl (by decide) rest
      rw [List.append_assoc, List.append_assoc, List.cons_append, mergeTexts_textBody_tag]
      exact .tag_append hstrict hfeed htext htag htagFaults hjoin

/-! ### Documents -/

/-- **All that is wrong with a source**: nothing, if it is a document. -/
def Document.diagnostics (options : ReaderOptions) (source : String) : List Diagnostic :=
  match Document.read options source with
  | .ok _ => []
  | .error ds => ds

/-- What is read of a source decides its diagnostics and its document. -/
theorem Document.read_eq {source : String} {nodes : Passage (List Node)}
    (h : NodesAt options 0 ⟨0, source.toList⟩ nodes) :
    Document.read options source =
      if nodes.diagnostics.isEmpty then .ok ⟨nodes.value⟩ else .error nodes.diagnostics := by
  rw [← h.read_eq]
  rfl

theorem Document.diagnostics_eq {source : String} {nodes : Passage (List Node)}
    (h : NodesAt options 0 ⟨0, source.toList⟩ nodes) :
    Document.diagnostics options source = nodes.diagnostics := by
  unfold Document.diagnostics
  rw [Document.read_eq h]
  split
  · next hread =>
      split at hread
      · next hempty => exact (List.isEmpty_iff.mp hempty).symm
      · cases hread
  · next hread =>
      split at hread
      · cases hread
      · cases hread
        rfl

/-- A header whose only fault is a character that begins no token. -/
theorem Header.readAt_strayCharacter :
    Header.readAt ⟨2, ['(', '%', ')']⟩ =
      ⟨{}, [.malformed ⟨3, 4⟩ "Unexpected character '%'" []], ⟨5, []⟩⟩ := by
  have hpieces : pieces 2 ['(', '%', ')'] =
      [⟨some .openParen, ['('], ⟨2, 3⟩⟩, ⟨none, ['%'], ⟨3, 4⟩⟩,
        ⟨some .closeParen, [')'], ⟨4, 5⟩⟩] := by
    have hopen : scan '(' ['%', ')'] = ⟨some .openParen, ['('], ['%', ')']⟩ := rfl
    have hstray : scan '%' [')'] = ⟨none, ['%'], [')']⟩ := rfl
    have hclose : scan ')' [] = ⟨some .closeParen, [')'], []⟩ := rfl
    rw [pieces_cons rfl hopen, pieces_cons rfl hstray, pieces_cons rfl hclose, pieces]
    rfl
  have hread : read 2 ['(', '%', ')'] =
      .error [.malformed ⟨3, 4⟩ "Unexpected character '%'" []] := by
    rw [read, hpieces]
    rfl
  have hextent : extent ['(', '%', ')'] = .closed ['(', '%', ')'] [] := rfl
  rw [readAt, hextent]
  simp only [hread]
  rfl

/-- A source whose only fault stands in a header that was closed. -/
theorem Document.diagnostics_strayCharacter (options : ReaderOptions) :
    Document.diagnostics options "\\a(%)" =
      [.malformed ⟨3, 4⟩ "Unexpected character '%'" []] := by
  have htag : TagAt options 0 0 ['a', '(', '%', ')']
      ⟨{ name := "a", span := ⟨0, 5⟩ },
        [.malformed ⟨3, 4⟩ "Unexpected character '%'" []], ⟨5, []⟩⟩ :=
    @TagAt.intro options 0 0 ['a', '(', '%', ')'] _ ⟨[], [], ⟨5, []⟩⟩ Header.readAt_strayCharacter
      (.none (by decide) (by decide))
  have hfinish : NodesAt options 0 ⟨5, []⟩ ⟨[], [], ⟨5, []⟩⟩ :=
    @NodesAt.last options 0 ⟨5, []⟩ ⟨5, []⟩ [] rfl nofun
  exact Document.diagnostics_eq (@NodesAt.tag options 0 0 ⟨0, _⟩ [] _ _ _ rfl htag hfinish)

/-- **Reading distributes over lines.**  Let a source end with no backslash that awaits a character,
and let strict fences find nothing wrong with it but faults of headers.  Then the faults of the
source with another behind a line feed are its own, and those of the other further down; and the
document, if both are documents, is the one, a line feed and the other. -/
theorem Document.read_append_line {a b : String}
    (hbackslashes : Text.trailingBackslashes a.toList % 2 = 0)
    (hfaults : ∀ d ∈ Document.diagnostics options.strict a, d.IsHeaderFault) :
    Document.diagnostics options (a ++ "\n" ++ b) =
        Document.diagnostics options a ++
          (Document.diagnostics options b).map (Diagnostic.shift (Text.width a.toList + 1)) ∧
      ∀ first second, Document.read options a = .ok first → Document.read options b = .ok second →
        Document.read options (a ++ "\n" ++ b) =
          .ok ⟨mergeTexts (first.body ++ .text "\n" ::
            nodesShift (Text.width a.toList + 1) second.body)⟩ := by
  have hfirst := readNodes_at options.strict 0 0 a.toList
  have hsecond := readNodes_at options.strict 0 0 b.toList
  generalize (readNodes options.strict 0 0 a.toList).passage = whole at hfirst
  generalize (readNodes options.strict 0 0 b.toList).passage = behind at hsecond
  rw [Document.diagnostics_eq hfirst] at hfaults
  have hclear : Text.escaping false a.toList = false := by
    rw [Text.escaping_eq_decide]
    simp [hbackslashes]
  -- The other source is read behind the line feed, and then everything without strict fences.
  have hshift := hsecond.shift (Text.width a.toList + 1)
  have hjoin := (NodesAt.join rfl rfl hfirst hfaults hclear
    (by simpa only [Place.shift, Nat.zero_add, Nat.add_assoc] using hshift)).of_strict
  have hsource : a.toList ++ '\n' :: b.toList = (a ++ "\n" ++ b).toList := by simp
  have hfilter : (behind.diagnostics.map (Diagnostic.shift (Text.width a.toList + 1))).filter
      options.reports = (behind.diagnostics.filter options.reports).map
        (Diagnostic.shift (Text.width a.toList + 1)) := by
    rw [List.filter_map]
    congr 2
    funext d
    exact options.reports_shift _ d
  rw [hsource] at hjoin
  constructor
  · rw [Document.diagnostics_eq hjoin, Document.diagnostics_eq hfirst.of_strict,
      Document.diagnostics_eq hsecond.of_strict]
    simp only [Passage.reported, Passage.shift, List.filter_append, hfilter]
  · intro first second hreadFirst hreadSecond
    obtain ⟨nextFirst, hnodesFirst⟩ := Document.read_eq_ok_iff.mp hreadFirst
    obtain ⟨nextSecond, hnodesSecond⟩ := Document.read_eq_ok_iff.mp hreadSecond
    obtain ⟨hbodyFirst, hfaultsFirst, -⟩ := Passage.mk.inj (hfirst.of_strict.unique hnodesFirst)
    obtain ⟨hbodySecond, hfaultsSecond, -⟩ := Passage.mk.inj (hsecond.of_strict.unique hnodesSecond)
    rw [Document.read_eq hjoin]
    simp only [Passage.reported, Passage.shift, List.filter_append, hfilter, hfaultsFirst,
      hfaultsSecond, hbodyFirst, hbodySecond, List.map_nil, List.append_nil, List.isEmpty_nil,
      if_true]

/-- A header that breaks its grammar hides nothing on the next line. -/
theorem Document.read_append_line_strayCharacter :
    Text.trailingBackslashes "\\a(%)".toList % 2 = 0 ∧
      (∀ d ∈ Document.diagnostics (ReaderOptions.strict {}) "\\a(%)", d.IsHeaderFault) ∧
      Document.diagnostics {} ("\\a(%)" ++ "\n" ++ "\\a(%)") =
        [.malformed ⟨3, 4⟩ "Unexpected character '%'" [],
          .malformed ⟨9, 10⟩ "Unexpected character '%'" []] := by
  have hbackslashes : Text.trailingBackslashes "\\a(%)".toList % 2 = 0 := by decide
  have hfaults : ∀ d ∈ Document.diagnostics (ReaderOptions.strict {}) "\\a(%)",
      d.IsHeaderFault := by
    rw [Document.diagnostics_strayCharacter]
    intro d hd
    obtain rfl := List.mem_singleton.mp hd
    exact fun hmessage => absurd hmessage (by decide)
  obtain ⟨hjoin, -⟩ := @Document.read_append_line {} _ "\\a(%)" hbackslashes hfaults
  refine ⟨hbackslashes, hfaults, ?_⟩
  rw [hjoin, Document.diagnostics_strayCharacter]
  rfl

end TaggedText
