import TaggedText.Proofs.Document.Gaps
import TaggedText.Proofs.Header.Spans

/-!
# Every character of a header is accounted for

The pieces of a header stand apart and in order, and nothing but gaps lies between them.  A token is
all that its characters are, and no longer stretch from the same character on is a token; where an
invalid piece begins, none is.

Everything is said of ranges of the text (`Text.Holds`), since a span is all that a caller sees of a
piece.  What a token "is" is said by the cutting itself: a text that is cut into one token and
nothing else (`IsWord`), and `isWord_iff` ties this to the spellings.  That a token is cut at its
longest (`isPrefix_of_lexeme`) follows from how far each kind of token can go on.  `pieces_account`
gathers all of it.
-/

namespace TaggedText

/-! ### Ranges of a text -/

/-- **What stands at a range of a text**, which begins and ends between characters. -/
def Text.Holds (text : List Char) (s : Span) (run : List Char) : Prop :=
  ∃ front behind, text = front ++ (run ++ behind) ∧ s.start = Text.width front ∧
    s.stop = Text.width (front ++ run)

/-- A text is divided in one way at a byte. -/
theorem Text.append_inj_of_width {front front' behind behind' : List Char}
    (h : front ++ behind = front' ++ behind') (hwidth : Text.width front = Text.width front') :
    front = front' ∧ behind = behind' := by
  have hfront : front = front' := by
    rw [← Text.takeBytes_width_append front behind, h, hwidth, Text.takeBytes_width_append]
  subst hfront
  exact ⟨rfl, List.append_cancel_left h⟩

namespace Header

variable {offset : Nat} {cs text run front behind : List Char} {p : Piece} {token : Token}
  {c : Char}

/-! ### Texts that are one token -/

/-- **A text that is cut into one token and nothing else.** -/
def IsWord (token : Token) (cs : List Char) : Prop :=
  pieces 0 cs = [⟨some token, cs, ⟨0, Text.width cs⟩⟩]

/-- The spellings of a token are the texts that are cut into it and nothing else. -/
theorem isWord_iff : IsWord token run ↔ Lexeme token run := by
  constructor
  · intro h
    exact (mem_pieces (h ▸ List.mem_singleton_self _)).2.1 token rfl
  · intro h
    obtain ⟨c, cs, rfl, hgap⟩ := h.exists_cons
    rw [IsWord, pieces_cons hgap (h.cutOut.scan_eq (List.append_nil _).symm breaks_nil), pieces,
      Nat.zero_add]

/-! ### Where pieces are cut out -/

/-- **A piece is what is cut out where it begins.** -/
theorem exists_scan_of_mem_pieces (h : p ∈ pieces offset cs) :
    ∃ front c rest, cs = front ++ c :: rest ∧ p.span.start = offset + Text.width front ∧
      p.token? = (scan c rest).token? ∧ p.text = (scan c rest).text := by
  fun_induction pieces offset cs with
  | case1 => cases h
  | case2 offset c rest _ ih =>
      obtain ⟨front, d, rest', rfl, hstart, hscan⟩ := ih h
      exact ⟨c :: front, d, rest', rfl, by rw [hstart, Text.width_cons, Nat.add_assoc], hscan⟩
  | case3 offset c rest _ found stop ih =>
      have hsplit : found.text ++ found.rest = c :: rest := scan_append_rest c rest
      rcases List.mem_cons.mp h with rfl | h
      · exact ⟨[], c, rest, rfl, rfl, rfl, rfl⟩
      · obtain ⟨front, d, rest', hrest, hstart, hscan⟩ := ih h
        refine ⟨found.text ++ front, d, rest', ?_, ?_, hscan⟩
        · rw [← hsplit, hrest, List.append_assoc]
        · rw [hstart, Text.width_append, ← Nat.add_assoc]

/-- **A piece holds every token that begins where it does**, and is then a token itself. -/
theorem isPrefix_of_lexeme (h : p ∈ pieces offset cs) (hcs : cs = front ++ (run ++ behind))
    (hstart : p.span.start = offset + Text.width front) (hlexeme : Lexeme token run) :
    p.token?.isSome = true ∧ run <+: p.text := by
  obtain ⟨front', c, rest, hcs', hstart', htoken, htext⟩ := exists_scan_of_mem_pieces h
  have hwidth : Text.width front = Text.width front' :=
    Nat.add_left_cancel (hstart.symm.trans hstart')
  obtain ⟨-, hrest⟩ := Text.append_inj_of_width (hcs.symm.trans hcs') hwidth
  obtain ⟨found, more, rest', hscan, -⟩ := hlexeme.cutOut _ _ _ hrest.symm
  rw [hscan] at htoken htext
  exact ⟨by rw [htoken]; rfl, more, htext.symm⟩

/-- **What is part of no piece is a gap.** -/
theorem isGap_of_outside (hcs : cs = front ++ c :: behind)
    (houtside : ∀ p ∈ pieces offset cs, ¬ (p.span.start ≤ offset + Text.width front ∧
      offset + Text.width front < p.span.stop)) : isGap c = true := by
  fun_induction pieces offset cs generalizing front with
  | case1 => simp at hcs
  | case2 offset d rest hgap ih =>
      cases front with
      | nil =>
          obtain ⟨rfl, -⟩ := List.cons.inj hcs
          exact hgap
      | cons e front =>
          obtain ⟨rfl, rfl⟩ := List.cons.inj hcs
          refine ih rfl fun p hp => ?_
          have := houtside p hp
          rwa [Text.width_cons, ← Nat.add_assoc] at this
  | case3 offset d rest _ found stop =>
      rename_i ih
      have hsplit : found.text ++ found.rest = front ++ c :: behind :=
        (scan_append_rest d rest).trans hcs
      have hlater : ∀ front', front = found.text ++ front' → found.rest = front' ++ c :: behind →
          isGap c = true := by
        rintro front' rfl hrest
        refine ih hrest fun p hp => ?_
        have := houtside p (List.mem_cons_of_mem _ hp)
        rwa [Text.width_append, ← Nat.add_assoc] at this
      rcases List.append_eq_append_iff.mp hsplit with
        ⟨front', hfront, hrest⟩ | ⟨inside, htext, hrest⟩
      · exact hlater front' hfront hrest
      · cases inside with
        | nil =>
            exact hlater [] (by simpa using htext.symm) (by simpa using hrest.symm)
        | cons e inside =>
            -- The character is part of the first piece.
            refine absurd ?_ (houtside _ List.mem_cons_self)
            have := e.utf8Size_pos
            simp only [stop, htext, Text.width_append, Text.width_cons]
            omega

/-! ### Tokens and invalid pieces -/

/-- The tokens and the invalid pieces are all the pieces. -/
theorem spans_perm (ps : List Piece) :
    ((tokens ps).map Prod.snd ++ (invalid ps).map Piece.span).Perm (ps.map Piece.span) := by
  induction ps with
  | nil => exact .nil
  | cons p ps ih =>
      cases htoken : p.token? with
      | some token =>
          have hinvalid : invalid (p :: ps) = invalid ps := by simp [invalid, htoken]
          rw [tokens_cons, htoken, hinvalid]
          exact ih.cons p.span
      | none =>
          have hinvalid : invalid (p :: ps) = p :: invalid ps := by simp [invalid, htoken]
          rw [tokens_cons, htoken, hinvalid]
          exact List.perm_middle.trans (ih.cons p.span)

theorem holds_of_mem_pieces (h : p ∈ pieces 0 text) : Text.Holds text p.span p.text := by
  obtain ⟨-, -, front, behind, htext, hstart, hstop⟩ := mem_pieces h
  rw [Nat.zero_add] at hstart hstop
  exact ⟨front, behind, htext, hstart, hstop⟩

/-- One thing stands at a range. -/
theorem eq_of_holds {run' : List Char} {s : Span} (h : Text.Holds text s run)
    (h' : Text.Holds text s run') : run = run' := by
  obtain ⟨front, behind, htext, hstart, hstop⟩ := h
  obtain ⟨front', behind', htext', hstart', hstop'⟩ := h'
  obtain ⟨rfl, hrest⟩ :=
    Text.append_inj_of_width (htext.symm.trans htext') (hstart.symm.trans hstart')
  have hwidth := hstop.symm.trans hstop'
  rw [Text.width_append, Text.width_append] at hwidth
  exact (Text.append_inj_of_width hrest (Nat.add_left_cancel hwidth)).1

theorem inOrder_pieces (text : List Char) :
    Span.InOrder 0 (Text.width text) ((pieces 0 text).map Piece.span) where
  within s hs := by
    obtain ⟨p, hp, rfl⟩ := List.mem_map.mp hs
    have := span_of_mem_pieces hp
    omega
  apart := List.pairwise_map.mpr (pieces_sorted 0 text)

/-- **Every character of a header is accounted for.**  Its tokens and its invalid pieces together
stand apart and in order, between characters, and none is empty; what is part of none of them is a
gap.  What stands at a token is cut into that token alone.  Where a piece begins, every stretch
that is cut into one token alone ends within the piece, which then is a token.  And the stretches
that are cut into one token alone are the spellings of the token. -/
theorem pieces_account (text : List Char) :
    ((tokens (pieces 0 text)).map Prod.snd ++ (invalid (pieces 0 text)).map Piece.span).Perm
        ((pieces 0 text).map Piece.span) ∧
      Span.InOrder 0 (Text.width text) ((pieces 0 text).map Piece.span) ∧
      (∀ p ∈ pieces 0 text, Text.Holds text p.span p.text) ∧
      (∀ c s, Text.Holds text s [c] →
        (∀ p ∈ pieces 0 text, s.stop ≤ p.span.start ∨ p.span.stop ≤ s.start) → isGap c = true) ∧
      (∀ t ∈ tokens (pieces 0 text), ∀ run, Text.Holds text t.2 run → IsWord t.1 run) ∧
      (∀ p ∈ pieces 0 text, ∀ token stop run, Text.Holds text ⟨p.span.start, stop⟩ run →
        IsWord token run → p.token?.isSome = true ∧ stop ≤ p.span.stop) ∧
      ∀ token run, IsWord token run ↔ Lexeme token run := by
  refine ⟨spans_perm _, inOrder_pieces text, fun p hp => holds_of_mem_pieces hp, ?_, ?_, ?_,
    fun _ _ => isWord_iff⟩
  · rintro c s ⟨front, behind, htext, hstart, hstop⟩ houtside
    refine @isGap_of_outside 0 text front behind c htext fun p hp => ?_
    have := c.utf8Size_pos
    have := houtside p hp
    simp only [Text.width_append, Text.width_cons, Text.width_nil] at hstop
    omega
  · intro t ht run hrun
    obtain ⟨p, hp, htoken, hspan⟩ := mem_tokens ht
    rw [← hspan] at hrun
    rw [eq_of_holds hrun (holds_of_mem_pieces hp), isWord_iff]
    exact (mem_pieces hp).2.1 t.1 htoken
  · rintro p hp token stop run ⟨front, behind, htext, hstart, hstop⟩ hword
    obtain ⟨htoken, more, hmore⟩ := isPrefix_of_lexeme hp htext
      (by rw [Nat.zero_add]; exact hstart) (isWord_iff.mp hword)
    obtain ⟨front', behind', htext', hstart', hstop'⟩ := holds_of_mem_pieces hp
    refine ⟨htoken, ?_⟩
    simp only [Text.width_append, ← hmore] at hstop hstop'
    dsimp only at hstart
    omega

end Header

end TaggedText
