import TaggedText.Proofs.Document.Places
import TaggedText.Proofs.Header.Tokenized

/-!
# Where the faults of a header lie

Every piece is a stretch of the text of its header, and the pieces stand in their order
(`mem_pieces`, `pieces_sorted`).  A fault lies where a piece lies, but for the one that tells that
the tokens ran out (`Diagnostic.tellsEnd`): that one begins at the end of the header, and ends where
the last token does.

## When the end comes before the start

The last token of a closed header is the delimiter that closed it, unless a backslash in a string
stands in front of a line feed: the search for the end of the header walks over the line feed, and
for the tokens the string is broken there.  So where the tokens of a closed header run out, its last
token ends before the header does (`tokensEnd_lt`), and a backslash in it stands in front of a line
feed (`escapesLineFeed_of_readTokens`).  Elsewhere a span is what its name says.
-/

namespace TaggedText

/-- **The fault tells that the tokens of a header ran out.** -/
def Diagnostic.tellsEnd : Diagnostic → Bool
  | .malformed _ message _ => message == "Unexpected end of tag header"
  | .unterminatedBlock _ _ => false
  | .nestingTooDeep _ _ => false

/-! ### Widths -/

theorem Text.utf8ByteSize_ofList (cs : List Char) :
    (String.ofList cs).utf8ByteSize = Text.width cs := by
  induction cs with
  | nil => rfl
  | cons c cs ih =>
      rw [← List.singleton_append, String.ofList_append, String.utf8ByteSize_append, ih,
        ← String.singleton_eq_ofList, String.utf8ByteSize_singleton, Text.width_append]
      simp

theorem Text.utf8ByteSize_eq (source : String) :
    source.utf8ByteSize = Text.width source.toList := by
  rw [← Text.utf8ByteSize_ofList, String.ofList_toList]

theorem Text.width_pos {cs : List Char} (h : cs ≠ []) : 0 < Text.width cs := by
  cases cs with
  | nil => exact absurd rfl h
  | cons c cs =>
      have := c.utf8Size_pos
      rw [Text.width_cons]
      omega

namespace Header

variable {offset : Nat} {text cs rest : List Char} {ds : List Diagnostic} {d : Diagnostic}
  {piece : Piece} {t : Token × Span} {stage : Stage} {expected : List Class}

/-! ### Pieces -/

theorem text_ne_nil_of_scan (c : Char) (rest : List Char) : (scan c rest).text ≠ [] := by
  intro hnil
  have hsplit := congrArg List.length (scan_append_rest c rest)
  have hle := scan_length_le c rest
  rw [hnil, List.nil_append, List.length_cons] at hsplit
  omega

/-- **Every piece is a stretch of the text**, and a token stands where it is spelled. -/
theorem mem_pieces (h : piece ∈ pieces offset cs) :
    piece.text ≠ [] ∧ (∀ token, piece.token? = some token → Lexeme token piece.text) ∧
      ∃ front behind, cs = front ++ (piece.text ++ behind) ∧
        piece.span.start = offset + Text.width front ∧
        piece.span.stop = offset + Text.width (front ++ piece.text) := by
  fun_induction pieces offset cs with
  | case1 => cases h
  | case2 offset c rest hgap ih =>
      obtain ⟨hne, hlexeme, front, behind, rfl, hstart, hstop⟩ := ih h
      exact ⟨hne, hlexeme, c :: front, behind, rfl, by simp [hstart, Nat.add_assoc],
        by simp [hstop, Nat.add_assoc]⟩
  | case3 offset c rest hgap found stop ih =>
      have hsplit : found.text ++ found.rest = c :: rest := scan_append_rest c rest
      rcases List.mem_cons.mp h with rfl | h
      · refine ⟨text_ne_nil_of_scan c rest, fun token htoken => ?_, [], found.rest, hsplit.symm,
          rfl, rfl⟩
        have hscan : scan c rest = ⟨some token, found.text, found.rest⟩ := by
          rw [← htoken]
        exact (lexeme_of_scan hscan).1
      · obtain ⟨hne, hlexeme, front, behind, hrest, hstart, hstop⟩ := ih h
        exact ⟨hne, hlexeme, found.text ++ front, behind, by rw [← hsplit, hrest]; simp,
          by simp [hstart, stop, Nat.add_assoc], by simp [hstop, stop, Nat.add_assoc]⟩

theorem span_of_mem_pieces (h : piece ∈ pieces offset cs) :
    offset ≤ piece.span.start ∧ piece.span.start < piece.span.stop ∧
      piece.span.stop ≤ offset + Text.width cs := by
  obtain ⟨hne, -, front, behind, rfl, hstart, hstop⟩ := mem_pieces h
  have hpos := Text.width_pos hne
  simp only [hstart, hstop, Text.width_append]
  omega

/-- **The pieces stand in their order**, one behind the other. -/
theorem pieces_sorted (offset : Nat) (cs : List Char) :
    (pieces offset cs).Pairwise fun a b => a.span.stop ≤ b.span.start := by
  fun_induction pieces offset cs with
  | case1 => exact .nil
  | case2 _ _ _ _ ih => exact ih
  | case3 offset c rest hgap found stop ih =>
      exact .cons (fun piece hpiece => (span_of_mem_pieces hpiece).1) ih

theorem mem_tokens {ps : List Piece} (h : t ∈ tokens ps) :
    ∃ piece ∈ ps, piece.token? = some t.1 ∧ piece.span = t.2 := by
  obtain ⟨piece, hpiece, hmap⟩ := List.mem_filterMap.mp h
  obtain ⟨token, htoken, rfl⟩ := Option.map_eq_some_iff.mp hmap
  exact ⟨piece, hpiece, htoken, rfl⟩

/-! ### Faults -/

/-- No token is called the end of a header. -/
theorem describe_ne_end (token : Token) : token.describe ≠ "end of tag header" := by
  have hhead : token.describe.toList.head? ≠ some 'e' := by
    cases token with
    | bool b => cases b <;> decide
    | name s => simp [Token.describe]
    | string s => simp [Token.describe]
    | number x => simp [Token.describe]
    | _ => decide
  intro heq
  rw [heq] at hhead
  exact hhead (by decide)

theorem mem_of_readTokens_error {ts : List (Token × Span)}
    (h : readTokens stage ts = .error ⟨some t, expected⟩) : t ∈ ts := by
  induction ts generalizing stage with
  | nil =>
      rw [readTokens] at h
      split at h <;> cases h
  | cons first ts ih =>
      obtain ⟨token, span⟩ := first
      rw [readTokens] at h
      split at h
      · split at h
        · cases h
        · next hrest =>
            cases h
            exact List.mem_cons_of_mem _ (ih hrest)
      · cases h
        exact List.mem_cons_self

/-- Where the last token of a text ends; where it has none, where the text does. -/
def tokensEnd (offset : Nat) (text : List Char) : Nat :=
  ((tokens (pieces offset text)).getLast?.map fun t => t.2.stop).getD (offset + Text.width text)

theorem tellsEnd_of_invalid (piece : Piece) : piece.diagnostic.tellsEnd = false := by
  have hprefix : ∀ s : String,
      "Unexpected character '" ++ s ++ "'" ≠ "Unexpected end of tag header" := by
    intro s heq
    have hletter := congrArg (fun s => s.toList[11]?) heq
    simp at hletter
  simpa [Diagnostic.tellsEnd, Piece.diagnostic] using hprefix _

/-- **The faults of a header** lie where a piece does, or tell that the tokens ran out. -/
theorem cases_of_read_error (h : read offset text = .error ds) (hd : d ∈ ds) :
    (d.tellsEnd = false ∧ ∃ piece ∈ pieces offset text, piece.span = d.span) ∨
      (d.tellsEnd = true ∧ d.span = ⟨offset + Text.width text, tokensEnd offset text⟩ ∧
        ∃ expected, readTokens .start (tokens (pieces offset text)) = .error ⟨none, expected⟩) := by
  have hstray : ∀ d ∈ (invalid (pieces offset text)).map Piece.diagnostic,
      d.tellsEnd = false ∧ ∃ piece ∈ pieces offset text, piece.span = d.span := by
    intro d hd
    obtain ⟨piece, hpiece, rfl⟩ := List.mem_map.mp hd
    exact ⟨tellsEnd_of_invalid piece, piece, (List.mem_filter.mp hpiece).1, rfl⟩
  unfold read at h
  simp only at h
  split at h
  · split at h
    · cases h
    · cases h
      exact .inl (hstray d hd)
  · next u hread =>
      cases h
      rcases List.mem_append.mp ((List.mergeSort_perm _ _).mem_iff.mp hd) with hmem | hmem
      · exact .inl (hstray d hmem)
      obtain rfl := List.mem_singleton.mp hmem
      obtain ⟨found, expected⟩ := u
      cases found with
      | none => exact .inr ⟨rfl, rfl, expected, hread⟩
      | some t =>
          obtain ⟨piece, hpiece, -, hspan⟩ := mem_tokens (mem_of_readTokens_error hread)
          refine .inl ⟨?_, piece, hpiece, hspan⟩
          have hmessage : "Unexpected " ++ t.1.describe ≠ "Unexpected " ++ "end of tag header" :=
            fun heq => describe_ne_end t.1 ((String.append_right_inj _).mp heq)
          simpa [Diagnostic.tellsEnd, Unexpected.diagnostic] using hmessage

/-- **The faults of a header stand in their order.** -/
theorem sorted_of_read_error (h : read offset text = .error ds) :
    ds.Pairwise fun a b => a.span.start ≤ b.span.start := by
  unfold read at h
  simp only at h
  split at h
  · split at h
    · cases h
    · cases h
      refine List.pairwise_map.mpr (List.Pairwise.imp_of_mem ?_
        ((pieces_sorted offset text).filter _))
      intro a b ha _ hab
      have := (span_of_mem_pieces (List.mem_filter.mp ha).1).2.1
      exact Nat.le_trans (Nat.le_of_lt this) hab
  · cases h
    have hsorted := @List.pairwise_mergeSort Diagnostic (fun a b => a.span.start ≤ b.span.start)
      (fun a b c hab hbc => by simp only [decide_eq_true_eq] at *; omega)
      (fun a b => by simp only [Bool.or_eq_true, decide_eq_true_eq]; omega)
    exact (hsorted _).imp fun hab => by simpa using hab

theorem start_of_read_error (h : read offset text = .error ds) (hd : d ∈ ds) :
    offset ≤ d.span.start ∧ d.span.start ≤ offset + Text.width text := by
  rcases cases_of_read_error h hd with ⟨-, piece, hpiece, hspan⟩ | ⟨-, hspan, -⟩
  · have := span_of_mem_pieces hpiece
    rw [hspan] at this
    omega
  · rw [hspan]
    exact ⟨Nat.le_add_right _ _, Nat.le_refl _⟩

/-! ### Headers that are closed -/

/-- The delimiters that end a list, and with them the tokens of a header may end. -/
def Token.closes : Token → Bool
  | .closeParen => true
  | .closeBracket => true
  | _ => false

theorem Stage.mayEnd_of_step {next : Stage} {token : Token} {add : Header → Header}
    (h : stage.step token = some (next, add)) (hcloses : token.closes = true) :
    next.mayEnd = true := by
  cases token with
  | closeParen =>
      cases stage <;> cases h <;> rfl
  | closeBracket =>
      cases stage <;> cases h <;> rfl
  | _ => cases hcloses

/-- **Behind a delimiter that ends a list the tokens have not run out.** -/
theorem closes_of_readTokens {ts : List (Token × Span)}
    (h : readTokens stage ts = .error ⟨none, expected⟩) (hlast : ts.getLast? = some t) :
    t.1.closes = false := by
  induction ts generalizing stage with
  | nil => cases hlast
  | cons first ts ih =>
      obtain ⟨token, span⟩ := first
      rw [readTokens] at h
      split at h
      · next next add hstep =>
          split at h
          · cases h
          · next hrest =>
              cases h
              cases ts with
              | cons second ts => exact ih hrest (by simpa using hlast)
              | nil =>
                  obtain rfl : (token, span) = t := by simpa using hlast
                  refine Bool.eq_false_iff.mpr fun hcloses => ?_
                  rw [readTokens, if_pos (Stage.mayEnd_of_step hstep hcloses)] at hrest
                  cases hrest
      · cases h

theorem tokens_ne_nil_of_readTokens {ts : List (Token × Span)}
    (h : readTokens .start ts = .error ⟨none, expected⟩) : ts ≠ [] := by
  rintro rfl
  cases h

/-- The last token of a text. -/
theorem exists_getLast?_of_readTokens
    (h : readTokens .start (tokens (pieces offset text)) = .error ⟨none, expected⟩) :
    ∃ t piece, (tokens (pieces offset text)).getLast? = some t ∧ piece ∈ pieces offset text ∧
      piece.token? = some t.1 ∧ piece.span = t.2 ∧ tokensEnd offset text = t.2.stop := by
  have hlast := List.getLast?_eq_some_getLast (tokens_ne_nil_of_readTokens h)
  obtain ⟨piece, hpiece, htoken, hspan⟩ := mem_tokens (List.mem_of_getLast? hlast)
  refine ⟨_, piece, hlast, hpiece, htoken, hspan, ?_⟩
  rw [tokensEnd, hlast]
  rfl

/-- **Where the tokens of a closed header run out, its last token ends before the header does**: a
token at its end would be the delimiter that closed it. -/
theorem tokensEnd_lt {close : Char} {token : Token} (hclose : delimiter? close = some token)
    (hcloses : token.closes = true) (hlast : text.getLast? = some close)
    (h : readTokens .start (tokens (pieces offset text)) = .error ⟨none, expected⟩) :
    tokensEnd offset text < offset + Text.width text := by
  obtain ⟨t, piece, hlastToken, hpiece, htoken, hspan, hend⟩ := exists_getLast?_of_readTokens h
  obtain ⟨hne, hlexeme, front, behind, hsplit, -, hstop⟩ := mem_pieces hpiece
  rw [hend, ← hspan, hstop, hsplit]
  have hbehind : behind ≠ [] := by
    rintro rfl
    have hpieceLast : piece.text.getLast? = some close := by
      rw [hsplit, List.append_nil] at hlast
      exact getLast?_append_of_ne_nil hlast hne
    obtain ⟨rfl, -⟩ := (hlexeme _ htoken).eq_singleton hpieceLast hclose
    rw [closes_of_readTokens h hlastToken] at hcloses
    cases hcloses
  have := Text.width_pos hbehind
  simp only [Text.width_append]
  omega

/-! ### Broken strings -/

/-- **A backslash in front of a line feed.** -/
def EscapesLineFeed (cs : List Char) : Prop :=
  ['\\', '\n'] <:+: cs

theorem EscapesLineFeed.append_left {front : List Char} (h : EscapesLineFeed cs) :
    EscapesLineFeed (front ++ cs) :=
  h.trans (List.suffix_append _ _).isInfix

theorem EscapesLineFeed.append_right {behind : List Char} (h : EscapesLineFeed cs) :
    EscapesLineFeed (cs ++ behind) :=
  h.trans (List.prefix_append _ _).isInfix

theorem EscapesLineFeed.cons {c : Char} (h : EscapesLineFeed cs) : EscapesLineFeed (c :: cs) :=
  @EscapesLineFeed.append_left cs [c] h

/-- A string that only the end of the text breaks does not end for the search either. -/
theorem skipList_eq_none_of_scanString {close : Char} {value before taken : List Char}
    (hfeed : ¬ EscapesLineFeed cs) (h : (scanString value before cs).token? = none) :
    skipList close true taken cs = none := by
  fun_induction scanString value before cs generalizing taken with
  | case1 => rfl
  | case2 => cases h
  | case3 => rfl
  | case4 value before c rest hnewline =>
      obtain rfl : c = '\n' := by simpa using hnewline
      exact absurd (List.prefix_append ['\\', '\n'] rest).isInfix hfeed
  | case5 value before c rest _ ih => exact ih (fun hrest => hfeed hrest.cons.cons) h
  | case6 value before c rest hquote hlast hpair ih =>
      have hrest : skipList close true (c :: taken) rest = none :=
        ih (fun hrest => hfeed hrest.cons) h
      have hinside : (c != '"') = true := by simpa using hquote
      rw [skipList, hinside, hrest]
      exact fun d rest' hc hcons => hpair d rest' hc hcons

theorem cases_of_closes {close : Char} {token : Token} (hclose : delimiter? close = some token)
    (hcloses : token.closes = true) :
    (close = ')' ∧ token = .closeParen) ∨ (close = ']' ∧ token = .closeBracket) := by
  grind [delimiter?, Token.closes]

theorem isClosing_of_closes {close : Char} {token : Token} (hclose : delimiter? close = some token)
    (hcloses : token.closes = true) : IsClosing close := by
  rcases cases_of_closes hclose hcloses with ⟨rfl, -⟩ | ⟨rfl, -⟩
  · exact isClosing_paren
  · exact isClosing_bracket

/-- A delimiter that ends a list has one spelling. -/
theorem Lexeme.eq_of_closes {close : Char} {token : Token} (h : Lexeme token text)
    (hclose : delimiter? close = some token) (hcloses : token.closes = true) : text = [close] := by
  cases h with
  | delimiter hc =>
      rcases cases_of_closes hc hcloses with ⟨rfl, rfl⟩ | ⟨rfl, rfl⟩ <;>
        rcases cases_of_closes hclose rfl with ⟨rfl, heq⟩ | ⟨rfl, heq⟩ <;> cases heq <;> rfl
  | word _ =>
      unfold wordToken at hcloses
      split at hcloses
      · cases hcloses
      · split at hcloses <;> cases hcloses
  | number _ => cases hcloses
  | string _ => cases hcloses

/-- **The search for the end of a list finds a token**, where no backslash stands in front of a line
feed. -/
theorem exists_pieces_of_skipList {close : Char} {token : Token} {taken taken' : List Char}
    (hclose : delimiter? close = some token) (hcloses : token.closes = true)
    (hfeed : ¬ EscapesLineFeed cs) (h : skipList close false taken cs = some (taken', rest))
    (offset : Nat) :
    ∃ front span stop,
      pieces offset cs = front ++ ⟨some token, [close], span⟩ :: pieces stop rest := by
  have hclosing := isClosing_of_closes hclose hcloses
  fun_induction pieces offset cs generalizing taken with
  | case1 => cases h
  | case2 offset c inside hgap ih =>
      have hc : c ≠ close := by
        rintro rfl
        simp [(ends_of_delimiter? hclose).notGap] at hgap
      have hquote : (c == '"') = false := by
        refine Bool.eq_false_iff.mpr fun hquote => ?_
        rw [beq_iff_eq.mp hquote] at hgap
        cases hgap
      rw [skipList, if_neg (by simpa using hc), hquote] at h
      exact ih (fun hinside => hfeed hinside.cons) h
  | case3 offset c inside hgap found stop =>
      rename_i ih
      have hsplit : found.text ++ found.rest = c :: inside := scan_append_rest c inside
      have hfeed' : ¬ EscapesLineFeed found.rest := by
        rw [← hsplit] at hfeed
        exact fun hbehind => hfeed hbehind.append_left
      -- What is no delimiter of this list is passed, and the delimiter stands behind it.
      have hpass : Passes close found.text → ∃ front span stop',
          ⟨found.token?, found.text, ⟨offset, stop⟩⟩ :: pieces stop found.rest =
            front ++ ⟨some token, [close], span⟩ :: pieces stop' rest := by
        intro hpasses
        rw [← hsplit, hpasses] at h
        obtain ⟨front, span, stop', hpieces⟩ := ih hfeed' h
        exact ⟨_ :: front, span, stop', by rw [hpieces]; rfl⟩
      cases htoken : found.token? with
      | none =>
          rcases scan_cases_of_none htoken with ⟨rfl, hscan⟩ | ⟨hquote, hnone, hscan⟩
          · -- The string is broken, so nothing that follows ends the list.
            have hbroken : skipList close true ('"' :: taken) inside = none :=
              skipList_eq_none_of_scanString (fun hinside => hfeed hinside.cons)
                ((congrArg Scan.token? hscan).symm.trans htoken)
            rw [skipList, if_neg (by simpa using hclosing.notQuote.symm)] at h
            rw [beq_self_eq_true, hbroken] at h
            cases h
          · rw [← htoken]
            refine hpass ?_
            have htext : found.text = [c] := congrArg Scan.text hscan
            rw [htext]
            refine Passes.cons ?_ hquote Passes.nil
            rintro rfl
            rw [hclose] at hnone
            cases hnone
      | some found' =>
          have hscan : scan c inside = ⟨some found', found.text, found.rest⟩ := by
            rw [← htoken]
          have hlexeme := (lexeme_of_scan hscan).1
          by_cases hsame : found' = token
          · subst hsame
            have htext := hlexeme.eq_of_closes hclose hcloses
            rw [← hsplit, htext, List.singleton_append, skipList,
              if_pos (beq_self_eq_true close)] at h
            cases h
            exact ⟨[], _, _, by rw [htext]; rfl⟩
          · rw [← htoken]
            refine hpass (hlexeme.passes hclosing ?_)
            rw [hclose]
            exact fun heq => hsame (Option.some.inj heq).symm

/-- **The text of a list that is closed**: nothing, or what the search finds again in front of
everything. -/
def IsClosedList (opener close : Char) (text : List Char) : Prop :=
  text = [] ∨ (text.getLast? = some close ∧
    ∀ rest, list? opener close (text ++ rest) = some (text, rest))

theorem exists_lists_of_extent (h : extent cs = .closed text rest) :
    ∃ params attributes, text = params ++ attributes ∧ IsClosedList '(' ')' params ∧
      IsClosedList '[' ']' attributes := by
  unfold extent at h
  split at h
  · cases h
  · next params _ hparams =>
      split at h
      · cases h
      · next attributes _ hattributes =>
          cases h
          exact ⟨params, attributes, rfl, (list?_cases hparams).2.imp_left And.left,
            (list?_cases hattributes).2.imp_left And.left⟩

/-- A header that is closed ends with a delimiter that ends a list. -/
theorem getLast?_of_extent (h : extent cs = .closed text rest) (hne : text ≠ []) :
    ∃ close token, delimiter? close = some token ∧ token.closes = true ∧
      text.getLast? = some close := by
  obtain ⟨params, attributes, rfl, hparams, hattributes⟩ := exists_lists_of_extent h
  rcases hattributes with rfl | ⟨hlast, -⟩
  · rw [List.append_nil] at hne ⊢
    exact ⟨')', .closeParen, rfl, rfl, (hparams.resolve_left hne).1⟩
  · exact ⟨']', .closeBracket, rfl, rfl, by rw [List.getLast?_append, hlast]; rfl⟩

/-- The delimiter that closes a list is a token, and what stands behind it is cut by itself. -/
theorem IsClosedList.exists_pieces {opener close : Char} {opening token : Token}
    (h : IsClosedList opener close text) (hne : text ≠ [])
    (hopener : delimiter? opener = some opening)
    (hclose : delimiter? close = some token) (hcloses : token.closes = true)
    (hfeed : ¬ EscapesLineFeed (text ++ rest)) (offset : Nat) :
    ∃ front span stop, pieces offset (text ++ rest) =
      front ++ ⟨some token, [close], span⟩ :: pieces stop rest := by
  have hlist := (h.resolve_left hne).2 rest
  cases text with
  | nil => exact absurd rfl hne
  | cons c inside =>
      have hc : (c == opener) = true := by
        refine Classical.byContradiction fun hc => ?_
        rw [List.cons_append, list?, if_neg hc] at hlist
        cases hlist
      rw [List.cons_append, list?, if_pos hc] at hlist
      obtain ⟨⟨taken, behind⟩, hskip, heq⟩ := Option.map_eq_some_iff.mp hlist
      obtain ⟨-, rfl⟩ := Prod.mk.inj heq
      obtain rfl : c = opener := by simpa using hc
      have hscan : scan c (inside ++ behind) = ⟨some opening, [c], inside ++ behind⟩ := by
        simp only [scan, hopener]
      obtain ⟨front, span, stop, hpieces⟩ := exists_pieces_of_skipList hclose hcloses
        (fun hinside => hfeed hinside.cons) hskip (offset + Text.width [c])
      refine ⟨⟨some opening, [c], ⟨offset, offset + Text.width [c]⟩⟩ :: front, span, stop, ?_⟩
      rw [List.cons_append, pieces_cons (ends_of_delimiter? hopener).notGap hscan]
      exact congrArg (_ :: ·) hpieces

/-- A header that is closed ends with a token that ends a list, where no backslash in it stands in
front of a line feed. -/
theorem exists_pieces_of_extent (h : extent cs = .closed text rest) (hne : text ≠ [])
    (hfeed : ¬ EscapesLineFeed text) (offset : Nat) :
    ∃ front token close span, pieces offset text = front ++ [⟨some token, [close], span⟩] ∧
      token.closes = true := by
  obtain ⟨params, attributes, rfl, hparams, hattributes⟩ := exists_lists_of_extent h
  have hbracket : delimiter? '[' = some .openBracket := rfl
  have hbracketClose : delimiter? ']' = some .closeBracket := rfl
  have hlast : ∀ start, attributes ≠ [] → ∃ front token close span,
      pieces start attributes = front ++ [⟨some token, [close], span⟩] ∧ token.closes = true := by
    intro start hattributesNe
    have hfeed' : ¬ EscapesLineFeed (attributes ++ []) := by
      rw [List.append_nil]
      exact fun hbehind => hfeed hbehind.append_left
    obtain ⟨front, span, stop, hpieces⟩ :=
      hattributes.exists_pieces hattributesNe hbracket hbracketClose rfl hfeed' start
    rw [List.append_nil, pieces] at hpieces
    exact ⟨front, _, _, span, hpieces, rfl⟩
  by_cases hparamsNe : params = []
  · subst hparamsNe
    exact hlast offset hne
  have hparen : delimiter? '(' = some .openParen := rfl
  have hparenClose : delimiter? ')' = some .closeParen := rfl
  obtain ⟨front, span, stop, hpieces⟩ :=
    hparams.exists_pieces hparamsNe hparen hparenClose rfl hfeed offset
  by_cases hattributesNe : attributes = []
  · subst hattributesNe
    rw [pieces] at hpieces
    exact ⟨front, _, _, span, hpieces, rfl⟩
  · obtain ⟨behind, token, close, span', hbehind, hcloses⟩ := hlast stop hattributesNe
    refine ⟨front ++ ⟨some .closeParen, [')'], span⟩ :: behind, token, close, span', ?_, hcloses⟩
    rw [hpieces, hbehind]
    simp

/-- **The tokens of a closed header run out** only if a backslash in it stands in front of a line
feed. -/
theorem escapesLineFeed_of_readTokens (hextent : extent cs = .closed text rest)
    (h : readTokens .start (tokens (pieces offset text)) = .error ⟨none, expected⟩) :
    EscapesLineFeed text := by
  refine Classical.byContradiction fun hfeed => ?_
  have hne : text ≠ [] := by
    rintro rfl
    rw [pieces] at h
    cases h
  obtain ⟨front, token, close, span, hpieces, hcloses⟩ :=
    exists_pieces_of_extent hextent hne hfeed offset
  have hlast : (tokens (pieces offset text)).getLast? = some (token, span) := by
    rw [hpieces, tokens, List.filterMap_append]
    simp
  have hopen := closes_of_readTokens h hlast
  rw [hcloses] at hopen
  cases hopen

end Header

end TaggedText
