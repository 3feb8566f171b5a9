import TaggedText.Proofs.Document.Places
import TaggedText.Proofs.Header.Grammar
import TaggedText.Proofs.Header.Lexeme

/-!
# Two ways to the end of a header

Where a header ends is found by its characters, and what it says by its tokens.  Both have a notion
of their own of what a string is.  On a list that is accepted they agree: the only delimiter that
could end it stands at its end.

`Tokenized` is a text that is nothing but tokens and gaps, with its tokens, as a relation beside the
scan.  It can be taken apart and put together at delimiters (`Tokenized.append`), and the search for
a delimiter walks through such a text to the last one (`Tokenized.exists_passes`).

The result is about two lists that are accepted one by one: side by side they are the extent of a
header, and are read as one (`extent_of_accepted`, `read_of_accepted`, `readAt_of_accepted`).
-/

namespace TaggedText.Header

/-- **A text that is cut into tokens alone**, with gaps between them. -/
inductive Tokenized : List Char → List Token → Prop
  | nil : Tokenized [] []
  | gap {c : Char} {cs : List Char} {ts : List Token} :
      isGap c = true → Tokenized cs ts → Tokenized (c :: cs) ts
  | token {c : Char} {cs text behind : List Char} {t : Token} {ts : List Token} :
      isGap c = false → scan c cs = ⟨some t, text, behind⟩ → Tokenized behind ts →
      Tokenized (c :: cs) (t :: ts)

variable {cs ds : List Char} {ts us : List Token} {t : Token} {d : Char}

/-! ### Pieces -/

theorem tokens_cons (p : Piece) (ps : List Piece) :
    tokens (p :: ps) = (p.token?.map fun t => (t, p.span)).toList ++ tokens ps := by
  rw [tokens, List.filterMap_cons]
  cases p.token? <;> rfl

/-- A text without invalid pieces is cut into its tokens. -/
theorem tokenized_of_pieces {offset : Nat} (h : invalid (pieces offset cs) = []) :
    Tokenized cs ((tokens (pieces offset cs)).map Prod.fst) := by
  fun_induction pieces offset cs with
  | case1 => exact .nil
  | case2 offset c rest hgap ih => exact .gap hgap (ih h)
  | case3 offset c rest hgap found stop ih =>
      obtain ⟨htoken, hrest⟩ : found.token? ≠ none ∧ invalid (pieces stop found.rest) = [] := by
        simpa [invalid] using h
      obtain ⟨t, ht⟩ := Option.ne_none_iff_exists'.mp htoken
      have hscan : scan c rest = ⟨some t, found.text, found.rest⟩ := by
        rw [← ht]
      have hwhole := Tokenized.token (by simpa using hgap) hscan (ih hrest)
      rw [tokens_cons, ht]
      exact hwhole

theorem Tokenized.pieces (h : Tokenized cs ts) (offset : Nat) :
    invalid (pieces offset cs) = [] ∧ (tokens (Header.pieces offset cs)).map Prod.fst = ts := by
  induction h generalizing offset with
  | nil =>
      rw [Header.pieces]
      exact ⟨rfl, rfl⟩
  | gap hgap _ ih =>
      rw [Header.pieces, if_pos hgap]
      exact ih _
  | @token c cs text behind t ts hgap hscan _ ih =>
      obtain ⟨hinvalid, htokens⟩ := ih (offset + Text.width text)
      rw [pieces_cons hgap hscan]
      refine ⟨?_, ?_⟩
      · simpa [invalid] using hinvalid
      · rw [tokens_cons]
        simpa using htokens

/-- **The texts without invalid pieces**, with their tokens. -/
theorem tokenized_iff : Tokenized cs ts ↔ invalid (pieces 0 cs) = [] ∧ words cs = ts := by
  refine ⟨fun h => h.pieces 0, ?_⟩
  rintro ⟨hinvalid, rfl⟩
  exact tokenized_of_pieces hinvalid

theorem read_eq_ok_iff_tokenized {offset : Nat} {header : Header} :
    read offset cs = .ok header ↔ ∃ ts, Tokenized cs ts ∧ header.Spells ts := by
  simp only [read_eq_ok_iff, tokenized_iff]
  constructor
  · rintro ⟨hinvalid, hspells⟩
    exact ⟨_, ⟨hinvalid, rfl⟩, hspells⟩
  · rintro ⟨_, ⟨hinvalid, rfl⟩, hspells⟩
    exact ⟨hinvalid, hspells⟩

/-! ### The ends of texts -/

theorem Tokenized.ne_nil (h : Tokenized cs ts) (hts : ts ≠ []) : cs ≠ [] := by
  rintro rfl
  cases h
  exact hts rfl

/-- The first token of a text that begins with a delimiter. -/
theorem Tokenized.exists_of_delimiter (hd : delimiter? d = some t) (h : Tokenized (d :: cs) ts) :
    ∃ behind, ts = t :: behind ∧ Tokenized cs behind := by
  cases h with
  | gap hgap _ => exact absurd hgap (by simp [(ends_of_delimiter? hd).notGap])
  | token hgap hscan hbehind =>
      simp only [scan, hd] at hscan
      cases hscan
      exact ⟨_, rfl, hbehind⟩

theorem getLast?_append_of_ne_nil {front behind : List Char}
    (h : (front ++ behind).getLast? = some d) (hne : behind ≠ []) : behind.getLast? = some d := by
  rwa [List.getLast?_append, List.getLast?_eq_some_getLast hne, Option.some_or,
    ← List.getLast?_eq_some_getLast hne] at h

theorem getLast?_of_gap {c : Char} (hd : Ends d) (hgap : isGap c = true)
    (h : (c :: cs).getLast? = some d) : cs.getLast? = some d := by
  refine @getLast?_append_of_ne_nil d [c] cs h ?_
  rintro rfl
  obtain rfl : c = d := Option.some.inj h
  exact absurd hgap (by simp [hd.notGap])

/-- **A text that ends with a delimiter** has it as its last token. -/
theorem Tokenized.getLast?_eq (h : Tokenized cs ts) (hd : delimiter? d = some t)
    (hlast : cs.getLast? = some d) : ts.getLast? = some t := by
  induction h with
  | nil => cases hlast
  | gap hgap _ ih => exact ih (getLast?_of_gap (ends_of_delimiter? hd) hgap hlast)
  | @token c cs text behind t' ts _ hscan hbehind ih =>
      obtain ⟨hlexeme, hsplit⟩ := lexeme_of_scan hscan
      rw [hsplit] at hlast
      by_cases hnil : behind = []
      · subst hnil
        cases hbehind
        rw [List.append_nil] at hlast
        rw [(hlexeme.eq_singleton hlast hd).1]
        rfl
      · have hts := ih (getLast?_append_of_ne_nil hlast hnil)
        rw [List.getLast?_cons, hts]
        rfl

/-- **Behind a delimiter another text can be put.** -/
theorem Tokenized.append (h : Tokenized cs ts) (hd : delimiter? d = some t)
    (hlast : cs.getLast? = some d) (h' : Tokenized ds us) : Tokenized (cs ++ ds) (ts ++ us) := by
  have hends := ends_of_delimiter? hd
  induction h with
  | nil => cases hlast
  | gap hgap _ ih => exact .gap hgap (ih (getLast?_of_gap hends hgap hlast))
  | @token c cs text behind t' ts hgap hscan hbehind ih =>
      obtain ⟨hlexeme, hsplit⟩ := lexeme_of_scan hscan
      by_cases hnil : behind = []
      · -- The delimiter is the only character.
        subst hnil
        cases hbehind
        rw [List.append_nil] at hsplit
        obtain ⟨rfl, rfl⟩ := hlexeme.eq_singleton (hsplit ▸ hlast) hd
        obtain ⟨rfl, rfl⟩ := List.cons.inj hsplit
        have hscan' : scan c ds = ⟨some t', [c], ds⟩ := by simp [scan, hd]
        exact .token hgap hscan' h'
      · rw [hsplit] at hlast
        have hbehindLast := getLast?_append_of_ne_nil hlast hnil
        exact .token hgap (scan_append hends hscan hbehindLast ds) (ih hbehindLast)

/-- **The search for a delimiter walks through to the last one**, where no other is a token. -/
theorem Tokenized.exists_passes {close : Char} (hclosing : IsClosing close)
    (hd : delimiter? close = some t) (h : Tokenized cs ts) (hlast : cs.getLast? = some close)
    {inner : List Token} (hts : ts = inner ++ [t]) (hinner : t ∉ inner) :
    ∃ body, cs = body ++ [close] ∧ Passes close body := by
  have hends := ends_of_delimiter? hd
  induction h generalizing inner with
  | nil => cases hlast
  | @gap c cs ts hgap _ ih =>
      obtain ⟨body, rfl, hbody⟩ := ih (getLast?_of_gap hends hgap hlast) hts hinner
      refine ⟨c :: body, rfl, Passes.cons ?_ ?_ hbody⟩
      · rintro rfl
        exact absurd hgap (by simp [hends.notGap])
      · rintro rfl
        cases hgap
  | @token c cs text behind t' ts _ hscan hbehind ih =>
      obtain ⟨hlexeme, hsplit⟩ := lexeme_of_scan hscan
      rw [hsplit] at hlast ⊢
      cases inner with
      | nil =>
          obtain ⟨rfl, rfl⟩ := List.cons.inj hts
          -- No token is left, and a delimiter would be one.
          by_cases hnil : behind = []
          · subst hnil
            rw [List.append_nil] at hlast ⊢
            exact ⟨[], (hlexeme.eq_singleton hlast hd).2, Passes.nil⟩
          · cases hbehind.getLast?_eq hd (getLast?_append_of_ne_nil hlast hnil)
      | cons first inner =>
          obtain ⟨rfl, rfl⟩ := List.cons.inj hts
          have hne := hbehind.ne_nil (by simp)
          have hbehindLast := getLast?_append_of_ne_nil hlast hne
          obtain ⟨body, rfl, hbody⟩ :=
            ih hbehindLast rfl fun hmem => hinner (List.mem_cons_of_mem _ hmem)
          have hother : delimiter? close ≠ some t' := by
            rw [hd]
            rintro ⟨⟩
            exact hinner List.mem_cons_self
          exact ⟨text ++ body, (List.append_assoc _ _ _).symm,
            (hlexeme.passes hclosing hother).append hbody⟩

/-! ### Lists that are accepted -/

/-- A token that is in no item is not among items with commas between them. -/
theorem Separated.not_mem {items : List (List Token)} (h : Separated items ts) (hcomma : t ≠ .comma)
    (hitems : ∀ item ∈ items, t ∉ item) : t ∉ ts := by
  induction items generalizing ts with
  | nil =>
      rw [separated_nil_iff.mp h]
      exact List.not_mem_nil
  | cons item items ih =>
      obtain ⟨hitem, hitems⟩ := List.forall_mem_cons.mp hitems
      obtain ⟨behind, ⟨-, rfl⟩ | ⟨more, hmore, rfl⟩, rfl⟩ := separated_cons_iff.mp h
      · simpa using hitem
      · simpa [hitem, hcomma] using ih hmore hitems

/-- Nothing, or a text from one delimiter to another. -/
def IsListText (opener close : Char) (cs : List Char) : Prop :=
  cs = [] ∨ cs.head? = some opener ∧ cs.getLast? = some close

/-- **A list of a header**: its tokens are items in delimiters, and it is found whole in front of
everything that is no such list instead of it. -/
structure IsPart (opener close : Char) (opening closing : Token) (items : List (List Token))
    (cs : List Char) (ts : List Token) : Prop where
  tokenized : Tokenized cs ts
  enclosed : Enclosed opening closing items ts
  found : ∀ rest : List Char, (cs = [] → rest.head? ≠ some opener) →
    list? opener close (cs ++ rest) = some (cs, rest)

section

variable {opener close : Char} {opening closing : Token} {items : List (List Token)}
  {inside : List Token}

theorem IsPart.none : IsPart opener close opening closing [] [] [] where
  tokenized := .nil
  enclosed := .inl ⟨rfl, rfl⟩
  found _ hrest := list?_of_head (hrest rfl)

/-- Tokens between delimiters are a list where the closing one is not among them. -/
theorem IsPart.of_inside (hopener : delimiter? opener = some opening)
    (hclose : delimiter? close = some closing) (hclosing : IsClosing close)
    (hhead : cs.head? = some opener) (hlast : cs.getLast? = some close)
    (h : Tokenized cs (opening :: (inside ++ [closing]))) (hinside : Separated items inside)
    (hnot : closing ∉ inside) :
    IsPart opener close opening closing items cs (opening :: (inside ++ [closing])) where
  tokenized := h
  enclosed := .inr ⟨inside, hinside, rfl⟩
  found rest _ := by
    obtain ⟨behind, rfl⟩ := List.head?_eq_some_iff.mp hhead
    obtain ⟨ts, hts, htokenized⟩ := h.exists_of_delimiter hopener
    obtain ⟨-, rfl⟩ := List.cons.inj hts
    have hbehindLast :=
      @getLast?_append_of_ne_nil close [opener] behind hlast (htokenized.ne_nil (by simp))
    obtain ⟨body, rfl, hbody⟩ := htokenized.exists_passes hclosing hclose hbehindLast rfl hnot
    simpa using list?_of_passes opener hbody rest

end

section

variable {header params attributes : Header} {offset : Nat} {front back rest : List Char}

theorem eq_empty_of_read_nil (h : read offset [] = .ok header) : header = {} := by
  have hread : read offset [] = .ok {} := by
    rw [read, pieces]
    rfl
  exact (Except.ok.inj (hread.symm.trans h)).symm

/-- **Parameters that are accepted by themselves** are a list of a header, and nothing else. -/
theorem exists_params_of_read (hlist : IsListText '(' ')' front)
    (h : read offset front = .ok header) :
    ∃ ts, IsPart '(' ')' .openParen .closeParen header.paramItems front ts := by
  rcases hlist with rfl | ⟨hhead, hlast⟩
  · rw [eq_empty_of_read_nil h]
    exact ⟨[], .none⟩
  obtain ⟨ts, htokenized, params, attributes, hparams, hattributes, rfl⟩ :=
    read_eq_ok_iff_tokenized.mp h
  have hend := htokenized.getLast?_eq (t := .closeParen) rfl hlast
  -- The last token is a parenthesis, so no brackets come behind.
  rcases hattributes with ⟨-, rfl⟩ | ⟨inside, -, rfl⟩
  · rw [List.append_nil] at htokenized hend
    rcases hparams with ⟨-, rfl⟩ | ⟨inside, hinside, rfl⟩
    · cases hend
    · have hnot : Token.closeParen ∉ inside := by
        refine hinside.not_mem nofun fun item hitem => ?_
        obtain ⟨l, -, rfl⟩ := List.mem_map.mp hitem
        cases l <;> simp [Literal.token]
      exact ⟨_, .of_inside rfl rfl isClosing_paren hhead hlast htokenized hinside hnot⟩
  · simp [List.getLast?_append, List.getLast?_cons] at hend

/-- **Attributes that are accepted by themselves** are a list of a header, and nothing else. -/
theorem exists_attributes_of_read (hlist : IsListText '[' ']' back)
    (h : read offset back = .ok header) :
    ∃ ts, IsPart '[' ']' .openBracket .closeBracket header.attributeItems back ts := by
  rcases hlist with rfl | ⟨hhead, hlast⟩
  · rw [eq_empty_of_read_nil h]
    exact ⟨[], .none⟩
  obtain ⟨ts, htokenized, hspells⟩ := read_eq_ok_iff_tokenized.mp h
  obtain ⟨behind, rfl⟩ := List.head?_eq_some_iff.mp hhead
  obtain ⟨ts, rfl, -⟩ := htokenized.exists_of_delimiter (t := .openBracket) rfl
  -- The first token is a bracket, so no parentheses stand in front.
  obtain ⟨hopen, -⟩ | ⟨-, -, inside, hinside, rfl⟩ := Stage.spells_cons_iff.mp hspells
  · cases hopen
  · have hnot : Token.closeBracket ∉ inside := by
      refine hinside.not_mem nofun fun item hitem => ?_
      obtain ⟨a, -, rfl⟩ := List.mem_map.mp hitem
      cases hvalue : a.value <;> simp [Attribute.tokens, Literal.token, hvalue]
    exact ⟨_, .of_inside rfl rfl isClosing_bracket hhead hlast htokenized hinside hnot⟩

/-- **Two lists that are accepted one by one are the extent of a header.** -/
theorem extent_of_accepted (hfront : IsListText '(' ')' front) (hback : IsListText '[' ']' back)
    (hne : front ≠ [] ∨ back ≠ []) (hrest : back = [] → rest.head? ≠ some '[') {offset' : Nat}
    (hparams : read offset front = .ok params) (hattributes : read offset' back = .ok attributes) :
    extent (front ++ back ++ rest) = .closed (front ++ back) rest := by
  obtain ⟨ts, hparams⟩ := exists_params_of_read hfront hparams
  obtain ⟨us, hattributes⟩ := exists_attributes_of_read hback hattributes
  have hbehind : front = [] → (back ++ rest).head? ≠ some '(' := by
    intro hnil
    have hback := (hback.resolve_left (hne.resolve_left (by simp [hnil]))).1
    obtain ⟨inside, rfl⟩ := List.head?_eq_some_iff.mp hback
    simp
  rw [List.append_assoc, extent, hparams.found _ hbehind]
  simp only [hattributes.found _ hrest]

/-- **Two lists that are accepted one by one are read as one header.** -/
theorem read_of_accepted (hfront : IsListText '(' ')' front) (hback : IsListText '[' ']' back)
    {offset' : Nat} (hparams : read offset front = .ok params)
    (hattributes : read offset' back = .ok attributes) (start : Nat) :
    read start (front ++ back) = .ok ⟨params.params, attributes.attributes⟩ := by
  obtain ⟨ts, hparams⟩ := exists_params_of_read hfront hparams
  obtain ⟨us, hattributes⟩ := exists_attributes_of_read hback hattributes
  rw [read_eq_ok_iff_tokenized]
  refine ⟨ts ++ us, ?_, ts, us, hparams.enclosed, hattributes.enclosed, rfl⟩
  rcases hfront with rfl | ⟨-, hlast⟩
  · cases hparams.tokenized
    exact hattributes.tokenized
  · exact hparams.tokenized.append (t := .closeParen) rfl hlast hattributes.tokenized

/-- Two lists that are accepted one by one are read as one header at their place. -/
theorem readAt_of_accepted (hfront : IsListText '(' ')' front) (hback : IsListText '[' ']' back)
    (hne : front ≠ [] ∨ back ≠ []) (hrest : back = [] → rest.head? ≠ some '[') {offset' : Nat}
    (hparams : read offset front = .ok params) (hattributes : read offset' back = .ok attributes)
    (start : Nat) :
    readAt ⟨start, front ++ back ++ rest⟩ =
      ⟨⟨params.params, attributes.attributes⟩, [], ⟨start + Text.width (front ++ back), rest⟩⟩ := by
  rw [readAt, extent_of_accepted hfront hback hne hrest hparams hattributes]
  simp only [read_of_accepted hfront hback hparams hattributes]
  rfl

end

end TaggedText.Header
