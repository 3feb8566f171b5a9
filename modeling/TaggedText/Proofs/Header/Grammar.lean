import TaggedText.Proofs.Header.RoundTrip
import TaggedText.Proofs.Header.Shift

/-!
# The grammar of headers

Which tokens spell a header, said without the stages in which they are read: parameters in
parentheses and attributes in brackets, each if there are any, with commas between them.
`Header.Spells` is that grammar, put together from lists of items (`Separated`) and lists in their
delimiters (`Enclosed`).

A stage says what is left of the header, so each of them has a rest of the grammar of its own,
`Stage.Completes`; the whole grammar is what is left at the start.  A step takes one token off that
rest.  Both directions of this are needed, that a step leads to what completes the next stage
(`completes_of_step`) and that whatever completes a stage begins with a step (`exists_step`), and
together they make `readTokens_eq_ok_iff` an induction over the tokens.

`Header.read_ok_iff_spells` is about texts: one is read as a header exactly if it is nothing but
tokens that spell it.
-/

namespace TaggedText

/-- The tokens of an attribute. -/
def Attribute.tokens (a : Attribute) : List Header.Token :=
  [.name a.name, .equals, a.value.token]

namespace Header

/-! ### Lists -/

/-- **Items with commas between them.**  One comma may trail, behind an item. -/
def Separated (items : List (List Token)) (ts : List Token) : Prop :=
  ts = [Token.comma].intercalate items ∨
    items ≠ [] ∧ ts = [Token.comma].intercalate items ++ [.comma]

/-- What can stand behind an item: nothing if no other is left, or a comma and the others. -/
def Continued (items : List (List Token)) (ts : List Token) : Prop :=
  items = [] ∧ ts = [] ∨ ∃ behind, Separated items behind ∧ ts = .comma :: behind

/-- **A list in its delimiters.**  Nothing at all stands for no items. -/
def Enclosed (opener close : Token) (items : List (List Token)) (ts : List Token) : Prop :=
  items = [] ∧ ts = [] ∨ ∃ inside, Separated items inside ∧ ts = opener :: (inside ++ [close])

variable {item : List Token} {items : List (List Token)} {ts : List Token}

theorem separated_nil_iff : Separated [] ts ↔ ts = [] := by
  simp [Separated]

theorem separated_cons_iff :
    Separated (item :: items) ts ↔ ∃ behind, Continued items behind ∧ ts = item ++ behind := by
  cases items with
  | nil =>
      constructor
      · rintro (rfl | ⟨-, rfl⟩)
        · exact ⟨[], .inl ⟨rfl, rfl⟩, by simp⟩
        · exact ⟨[.comma], .inr ⟨[], separated_nil_iff.mpr rfl, rfl⟩, by simp⟩
      · rintro ⟨behind, ⟨-, rfl⟩ | ⟨rest, hrest, rfl⟩, rfl⟩
        · exact .inl (by simp)
        · rw [separated_nil_iff] at hrest
          subst hrest
          exact .inr ⟨List.cons_ne_nil _ _, by simp⟩
  | cons other items =>
      constructor
      · rintro (rfl | ⟨-, rfl⟩)
        · exact ⟨_, .inr ⟨_, .inl rfl, rfl⟩, by simp⟩
        · exact ⟨_, .inr ⟨_, .inr ⟨List.cons_ne_nil _ _, rfl⟩, rfl⟩, by simp⟩
      · rintro ⟨behind, ⟨hnil, -⟩ | ⟨rest, rfl | ⟨-, rfl⟩, rfl⟩, rfl⟩
        · cases hnil
        · exact .inl (by simp)
        · exact .inr ⟨List.cons_ne_nil _ _, by simp⟩

/-! ### Headers -/

/-- The tokens of each parameter. -/
def paramItems (header : Header) : List (List Token) :=
  header.params.map fun l => [l.token]

/-- The tokens of each attribute. -/
def attributeItems (header : Header) : List (List Token) :=
  header.attributes.map Attribute.tokens

/-- **The tokens that spell a header**: its parameters in parentheses and then its attributes in
brackets. -/
def Spells (header : Header) (ts : List Token) : Prop :=
  ∃ params attributes, Enclosed .openParen .closeParen header.paramItems params ∧
    Enclosed .openBracket .closeBracket header.attributeItems attributes ∧
    ts = params ++ attributes

namespace Stage

/-- The attributes that are left, in front of the closing bracket. -/
def ClosesAttributes (list : List (List Token) → List Token → Prop) (header : Header)
    (ts : List Token) : Prop :=
  header.params = [] ∧ ∃ inside, list header.attributeItems inside ∧ ts = inside ++ [.closeBracket]

/-- The parameters that are left, in front of the closing parenthesis, and the attributes. -/
def ClosesParams (list : List (List Token) → List Token → Prop) (header : Header)
    (ts : List Token) : Prop :=
  ∃ inside behind, list header.paramItems inside ∧
    Enclosed .openBracket .closeBracket header.attributeItems behind ∧
    ts = inside ++ .closeParen :: behind

/-- The value of an attribute whose name has been read, and the attributes that are left. -/
def ClosesValue (name : String) (header : Header) (ts : List Token) : Prop :=
  ∃ value rest behind, header = { rest with attributes := ⟨name, value⟩ :: rest.attributes } ∧
    ClosesAttributes Continued rest behind ∧ ts = value.token :: behind

/-- **The tokens that complete a header** from a stage on, where `header` is what they add. -/
def Completes : Stage → Header → List Token → Prop
  | start, header, ts => header.Spells ts
  | beforeParam, header, ts => ClosesParams Separated header ts
  | afterParam, header, ts => ClosesParams Continued header ts
  | afterParams, header, ts =>
    header.params = [] ∧ Enclosed .openBracket .closeBracket header.attributeItems ts
  | beforeAttribute, header, ts => ClosesAttributes Separated header ts
  | afterName name, header, ts => ∃ behind, ClosesValue name header behind ∧ ts = .equals :: behind
  | afterEquals name, header, ts => ClosesValue name header ts
  | afterAttribute, header, ts => ClosesAttributes Continued header ts
  | complete, header, ts => header = {} ∧ ts = []

variable {header rest : Header} {token : Token}

theorem closesParams_separated_cons_iff :
    ClosesParams Separated header (token :: ts) ↔
      (token = .closeParen ∧ afterParams.Completes header ts) ∨
        ∃ value rest, token = Literal.token value ∧
          header = { rest with params := value :: rest.params } ∧
          ClosesParams Continued rest ts := by
  obtain ⟨params, attributes⟩ := header
  cases params with
  | nil =>
      constructor
      · rintro ⟨inside, behind, hinside, hbehind, heq⟩
        obtain rfl := separated_nil_iff.mp hinside
        obtain ⟨rfl, rfl⟩ := List.cons.inj heq
        exact .inl ⟨rfl, rfl, hbehind⟩
      · rintro (⟨rfl, -, hbehind⟩ | ⟨value, rest, -, heq, -⟩)
        · exact ⟨[], ts, separated_nil_iff.mpr rfl, hbehind, rfl⟩
        · cases heq
  | cons value params =>
      constructor
      · rintro ⟨inside, behind, hinside, hbehind, heq⟩
        obtain ⟨more, hmore, rfl⟩ := separated_cons_iff.mp hinside
        obtain ⟨rfl, rfl⟩ := List.cons.inj heq
        exact .inr ⟨value, ⟨params, attributes⟩, rfl, rfl, more, behind, hmore, hbehind, rfl⟩
      · rintro (⟨-, hnil, -⟩ | ⟨_, _, rfl, heq, more, behind, hmore, hbehind, rfl⟩)
        · cases hnil
        · cases heq
          exact ⟨_, behind, separated_cons_iff.mpr ⟨more, hmore, rfl⟩, hbehind, rfl⟩

theorem closesParams_continued_cons_iff :
    ClosesParams Continued header (token :: ts) ↔
      (token = .closeParen ∧ afterParams.Completes header ts) ∨
        token = .comma ∧ ClosesParams Separated header ts := by
  constructor
  · rintro ⟨inside, behind, ⟨hnil, rfl⟩ | ⟨more, hmore, rfl⟩, hbehind, heq⟩
    · obtain ⟨rfl, rfl⟩ := List.cons.inj heq
      exact .inl ⟨rfl, List.map_eq_nil_iff.mp hnil, hbehind⟩
    · obtain ⟨rfl, rfl⟩ := List.cons.inj heq
      exact .inr ⟨rfl, more, behind, hmore, hbehind, rfl⟩
  · rintro (⟨rfl, hnil, hbehind⟩ | ⟨rfl, inside, behind, hinside, hbehind, rfl⟩)
    · exact ⟨[], ts, .inl ⟨List.map_eq_nil_iff.mpr hnil, rfl⟩, hbehind, rfl⟩
    · exact ⟨_, behind, .inr ⟨inside, hinside, rfl⟩, hbehind, rfl⟩

theorem closesAttributes_separated_cons_iff :
    ClosesAttributes Separated header (token :: ts) ↔
      (token = .closeBracket ∧ complete.Completes header ts) ∨
        ∃ name, token = .name name ∧ (afterName name).Completes header ts := by
  obtain ⟨params, attributes⟩ := header
  cases attributes with
  | nil =>
      constructor
      · rintro ⟨hparams, inside, hinside, heq⟩
        obtain rfl := separated_nil_iff.mp hinside
        obtain ⟨rfl, rfl⟩ := List.cons.inj heq
        obtain rfl : params = [] := hparams
        exact .inl ⟨rfl, rfl, rfl⟩
      · rintro (⟨rfl, heq, rfl⟩ | ⟨name, -, behind, ⟨value, rest, more, heq, -⟩, -⟩)
        · cases heq
          exact ⟨rfl, [], separated_nil_iff.mpr rfl, rfl⟩
        · cases heq
  | cons a attributes =>
      constructor
      · rintro ⟨hparams, inside, hinside, heq⟩
        obtain ⟨more, hmore, rfl⟩ := separated_cons_iff.mp hinside
        obtain ⟨rfl, rfl⟩ := List.cons.inj heq
        exact .inr ⟨a.name, rfl, _, ⟨a.value, ⟨params, attributes⟩, _, rfl,
          ⟨hparams, more, hmore, rfl⟩, rfl⟩, rfl⟩
      · rintro (⟨-, heq, -⟩ |
          ⟨name, rfl, _, ⟨value, rest, _, heq, ⟨hparams, more, hmore, rfl⟩, rfl⟩, rfl⟩)
        · cases heq
        · cases heq
          exact ⟨hparams, _, separated_cons_iff.mpr ⟨more, hmore, rfl⟩, rfl⟩

theorem closesAttributes_continued_cons_iff :
    ClosesAttributes Continued header (token :: ts) ↔
      (token = .closeBracket ∧ complete.Completes header ts) ∨
        token = .comma ∧ ClosesAttributes Separated header ts := by
  obtain ⟨params, attributes⟩ := header
  constructor
  · rintro ⟨hparams, inside, ⟨hnil, rfl⟩ | ⟨more, hmore, rfl⟩, heq⟩
    · obtain ⟨rfl, rfl⟩ := List.cons.inj heq
      obtain rfl : attributes = [] := List.map_eq_nil_iff.mp hnil
      obtain rfl : params = [] := hparams
      exact .inl ⟨rfl, rfl, rfl⟩
    · obtain ⟨rfl, rfl⟩ := List.cons.inj heq
      exact .inr ⟨rfl, hparams, more, hmore, rfl⟩
  · rintro (⟨rfl, heq, rfl⟩ | ⟨rfl, hparams, inside, hinside, rfl⟩)
    · cases heq
      exact ⟨rfl, [], .inl ⟨rfl, rfl⟩, rfl⟩
    · exact ⟨hparams, _, .inr ⟨inside, hinside, rfl⟩, rfl⟩

theorem afterParams_cons_iff :
    afterParams.Completes header (token :: ts) ↔
      token = .openBracket ∧ ClosesAttributes Separated header ts := by
  constructor
  · rintro ⟨hparams, ⟨-, hnil⟩ | ⟨inside, hinside, heq⟩⟩
    · cases hnil
    · obtain ⟨rfl, rfl⟩ := List.cons.inj heq
      exact ⟨rfl, hparams, inside, hinside, rfl⟩
  · rintro ⟨rfl, hparams, inside, hinside, rfl⟩
    exact ⟨hparams, .inr ⟨inside, hinside, rfl⟩⟩

theorem spells_cons_iff :
    header.Spells (token :: ts) ↔
      (token = .openParen ∧ ClosesParams Separated header ts) ∨
        token = .openBracket ∧ ClosesAttributes Separated header ts := by
  constructor
  · rintro ⟨params, attributes, ⟨hnil, rfl⟩ | ⟨inside, hinside, rfl⟩, hattributes, heq⟩
    · rw [List.nil_append] at heq
      subst heq
      exact .inr (afterParams_cons_iff.mp ⟨List.map_eq_nil_iff.mp hnil, hattributes⟩)
    · obtain ⟨rfl, rfl⟩ := List.cons.inj heq
      exact .inl ⟨rfl, inside, attributes, hinside, hattributes, by simp⟩
  · rintro (⟨rfl, inside, behind, hinside, hbehind, rfl⟩ | hbracket)
    · exact ⟨_, behind, .inr ⟨inside, hinside, rfl⟩, hbehind, by simp⟩
    · obtain ⟨hparams, hattributes⟩ := afterParams_cons_iff.mpr hbracket
      exact ⟨[], _, .inl ⟨List.map_eq_nil_iff.mpr hparams, rfl⟩, hattributes, rfl⟩

end Stage

/-! ### Values and names -/

theorem Token.eq_token_of_literal? {t : Token} {l : Literal} (h : t.literal? = some l) :
    t = l.token := by
  cases t <;> cases h <;> rfl

theorem Token.eq_name_of_name? {t : Token} {name : String} (h : t.name? = some name) :
    t = .name name := by
  cases t <;> cases h
  rfl

namespace Stage

variable {header rest : Header} {token : Token} {stage next : Stage} {add : Header → Header}

/-! ### One token -/

/-- **What a token adds to a header stands in front of what completes it behind the token.** -/
theorem completes_of_step (h : stage.step token = some (next, add))
    (hrest : next.Completes rest ts) : stage.Completes (add rest) (token :: ts) := by
  unfold step at h
  split at h
  case h_1 =>
    cases h
    exact spells_cons_iff.mpr (.inl ⟨rfl, hrest⟩)
  case h_2 =>
    cases h
    exact spells_cons_iff.mpr (.inr ⟨rfl, hrest⟩)
  case h_3 =>
    cases h
    exact closesParams_separated_cons_iff.mpr (.inl ⟨rfl, hrest⟩)
  case h_4 =>
    obtain ⟨value, hvalue, heq⟩ := Option.map_eq_some_iff.mp h
    cases heq
    exact closesParams_separated_cons_iff.mpr
      (.inr ⟨value, rest, Token.eq_token_of_literal? hvalue, rfl, hrest⟩)
  case h_5 =>
    cases h
    exact closesParams_continued_cons_iff.mpr (.inr ⟨rfl, hrest⟩)
  case h_6 =>
    cases h
    exact closesParams_continued_cons_iff.mpr (.inl ⟨rfl, hrest⟩)
  case h_7 =>
    cases h
    exact afterParams_cons_iff.mpr ⟨rfl, hrest⟩
  case h_8 =>
    cases h
    exact closesAttributes_separated_cons_iff.mpr (.inl ⟨rfl, hrest⟩)
  case h_9 =>
    obtain ⟨name, hname, heq⟩ := Option.map_eq_some_iff.mp h
    cases heq
    exact closesAttributes_separated_cons_iff.mpr
      (.inr ⟨name, Token.eq_name_of_name? hname, hrest⟩)
  case h_10 =>
    cases h
    exact ⟨ts, hrest, rfl⟩
  case h_11 =>
    obtain ⟨value, hvalue, heq⟩ := Option.map_eq_some_iff.mp h
    cases heq
    exact ⟨value, rest, ts, rfl, hrest, by rw [Token.eq_token_of_literal? hvalue]⟩
  case h_12 =>
    cases h
    exact closesAttributes_continued_cons_iff.mpr (.inr ⟨rfl, hrest⟩)
  case h_13 =>
    cases h
    exact closesAttributes_continued_cons_iff.mpr (.inl ⟨rfl, hrest⟩)
  case h_14 => cases h

/-- **The first of the tokens that complete a header takes a step** to where the others do. -/
theorem exists_step (h : stage.Completes header (token :: ts)) :
    ∃ next add rest, stage.step token = some (next, add) ∧ header = add rest ∧
      next.Completes rest ts := by
  cases stage with
  | start =>
      rcases spells_cons_iff.mp h with ⟨rfl, hrest⟩ | ⟨rfl, hrest⟩
      · exact ⟨_, _, header, rfl, rfl, hrest⟩
      · exact ⟨_, _, header, rfl, rfl, hrest⟩
  | beforeParam =>
      rcases closesParams_separated_cons_iff.mp h with
        ⟨rfl, hrest⟩ | ⟨value, rest, rfl, rfl, hrest⟩
      · exact ⟨_, _, header, rfl, rfl, hrest⟩
      · exact ⟨_, _, rest, step_beforeParam value, rfl, hrest⟩
  | afterParam =>
      rcases closesParams_continued_cons_iff.mp h with ⟨rfl, hrest⟩ | ⟨rfl, hrest⟩
      · exact ⟨_, _, header, rfl, rfl, hrest⟩
      · exact ⟨_, _, header, rfl, rfl, hrest⟩
  | afterParams =>
      obtain ⟨rfl, hrest⟩ := afterParams_cons_iff.mp h
      exact ⟨_, _, header, rfl, rfl, hrest⟩
  | beforeAttribute =>
      rcases closesAttributes_separated_cons_iff.mp h with ⟨rfl, hrest⟩ | ⟨name, rfl, hrest⟩
      · exact ⟨_, _, header, rfl, rfl, hrest⟩
      · exact ⟨_, _, header, rfl, rfl, hrest⟩
  | afterName name =>
      obtain ⟨behind, hbehind, heq⟩ := h
      obtain ⟨rfl, rfl⟩ := List.cons.inj heq
      exact ⟨_, _, header, rfl, rfl, hbehind⟩
  | afterEquals name =>
      obtain ⟨value, rest, behind, rfl, hbehind, heq⟩ := h
      obtain ⟨rfl, rfl⟩ := List.cons.inj heq
      exact ⟨_, _, rest, step_afterEquals name value, rfl, hbehind⟩
  | afterAttribute =>
      rcases closesAttributes_continued_cons_iff.mp h with ⟨rfl, hrest⟩ | ⟨rfl, hrest⟩
      · exact ⟨_, _, header, rfl, rfl, hrest⟩
      · exact ⟨_, _, header, rfl, rfl, hrest⟩
  | complete => cases h.2

/-- Where nothing is left, the header is complete. -/
theorem completes_nil_iff : stage.Completes header [] ↔ stage.mayEnd = true ∧ header = {} := by
  obtain ⟨params, attributes⟩ := header
  cases stage with
  | start =>
      constructor
      · rintro ⟨ps, as, ⟨hparams, rfl⟩ | ⟨inside, -, rfl⟩,
          ⟨hattributes, rfl⟩ | ⟨inside', -, rfl⟩, h⟩
        · obtain rfl : params = [] := List.map_eq_nil_iff.mp hparams
          obtain rfl : attributes = [] := List.map_eq_nil_iff.mp hattributes
          exact ⟨rfl, rfl⟩
        all_goals cases h
      · rintro ⟨-, heq⟩
        cases heq
        exact ⟨[], [], .inl ⟨rfl, rfl⟩, .inl ⟨rfl, rfl⟩, rfl⟩
  | afterParams =>
      constructor
      · rintro ⟨hparams, ⟨hattributes, -⟩ | ⟨inside, -, h⟩⟩
        · obtain rfl : params = [] := hparams
          obtain rfl : attributes = [] := List.map_eq_nil_iff.mp hattributes
          exact ⟨rfl, rfl⟩
        · cases h
      · rintro ⟨-, heq⟩
        cases heq
        exact ⟨rfl, .inl ⟨rfl, rfl⟩⟩
  | complete => simp [Completes, mayEnd]
  -- Everywhere else a delimiter or a value is still to come.
  | _ => simp [Completes, ClosesParams, ClosesAttributes, ClosesValue, mayEnd]

end Stage

/-! ### All tokens -/

/-- **Tokens are read as the header that they spell.** -/
theorem readTokens_eq_ok_iff {stage : Stage} {header : Header} {ts : List (Token × Span)} :
    readTokens stage ts = .ok header ↔ stage.Completes header (ts.map Prod.fst) := by
  induction ts generalizing stage header with
  | nil =>
      rw [List.map_nil, Stage.completes_nil_iff, readTokens]
      split
      · next hend => simp [hend, eq_comm]
      · next hopen => simp [hopen]
  | cons t ts ih =>
      obtain ⟨token, span⟩ := t
      rw [readTokens, List.map_cons]
      constructor
      · intro h
        split at h
        · next hstep =>
            split at h
            · next rest hrest =>
                cases h
                exact Stage.completes_of_step hstep (ih.mp hrest)
            · cases h
        · cases h
      · intro h
        obtain ⟨next, add, rest, hstep, rfl, hrest⟩ := Stage.exists_step h
        simp only [hstep, ih.mpr hrest]

/-! ### Texts -/

/-- The tokens that a text is cut into. -/
def words (text : List Char) : List Token :=
  (tokens (pieces 0 text)).map Prod.fst

theorem map_fst_tokens_pieces (offset : Nat) (text : List Char) :
    (tokens (pieces offset text)).map Prod.fst = words text := by
  have hshift := pieces_shift offset 0 text
  rw [Nat.zero_add] at hshift
  rw [hshift, tokens_map_shift, List.map_map]
  rfl

theorem invalid_pieces_eq_nil_iff (offset : Nat) (text : List Char) :
    invalid (pieces offset text) = [] ↔ invalid (pieces 0 text) = [] := by
  have hshift := pieces_shift offset 0 text
  rw [Nat.zero_add] at hshift
  rw [hshift, invalid_map_shift, List.map_eq_nil_iff]

/-- A text without invalid pieces is read as the header that its tokens spell. -/
theorem read_eq_ok_iff {offset : Nat} {text : List Char} {header : Header} :
    read offset text = .ok header ↔ invalid (pieces 0 text) = [] ∧ header.Spells (words text) := by
  rw [← invalid_pieces_eq_nil_iff offset, ← map_fst_tokens_pieces offset]
  have hspells := @readTokens_eq_ok_iff .start header (tokens (pieces offset text))
  unfold read
  simp only
  split
  · next header' hread =>
      rw [hread, Except.ok.injEq] at hspells
      simp only [List.isEmpty_iff, List.map_eq_nil_iff]
      split
      · next hvalid => rw [Except.ok.injEq, hspells, Stage.Completes, and_iff_right hvalid]
      · next hstray => exact ⟨nofun, fun h => absurd h.1 hstray⟩
  · next hread =>
      rw [hread] at hspells
      exact ⟨nofun, fun h => nomatch hspells.mpr h.2⟩

/-- A header that is refused has something wrong with it. -/
theorem read_ne_error_nil (offset : Nat) (text : List Char) : read offset text ≠ .error [] := by
  unfold read
  simp only
  split
  · split
    · nofun
    · next hstray =>
        intro h
        rw [Except.error.inj h] at hstray
        exact hstray rfl
  · next u _ =>
      intro h
      have hlength := congrArg List.length (Except.error.inj h)
      simp at hlength

/-- **A text is read as a header exactly if it is nothing but tokens that spell it.**  Where the
text stands moves the ranges of what is wrong with it and changes nothing else, and a text that is
refused has something wrong with it. -/
theorem read_ok_iff_spells (text : List Char) :
    (∀ offset header, read offset text = .ok header ↔
        invalid (pieces 0 text) = [] ∧ header.Spells (words text)) ∧
      (∀ offset, read offset text =
        (read 0 text).mapError (List.map (Diagnostic.shift offset))) ∧
      ∀ offset, read offset text ≠ .error [] := by
  refine ⟨fun _ _ => read_eq_ok_iff, fun offset => ?_, fun offset => read_ne_error_nil offset text⟩
  have hshift := read_shift offset 0 text
  rwa [Nat.zero_add] at hshift

end Header

end TaggedText
