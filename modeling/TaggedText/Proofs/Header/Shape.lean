import TaggedText.Proofs.Header.Grammar

/-!
# What can stand where in a header

A message does not speak of tokens that could have stood at a place, but of classes of them.  So it
has a grammar of its own: which classes a header goes through, from its first to the end of it, with
no stages in it (`IsShape`).  The end is among the classes, as it can be what a message expects.

One token can be of two classes, as a name is where a value is expected and where an attribute
begins; only its place tells which.  Therefore tokens do not have a shape, they fit one (`Fits`).

As with the grammar of tokens, each stage has a rest of its own (`Stage.Shapes`).  What is left of a
header begins with what the stage expects (`mem_expected_of_shapes`), and a token of a class that is
expected takes a step (`exists_step_of_covers`).  The two grammars are one: the tokens of headers
are those that fit a shape (`exists_spells_iff_fits`).
-/

namespace TaggedText.Header

/-- **The tokens of a class.**  The end of a header is no token. -/
def Class.Covers : Class → Token → Prop
  | value, t => t.literal?.isSome = true
  | attributeName, t => t.name?.isSome = true
  | openParen, t => t = .openParen
  | closeParen, t => t = .closeParen
  | openBracket, t => t = .openBracket
  | closeBracket, t => t = .closeBracket
  | comma, t => t = .comma
  | equals, t => t = .equals
  | endOfHeader, _ => False

/-! ### Lists -/

/-- **The classes of items with commas between them.**  One comma may trail, behind an item. -/
inductive Listing (item : List Class) : List Class → Prop
  | none : Listing item []
  | last : Listing item item
  | more {rest : List Class} : Listing item rest → Listing item (item ++ .comma :: rest)

/-- What can stand behind an item: nothing, or a comma and other items. -/
def Continuing (item cs : List Class) : Prop :=
  cs = [] ∨ ∃ rest, Listing item rest ∧ cs = .comma :: rest

/-- A list in front of the delimiter that closes it, and what stands behind that. -/
def Closing (list : List Class → Prop) (close : Class) (behind : List Class → Prop)
    (cs : List Class) : Prop :=
  ∃ inside rest, list inside ∧ behind rest ∧ cs = inside ++ close :: rest

variable {item more cs : List Class} {c d close : Class} {behind : List Class → Prop}

theorem listing_cons_iff : Listing (d :: more) (c :: cs) ↔
    c = d ∧ ∃ rest, Continuing (d :: more) rest ∧ cs = more ++ rest := by
  constructor
  · intro h
    cases h with
    | last => exact ⟨rfl, [], .inl rfl, (List.append_nil _).symm⟩
    | more hrest => exact ⟨rfl, _, .inr ⟨_, hrest, rfl⟩, rfl⟩
  · rintro ⟨rfl, rest, rfl | ⟨rest, hrest, rfl⟩, rfl⟩
    · rw [List.append_nil]
      exact .last
    · exact .more hrest

theorem closing_listing_cons_iff : Closing (Listing (d :: more)) close behind (c :: cs) ↔
    (c = close ∧ behind cs) ∨
      c = d ∧ ∃ rest, Closing (Continuing (d :: more)) close behind rest ∧ cs = more ++ rest := by
  constructor
  · rintro ⟨inside, rest, hinside, hrest, heq⟩
    cases inside with
    | nil =>
        obtain ⟨rfl, rfl⟩ := List.cons.inj heq
        exact .inl ⟨rfl, hrest⟩
    | cons e inside =>
        obtain ⟨rfl, rfl⟩ := List.cons.inj heq
        obtain ⟨rfl, further, hfurther, rfl⟩ := listing_cons_iff.mp hinside
        exact .inr ⟨rfl, _, ⟨further, rest, hfurther, hrest, rfl⟩, List.append_assoc _ _ _⟩
  · rintro (⟨rfl, hrest⟩ | ⟨rfl, _, ⟨inside, rest, hinside, hrest, rfl⟩, rfl⟩)
    · exact ⟨[], cs, .none, hrest, rfl⟩
    · exact ⟨_, rest, listing_cons_iff.mpr ⟨rfl, inside, hinside, rfl⟩, hrest, by simp⟩

theorem closing_continuing_cons_iff : Closing (Continuing item) close behind (c :: cs) ↔
    (c = close ∧ behind cs) ∨ c = .comma ∧ Closing (Listing item) close behind cs := by
  constructor
  · rintro ⟨inside, rest, rfl | ⟨more, hmore, rfl⟩, hrest, heq⟩
    · obtain ⟨rfl, rfl⟩ := List.cons.inj heq
      exact .inl ⟨rfl, hrest⟩
    · obtain ⟨rfl, rfl⟩ := List.cons.inj heq
      exact .inr ⟨rfl, more, rest, hmore, hrest, rfl⟩
  · rintro (⟨rfl, hrest⟩ | ⟨rfl, inside, rest, hinside, hrest, rfl⟩)
    · exact ⟨[], cs, .inl rfl, hrest, rfl⟩
    · exact ⟨_, rest, .inr ⟨inside, hinside, rfl⟩, hrest, rfl⟩

/-! ### Headers -/

/-- The attributes of a list, and the end of the header behind the list. -/
abbrev ClosingAttributes (list : List Class → List Class → Prop) : List Class → Prop :=
  Closing (list [.attributeName, .equals, .value]) .closeBracket (· = [.endOfHeader])

/-- The classes of the attributes, if there are any, and of the end. -/
def AttributesShape (cs : List Class) : Prop :=
  cs = [.endOfHeader] ∨ ∃ rest, ClosingAttributes Listing rest ∧ cs = .openBracket :: rest

/-- The parameters of a list, and the attributes behind the list. -/
abbrev ClosingParams (list : List Class → List Class → Prop) : List Class → Prop :=
  Closing (list [.value]) .closeParen AttributesShape

/-- **The classes of a header in their order**: of the parameters, if there are any, of the
attributes, and of the end. -/
def IsShape (cs : List Class) : Prop :=
  AttributesShape cs ∨ ∃ rest, ClosingParams Listing rest ∧ cs = .openParen :: rest

/-- **Tokens of given classes, one by one**, up to the end. -/
inductive Fits : List Class → List Token → Prop
  | finish : Fits [.endOfHeader] []
  | token {c : Class} {t : Token} {cs : List Class} {ts : List Token} :
      c.Covers t → Fits cs ts → Fits (c :: cs) (t :: ts)

theorem fits_cons_iff {t : Token} {ts : List Token} :
    Fits (c :: cs) (t :: ts) ↔ c.Covers t ∧ Fits cs ts := by
  constructor
  · intro h
    cases h with
    | token hcovers hfits => exact ⟨hcovers, hfits⟩
  · rintro ⟨hcovers, hfits⟩
    exact .token hcovers hfits

/-! ### From a stage on -/

namespace Stage

/-- **The classes that are left of a header** from a stage on. -/
def Shapes : Stage → List Class → Prop
  | start => IsShape
  | beforeParam => ClosingParams Listing
  | afterParam => ClosingParams Continuing
  | afterParams => AttributesShape
  | beforeAttribute => ClosingAttributes Listing
  | afterName _ => fun cs => ∃ rest, ClosingAttributes Continuing rest ∧
    cs = .equals :: .value :: rest
  | afterEquals _ => fun cs => ∃ rest, ClosingAttributes Continuing rest ∧ cs = .value :: rest
  | afterAttribute => ClosingAttributes Continuing
  | complete => (· = [.endOfHeader])

variable {stage next : Stage} {t : Token} {ts : List Token} {add : Header → Header}
  {header : Header}

/-- **What is left of a header begins with what is expected.** -/
theorem mem_expected_of_shapes (h : stage.Shapes (c :: cs)) : c ∈ stage.expected := by
  cases stage with
  | start =>
      rcases h with (heq | ⟨_, -, heq⟩) | ⟨_, -, heq⟩ <;>
        simp [(List.cons.inj heq).1, expected]
  | beforeParam =>
      rcases closing_listing_cons_iff.mp h with ⟨rfl, -⟩ | ⟨rfl, -⟩ <;> simp [expected]
  | afterParam =>
      rcases closing_continuing_cons_iff.mp h with ⟨rfl, -⟩ | ⟨rfl, -⟩ <;> simp [expected]
  | afterParams =>
      rcases h with heq | ⟨_, -, heq⟩ <;> simp [(List.cons.inj heq).1, expected]
  | beforeAttribute =>
      rcases closing_listing_cons_iff.mp h with ⟨rfl, -⟩ | ⟨rfl, -⟩ <;> simp [expected]
  | afterName name =>
      obtain ⟨_, -, heq⟩ := h
      simp [(List.cons.inj heq).1, expected]
  | afterEquals name =>
      obtain ⟨_, -, heq⟩ := h
      simp [(List.cons.inj heq).1, expected]
  | afterAttribute =>
      rcases closing_continuing_cons_iff.mp h with ⟨rfl, -⟩ | ⟨rfl, -⟩ <;> simp [expected]
  | complete => simp [(List.cons.inj h).1, expected]

/-- The end is expected where a header may end, and nothing is left of it there. -/
theorem shapes_end_iff : stage.Shapes [.endOfHeader] ↔ stage.mayEnd = true := by
  cases stage <;>
    simp [Shapes, IsShape, AttributesShape, closing_listing_cons_iff, closing_continuing_cons_iff,
      mayEnd]

theorem endOfHeader_mem_expected_iff : .endOfHeader ∈ stage.expected ↔ stage.mayEnd = true := by
  cases stage <;> simp [expected, mayEnd]

theorem exists_token_of_covers_value (h : Class.value.Covers t) : ∃ l : Literal, t = l.token := by
  obtain ⟨l, hl⟩ := Option.isSome_iff_exists.mp h
  exact ⟨l, Token.eq_token_of_literal? hl⟩

theorem exists_name_of_covers (h : Class.attributeName.Covers t) : ∃ name, t = .name name := by
  obtain ⟨name, hname⟩ := Option.isSome_iff_exists.mp h
  exact ⟨name, Token.eq_name_of_name? hname⟩

/-- **A token of a class that is expected takes a step**, and what is left of a header behind it is
left there. -/
theorem exists_step_of_covers (hmem : c ∈ stage.expected) (h : c.Covers t) :
    ∃ next add, stage.step t = some (next, add) ∧
      ∀ cs, stage.Shapes (c :: cs) ↔ next.Shapes cs := by
  cases stage with
  | start =>
      simp only [expected, List.mem_cons, List.not_mem_nil, or_false] at hmem
      rcases hmem with rfl | rfl | rfl
      · obtain rfl : t = .openParen := h
        exact ⟨_, _, rfl, by simp [Shapes, IsShape, AttributesShape]⟩
      · obtain rfl : t = .openBracket := h
        exact ⟨_, _, rfl, by simp [Shapes, IsShape, AttributesShape]⟩
      · exact h.elim
  | beforeParam =>
      simp only [expected, List.mem_cons, List.not_mem_nil, or_false] at hmem
      rcases hmem with rfl | rfl
      · obtain ⟨l, rfl⟩ := exists_token_of_covers_value h
        exact ⟨_, _, step_beforeParam l, by simp [Shapes, closing_listing_cons_iff]⟩
      · obtain rfl : t = .closeParen := h
        exact ⟨_, _, rfl, by simp [Shapes, closing_listing_cons_iff]⟩
  | afterParam =>
      simp only [expected, List.mem_cons, List.not_mem_nil, or_false] at hmem
      rcases hmem with rfl | rfl
      · obtain rfl : t = .comma := h
        exact ⟨_, _, rfl, by simp [Shapes, closing_continuing_cons_iff]⟩
      · obtain rfl : t = .closeParen := h
        exact ⟨_, _, rfl, by simp [Shapes, closing_continuing_cons_iff]⟩
  | afterParams =>
      simp only [expected, List.mem_cons, List.not_mem_nil, or_false] at hmem
      rcases hmem with rfl | rfl
      · obtain rfl : t = .openBracket := h
        exact ⟨_, _, rfl, by simp [Shapes, AttributesShape]⟩
      · exact h.elim
  | beforeAttribute =>
      simp only [expected, List.mem_cons, List.not_mem_nil, or_false] at hmem
      rcases hmem with rfl | rfl
      · obtain ⟨name, rfl⟩ := exists_name_of_covers h
        exact ⟨_, _, rfl, by simp [Shapes, closing_listing_cons_iff]⟩
      · obtain rfl : t = .closeBracket := h
        exact ⟨_, _, rfl, by simp [Shapes, closing_listing_cons_iff]⟩
  | afterName name =>
      obtain rfl : c = .equals := List.mem_singleton.mp hmem
      obtain rfl : t = .equals := h
      exact ⟨_, _, rfl, by simp [Shapes]⟩
  | afterEquals name =>
      obtain rfl : c = .value := List.mem_singleton.mp hmem
      obtain ⟨l, rfl⟩ := exists_token_of_covers_value h
      exact ⟨_, _, step_afterEquals name l, by simp [Shapes]⟩
  | afterAttribute =>
      simp only [expected, List.mem_cons, List.not_mem_nil, or_false] at hmem
      rcases hmem with rfl | rfl
      · obtain rfl : t = .comma := h
        exact ⟨_, _, rfl, by simp [Shapes, closing_continuing_cons_iff]⟩
      · obtain rfl : t = .closeBracket := h
        exact ⟨_, _, rfl, by simp [Shapes, closing_continuing_cons_iff]⟩
  | complete =>
      obtain rfl : c = .endOfHeader := List.mem_singleton.mp hmem
      exact h.elim

/-- **A token that takes a step is of a class that is expected.** -/
theorem exists_covers_of_step (h : stage.step t = some (next, add)) :
    ∃ c ∈ stage.expected, c.Covers t := by
  unfold step at h
  split at h
  case h_4 =>
    obtain ⟨value, hvalue, -⟩ := Option.map_eq_some_iff.mp h
    exact ⟨.value, by simp [expected], by simp [Class.Covers, hvalue]⟩
  case h_9 =>
    obtain ⟨name, hname, -⟩ := Option.map_eq_some_iff.mp h
    exact ⟨.attributeName, by simp [expected], by simp [Class.Covers, hname]⟩
  case h_11 =>
    obtain ⟨value, hvalue, -⟩ := Option.map_eq_some_iff.mp h
    exact ⟨.value, by simp [expected], by simp [Class.Covers, hvalue]⟩
  case h_14 => cases h
  all_goals simp [expected, Class.Covers]

/-! ### All tokens -/

/-- **Tokens that fit what is left of a header complete it.** -/
theorem exists_completes_of_fits (hshapes : stage.Shapes cs) (h : Fits cs ts) :
    ∃ header, stage.Completes header ts := by
  induction h generalizing stage with
  | finish => exact ⟨{}, completes_nil_iff.mpr ⟨shapes_end_iff.mp hshapes, rfl⟩⟩
  | token hcovers _ ih =>
      obtain ⟨next, add, hstep, hnext⟩ :=
        exists_step_of_covers (mem_expected_of_shapes hshapes) hcovers
      obtain ⟨rest, hrest⟩ := ih ((hnext _).mp hshapes)
      exact ⟨add rest, completes_of_step hstep hrest⟩

/-- **Tokens that complete a header fit what is left of it.** -/
theorem exists_fits_of_completes (h : stage.Completes header ts) :
    ∃ cs, stage.Shapes cs ∧ Fits cs ts := by
  induction ts generalizing stage header with
  | nil => exact ⟨_, shapes_end_iff.mpr (completes_nil_iff.mp h).1, .finish⟩
  | cons t ts ih =>
      obtain ⟨next, add, rest, hstep, -, hrest⟩ := exists_step h
      obtain ⟨cs, hcs, hfits⟩ := ih hrest
      obtain ⟨c, hmem, hcovers⟩ := exists_covers_of_step hstep
      obtain ⟨next', add', hstep', hnext⟩ := exists_step_of_covers hmem hcovers
      rw [hstep] at hstep'
      cases hstep'
      exact ⟨c :: cs, (hnext cs).mpr hcs, .token hcovers hfits⟩

end Stage

/-- **The tokens of headers are those that fit a shape.** -/
theorem exists_spells_iff_fits {ts : List Token} :
    (∃ header : Header, header.Spells ts) ↔ ∃ cs, IsShape cs ∧ Fits cs ts :=
  ⟨fun ⟨header, h⟩ => @Stage.exists_fits_of_completes .start ts header h,
    fun ⟨cs, hcs, h⟩ => @Stage.exists_completes_of_fits cs .start ts hcs h⟩

end TaggedText.Header
