import TaggedText.Header.Stage

/-!
# How headers are written

The canonical spelling of what stands in the header of a tag, and which headers have one: parameters
in parentheses, and attributes in brackets if there are any.

A number does not say how it was spelled.  So being written is a relation between values and texts,
and a number is written as any `Numeral` that stands for it: a sign, digits and a fraction, of which
`Numeral.read?_spelling` says what they stand for.  Strings are written in quotes, with a backslash
in front of what needs one, and names as they are.

`IsNormal` is said of the values and attributes that can be written at all.
-/

namespace TaggedText

/-! ### Numerals -/

/-- **A numeral**: perhaps a minus sign, at least one digit, and perhaps a point and more digits. -/
structure Numeral where
  negative : Bool
  integral : List Char
  fractional : List Char
  integral_ne_nil : integral ≠ []
  isDigit_integral : ∀ c ∈ integral, c.isDigit = true
  isDigit_fractional : ∀ c ∈ fractional, c.isDigit = true

namespace Numeral

variable (n : Numeral)

/-- The sign as it is written. -/
def sign : List Char := if n.negative then ['-'] else []

/-- The fraction as it is written. -/
def fraction : List Char := if n.fractional.isEmpty then [] else '.' :: n.fractional

/-- The numeral as it is written. -/
def spelling : List Char := n.sign ++ n.integral ++ n.fraction

/-- The double of the digits. -/
def value : Float := Number.ofDigits n.negative n.integral n.fractional 0

end Numeral

/-- Digits come before all letters and the underscore. -/
theorem toNat_le_of_isDigit {c : Char} (h : c.isDigit = true) : c.val.toNat ≤ 57 := by
  simp only [Char.isDigit, Bool.and_eq_true, decide_eq_true_eq] at h
  exact h.2

theorem toLower_of_isDigit {c : Char} (h : c.isDigit = true) : c.toLower = c := by
  have hle := toNat_le_of_isDigit h
  have hupper : ¬ (c.val ≥ 'A'.val ∧ c.val ≤ 'Z'.val) := by
    rintro ⟨hge, -⟩
    have hge : 65 ≤ c.val.toNat := hge
    omega
  unfold Char.toLower
  rw [dif_neg hupper]

theorem isNameStart_of_isDigit {c : Char} (h : c.isDigit = true) : Text.isNameStart c = false := by
  have hle := toNat_le_of_isDigit h
  have hupper : c.isUpper = false := by
    have hless : ¬ c.val ≥ 'A'.val := by
      intro hge
      have hge : 65 ≤ c.val.toNat := hge
      omega
    exact decide_eq_false fun hrange => hless hrange.1
  have hlower : c.isLower = false := by
    have hless : ¬ c.val ≥ 'a'.val := by
      intro hge
      have hge : 97 ≤ c.val.toNat := hge
      omega
    exact Bool.and_eq_false_imp.mpr fun hge => absurd (of_decide_eq_true hge) hless
  have hunderscore : (c == '_') = false := by
    rw [beq_eq_false_iff_ne]
    rintro rfl
    cases h
  show (c.isUpper || c.isLower || c == '_') = false
  rw [hupper, hlower, hunderscore]
  rfl

/-- A run of characters of a class ends where a character of another class follows. -/
theorem takeWhile_append_of_head {q : Char → Bool} {cs rest : List Char}
    (hcs : ∀ c ∈ cs, q c = true) (hrest : ∀ c, rest.head? = some c → q c = false) :
    (cs ++ rest).takeWhile q = cs := by
  rw [List.takeWhile_append_of_pos hcs]
  cases rest with
  | nil => simp
  | cons c rest => simp [hrest c rfl]

theorem dropWhile_append_of_head {q : Char → Bool} {cs rest : List Char}
    (hcs : ∀ c ∈ cs, q c = true) (hrest : ∀ c, rest.head? = some c → q c = false) :
    (cs ++ rest).dropWhile q = rest := by
  rw [List.dropWhile_append_of_pos hcs]
  cases rest with
  | nil => simp
  | cons c rest => simp [hrest c rfl]

namespace Numeral

variable (n : Numeral)

theorem head?_fraction {c : Char} (h : n.fraction.head? = some c) : c = '.' := by
  unfold fraction at h
  split at h
  · cases h
  · simpa using h.symm

theorem readUnsigned?_digits :
    Number.readUnsigned? n.negative (n.integral ++ n.fraction) = some n.value := by
  have hhead : ∀ c, n.fraction.head? = some c → c.isDigit = false := by
    intro c hc
    rw [n.head?_fraction hc]
    rfl
  have hintegral : n.integral.isEmpty = false := by simpa using n.integral_ne_nil
  unfold Number.readUnsigned?
  simp only [takeWhile_append_of_head n.isDigit_integral hhead,
    dropWhile_append_of_head n.isDigit_integral hhead]
  cases hfractional : n.fractional with
  | nil => simp [fraction, hfractional, hintegral, value]
  | cons d ds =>
      have hend : ∀ c, ([] : List Char).head? = some c → c.isDigit = false := by simp
      have htake : (n.fractional ++ []).takeWhile Char.isDigit = n.fractional :=
        takeWhile_append_of_head n.isDigit_fractional hend
      have hdrop : (n.fractional ++ []).dropWhile Char.isDigit = [] :=
        dropWhile_append_of_head n.isDigit_fractional hend
      rw [hfractional, List.append_nil] at htake hdrop
      simp [fraction, hfractional, hintegral, htake, hdrop, value]

/-- What starts with a digit is none of the words for numbers. -/
theorem lower_ne_word {cs : List Char} {word : String} {d : Char}
    (hcs : ∃ c, cs.head? = some c ∧ c.isDigit = true) (hword : word.toList.head? = some d)
    (hd : d.isDigit = false) : (String.ofList (cs.map Char.toLower) == word) = false := by
  obtain ⟨c, hhead, hc⟩ := hcs
  rw [beq_eq_false_iff_ne]
  rintro rfl
  rw [String.toList_ofList, List.head?_map, hhead, Option.map_some, toLower_of_isDigit hc] at hword
  cases hword
  rw [hc] at hd
  cases hd

theorem head?_digits : ∃ c, (n.integral ++ n.fraction).head? = some c ∧ c.isDigit = true := by
  cases hintegral : n.integral with
  | nil => exact absurd hintegral n.integral_ne_nil
  | cons c cs => exact ⟨c, rfl, n.isDigit_integral c (by simp [hintegral])⟩

theorem spelling_of_negative (h : n.negative = true) :
    n.spelling = '-' :: (n.integral ++ n.fraction) := by
  simp [spelling, sign, h]

theorem spelling_of_not_negative (h : n.negative = false) :
    n.spelling = n.integral ++ n.fraction := by
  simp [spelling, sign, h]

/-- **A numeral stands for the double of its digits.** -/
theorem read?_spelling : Number.read? (String.ofList n.spelling) = some n.value := by
  have hread : ∀ negative, n.negative = negative →
      (if (String.ofList ((n.integral ++ n.fraction).map Char.toLower) == "inf" ||
          String.ofList ((n.integral ++ n.fraction).map Char.toLower) == "infinity") = true then
        some (if negative = true then -(1.0 / 0.0) else 1.0 / 0.0)
      else if (String.ofList ((n.integral ++ n.fraction).map Char.toLower) == "nan") = true then
        some (0.0 / 0.0)
      else Number.readUnsigned? negative (n.integral ++ n.fraction)) = some n.value := by
    rintro negative rfl
    simp only [lower_ne_word n.head?_digits (rfl : "inf".toList.head? = some 'i') rfl,
      lower_ne_word n.head?_digits (rfl : "infinity".toList.head? = some 'i') rfl,
      lower_ne_word n.head?_digits (rfl : "nan".toList.head? = some 'n') rfl, Bool.or_self,
      Bool.false_eq_true, if_false]
    exact n.readUnsigned?_digits
  cases hnegative : n.negative with
  | true =>
      rw [Number.read?, String.toList_ofList, n.spelling_of_negative hnegative]
      exact hread true hnegative
  | false =>
      obtain ⟨c, hhead, hc⟩ := n.head?_digits
      rw [Number.read?, String.toList_ofList, n.spelling_of_not_negative hnegative]
      -- A digit is no sign.
      split
      rename_i hmatch
      split at hmatch
      · rename_i heq
        rw [heq] at hhead
        cases hhead
        cases hc
      · rename_i heq
        rw [heq] at hhead
        cases hhead
        cases hc
      · cases hmatch
        exact hread false hnegative

end Numeral

/-! ### Values and attributes -/

/-- A character of a string as it is written: quotes and backslashes take a backslash. -/
def Literal.escape (c : Char) : List Char :=
  if c == '"' || c == '\\' then ['\\', c] else [c]

theorem Literal.escape_of_ne {c : Char} (hquote : c ≠ '"') (hbackslash : c ≠ '\\') :
    Literal.escape c = [c] := by
  simp [escape, hquote, hbackslash]

/-- A string in quotes. -/
def Literal.quoted (value : List Char) : List Char :=
  '"' :: value.flatMap Literal.escape ++ ['"']

/-- **How a value is written.**  A number is written as any numeral that is read as the number. -/
def Literal.Written : Literal → List Char → Prop
  | .string value, cs => cs = Literal.quoted value.toList
  | .number x, cs =>
    ∃ n : Numeral, cs = n.spelling ∧ Number.read? (String.ofList n.spelling) = some x
  | .bool b, cs => cs = (if b then "true" else "false").toList
  | .word spelling, cs => cs = spelling.toList

/-- A name that is none of the truth values. -/
def IsPlainName (name : String) : Prop :=
  Text.isName name.toList = true ∧ name ≠ "true" ∧ name ≠ "false"

/-- **A value that can be written**: any string, any truth value, a name, or a number that has a
numeral. -/
def Literal.IsNormal : Literal → Prop
  | .string _ => True
  | .number x => ∃ n : Numeral, Number.read? (String.ofList n.spelling) = some x
  | .bool _ => True
  | .word spelling => IsPlainName spelling

theorem Literal.IsNormal.exists_written {l : Literal} (h : l.IsNormal) : ∃ cs, l.Written cs := by
  cases l with
  | string value => exact ⟨_, rfl⟩
  | number x =>
      obtain ⟨n, hn⟩ := h
      exact ⟨_, n, rfl, hn⟩
  | bool b => exact ⟨_, rfl⟩
  | word spelling => exact ⟨_, rfl⟩

/-- An attribute is its name, an equals sign and its value. -/
def Attribute.Written (a : Attribute) (cs : List Char) : Prop :=
  ∃ value, a.value.Written value ∧ cs = a.name.toList ++ '=' :: value

/-- An attribute that can be written. -/
def Attribute.IsNormal (a : Attribute) : Prop :=
  IsPlainName a.name ∧ a.value.IsNormal

theorem Attribute.IsNormal.exists_written {a : Attribute} (h : a.IsNormal) :
    ∃ cs, a.Written cs := by
  obtain ⟨value, hvalue⟩ := h.2.exists_written
  exact ⟨_, value, hvalue, rfl⟩

/-! ### Lists -/

/-- Items one after the other, with a comma in front of each. -/
def Following {α : Type} (written : α → List Char → Prop) : List α → List Char → Prop
  | [], cs => cs = []
  | item :: rest, cs =>
    ∃ front back, written item front ∧ Following written rest back ∧ cs = ',' :: (front ++ back)

/-- **Items with commas between them.** -/
def Listed {α : Type} (written : α → List Char → Prop) : List α → List Char → Prop
  | [], cs => cs = []
  | item :: rest, cs =>
    ∃ front back, written item front ∧ Following written rest back ∧ cs = front ++ back

section

variable {α : Type} {written : α → List Char → Prop} {items : List α}

theorem exists_following (h : ∀ item ∈ items, ∃ cs, written item cs) :
    ∃ cs, Following written items cs := by
  induction items with
  | nil => exact ⟨[], rfl⟩
  | cons item rest ih =>
      obtain ⟨front, hfront⟩ := h item List.mem_cons_self
      obtain ⟨back, hback⟩ := ih fun item hitem => h item (List.mem_cons_of_mem _ hitem)
      exact ⟨_, front, back, hfront, hback, rfl⟩

theorem exists_listed (h : ∀ item ∈ items, ∃ cs, written item cs) :
    ∃ cs, Listed written items cs := by
  cases items with
  | nil => exact ⟨[], rfl⟩
  | cons item rest =>
      obtain ⟨front, hfront⟩ := h item List.mem_cons_self
      obtain ⟨back, hback⟩ :=
        exists_following fun item hitem => h item (List.mem_cons_of_mem _ hitem)
      exact ⟨_, front, back, hfront, hback, rfl⟩

end

/-! ### Headers -/

/-- Attributes in brackets, if there are any. -/
def Bracketed : List Attribute → List Char → Prop
  | [], cs => cs = []
  | a :: rest, cs =>
    ∃ inside, Listed Attribute.Written (a :: rest) inside ∧ cs = '[' :: inside ++ [']']

/-- **How a header is written**: parameters in parentheses even if there are none, and
attributes. -/
def Header.Written (header : Header) (cs : List Char) : Prop :=
  ∃ params attributes, Listed Literal.Written header.params params ∧
    Bracketed header.attributes attributes ∧ cs = '(' :: params ++ ')' :: attributes

/-- A header that can be written. -/
def Header.IsNormal (header : Header) : Prop :=
  (∀ l ∈ header.params, l.IsNormal) ∧ ∀ a ∈ header.attributes, a.IsNormal

theorem exists_bracketed {attributes : List Attribute} (h : ∀ a ∈ attributes, a.IsNormal) :
    ∃ cs, Bracketed attributes cs := by
  cases attributes with
  | nil => exact ⟨[], rfl⟩
  | cons a rest =>
      obtain ⟨inside, hinside⟩ := exists_listed fun a ha => (h a ha).exists_written
      exact ⟨_, inside, hinside, rfl⟩

/-- Every header that can be written is written somehow. -/
theorem Header.IsNormal.exists_written {header : Header} (h : header.IsNormal) :
    ∃ cs, header.Written cs := by
  obtain ⟨params, hparams⟩ := exists_listed fun l hl => (h.1 l hl).exists_written
  obtain ⟨attributes, hattributes⟩ := exists_bracketed h.2
  exact ⟨_, params, attributes, hparams, hattributes, rfl⟩

end TaggedText
