import TaggedText.Header.Extent
import TaggedText.Proofs.Header.Written

/-!
# The extent of written headers

A header as it is written is found whole in front of what follows it: no closing delimiter stands in
it outside of quotes, and every quote in a string is escaped.

`Header.Passes` is a text that the search for a closing delimiter walks over.  It is closed under
appending, so `extent_of_written` is put together from the values of the header and the commas
between them; about a delimiter only that matters by which it tells itself from values
(`IsClosing`).
-/

namespace TaggedText

variable {l : Literal} {cs : List Char}

/-! ### Characters of values -/

theorem Text.ne_of_isNameChar {c d : Char} (h : Text.isNameChar c = true)
    (hd : Text.isNameChar d = false) : c ≠ d := by
  rintro rfl
  rw [h] at hd
  cases hd

theorem Text.isNameChar_of_mem_name {name : List Char} (h : Text.isName name = true) {c : Char}
    (hc : c ∈ name) : Text.isNameChar c = true := by
  cases name with
  | nil => cases hc
  | cons d rest =>
      simp only [Text.isName, Bool.and_eq_true, List.all_eq_true] at h
      rcases List.mem_cons.mp hc with rfl | hmem
      · exact Text.isNameChar_of_isNameStart h.1
      · exact h.2 c hmem

/-- The characters of numerals: digits, the minus sign and the point. -/
theorem Numeral.mem_spelling (n : Numeral) {c : Char} (hc : c ∈ n.spelling) :
    c = '-' ∨ c = '.' ∨ c.isDigit = true := by
  simp only [spelling, sign, fraction, List.mem_append] at hc
  rcases hc with (hsign | hintegral) | hfraction
  · split at hsign
    · exact .inl (by simpa using hsign)
    · cases hsign
  · exact .inr (.inr (n.isDigit_integral c hintegral))
  · split at hfraction
    · cases hfraction
    · rcases List.mem_cons.mp hfraction with rfl | hmem
      · exact .inr (.inl rfl)
      · exact .inr (.inr (n.isDigit_fractional c hmem))

namespace Header

/-! ### Finding the end -/

/-- **The search for a closing delimiter walks over the text.** -/
def Passes (close : Char) (cs : List Char) : Prop :=
  ∀ taken rest,
    skipList close false taken (cs ++ rest) = skipList close false (cs.reverse ++ taken) rest

variable {close : Char}

theorem Passes.nil : Passes close [] :=
  fun _ _ => rfl

theorem Passes.append {ds : List Char} (hcs : Passes close cs) (hds : Passes close ds) :
    Passes close (cs ++ ds) := by
  intro taken rest
  rw [List.append_assoc, hcs, hds, List.reverse_append, List.append_assoc]

theorem Passes.cons {c : Char} (hc : c ≠ close) (hquote : c ≠ '"') (hcs : Passes close cs) :
    Passes close (c :: cs) := by
  intro taken rest
  rw [List.cons_append, skipList]
  simp only [beq_iff_eq, hc, if_false, beq_eq_false_iff_ne.mpr hquote]
  rw [hcs, List.reverse_cons, List.append_assoc]
  rfl

/-- A text without quotes and without the delimiter is walked over. -/
theorem Passes.of_forall (h : ∀ c ∈ cs, c ≠ close ∧ c ≠ '"') : Passes close cs := by
  induction cs with
  | nil => exact Passes.nil
  | cons c rest ih =>
      obtain ⟨hclose, hquote⟩ := h c List.mem_cons_self
      exact Passes.cons hclose hquote (ih fun c hc => h c (List.mem_cons_of_mem _ hc))

theorem skipList_quoted_cons {c : Char} {taken rest : List Char} (hc : c ≠ '\\') :
    skipList close true taken (c :: rest) = skipList close (c != '"') (c :: taken) rest := by
  rw [skipList]
  rintro d rest' rfl
  exact fun _ => hc rfl

/-- Within quotes the search goes on to the closing one. -/
theorem skipList_quoted (value taken rest : List Char) :
    skipList close true taken (value.flatMap Literal.escape ++ '"' :: rest) =
      skipList close false ('"' :: (value.flatMap Literal.escape).reverse ++ taken) rest := by
  induction value generalizing taken with
  | nil => rfl
  | cons c value ih =>
      by_cases hquote : c = '"'
      · subst hquote
        simp [Literal.escape, skipList, ih]
      by_cases hbackslash : c = '\\'
      · subst hbackslash
        simp [Literal.escape, skipList, ih]
      -- Any other character stands for itself and leaves the quotes open.
      have hinside : (c != '"') = true := by simpa using hquote
      rw [List.flatMap_cons, Literal.escape_of_ne hquote hbackslash, List.append_assoc,
        List.singleton_append, skipList_quoted_cons hbackslash, hinside, ih]
      simp

theorem Passes.quoted (hclose : close ≠ '"') (value : List Char) :
    Passes close (Literal.quoted value) := by
  intro taken rest
  have hopen : skipList close false taken ('"' :: (value.flatMap Literal.escape ++ '"' :: rest)) =
      skipList close true ('"' :: taken) (value.flatMap Literal.escape ++ '"' :: rest) := by
    rw [skipList, if_neg (by simpa using hclose.symm)]
    rfl
  have hshape : Literal.quoted value ++ rest =
      '"' :: (value.flatMap Literal.escape ++ '"' :: rest) := by
    simp [Literal.quoted]
  rw [hshape, hopen, skipList_quoted]
  simp [Literal.quoted]

/-- A closing delimiter is no part of a name or a numeral, and no quote. -/
structure IsClosing (close : Char) : Prop where
  notNameChar : Text.isNameChar close = false
  notPoint : close ≠ '.'
  notEquals : close ≠ '='
  notComma : close ≠ ','
  notQuote : close ≠ '"'

theorem isClosing_paren : IsClosing ')' := by
  constructor <;> decide

theorem isClosing_bracket : IsClosing ']' := by
  constructor <;> decide

theorem Passes.name (hclose : IsClosing close) {name : List Char} (h : Text.isName name = true) :
    Passes close name :=
  Passes.of_forall fun _ hc =>
    ⟨Text.ne_of_isNameChar (Text.isNameChar_of_mem_name h hc) hclose.notNameChar,
      Text.ne_of_isNameChar (Text.isNameChar_of_mem_name h hc) rfl⟩

theorem Passes.literal (hclose : IsClosing close) (hnormal : l.IsNormal) (h : l.Written cs) :
    Passes close cs := by
  cases l with
  | string value =>
      obtain rfl := h
      exact Passes.quoted hclose.notQuote value.toList
  | number x =>
      obtain ⟨n, rfl, -⟩ := h
      refine Passes.of_forall fun c hc => ?_
      have hname : c ≠ '.' → Text.isNameChar c = true := by
        intro hpoint
        rcases n.mem_spelling hc with rfl | rfl | hdigit
        · rfl
        · exact absurd rfl hpoint
        · simp [Text.isNameChar, Char.isAlphanum, hdigit]
      by_cases hpoint : c = '.'
      · subst hpoint
        exact ⟨hclose.notPoint.symm, by decide⟩
      · exact ⟨Text.ne_of_isNameChar (hname hpoint) hclose.notNameChar,
          Text.ne_of_isNameChar (hname hpoint) rfl⟩
  | bool b =>
      obtain rfl := h
      cases b <;> exact Passes.name hclose (by decide)
  | word spelling =>
      obtain rfl := h
      exact Passes.name hclose hnormal.1

theorem Passes.attribute (hclose : IsClosing close) {a : Attribute} (hnormal : a.IsNormal)
    (h : a.Written cs) : Passes close cs := by
  obtain ⟨value, hvalue, rfl⟩ := h
  exact (Passes.name hclose hnormal.1.1).append
    (Passes.cons hclose.notEquals.symm (by decide) (Passes.literal hclose hnormal.2 hvalue))

section

variable {α : Type} {written : α → List Char → Prop} {items : List α}

theorem Passes.following (hclose : IsClosing close)
    (hitems : ∀ item ∈ items, ∀ cs, written item cs → Passes close cs)
    (h : Following written items cs) : Passes close cs := by
  induction items generalizing cs with
  | nil =>
      obtain rfl := h
      exact Passes.nil
  | cons item rest ih =>
      obtain ⟨front, back, hfront, hback, rfl⟩ := h
      have hrest := ih (fun item hitem => hitems item (List.mem_cons_of_mem _ hitem)) hback
      exact Passes.cons hclose.notComma.symm (by decide)
        ((hitems item List.mem_cons_self front hfront).append hrest)

theorem Passes.listed (hclose : IsClosing close)
    (hitems : ∀ item ∈ items, ∀ cs, written item cs → Passes close cs)
    (h : Listed written items cs) : Passes close cs := by
  cases items with
  | nil =>
      obtain rfl := h
      exact Passes.nil
  | cons item rest =>
      obtain ⟨front, back, hfront, hback, rfl⟩ := h
      exact (hitems item List.mem_cons_self front hfront).append (Passes.following hclose
        (fun item hitem => hitems item (List.mem_cons_of_mem _ hitem)) hback)

end

/-- A list in delimiters is found whole. -/
theorem list?_of_passes (opener : Char) (h : Passes close cs) (rest : List Char) :
    list? opener close (opener :: cs ++ close :: rest) = some (opener :: cs ++ [close], rest) := by
  have hskip : skipList close false [opener] (cs ++ close :: rest) =
      some (close :: (cs.reverse ++ [opener]), rest) := by
    rw [h, skipList]
    simp
  simp [list?, hskip]

/-- Attributes are found whole, and none are found where none were written. -/
theorem list?_of_bracketed {attributes : List Attribute} (hnormal : ∀ a ∈ attributes, a.IsNormal)
    (h : Bracketed attributes cs) {rest : List Char} (hrest : rest.head? ≠ some '[') :
    list? '[' ']' (cs ++ rest) = some (cs, rest) := by
  cases attributes with
  | nil =>
      obtain rfl := h
      cases rest with
      | nil => rfl
      | cons c rest =>
          have hc : c ≠ '[' := by simpa using hrest
          simp [list?, hc]
  | cons a attributes =>
      obtain ⟨inside, hinside, rfl⟩ := h
      have hpasses : Passes ']' inside := Passes.listed isClosing_bracket
        (fun a ha _ => Passes.attribute isClosing_bracket (hnormal a ha)) hinside
      rw [List.append_assoc]
      exact list?_of_passes '[' hpasses rest

/-- **A written header is found whole**, where no bracket follows that could begin attributes. -/
theorem extent_of_written {header : Header} (hnormal : header.IsNormal) (h : header.Written cs)
    {rest : List Char} (hrest : rest.head? ≠ some '[') :
    extent (cs ++ rest) = .closed cs rest := by
  obtain ⟨params, attributes, hparams, hattributes, rfl⟩ := h
  have hpasses : Passes ')' params := Passes.listed isClosing_paren
    (fun l hl _ => Passes.literal isClosing_paren (hnormal.1 l hl)) hparams
  have hshape : '(' :: params ++ ')' :: attributes ++ rest =
      '(' :: params ++ ')' :: (attributes ++ rest) := by
    simp
  rw [hshape, extent, list?_of_passes '(' hpasses (attributes ++ rest)]
  simp only [list?_of_bracketed hnormal.2 hattributes hrest]
  simp

end Header

end TaggedText
