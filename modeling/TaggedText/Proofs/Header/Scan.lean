import TaggedText.Proofs.Header.Written

/-!
# What is cut out at the front of a text

Tokens are cut at their longest: a name or a numeral is cut out with as much of what follows as can
belong to it, and in front of what cannot it is cut out as it is.  So a token never depends on more
than how far the characters behind it can go on.

`Header.CutOut` says both at once of a text.  It is found at least, wherever it stands, and in front
of what breaks it off nothing more is found.  What breaks a token off is the end of the text, or a
character that neither goes on with a name nor is a point (`Breaks`); every delimiter is such a
character (`Ends`).  There is one lemma for each kind of token, and `CutOut.scan_eq` is the form in
which they are used.

The rest of a string behind its opening quote (`Quoted`) is the one kind that is not a run of
characters of a class, and it gets an inductive definition.
-/

namespace TaggedText.Header

/-! ### Delimiters -/

/-- The characters that are tokens by themselves. -/
def delimiters : List Char :=
  ['(', ')', '[', ']', ',', '=']

theorem mem_of_delimiter? {d : Char} {token : Token} (h : delimiter? d = some token) :
    d ∈ delimiters := by
  unfold delimiters
  unfold delimiter? at h
  simp only [beq_iff_eq] at h
  split at h
  · simp [*]
  split at h
  · simp [*]
  split at h
  · simp [*]
  split at h
  · simp [*]
  split at h
  · simp [*]
  split at h
  · simp [*]
  · cases h

/-- A delimiter ends every token in front of it. -/
structure Ends (d : Char) : Prop where
  notNameChar : Text.isNameChar d = false
  notDigit : d.isDigit = false
  notPoint : d ≠ '.'
  notGap : isGap d = false

theorem ends_of_delimiter? {d : Char} {token : Token} (h : delimiter? d = some token) : Ends d := by
  have hname : delimiters.any Text.isNameChar = false := by decide
  have hdigit : delimiters.any Char.isDigit = false := by decide
  have hgap : delimiters.any isGap = false := by decide
  have hpoint : '.' ∉ delimiters := by decide
  have hmem := mem_of_delimiter? h
  rw [List.any_eq_false] at hname hdigit hgap
  refine ⟨?_, ?_, ?_, ?_⟩
  · exact Bool.eq_false_iff.mpr (hname d hmem)
  · exact Bool.eq_false_iff.mpr (hdigit d hmem)
  · rintro rfl
    exact hpoint hmem
  · exact Bool.eq_false_iff.mpr (hgap d hmem)

/-- What is no delimiter by its class. -/
theorem delimiter?_eq_none {q : Char → Bool} {c : Char}
    (hq : delimiters.any q = false) (hc : q c = true) : delimiter? c = none := by
  cases h : delimiter? c with
  | none => rfl
  | some token => exact absurd hc (List.any_eq_false.mp hq c (mem_of_delimiter? h))

/-- What is no gap by its class. -/
theorem isGap_eq_false {q : Char → Bool} {c : Char}
    (hq : [' ', '\t', '\n', '\r'].any q = false) (hc : q c = true) : isGap c = false := by
  cases h : isGap c with
  | false => rfl
  | true =>
      have hmem : c ∈ [' ', '\t', '\n', '\r'] := by simpa [isGap, or_assoc] using h
      exact absurd hc (List.any_eq_false.mp hq c hmem)

/-! ### What breaks a token off -/

/-- **What can be no part of a token in front of it**: nothing at all, or what does not begin as a
name or a numeral goes on. -/
def Breaks (cs : List Char) : Prop :=
  ∀ d, cs.head? = some d → Text.isNameChar d = false ∧ d ≠ '.'

theorem breaks_nil : Breaks [] :=
  nofun

theorem breaks_cons {d : Char} {cs : List Char} (h : Text.isNameChar d = false) (hpoint : d ≠ '.') :
    Breaks (d :: cs) := by
  rintro e ⟨⟩
  exact ⟨h, hpoint⟩

theorem Ends.breaks {d : Char} (h : Ends d) (rest : List Char) : Breaks (d :: rest) :=
  breaks_cons h.notNameChar h.notPoint

theorem isDigit_eq_false_of_isNameChar {d : Char} (h : Text.isNameChar d = false) :
    d.isDigit = false := by
  simp only [Text.isNameChar, Char.isAlphanum, Bool.or_eq_false_iff] at h
  exact h.1.1.2

variable {run cs behind : List Char} {token : Token} {c : Char}

theorem Breaks.takeWhile_isNameChar (h : Breaks behind) :
    behind.takeWhile Text.isNameChar = [] :=
  @takeWhile_append_of_head _ [] behind nofun fun d hd => (h d hd).1

theorem Breaks.dropWhile_isNameChar (h : Breaks behind) :
    behind.dropWhile Text.isNameChar = behind :=
  @dropWhile_append_of_head _ [] behind nofun fun d hd => (h d hd).1

theorem Breaks.takeWhile_isDigit (h : Breaks behind) : behind.takeWhile Char.isDigit = [] :=
  @takeWhile_append_of_head _ [] behind nofun fun d hd => isDigit_eq_false_of_isNameChar (h d hd).1

theorem Breaks.dropWhile_isDigit (h : Breaks behind) : behind.dropWhile Char.isDigit = behind :=
  @dropWhile_append_of_head _ [] behind nofun fun d hd => isDigit_eq_false_of_isNameChar (h d hd).1

/-! ### What is cut out -/

/-- **A text is cut out wherever it stands**: as a token, perhaps with some of what follows; and in
front of what breaks it off with nothing more, as `token`. -/
def CutOut (run : List Char) (token : Token) : Prop :=
  ∀ c cs behind, c :: cs = run ++ behind →
    ∃ found more rest, scan c cs = ⟨some found, run ++ more, rest⟩ ∧
      (Breaks behind → found = token ∧ more = [] ∧ rest = behind)

theorem CutOut.scan_eq (h : CutOut run token) (hcs : c :: cs = run ++ behind)
    (hbreaks : Breaks behind) : scan c cs = ⟨some token, run, behind⟩ := by
  obtain ⟨found, more, rest, hscan, hexact⟩ := h c cs behind hcs
  obtain ⟨rfl, rfl, rfl⟩ := hexact hbreaks
  rw [hscan, List.append_nil]

theorem cutOut_delimiter (h : delimiter? c = some token) : CutOut [c] token := by
  intro d cs behind hcs
  obtain ⟨rfl, rfl⟩ := List.cons.inj hcs
  refine ⟨token, [], cs, ?_, fun _ => ⟨rfl, rfl, rfl⟩⟩
  simp only [scan, h]
  rfl

/-- A name is cut out with the name characters that follow it. -/
theorem cutOut_name {name : List Char} (h : Text.isName name = true) :
    CutOut name (wordToken (String.ofList name)) := by
  intro c cs behind hcs
  cases name with
  | nil => cases h
  | cons d name =>
      obtain ⟨rfl, rfl⟩ := List.cons.inj hcs
      simp only [Text.isName, Bool.and_eq_true, List.all_eq_true] at h
      obtain ⟨hc, hname⟩ := h
      refine ⟨wordToken (String.ofList (c :: name ++ behind.takeWhile Text.isNameChar)),
        behind.takeWhile Text.isNameChar, behind.dropWhile Text.isNameChar, ?_, fun hbreaks => ?_⟩
      · unfold scan
        simp only [delimiter?_eq_none (q := Text.isNameStart) (by decide) hc, hc, if_true,
          List.append_eq, List.takeWhile_append_of_pos hname, List.dropWhile_append_of_pos hname,
          List.cons_append]
      · rw [hbreaks.takeWhile_isNameChar, hbreaks.dropWhile_isNameChar, List.append_nil]
        exact ⟨rfl, rfl, rfl⟩

/-- A numeral is cut out with the digits that follow it, and with a fraction if it has none. -/
theorem exists_scanNumber_numeral (n : Numeral) (behind : List Char) :
    ∃ found more rest,
      scanNumber n.negative n.sign (n.integral ++ n.fraction ++ behind) =
        ⟨some found, n.spelling ++ more, rest⟩ ∧
      (Breaks behind → found = .number n.value ∧ more = [] ∧ rest = behind) := by
  cases hfractional : n.fractional with
  | cons d ds =>
      have hfraction : n.fraction = '.' :: n.fractional := by
        simp [Numeral.fraction, hfractional]
      have hpoint : ∀ c, ('.' :: (n.fractional ++ behind)).head? = some c → c.isDigit = false := by
        rintro c ⟨⟩
        rfl
      have hne : (n.fractional ++ behind.takeWhile Char.isDigit).isEmpty = false := by
        simp [hfractional]
      refine ⟨.number (Number.ofDigits n.negative n.integral
        (n.fractional ++ behind.takeWhile Char.isDigit) 0), behind.takeWhile Char.isDigit,
        behind.dropWhile Char.isDigit, ?_, fun hbreaks => ?_⟩
      · rw [hfraction, List.append_assoc, List.cons_append]
        unfold scanNumber
        simp only [takeWhile_append_of_head n.isDigit_integral hpoint,
          dropWhile_append_of_head n.isDigit_integral hpoint,
          List.takeWhile_append_of_pos n.isDigit_fractional,
          List.dropWhile_append_of_pos n.isDigit_fractional, hne, Bool.false_eq_true, if_false]
        simp [Numeral.spelling, hfraction]
      · rw [hbreaks.takeWhile_isDigit, hbreaks.dropWhile_isDigit, List.append_nil]
        exact ⟨rfl, rfl, rfl⟩
  | nil =>
      have hfraction : n.fraction = [] := by simp [Numeral.fraction, hfractional]
      have hspelling : n.spelling = n.sign ++ n.integral := by
        rw [Numeral.spelling, hfraction, List.append_nil]
      rw [hfraction, List.append_nil]
      unfold scanNumber
      simp only [List.takeWhile_append_of_pos n.isDigit_integral,
        List.dropWhile_append_of_pos n.isDigit_integral, hspelling, List.append_assoc]
      -- Without a fraction behind it, the numeral is cut out with more digits.
      have hwhole : ∃ found more rest,
          (⟨some (.number (Number.ofDigits n.negative
            (n.integral ++ behind.takeWhile Char.isDigit) [] 0)),
            n.sign ++ (n.integral ++ behind.takeWhile Char.isDigit),
            behind.dropWhile Char.isDigit⟩ : Scan) =
            ⟨some found, n.sign ++ (n.integral ++ more), rest⟩ ∧
          (Breaks behind → found = .number n.value ∧ more = [] ∧ rest = behind) := by
        refine ⟨_, _, _, rfl, fun hbreaks => ?_⟩
        rw [hbreaks.takeWhile_isDigit, hbreaks.dropWhile_isDigit, List.append_nil, Numeral.value,
          hfractional]
        exact ⟨rfl, rfl, rfl⟩
      split
      · next rest hpoint =>
          split
          · exact hwhole
          · refine ⟨_, behind.takeWhile Char.isDigit ++ '.' :: rest.takeWhile Char.isDigit, _, rfl,
              fun hbreaks => ?_⟩
            -- What follows would begin with the point.
            rw [hbreaks.dropWhile_isDigit] at hpoint
            exact absurd rfl (hbreaks '.' (by rw [hpoint]; rfl)).2
      · exact hwhole

theorem cutOut_numeral (n : Numeral) : CutOut n.spelling (.number n.value) := by
  intro c cs behind hcs
  obtain ⟨found, more, rest, hscan, hexact⟩ := exists_scanNumber_numeral n behind
  refine ⟨found, more, rest, ?_, hexact⟩
  rw [← hscan]
  obtain ⟨d, hhead, hd⟩ := n.head?_digits
  obtain ⟨ds, hdigits⟩ := List.head?_eq_some_iff.mp hhead
  cases hnegative : n.negative with
  | true =>
      have hsign : n.sign = ['-'] := by simp [Numeral.sign, hnegative]
      rw [n.spelling_of_negative hnegative] at hcs
      obtain ⟨rfl, rfl⟩ := List.cons.inj hcs
      rw [hsign, hdigits]
      -- The sign is taken together with the digit behind it.
      show (if d.isDigit then _ else _) = _
      rw [if_pos hd]
      rfl
  | false =>
      have hsign : n.sign = [] := by simp [Numeral.sign, hnegative]
      rw [n.spelling_of_not_negative hnegative, hdigits] at hcs
      obtain ⟨rfl, rfl⟩ := List.cons.inj hcs
      rw [hsign, hdigits]
      unfold scan
      simp only [delimiter?_eq_none (q := Char.isDigit) (by decide) hd, isNameStart_of_isDigit hd,
        hd, Bool.false_eq_true, if_false, if_true]
      rfl

/-! ### Strings -/

/-- **The elements of a string and its closing quote**, with the characters they stand for.  A
backslash takes any character with it that ends no line. -/
inductive Quoted : List Char → List Char → Prop
  | close : Quoted [] ['"']
  | escape {c : Char} {value cs : List Char} :
      c ≠ '\n' → Quoted value cs → Quoted (unescape c :: value) ('\\' :: c :: cs)
  | char {c : Char} {value cs : List Char} :
      c ≠ '"' → c ≠ '\\' → Quoted value cs → Quoted (c :: value) (c :: cs)

/-- A string is cut out whole, and nothing more. -/
theorem Quoted.scanString {value cs : List Char} (h : Quoted value cs) (before text : List Char)
    (behind : List Char) :
    scanString before text (cs ++ behind) =
      ⟨some (.string (String.ofList (before.reverse ++ value))), text.reverse ++ cs, behind⟩ := by
  induction h generalizing before text with
  | close => simp [Header.scanString]
  | @escape c value cs hfeed _ ih =>
      have hfeed' : ¬ (c == '\n') = true := by simpa using hfeed
      rw [List.cons_append, List.cons_append, Header.scanString, if_neg hfeed', ih]
      simp
  | @char c value cs hquote hbackslash _ ih =>
      rw [List.cons_append, Header.scanString, ih]
      · simp
      · exact hquote
      · exact fun heq => absurd heq hbackslash
      · exact fun _ _ heq => absurd heq hbackslash

theorem Quoted.cutOut {value cs : List Char} (h : Quoted value cs) :
    CutOut ('"' :: cs) (.string (String.ofList value)) := by
  intro c cs' behind hcs
  obtain ⟨rfl, rfl⟩ := List.cons.inj hcs
  refine ⟨_, [], behind, ?_, fun _ => ⟨rfl, rfl, rfl⟩⟩
  rw [List.append_nil]
  exact h.scanString [] ['"'] behind

/-! ### Where a token begins -/

theorem exists_cons_of_isName {name : List Char} (h : Text.isName name = true) :
    ∃ c cs, name = c :: cs ∧ isGap c = false := by
  cases name with
  | nil => cases h
  | cons c name =>
      have hc : Text.isNameStart c = true := (Bool.and_eq_true_iff.mp h).1
      exact ⟨c, name, rfl, isGap_eq_false (q := Text.isNameStart) (by decide) hc⟩

theorem exists_cons_of_numeral (n : Numeral) : ∃ c cs, n.spelling = c :: cs ∧ isGap c = false := by
  cases hnegative : n.negative with
  | true => exact ⟨'-', _, n.spelling_of_negative hnegative, rfl⟩
  | false =>
      obtain ⟨d, hhead, hd⟩ := n.head?_digits
      obtain ⟨ds, hdigits⟩ := List.head?_eq_some_iff.mp hhead
      exact ⟨d, ds, by rw [n.spelling_of_not_negative hnegative, hdigits],
        isGap_eq_false (q := Char.isDigit) (by decide) hd⟩

end TaggedText.Header
