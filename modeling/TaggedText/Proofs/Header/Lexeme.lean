import TaggedText.Proofs.Header.RoundTrip

/-!
# The spellings of tokens

What a token looks like where it is cut out of a text, and what is cut out where no token begins.

`Header.Lexeme` is the spellings of each token, said without the scan: a delimiter is its character,
a name or a truth value its word, a number any of its numerals, and a string its quoted form.  The
two agree.  What is cut out as a token is a spelling of the token (`lexeme_of_scan`), and a spelling
is cut out as the token wherever it stands (`Lexeme.cutOut`).

Where no token begins, what is cut out is a single character or a string without end
(`scan_cases_of_none`).  The case of the string is the reason why the file also looks at the ends of
spellings: one that ends with a delimiter is the delimiter (`Lexeme.eq_singleton`), so what follows
a delimiter changes nothing in front of it (`scan_append`).
-/

namespace TaggedText.Header

/-! ### Spellings -/

/-- **The spellings of a token**: a delimiter, a name, a numeral or a string in quotes. -/
inductive Lexeme : Token → List Char → Prop
  | delimiter {c : Char} {token : Token} : delimiter? c = some token → Lexeme token [c]
  | word {name : List Char} :
      Text.isName name = true → Lexeme (wordToken (String.ofList name)) name
  | number (n : Numeral) : Lexeme (.number n.value) n.spelling
  | string {value cs : List Char} :
      Quoted value cs → Lexeme (.string (String.ofList value)) ('"' :: cs)

/-! ### Strings -/

theorem scanString_append_rest (value text cs : List Char) :
    (scanString value text cs).text ++ (scanString value text cs).rest = text.reverse ++ cs := by
  fun_induction scanString value text cs with
  | case1 => rfl
  | case2 => simp
  | case3 => rfl
  | case4 => rfl
  | case5 _ _ _ _ _ ih => rw [ih]; simp
  | case6 _ _ _ _ _ _ _ ih => rw [ih]; simp

/-- A string that is read to its end is its elements, and its closing quote. -/
theorem exists_quoted_of_scanString {value text cs full behind : List Char} {token : Token}
    (h : scanString value text cs = ⟨some token, full, behind⟩) :
    ∃ more run, Quoted more run ∧ token = .string (String.ofList (value.reverse ++ more)) ∧
      full = text.reverse ++ run ∧ cs = run ++ behind := by
  fun_induction scanString value text cs with
  | case1 => cases h
  | case2 value text rest =>
      cases h
      exact ⟨[], ['"'], .close, by simp, by simp, rfl⟩
  | case3 => cases h
  | case4 => cases h
  | case5 value text c rest hfeed ih =>
      obtain ⟨more, run, hquoted, htoken, rfl, rfl⟩ := ih h
      exact ⟨_, _, .escape (by simpa using hfeed) hquoted, by simpa using htoken, by simp, rfl⟩
  | case6 value text c rest hquote hlast hpair ih =>
      obtain ⟨more, run, hquoted, htoken, rfl, rfl⟩ := ih h
      -- A backslash here would stand in front of a character.
      have hbackslash : c ≠ '\\' := by
        rintro rfl
        cases hrest : run ++ behind with
        | nil => exact hlast rfl hrest
        | cons d rest => exact hpair d rest rfl hrest
      exact ⟨_, _, .char hquote hbackslash hquoted, by simpa using htoken, by simp, rfl⟩

/-! ### Numerals -/

/-- What is read behind a digit is a numeral, but for its sign. -/
theorem exists_numeral_of_scanNumber (negative : Bool) (sign : List Char) {c : Char}
    (hc : c.isDigit = true) (rest : List Char) :
    ∃ n : Numeral, n.negative = negative ∧ ∃ behind,
      c :: rest = n.integral ++ n.fraction ++ behind ∧
        scanNumber negative sign (c :: rest) =
          ⟨some (.number n.value), sign ++ (n.integral ++ n.fraction), behind⟩ := by
  have hintegral : (c :: rest).takeWhile Char.isDigit ≠ [] := by simp [hc]
  have hdigits : ∀ {cs : List Char}, ∀ d ∈ cs.takeWhile Char.isDigit, d.isDigit = true :=
    List.all_eq_true.mp List.all_takeWhile
  have hsplit := @List.takeWhile_append_dropWhile _ Char.isDigit (c :: rest)
  let whole : Numeral := ⟨negative, _, [], hintegral, hdigits, nofun⟩
  unfold scanNumber
  simp only
  split
  · next fractional hpoint =>
      split
      · refine ⟨whole, rfl, _, ?_, by simp [whole, Numeral.value, Numeral.fraction]; rfl⟩
        simp [whole, Numeral.fraction]
      · next hne =>
          let n : Numeral := ⟨negative, _, fractional.takeWhile Char.isDigit, hintegral, hdigits,
            hdigits⟩
          have hfraction : n.fraction = '.' :: fractional.takeWhile Char.isDigit := by
            simp only [n, Numeral.fraction, hne, Bool.false_eq_true, if_false]
          refine ⟨n, rfl, fractional.dropWhile Char.isDigit, ?_, ?_⟩
          · rw [hfraction, ← hsplit, hpoint]
            simp [n]
          · rw [hfraction]
            simp [n, Numeral.value]
  · refine ⟨whole, rfl, _, ?_, by simp [whole, Numeral.value, Numeral.fraction]; rfl⟩
    simp [whole, Numeral.fraction]

theorem lexeme_of_numeral {n : Numeral} {negative : Bool} (hn : n.negative = negative) :
    Lexeme (.number n.value) ((if negative then ['-'] else []) ++ (n.integral ++ n.fraction)) := by
  have hspelling : n.spelling = (if negative then ['-'] else []) ++ (n.integral ++ n.fraction) := by
    rw [Numeral.spelling, Numeral.sign, hn, List.append_assoc]
  exact hspelling ▸ .number n

/-! ### Pieces -/

/-- **What is cut out as a token is a spelling of the token**, and nothing is lost. -/
theorem lexeme_of_scan {c : Char} {rest text behind : List Char} {token : Token}
    (h : scan c rest = ⟨some token, text, behind⟩) :
    Lexeme token text ∧ c :: rest = text ++ behind := by
  unfold scan at h
  split at h
  · next hdelimiter =>
      cases h
      exact ⟨.delimiter hdelimiter, rfl⟩
  split at h
  · next hstart =>
      cases h
      refine ⟨.word ?_, ?_⟩
      · rw [Text.isName, hstart, List.all_takeWhile]
        rfl
      · rw [List.cons_append, List.takeWhile_append_dropWhile]
  split at h
  · next hdigit =>
      obtain ⟨n, hn, behind, hsplit, hscan⟩ :=
        exists_numeral_of_scanNumber false [] hdigit rest
      rw [hscan] at h
      cases h
      exact ⟨lexeme_of_numeral hn, hsplit⟩
  split at h
  · next hquote =>
      obtain rfl : c = '"' := by simpa using hquote
      obtain ⟨value, run, hquoted, rfl, rfl, rfl⟩ := exists_quoted_of_scanString h
      exact ⟨.string hquoted, rfl⟩
  split at h
  · next hminus =>
      obtain rfl : c = '-' := by simpa using hminus
      split at h
      · next d rest =>
          split at h
          · next hdigit =>
              obtain ⟨n, hn, behind, hsplit, hscan⟩ :=
                exists_numeral_of_scanNumber true ['-'] hdigit rest
              rw [hscan] at h
              cases h
              exact ⟨lexeme_of_numeral hn, by rw [hsplit]; simp⟩
          · cases h
      · cases h
  · cases h

/-- **What is cut out as no token** is one character, or a string that has no end. -/
theorem scan_cases_of_none {c : Char} {rest : List Char} (h : (scan c rest).token? = none) :
    (c = '"' ∧ scan c rest = scanString [] ['"'] rest) ∨
      (c ≠ '"' ∧ delimiter? c = none ∧ scan c rest = ⟨none, [c], rest⟩) := by
  by_cases hquote : c = '"'
  · subst hquote
    exact .inl ⟨rfl, rfl⟩
  refine .inr ⟨hquote, ?_⟩
  cases hdelimiter : delimiter? c with
  | some token =>
      simp only [scan, hdelimiter] at h
      cases h
  | none =>
      refine ⟨rfl, ?_⟩
      have hquote' : ¬ (c == '"') = true := by simpa using hquote
      simp only [scan, hdelimiter, if_neg hquote'] at h ⊢
      split at h
      · cases h
      next hname =>
      rw [if_neg hname]
      split at h
      · next hdigit =>
          obtain ⟨n, -, behind, -, hscan⟩ := exists_numeral_of_scanNumber false [] hdigit rest
          rw [hscan] at h
          cases h
      next hdigit =>
      rw [if_neg hdigit]
      split at h
      · next hminus =>
          rw [if_pos hminus]
          split at h
          · next d rest =>
              split at h
              · next hd =>
                  obtain ⟨n, -, behind, -, hscan⟩ :=
                    exists_numeral_of_scanNumber true ['-'] hd rest
                  rw [hscan] at h
                  cases h
              · next hd => rw [if_neg hd]
          · rfl
      · next hminus => rw [if_neg hminus]

/-- **A piece and what is left behind it are the text.** -/
theorem scan_append_rest (c : Char) (rest : List Char) :
    (scan c rest).text ++ (scan c rest).rest = c :: rest := by
  cases htoken : (scan c rest).token? with
  | some token =>
      have hscan : scan c rest = ⟨some token, (scan c rest).text, (scan c rest).rest⟩ := by
        rw [← htoken]
      exact (lexeme_of_scan hscan).2.symm
  | none =>
      rcases scan_cases_of_none htoken with ⟨rfl, hscan⟩ | ⟨-, -, hscan⟩
      · rw [hscan, scanString_append_rest]
        rfl
      · rw [hscan]
        rfl

/-! ### A token wherever it stands -/

section

variable {run : List Char} {token : Token}

/-- **A spelling is cut out as a token wherever it stands.** -/
theorem Lexeme.cutOut (h : Lexeme token run) : CutOut run token := by
  cases h with
  | delimiter hc => exact cutOut_delimiter hc
  | word hname => exact cutOut_name hname
  | number n => exact cutOut_numeral n
  | string hquoted => exact hquoted.cutOut

/-- A spelling begins with a character that is no gap. -/
theorem Lexeme.exists_cons (h : Lexeme token run) : ∃ c cs, run = c :: cs ∧ isGap c = false := by
  cases h with
  | delimiter hc => exact ⟨_, [], rfl, (ends_of_delimiter? hc).notGap⟩
  | word hname => exact exists_cons_of_isName hname
  | number n => exact exists_cons_of_numeral n
  | string _ => exact ⟨'"', _, rfl, rfl⟩

end

/-! ### The last character of a token -/

theorem Quoted.getLast?_eq {value cs : List Char} (h : Quoted value cs) :
    cs.getLast? = some '"' := by
  induction h with
  | close => rfl
  | escape _ _ ih => simp [List.getLast?_cons, ih]
  | char _ _ _ ih => simp [List.getLast?_cons, ih]

/-- **A spelling that ends with a delimiter is the delimiter.** -/
theorem Lexeme.eq_singleton {token t : Token} {text : List Char} {d : Char} (h : Lexeme token text)
    (hlast : text.getLast? = some d) (hd : delimiter? d = some t) : token = t ∧ text = [d] := by
  have hends := ends_of_delimiter? hd
  have hmem := List.mem_of_getLast? hlast
  cases h with
  | delimiter hc =>
      obtain rfl := Option.some.inj hlast
      exact ⟨Option.some.inj (hc.symm.trans hd), rfl⟩
  | word hname =>
      exact absurd (Text.isNameChar_of_mem_name hname hmem) (by simp [hends.notNameChar])
  | number n =>
      rcases n.mem_spelling hmem with rfl | rfl | hdigit
      · cases hends.notNameChar
      · exact absurd rfl hends.notPoint
      · exact absurd hdigit (by simp [hends.notDigit])
  | string hquoted =>
      rw [List.getLast?_cons, hquoted.getLast?_eq] at hlast
      cases hlast
      cases hd

/-! ### The search for the end of a list -/

theorem Quoted.skipList_append {close : Char} {value cs : List Char} (h : Quoted value cs)
    (taken rest : List Char) :
    skipList close true taken (cs ++ rest) = skipList close false (cs.reverse ++ taken) rest := by
  induction h generalizing taken with
  | close => rfl
  | escape _ _ ih => simp [skipList, ih]
  | @char c _ cs hquote hbackslash _ ih =>
      have hinside : (c != '"') = true := by simpa using hquote
      rw [List.cons_append, skipList_quoted_cons hbackslash, hinside, ih]
      simp

/-- **The search for a closing delimiter walks over every other token.** -/
theorem Lexeme.passes {close : Char} (hclose : IsClosing close) {token : Token} {text : List Char}
    (h : Lexeme token text) (hne : delimiter? close ≠ some token) : Passes close text := by
  cases h with
  | @delimiter c _ hc =>
      refine Passes.cons ?_ ?_ Passes.nil
      · rintro rfl
        exact hne hc
      · rintro rfl
        cases hc
  | word hname => exact Passes.name hclose hname
  | number n =>
      exact Passes.literal (l := .number n.value) hclose ⟨n, n.read?_spelling⟩
        ⟨n, rfl, n.read?_spelling⟩
  | @string value cs hquoted =>
      intro taken rest
      rw [List.cons_append, skipList, if_neg (by simpa using hclose.notQuote.symm)]
      rw [beq_self_eq_true, hquoted.skipList_append, List.reverse_cons, List.append_assoc]
      rfl

/-! ### What follows a token -/

section

variable {q : Char → Bool} {cs : List Char}

/-- A run that has ended does not go on in what is put behind. -/
theorem takeWhile_append_of_dropWhile_ne_nil (h : cs.dropWhile q ≠ []) (more : List Char) :
    (cs ++ more).takeWhile q = cs.takeWhile q := by
  rw [List.takeWhile_append, if_neg]
  intro hlength
  have hsplit := congrArg List.length (@List.takeWhile_append_dropWhile _ q cs)
  rw [List.length_append, hlength] at hsplit
  exact h (List.eq_nil_of_length_eq_zero (by omega))

theorem dropWhile_append_of_dropWhile_ne_nil (h : cs.dropWhile q ≠ []) (more : List Char) :
    (cs ++ more).dropWhile q = cs.dropWhile q ++ more := by
  rw [List.dropWhile_append, if_neg (by simpa using h)]

end

section

variable {cs text behind : List Char} {token : Token} {d : Char}

theorem scanString_append {value before : List Char}
    (h : scanString value before cs = ⟨some token, text, behind⟩) (more : List Char) :
    scanString value before (cs ++ more) = ⟨some token, text, behind ++ more⟩ := by
  fun_induction scanString value before cs with
  | case1 => cases h
  | case2 value before rest =>
      cases h
      rfl
  | case3 => cases h
  | case4 => cases h
  | case5 value before c rest hfeed ih =>
      rw [List.cons_append, List.cons_append, scanString, if_neg hfeed, ih h]
  | case6 value before c rest hquote hlast hpair ih =>
      rw [List.cons_append, scanString, ih h]
      · exact hquote
      · rintro rfl hnil
        exact hlast rfl (List.append_eq_nil_iff.mp hnil).1
      · rintro e rest' rfl heq
        cases rest with
        | nil => exact hlast rfl rfl
        | cons e rest => exact hpair e rest rfl rfl

/-- A numeral ends where a character follows that is no part of it. -/
theorem scanNumber_append {negative : Bool} {sign : List Char} (hd : Ends d)
    (h : scanNumber negative sign cs = ⟨some token, text, behind⟩)
    (hlast : behind.getLast? = some d) (more : List Char) :
    scanNumber negative sign (cs ++ more) = ⟨some token, text, behind ++ more⟩ := by
  have hbehind : behind ≠ [] := by
    rintro rfl
    cases hlast
  unfold scanNumber at h ⊢
  simp only at h ⊢
  cases hrest : cs.dropWhile Char.isDigit with
  | nil =>
      simp only [hrest] at h
      cases h
      exact absurd rfl hbehind
  | cons c fractional =>
      have hne : cs.dropWhile Char.isDigit ≠ [] := hrest ▸ List.cons_ne_nil _ _
      simp only [takeWhile_append_of_dropWhile_ne_nil hne, dropWhile_append_of_dropWhile_ne_nil hne,
        hrest, List.cons_append] at h ⊢
      split at h
      · next fractional' hpoint =>
          obtain ⟨rfl, rfl⟩ := List.cons.inj hpoint
          split at h
          · next hnone =>
              cases h
              -- The point is not the last character, so no digit comes behind it.
              have hfractional : fractional.dropWhile Char.isDigit ≠ [] := by
                intro hnil
                have hdigits := @List.takeWhile_append_dropWhile _ Char.isDigit fractional
                rw [hnil, List.isEmpty_iff.mp hnone] at hdigits
                rw [← hdigits] at hlast
                exact hd.notPoint (Option.some.inj hlast).symm
              show (if ((fractional ++ more).takeWhile Char.isDigit).isEmpty then _ else _) = _
              rw [takeWhile_append_of_dropWhile_ne_nil hfractional, if_pos hnone, List.cons_append]
          · next hsome =>
              cases h
              show (if ((fractional ++ more).takeWhile Char.isDigit).isEmpty then _ else _) = _
              rw [takeWhile_append_of_dropWhile_ne_nil hbehind, if_neg hsome,
                dropWhile_append_of_dropWhile_ne_nil hbehind]
      · next hpoint =>
          cases h
          split
          · next heq =>
              obtain ⟨rfl, rfl⟩ := List.cons.inj heq
              exact absurd rfl (hpoint fractional)
          · rfl

/-- **What follows a delimiter changes nothing in front of it.** -/
theorem scan_append {c : Char} (hd : Ends d) (h : scan c cs = ⟨some token, text, behind⟩)
    (hlast : behind.getLast? = some d) (more : List Char) :
    scan c (cs ++ more) = ⟨some token, text, behind ++ more⟩ := by
  have hbehind : behind ≠ [] := by
    rintro rfl
    cases hlast
  cases hdelimiter : delimiter? c with
  | some token' =>
      simp only [scan, hdelimiter] at h ⊢
      cases h
      rfl
  | none =>
      simp only [scan, hdelimiter] at h ⊢
      split at h
      · next hname =>
          cases h
          rw [if_pos hname, takeWhile_append_of_dropWhile_ne_nil hbehind,
            dropWhile_append_of_dropWhile_ne_nil hbehind]
      next hname =>
      rw [if_neg hname]
      split at h
      · next hdigit =>
          rw [if_pos hdigit]
          exact scanNumber_append hd h hlast more
      next hdigit =>
      rw [if_neg hdigit]
      split at h
      · next hquote =>
          rw [if_pos hquote]
          exact scanString_append h more
      next hquote =>
      rw [if_neg hquote]
      split at h
      · next hminus =>
          rw [if_pos hminus]
          split at h
          · next e rest =>
              split at h
              · next hdigit =>
                  rw [← scanNumber_append hd h hlast more]
                  exact if_pos hdigit
              · cases h
          · cases h
      · cases h

end

end TaggedText.Header
