import TaggedText.Header.Extent
import TaggedText.Proofs.Header.Written

/-!
# What accepted headers look like

Whatever header is read could have been written: its names are names and none of the truth values,
and its numbers have numerals.

The property goes from the characters to the header in three steps.  Every token that is cut out of
a text is in normal form (`isNormal_of_scan`).  A token does not enter the header at once, since the
name of an attribute waits in the stage for its value; so a stage is in normal form if its pending
name is (`Stage.IsNormal`), and a step keeps stages and headers in normal form.  `isNormal_readAt`
is the run of these steps.
-/

namespace TaggedText.Header

/-! ### Tokens -/

/-- **A token in normal form**: a name is none of the truth values, and a number has a numeral. -/
def Token.IsNormal : Token → Prop
  | .name spelling => IsPlainName spelling
  | .number x => ∃ n : Numeral, Number.read? (String.ofList n.spelling) = some x
  | _ => True

theorem Token.IsNormal.of_literal? {t : Token} {l : Literal} (h : t.IsNormal)
    (hl : t.literal? = some l) : l.IsNormal := by
  cases t with
  | bool b =>
      cases hl
      trivial
  | name spelling =>
      cases hl
      exact h
  | string value =>
      cases hl
      trivial
  | number x =>
      cases hl
      exact h
  | _ => cases hl

theorem Token.IsNormal.of_name? {t : Token} {name : String} (h : t.IsNormal)
    (hname : t.name? = some name) : IsPlainName name := by
  cases t with
  | name spelling =>
      cases hname
      exact h
  | _ => cases hname

/-- The truth values are no names, so every word is in normal form. -/
theorem isNormal_wordToken {spelling : String} (h : Text.isName spelling.toList = true) :
    (wordToken spelling).IsNormal := by
  unfold wordToken
  split
  · trivial
  · next htrue =>
      split
      · trivial
      · next hfalse => exact ⟨h, by simpa using htrue, by simpa using hfalse⟩

theorem isNormal_of_delimiter? {c : Char} {t : Token} (h : delimiter? c = some t) :
    t.IsNormal := by
  unfold delimiter? at h
  repeat' split at h
  all_goals first | cases h; trivial | cases h

/-- What is read behind a digit has a numeral. -/
theorem isNormal_of_scanNumber {negative : Bool} {sign rest : List Char} {c : Char}
    (hc : c.isDigit = true) {t : Token}
    (h : (scanNumber negative sign (c :: rest)).token? = some t) : t.IsNormal := by
  have hintegral : (c :: rest).takeWhile Char.isDigit ≠ [] := by simp [hc]
  have hdigits : ∀ {cs : List Char}, ∀ d ∈ cs.takeWhile Char.isDigit, d.isDigit = true :=
    List.all_eq_true.mp List.all_takeWhile
  have hnormal : ∀ fractional : List Char, (∀ d ∈ fractional, d.isDigit = true) →
      (Token.number (Number.ofDigits negative ((c :: rest).takeWhile Char.isDigit) fractional
        0)).IsNormal := by
    intro fractional hfractional
    let n : Numeral := ⟨negative, _, fractional, hintegral, hdigits, hfractional⟩
    exact ⟨n, n.read?_spelling⟩
  unfold scanNumber at h
  simp only at h
  split at h
  · split at h
    · cases h
      exact hnormal [] nofun
    · cases h
      exact hnormal _ hdigits
  · cases h
    exact hnormal [] nofun

theorem isNormal_of_scanString {value text cs : List Char} {t : Token}
    (h : (scanString value text cs).token? = some t) : t.IsNormal := by
  fun_induction scanString value text cs with
  | case1 => cases h
  | case2 =>
      cases h
      trivial
  | case3 => cases h
  | case4 => cases h
  | case5 _ _ _ _ _ ih => exact ih h
  | case6 _ _ _ _ _ _ _ ih => exact ih h

/-- **Every token that is cut out of a text is in normal form.** -/
theorem isNormal_of_scan {c : Char} {rest : List Char} {t : Token}
    (h : (scan c rest).token? = some t) : t.IsNormal := by
  unfold scan at h
  split at h
  · next hdelimiter =>
      cases h
      exact isNormal_of_delimiter? hdelimiter
  split at h
  · next hstart =>
      cases h
      refine isNormal_wordToken ?_
      rw [String.toList_ofList, Text.isName, hstart, List.all_takeWhile]
      rfl
  split at h
  · next hdigit => exact isNormal_of_scanNumber hdigit h
  split at h
  · exact isNormal_of_scanString h
  split at h
  · split at h
    · split at h
      · next hdigit => exact isNormal_of_scanNumber hdigit h
      · cases h
    · cases h
  · cases h

theorem isNormal_of_mem_pieces {offset : Nat} {cs : List Char} {p : Piece}
    (hp : p ∈ pieces offset cs) {t : Token} (ht : p.token? = some t) : t.IsNormal := by
  fun_induction pieces offset cs with
  | case1 => cases hp
  | case2 _ _ _ _ ih => exact ih hp
  | case3 _ _ _ _ _ _ ih =>
      rcases List.mem_cons.mp hp with rfl | hmem
      · exact isNormal_of_scan ht
      · exact ih hmem

theorem isNormal_of_mem_tokens {offset : Nat} {cs : List Char} {t : Token × Span}
    (h : t ∈ tokens (pieces offset cs)) : t.1.IsNormal := by
  obtain ⟨p, hp, hmap⟩ := List.mem_filterMap.mp h
  obtain ⟨token, htoken, rfl⟩ := Option.map_eq_some_iff.mp hmap
  exact isNormal_of_mem_pieces hp htoken

/-! ### Stages -/

/-- The name that awaits its value is in normal form. -/
def Stage.IsNormal : Stage → Prop
  | .afterName name => IsPlainName name
  | .afterEquals name => IsPlainName name
  | _ => True

/-- **A step in normal form**: it leads to a stage in normal form, and adds nothing else to a
header. -/
theorem Stage.isNormal_of_step {stage next : Stage} {token : Token} {add : Header → Header}
    (hstage : stage.IsNormal) (htoken : token.IsNormal)
    (h : stage.step token = some (next, add)) :
    next.IsNormal ∧ ∀ header : Header, header.IsNormal → (add header).IsNormal := by
  have hid : ∀ header : Header, header.IsNormal → (id header).IsNormal := fun _ h => h
  unfold step at h
  split at h
  case h_4 =>
    obtain ⟨value, hvalue, heq⟩ := Option.map_eq_some_iff.mp h
    cases heq
    refine ⟨trivial, fun header hheader => ⟨?_, hheader.2⟩⟩
    exact List.forall_mem_cons.mpr ⟨htoken.of_literal? hvalue, hheader.1⟩
  case h_9 =>
    obtain ⟨name, hname, heq⟩ := Option.map_eq_some_iff.mp h
    cases heq
    exact ⟨htoken.of_name? hname, hid⟩
  case h_10 =>
    cases h
    exact ⟨hstage, hid⟩
  case h_11 =>
    obtain ⟨value, hvalue, heq⟩ := Option.map_eq_some_iff.mp h
    cases heq
    refine ⟨trivial, fun header hheader => ⟨hheader.1, ?_⟩⟩
    exact List.forall_mem_cons.mpr ⟨⟨hstage, htoken.of_literal? hvalue⟩, hheader.2⟩
  -- No other token leaves a name pending or adds anything.
  all_goals first | (cases h; exact ⟨trivial, hid⟩) | cases h

/-! ### Headers -/

theorem isNormal_empty : IsNormal {} :=
  ⟨nofun, nofun⟩

theorem isNormal_of_readTokens {stage : Stage} {ts : List (Token × Span)} {header : Header}
    (hstage : stage.IsNormal) (hts : ∀ t ∈ ts, t.1.IsNormal)
    (h : readTokens stage ts = .ok header) : header.IsNormal := by
  induction ts generalizing stage header with
  | nil =>
      rw [readTokens] at h
      split at h
      · cases h
        exact isNormal_empty
      · cases h
  | cons t ts ih =>
      obtain ⟨token, span⟩ := t
      obtain ⟨htoken, hts⟩ := List.forall_mem_cons.mp hts
      rw [readTokens] at h
      split at h
      · next hstep =>
          obtain ⟨hnext, hadd⟩ := Stage.isNormal_of_step hstage htoken hstep
          split at h
          · next hread =>
              cases h
              exact hadd _ (ih hnext hts hread)
          · cases h
      · cases h

theorem isNormal_of_read_ok {offset : Nat} {text : List Char} {header : Header}
    (h : read offset text = .ok header) : header.IsNormal := by
  unfold read at h
  simp only at h
  split at h
  · next hread =>
      split at h
      · cases h
        have hstart : Stage.IsNormal .start := trivial
        exact isNormal_of_readTokens hstart (fun _ => isNormal_of_mem_tokens) hread
      · cases h
  · cases h

/-- **Every header that is read is in normal form.** -/
theorem isNormal_readAt (p : Place) : (readAt p).header.IsNormal := by
  unfold readAt
  split
  · split
    · next hread => exact isNormal_of_read_ok hread
    · exact isNormal_empty
  · exact isNormal_empty

end TaggedText.Header
