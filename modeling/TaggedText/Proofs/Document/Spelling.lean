import TaggedText.Proofs.Document.Grammar

/-!
# How text is spelled

A run of text in a source is a row of elements: characters that stand for themselves, and
backslashes in front of a character that starts no name.  Only a backslash at the very end stands
alone.

`Spelled` is a row of whole elements together with what it says, and `readText_cases` takes a run of
text apart into such a row and what stopped it.  In the other direction a row of elements is read,
whatever follows it (`Spelled.readText`).  What it says is also a function of the characters alone
(`unescapeText`).

Whether a backslash awaits the character behind it (`Text.escaping`) is a state that has to be
carried wherever texts are cut or joined, and its laws are at the end.
-/

namespace TaggedText

/-- **What a run of text says.**  A backslash gives way to the character behind it, unless that
starts a name; at the end it stands for itself. -/
def unescapeText : List Char → List Char
  | [] => []
  | ['\\'] => ['\\']
  | '\\' :: c :: rest =>
    if Text.isNameStart c then '\\' :: unescapeText (c :: rest) else c :: unescapeText rest
  | c :: rest => c :: unescapeText rest

/-- **A row of whole elements of text**, and what it says. -/
inductive Spelled (inBlock : Bool) : List Char → List Char → Prop
  | nil : Spelled inBlock [] []
  | escape {c : Char} {gap text : List Char} :
      Text.isNameStart c = false → Spelled inBlock gap text →
      Spelled inBlock ('\\' :: c :: gap) (c :: text)
  | char {c : Char} {gap text : List Char} :
      c ≠ '\\' → (inBlock = true → c ≠ '}') → Spelled inBlock gap text →
      Spelled inBlock (c :: gap) (c :: text)

/-- What ends a run of text: the end of the source, a tag, or the brace that closes the block. -/
inductive StopsText (inBlock : Bool) : List Char → Prop
  | finish : StopsText inBlock []
  | tag {c : Char} {rest : List Char} :
      Text.isNameStart c = true → StopsText inBlock ('\\' :: c :: rest)
  | close {rest : List Char} : inBlock = true → StopsText inBlock ('}' :: rest)

variable {inBlock : Bool} {gap text rest : List Char} {offset : Nat}

/-! ### Reading -/

theorem readText_char {c : Char} (hbackslash : c ≠ '\\') (hbrace : inBlock = true → c ≠ '}')
    (text rest : List Char) (offset : Nat) :
    readText inBlock text offset (c :: rest) =
      readText inBlock (c :: text) (offset + c.utf8Size) rest := by
  rw [readText.eq_4]
  · rw [if_neg]
    simp only [Bool.and_eq_true, beq_iff_eq, not_and]
    exact hbrace
  · rintro rfl
    exact fun _ => hbackslash rfl
  · rintro d rest' rfl
    exact fun _ => hbackslash rfl

/-- **A row of elements is read, whatever follows it.** -/
theorem Spelled.readText (h : Spelled inBlock gap text) (before rest : List Char) (offset : Nat) :
    TaggedText.readText inBlock before offset (gap ++ rest) =
      TaggedText.readText inBlock (text.reverse ++ before) (offset + Text.width gap) rest := by
  induction h generalizing before offset with
  | nil => rfl
  | @escape c gap text hstart _ ih =>
      have hbackslash : '\\'.utf8Size = 1 := rfl
      rw [List.cons_append, List.cons_append, TaggedText.readText, if_neg (by simp [hstart]), ih]
      simp [hbackslash, Nat.add_assoc]
  | @char c gap text hbackslash hbrace _ ih =>
      rw [List.cons_append, readText_char hbackslash hbrace, ih]
      simp [Nat.add_assoc]

theorem StopsText.readText (h : StopsText inBlock rest) (before : List Char) (offset : Nat) :
    TaggedText.readText inBlock before offset rest = ⟨before.reverse, ⟨offset, rest⟩⟩ := by
  cases h with
  | finish => rfl
  | tag hstart => rw [TaggedText.readText, if_pos hstart]
  | close hblock =>
      rw [TaggedText.readText]
      · simp [hblock]
      · nofun
      · nofun

/-- Every text begins with a row of elements, up to what ends a run of text or to a backslash that
nothing follows. -/
theorem exists_spelled (inBlock : Bool) (cs : List Char) : ∃ gap text tail,
    cs = gap ++ tail ∧ Spelled inBlock gap text ∧ (StopsText inBlock tail ∨ tail = ['\\']) := by
  match cs with
  | [] => exact ⟨[], [], [], rfl, .nil, .inl .finish⟩
  | c :: rest =>
      by_cases hbackslash : c = '\\'
      · subst hbackslash
        match rest with
        | [] => exact ⟨[], [], ['\\'], rfl, .nil, .inr rfl⟩
        | d :: rest =>
            cases hstart : Text.isNameStart d with
            | true => exact ⟨[], [], _, rfl, .nil, .inl (.tag hstart)⟩
            | false =>
                obtain ⟨gap, text, tail, rfl, hspelled, htail⟩ := exists_spelled inBlock rest
                exact ⟨'\\' :: d :: gap, d :: text, tail, rfl, .escape hstart hspelled, htail⟩
      · by_cases hclose : inBlock = true ∧ c = '}'
        · obtain ⟨hblock, rfl⟩ := hclose
          exact ⟨[], [], _, rfl, .nil, .inl (.close hblock)⟩
        · obtain ⟨gap, text, tail, rfl, hspelled, htail⟩ := exists_spelled inBlock rest
          exact ⟨c :: gap, c :: text, tail, rfl,
            .char hbackslash (fun hblock hc => hclose ⟨hblock, hc⟩) hspelled, htail⟩
termination_by cs.length

/-- **A run of text is a row of elements**, up to what ends it, or up to a backslash that nothing
follows. -/
theorem readText_cases {cs : List Char} {next : Place}
    (h : readText inBlock [] offset cs = ⟨text, next⟩) :
    (∃ gap, Spelled inBlock gap text ∧ StopsText inBlock next.rest ∧ cs = gap ++ next.rest ∧
        next.offset = offset + Text.width gap) ∨
      ∃ gap inner, Spelled inBlock gap inner ∧ cs = gap ++ ['\\'] ∧ text = inner ++ ['\\'] ∧
        next = ⟨offset + Text.width gap + 1, []⟩ := by
  obtain ⟨gap, inner, tail, rfl, hspelled, hstops | rfl⟩ := exists_spelled inBlock cs
  · rw [hspelled.readText, hstops.readText] at h
    cases h
    exact .inl ⟨gap, by simpa using hspelled, hstops, rfl, rfl⟩
  · rw [hspelled.readText, readText] at h
    cases h
    exact .inr ⟨gap, inner, hspelled, rfl, by simp, rfl⟩

/-! ### What is said -/

/-- What a row of elements says does not depend on what follows it. -/
theorem Spelled.unescapeText_append (h : Spelled inBlock gap text) (rest : List Char) :
    unescapeText (gap ++ rest) = text ++ unescapeText rest := by
  induction h with
  | nil => rfl
  | escape hstart _ ih =>
      rw [List.cons_append, List.cons_append, unescapeText, if_neg (by simp [hstart]), ih]
      rfl
  | @char c gap text hbackslash _ _ ih =>
      rw [List.cons_append, unescapeText.eq_4, ih]
      · rfl
      · rintro rfl
        exact fun _ => hbackslash rfl
      · rintro d rest' rfl
        exact fun _ => hbackslash rfl

theorem Spelled.unescapeText (h : Spelled inBlock gap text) :
    TaggedText.unescapeText gap = text := by
  have happend := h.unescapeText_append []
  rwa [List.append_nil, TaggedText.unescapeText, List.append_nil] at happend

/-! ### Backslashes that await a character -/

/-- Whether a backslash awaits a character behind the text, if one did (`awaiting`) in front. -/
def Text.escaping (awaiting : Bool) (cs : List Char) : Bool :=
  cs.foldl (fun awaiting c => c == '\\' && !awaiting) awaiting

theorem Text.escaping_append (awaiting : Bool) (cs ds : List Char) :
    escaping awaiting (cs ++ ds) = escaping (escaping awaiting cs) ds :=
  List.foldl_append

/-- The number of backslashes at the end of a text. -/
def Text.trailingBackslashes (cs : List Char) : Nat :=
  (cs.reverse.takeWhile (· == '\\')).length

/-- A backslash awaits a character where their number at the end is odd. -/
theorem Text.escaping_eq_decide (cs : List Char) :
    escaping false cs = decide (trailingBackslashes cs % 2 = 1) := by
  -- The induction is from the end of the text, where the backslashes are counted.
  obtain ⟨ds, rfl⟩ : ∃ ds : List Char, cs = ds.reverse :=
    ⟨cs.reverse, (List.reverse_reverse cs).symm⟩
  rw [trailingBackslashes, List.reverse_reverse]
  induction ds with
  | nil => rfl
  | cons d ds ih =>
      rw [List.reverse_cons, escaping_append, ih, List.takeWhile_cons]
      by_cases hd : d = '\\'
      · subst hd
        simp only [escaping, List.foldl_cons, List.foldl_nil, beq_self_eq_true, Bool.true_and,
          if_true, List.length_cons]
        rw [← decide_not, decide_eq_decide]
        omega
      · simp [escaping, hd]

/-- The text does not end with a backslash. -/
def Text.EndsClear (cs : List Char) : Prop :=
  cs.getLast? ≠ some '\\'

theorem Text.EndsClear.nil : EndsClear [] :=
  nofun

theorem Text.EndsClear.append {cs ds : List Char} (hcs : EndsClear cs) (hds : EndsClear ds) :
    EndsClear (cs ++ ds) := by
  unfold EndsClear at *
  rw [List.getLast?_append]
  cases hlast : ds.getLast? with
  | none => exact hcs
  | some d => rwa [← hlast, Option.or_of_isSome (by simp [hlast])]

theorem Text.EndsClear.append_of_ne_nil {ds : List Char} (hds : EndsClear ds) (hne : ds ≠ [])
    (cs : List Char) : EndsClear (cs ++ ds) := by
  unfold EndsClear at *
  rw [List.getLast?_append]
  rw [List.getLast?_eq_some_getLast hne] at hds ⊢
  exact hds

theorem Text.EndsClear.of_forall {cs : List Char} (h : ∀ c ∈ cs, c ≠ '\\') : EndsClear cs :=
  fun hlast => h _ (List.mem_of_getLast? hlast) rfl

/-- Behind a text whose last character is no backslash, none awaits a character. -/
theorem Text.EndsClear.escaping {cs : List Char} (hcs : EndsClear cs) (hne : cs ≠ [])
    (awaiting : Bool) : escaping awaiting cs = false := by
  obtain ⟨c, front, rfl⟩ : ∃ c front, cs = front ++ [c] :=
    ⟨cs.getLast hne, cs.dropLast, (List.dropLast_concat_getLast hne).symm⟩
  have hc : c ≠ '\\' := by
    rintro rfl
    exact hcs (by simp)
  rw [escaping_append]
  simp [Text.escaping, hc]

/-- Whole elements leave no backslash awaiting. -/
theorem Spelled.escaping (h : Spelled inBlock gap text) : Text.escaping false gap = false := by
  induction h with
  | nil => rfl
  | @escape c gap text _ _ ih => simpa [Text.escaping] using ih
  | @char c gap text hbackslash _ _ ih =>
      have hc : (c == '\\') = false := by simpa using hbackslash
      simpa [Text.escaping, hc] using ih

end TaggedText
