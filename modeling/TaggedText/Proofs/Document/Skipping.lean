import TaggedText.Proofs.Document.Lines

/-!
# Where skipped blocks end

A plain block that nests too deep is walked over.  The walk counts braces, while a block that is
read ends at the first brace that is neither escaped nor part of a tag in it.  The two agree where
the braces of the block match, and only there.

`Balanced` is a text whose braces match.  The walk goes on behind such a text as if it were not
there (`Balanced.passBlock`), and it ends at the first brace that matches none in front of it
(`passBlock_cases`).

`passBlock_eq_iff` says exactly when a block that is skipped ends where it would end if it were
read. Here what is left behind the block decides which braces count.  If nothing is left, a block
may leave braces of its own open, since the walk and the reading both end with the source; otherwise
a loose brace makes the walk run on, past the end of the block and over whatever follows
(`Document.looseBrace_skipped`).
-/

namespace TaggedText

/-- **A text whose braces match.**  A backslash takes the character behind it along, whichever it
is. -/
inductive Balanced : List Char → Prop
  | nil : Balanced []
  | escape {c : Char} {cs : List Char} : Balanced cs → Balanced ('\\' :: c :: cs)
  | char {c : Char} {cs : List Char} :
      c ≠ '\\' → c ≠ '{' → c ≠ '}' → Balanced cs → Balanced (c :: cs)
  | braces {inner cs : List Char} :
      Balanced inner → Balanced cs → Balanced ('{' :: (inner ++ '}' :: cs))

/-! ### The walk, character by character -/

section

variable {c : Char} {cs rest : List Char}

theorem passBlock_cons (hbackslash : c ≠ '\\') (inner offset : Nat) (rest : List Char) :
    passBlock inner offset (c :: rest) =
      if c == '{' then passBlock (inner + 1) (offset + 1) rest
      else if c == '}' then
        match inner with
        | 0 => ⟨offset + 1, rest⟩
        | inner + 1 => passBlock inner (offset + 1) rest
      else passBlock inner (offset + c.utf8Size) rest := by
  have hlone : c = '\\' → rest = [] → False := fun hc _ => hbackslash hc
  have hpair : ∀ (d : Char) (cs : List Char), c = '\\' → rest = d :: cs → False :=
    fun _ _ hc _ => hbackslash hc
  cases inner with
  | zero => exact passBlock.eq_4 offset c rest hlone hpair
  | succ inner => exact passBlock.eq_5 offset c rest inner hlone hpair

theorem passBlock_char (hbackslash : c ≠ '\\') (hopen : c ≠ '{') (hclose : c ≠ '}')
    (inner offset : Nat) (rest : List Char) :
    passBlock inner offset (c :: rest) = passBlock inner (offset + c.utf8Size) rest := by
  rw [passBlock_cons hbackslash, if_neg (by simpa using hopen), if_neg (by simpa using hclose)]

theorem passBlock_open (inner offset : Nat) (rest : List Char) :
    passBlock inner offset ('{' :: rest) = passBlock (inner + 1) (offset + 1) rest := by
  rw [passBlock_cons (by decide), if_pos (by decide)]

theorem passBlock_close (inner offset : Nat) (rest : List Char) :
    passBlock (inner + 1) offset ('}' :: rest) = passBlock inner (offset + 1) rest := by
  rw [passBlock_cons (by decide), if_neg (by decide), if_pos (by decide)]

theorem passBlock_last (offset : Nat) (rest : List Char) :
    passBlock 0 offset ('}' :: rest) = ⟨offset + 1, rest⟩ := by
  rw [passBlock_cons (by decide), if_neg (by decide), if_pos (by decide)]

/-- **The walk goes on behind a text whose braces match**, with as many braces open as before. -/
theorem Balanced.passBlock (h : Balanced cs) (inner offset : Nat) (rest : List Char) :
    TaggedText.passBlock inner offset (cs ++ rest) =
      TaggedText.passBlock inner (offset + Text.width cs) rest := by
  induction h generalizing inner offset rest with
  | nil => rfl
  | @escape c cs _ ih =>
      have hbackslash : '\\'.utf8Size = 1 := rfl
      rw [List.cons_append, List.cons_append, TaggedText.passBlock, ih]
      simp [hbackslash, Nat.add_assoc]
  | @char c cs hbackslash hopen hclose _ ih =>
      rw [List.cons_append, passBlock_char hbackslash hopen hclose, ih]
      simp [Nat.add_assoc]
  | @braces nested cs _ _ ihNested ih =>
      have hopening : '{'.utf8Size = 1 := rfl
      have hclosing : '}'.utf8Size = 1 := rfl
      rw [List.cons_append, List.append_assoc, passBlock_open, ihNested, List.cons_append,
        passBlock_close, ih]
      simp [hopening, hclosing, Nat.add_assoc]

/-- The walk ends behind the first brace that matches none in front of it. -/
theorem Balanced.passBlock_last (h : Balanced cs) (offset : Nat) (rest : List Char) :
    TaggedText.passBlock 0 offset (cs ++ '}' :: rest) =
      ⟨offset + Text.width cs + 1, rest⟩ := by
  rw [h.passBlock, TaggedText.passBlock_last]

end

/-- **A brace that matches none in front of it ends the walk**, and without one the walk goes to the
end of the source. -/
theorem passBlock_cases (cs : List Char) :
    (∃ front rest, cs = front ++ '}' :: rest ∧ Balanced front) ∨
      ∀ inner offset, passBlock inner offset cs = ⟨offset + Text.width cs, []⟩ := by
  match cs with
  | [] => exact .inr fun _ _ => rfl
  | c :: cs =>
      by_cases hbackslash : c = '\\'
      · subst hbackslash
        match cs with
        | [] => exact .inr fun _ _ => rfl
        | d :: cs =>
            rcases passBlock_cases cs with ⟨front, rest, rfl, hfront⟩ | hnone
            · exact .inl ⟨'\\' :: d :: front, rest, rfl, .escape hfront⟩
            · refine .inr fun inner offset => ?_
              have hwidth : '\\'.utf8Size = 1 := rfl
              rw [passBlock, hnone]
              simp [hwidth, Nat.add_assoc]
      · by_cases hclose : c = '}'
        · subst hclose
          exact .inl ⟨[], cs, rfl, .nil⟩
        · by_cases hopen : c = '{'
          · subst hopen
            have hwidth : '{'.utf8Size = 1 := rfl
            rcases passBlock_cases cs with ⟨nested, behind, rfl, hnested⟩ | hnone
            · -- The brace is matched, and the walk goes on behind the one that matches it.
              have hlt : behind.length < (nested ++ '}' :: behind).length := by simp; omega
              rcases passBlock_cases behind with ⟨front, rest, rfl, hfront⟩ | hnone
              · exact .inl ⟨'{' :: (nested ++ '}' :: front), rest, by simp,
                  .braces hnested hfront⟩
              · refine .inr fun inner offset => ?_
                have hclosing : '}'.utf8Size = 1 := rfl
                rw [passBlock_open, hnested.passBlock, passBlock_close, hnone]
                simp [hwidth, hclosing, Nat.add_assoc]
            · refine .inr fun inner offset => ?_
              rw [passBlock_open, hnone]
              simp [hwidth, Nat.add_assoc]
          · rcases passBlock_cases cs with ⟨front, rest, rfl, hfront⟩ | hnone
            · exact .inl ⟨c :: front, rest, rfl, .char hbackslash hopen hclose hfront⟩
            · refine .inr fun inner offset => ?_
              rw [passBlock_char hbackslash hopen hclose, hnone]
              simp [Nat.add_assoc]
termination_by cs.length

/-! ### What is left behind a skipped block -/

/-- In front of anything else, the walk ends behind a text and a brace exactly if the braces of the
text match. -/
theorem passBlock_rest_eq_iff {body rest : List Char} (hne : rest ≠ []) (offset : Nat) :
    (passBlock 0 offset (body ++ '}' :: rest)).rest = rest ↔ Balanced body := by
  constructor
  · intro hrest
    rcases passBlock_cases (body ++ '}' :: rest) with ⟨front, behind, hsplit, hfront⟩ | hwhole
    · rw [hsplit, hfront.passBlock_last] at hrest
      obtain rfl : behind = rest := hrest
      obtain rfl : body = front := List.append_cancel_right hsplit
      exact hfront
    · rw [hwhole] at hrest
      exact absurd hrest.symm hne
  · intro hbody
    rw [hbody.passBlock_last]

/-- The walk ends with the source exactly if no brace before the end matches none in front of it. -/
theorem passBlock_rest_eq_nil_iff (offset : Nat) (cs : List Char) :
    (passBlock 0 offset cs).rest = [] ↔
      ∀ front behind, cs = front ++ '}' :: behind → Balanced front → behind = [] := by
  constructor
  · rintro hrest front behind rfl hfront
    rw [hfront.passBlock_last] at hrest
    exact hrest
  · intro hnone
    rcases passBlock_cases cs with ⟨front, rest, rfl, hfront⟩ | hwhole
    · rw [hfront.passBlock_last]
      exact hnone front rest rfl hfront
    · rw [hwhole]

/-! ### Blocks that are skipped, and blocks that are read -/

theorem Place.exists_walk_advance (n : Nat) (p : Place) : ∃ run, Place.Walk run p (p.advance n) := by
  induction n generalizing p with
  | zero => exact ⟨[], .refl p⟩
  | succ n ih =>
      obtain ⟨offset, cs⟩ := p
      cases cs with
      | nil => exact ⟨[], .refl _⟩
      | cons c cs =>
          obtain ⟨run, hrun⟩ := ih ⟨offset + c.utf8Size, cs⟩
          exact ⟨c :: run, .cons hrun⟩

@[simp] theorem Place.rest_advance_one (p : Place) : (p.advance 1).rest = p.rest.tail := by
  obtain ⟨offset, cs⟩ := p
  cases cs <;> rfl

/-- Places of one source are the same if the same is left behind them. -/
theorem Place.Walk.eq_of_rest_eq {run run' : List Char} {p q q' : Place} (h : Place.Walk run p q)
    (h' : Place.Walk run' p q') (hrest : q.rest = q'.rest) : q = q' := by
  have hrun : run = run' := by
    have hsplit := h.rest_eq.symm.trans h'.rest_eq
    rw [hrest] at hsplit
    exact List.append_cancel_right hsplit
  obtain ⟨offset, rest⟩ := q
  obtain ⟨offset', rest'⟩ := q'
  obtain rfl : rest = rest' := hrest
  obtain rfl : offset = offset' := h.offset_eq.trans (hrun ▸ h'.offset_eq.symm)
  rfl

/-- A block that is skipped ends where another walk ends if the same is left there. -/
theorem passBlock_eq_iff_rest_eq {run inside : List Char} {offset : Nat} {q : Place}
    (hwalk : Place.Walk run ⟨offset, inside⟩ q) :
    passBlock 0 offset inside = q ↔ (passBlock 0 offset inside).rest = q.rest := by
  obtain ⟨passed, hpassed⟩ := exists_walk_passBlock 0 offset inside
  exact ⟨congrArg Place.rest, hpassed.eq_of_rest_eq hwalk⟩

/-- **A block that is skipped ends where it would end if it were read** exactly if its braces match,
where anything follows it; and where nothing does, exactly if no brace before its end matches none in
front of it. -/
theorem passBlock_eq_iff (options : ReaderOptions) (depth offset : Nat) (inside : List Char) :
    ∃ body, Place.Walk body ⟨offset, inside⟩ (readNodes options (depth + 1) offset inside).next ∧
      (((readNodes options (depth + 1) offset inside).next.advance 1).rest ≠ [] →
        (passBlock 0 offset inside =
            (readNodes options (depth + 1) offset inside).next.advance 1 ↔ Balanced body)) ∧
      (((readNodes options (depth + 1) offset inside).next.advance 1).rest = [] →
        (passBlock 0 offset inside =
            (readNodes options (depth + 1) offset inside).next.advance 1 ↔
          ∀ front behind, inside = front ++ '}' :: behind → Balanced front → behind = [])) := by
  have hnodes := readNodes_at options (depth + 1) offset inside
  obtain ⟨body, hbody⟩ := hnodes.exists_walk
  have hnext := hnodes.next_cases
  simp only [Part.passage] at hbody hnext
  generalize (readNodes options (depth + 1) offset inside).next = next at hbody hnext
  obtain ⟨brace, hbrace⟩ := next.exists_walk_advance 1
  rw [passBlock_eq_iff_rest_eq (hbody.trans hbrace)]
  refine ⟨body, hbody, fun hne => ?_, fun hend => ?_⟩
  · -- Something follows the block, so it has been closed.
    rw [Place.rest_advance_one] at hne ⊢
    obtain ⟨rest, hclose⟩ : ∃ rest, next.rest = '}' :: rest := by
      refine (hnext.resolve_left fun hnil => hne ?_).2
      rw [hnil, List.tail_nil]
    have hinside : inside = body ++ '}' :: rest := hclose ▸ hbody.rest_eq
    rw [hclose, List.tail_cons] at hne ⊢
    rw [hinside, passBlock_rest_eq_iff hne]
  · rw [hend, passBlock_rest_eq_nil_iff]

/-- **A brace in the text of a block hides what follows the block**, if the block is skipped.  Read
under any limit, the block ends at its closing brace, in front of another tag.  Skipped, it takes that
tag along, whose own block nests too deep as well; and so only one of the two is reported. -/
theorem Document.looseBrace_skipped :
    (∀ options, (readNodes options 1 3 "\x7b\x7d\\b\x7bx\x7d".toList).next.advance 1 =
        ⟨5, "\\b\x7bx\x7d".toList⟩) ∧
      passBlock 0 3 "\x7b\x7d\\b\x7bx\x7d".toList = ⟨10, []⟩ ∧
      Document.diagnostics ⟨false, 0⟩ "\\a\x7b\x7b\x7d\\b\x7bx\x7d" =
        [.nestingTooDeep ⟨2, 3⟩ 0] ∧
      (readBlocks ⟨false, 0⟩ 0 7 "\x7bx\x7d".toList).diagnostics = [.nestingTooDeep ⟨7, 8⟩ 0] := by
  let behind : List Char := ['\\', 'b', '{', 'x', '}']
  have hnone : BlocksAt ⟨false, 0⟩ 0 ⟨10, []⟩ ⟨[], [], ⟨10, []⟩⟩ := .none nofun rfl
  refine ⟨fun options => ?_, rfl, ?_, ?_⟩
  · have hbody : NodesAt options 1 ⟨3, '{' :: '}' :: behind⟩ ⟨[.text "\x7b"], [], ⟨4, '}' :: behind⟩⟩ :=
      @NodesAt.last options 1 ⟨3, _⟩ ⟨4, '}' :: behind⟩ ['{'] rfl (by decide)
    have hnext := congrArg Passage.next hbody.read_eq
    exact congrArg (Place.advance 1) hnext
  · have hblocks : BlocksAt ⟨false, 0⟩ 0 ⟨2, '{' :: '{' :: '}' :: behind⟩
        ⟨[{}], [.nestingTooDeep ⟨2, 3⟩ 0], ⟨10, []⟩⟩ :=
      @BlocksAt.tooDeep ⟨false, 0⟩ 0 2 ⟨2, _⟩ ('{' :: '}' :: behind) ⟨[], [], ⟨10, []⟩⟩ rfl
        (Nat.le_refl 0) hnone
    have htag : TagAt ⟨false, 0⟩ 0 0 ('a' :: '{' :: '{' :: '}' :: behind)
        ⟨{ name := "a", blocks := [{}], span := ⟨0, 10⟩ }, [.nestingTooDeep ⟨2, 3⟩ 0], ⟨10, []⟩⟩ :=
      @TagAt.intro ⟨false, 0⟩ 0 0 ('a' :: '{' :: '{' :: '}' :: behind)
        ⟨{}, [], ⟨2, '{' :: '{' :: '}' :: behind⟩⟩ _
        (Header.readAt_of_head _ (by decide) (by decide)) hblocks
    have hfinish : NodesAt ⟨false, 0⟩ 0 ⟨10, []⟩ ⟨[], [], ⟨10, []⟩⟩ :=
      @NodesAt.last ⟨false, 0⟩ 0 ⟨10, []⟩ ⟨10, []⟩ [] rfl nofun
    exact Document.diagnostics_eq (@NodesAt.tag ⟨false, 0⟩ 0 0 ⟨0, _⟩ [] _ _ _ rfl htag hfinish)
  · have hblocks : BlocksAt ⟨false, 0⟩ 0 ⟨7, ['{', 'x', '}']⟩
        ⟨[{}], [.nestingTooDeep ⟨7, 8⟩ 0], ⟨10, []⟩⟩ :=
      @BlocksAt.tooDeep ⟨false, 0⟩ 0 7 ⟨7, _⟩ ['x', '}'] ⟨[], [], ⟨10, []⟩⟩ rfl (Nat.le_refl 0) hnone
    exact congrArg Passage.diagnostics hblocks.read_eq

end TaggedText
