import TaggedText.Proofs.Document.Spelling
import TaggedText.Proofs.Header.Extent

/-!
# Where the parts of a document lie

Every reader takes some run of characters off the front of what is left, and counts its bytes.
`Place.Walk` is that run, between two places, and it is the one way in which it is said here what
was consumed.

Walks compose, and so each reader has a lemma from its own equation: `exists_walk` for a run of
text, for blanks, for a skipped block, a verbatim block and a header.  For nodes, tags and blocks it
is an induction over derivations, in which the span of a tag comes out as where its walk begins and
ends.
-/

namespace TaggedText

/-- **`q` lies behind `run`**, which begins at `p`. -/
structure Place.Walk (run : List Char) (p q : Place) : Prop where
  rest_eq : p.rest = run ++ q.rest
  offset_eq : q.offset = p.offset + Text.width run

namespace Place.Walk

variable {run run' : List Char} {p q r : Place}

theorem refl (p : Place) : Walk [] p p :=
  ⟨rfl, rfl⟩

theorem trans (h : Walk run p q) (h' : Walk run' q r) : Walk (run ++ run') p r where
  rest_eq := by rw [h.rest_eq, h'.rest_eq, List.append_assoc]
  offset_eq := by rw [h'.offset_eq, h.offset_eq, Text.width_append, Nat.add_assoc]

theorem cons {c : Char} {offset : Nat} {rest : List Char}
    (h : Walk run ⟨offset + c.utf8Size, rest⟩ q) : Walk (c :: run) ⟨offset, c :: rest⟩ q where
  rest_eq := congrArg (c :: ·) h.rest_eq
  offset_eq := by rw [h.offset_eq, Text.width_cons, Nat.add_assoc]

theorem pass (p : Place) {run rest : List Char} (h : p.rest = run ++ rest) :
    Walk run p (p.pass run rest) :=
  ⟨h, rfl⟩

theorem offset_le (h : Walk run p q) : p.offset ≤ q.offset := by
  have := h.offset_eq
  omega

/-- Two walks between the same places have the same run. -/
theorem run_eq (h : Walk run p q) (h' : Walk run' p q) : run = run' :=
  List.append_cancel_right (h.rest_eq.symm.trans h'.rest_eq)

end Place.Walk

/-! ### Runs of one kind of character -/

section

variable {q : Char → Bool} {rest : List Char}

theorem of_dropWhile_eq_cons {cs : List Char} {c : Char} (h : cs.dropWhile q = c :: rest) :
    q c = false := by
  have hnot := List.head?_dropWhile_not q cs
  rwa [h] at hnot

/-- A run is found again in front of whatever ends it. -/
theorem takeWhile_takeWhile_append (cs : List Char) (h : ∀ c, rest.head? = some c → q c = false) :
    (cs.takeWhile q ++ rest).takeWhile q = cs.takeWhile q :=
  takeWhile_append_of_head (List.all_eq_true.mp List.all_takeWhile) h

theorem dropWhile_takeWhile_append (cs : List Char) (h : ∀ c, rest.head? = some c → q c = false) :
    (cs.takeWhile q ++ rest).dropWhile q = rest :=
  dropWhile_append_of_head (List.all_eq_true.mp List.all_takeWhile) h

end

/-! ### Text, blanks and skipped blocks -/

theorem exists_walk_of_readText {inBlock : Bool} {offset : Nat} {cs text : List Char} {next : Place}
    (h : readText inBlock [] offset cs = ⟨text, next⟩) :
    ∃ run, Place.Walk run ⟨offset, cs⟩ next := by
  rcases readText_cases h with ⟨gap, -, -, hcs, hoffset⟩ | ⟨gap, inner, -, hcs, -, rfl⟩
  · exact ⟨gap, hcs, hoffset⟩
  · have hbackslash : '\\'.utf8Size = 1 := rfl
    exact ⟨gap ++ ['\\'], by simpa using hcs, by simp [hbackslash, Nat.add_assoc]⟩

/-- Text that ends before the source does is read alike in front of everything that ends it. -/
theorem readText_append {inBlock : Bool} {offset : Nat} {cs text run rest' : List Char}
    {next : Place} (h : readText inBlock [] offset cs = ⟨text, next⟩) (hne : next.rest ≠ [])
    (hwalk : Place.Walk run ⟨offset, cs⟩ next) (hstops : StopsText inBlock rest') :
    readText inBlock [] offset (run ++ rest') = ⟨text, ⟨next.offset, rest'⟩⟩ := by
  rcases readText_cases h with ⟨gap, hgap, -, hcs, hoffset⟩ | ⟨gap, inner, -, -, -, rfl⟩
  · obtain rfl := hwalk.run_eq ⟨hcs, hoffset⟩
    rw [hgap.readText, hstops.readText, ← hoffset]
    simp
  · exact absurd rfl hne

theorem stopsText_of_readText {inBlock : Bool} {offset : Nat} {cs text : List Char} {next : Place}
    (h : readText inBlock [] offset cs = ⟨text, next⟩) : StopsText inBlock next.rest := by
  rcases readText_cases h with ⟨gap, -, hstops, -⟩ | ⟨gap, inner, -, -, -, rfl⟩
  · exact hstops
  · exact .finish

theorem Place.walk_skipBlanks {p here : Place} (h : p.skipBlanks = here) :
    Place.Walk (p.rest.takeWhile Text.isBlank) p here :=
  h ▸ .pass p List.takeWhile_append_dropWhile.symm

/-- The name behind a backslash at byte `start`. -/
theorem Place.walk_name (start : Nat) (cs : List Char) :
    Place.Walk (cs.takeWhile Text.isNameChar) ⟨start + 1, cs⟩
      ⟨start + 1 + Text.width (cs.takeWhile Text.isNameChar), cs.dropWhile Text.isNameChar⟩ :=
  .pass ⟨start + 1, cs⟩ List.takeWhile_append_dropWhile.symm

theorem exists_walk_passBlock (inner offset : Nat) (cs : List Char) :
    ∃ run, Place.Walk run ⟨offset, cs⟩ (passBlock inner offset cs) := by
  fun_induction passBlock inner offset cs with
  | case1 inner offset => exact ⟨[], .refl _⟩
  | case2 inner offset => exact ⟨['\\'], rfl, rfl⟩
  | case3 inner offset c rest ih =>
      obtain ⟨run, hrun⟩ := ih
      exact ⟨'\\' :: c :: run, .cons (.cons hrun)⟩
  | case4 inner offset c rest _ _ hc ih =>
      obtain ⟨run, hrun⟩ := ih
      obtain rfl : c = '{' := by simpa using hc
      exact ⟨'{' :: run, .cons hrun⟩
  | case5 offset c rest _ _ _ hc =>
      obtain rfl : c = '}' := by simpa using hc
      exact ⟨['}'], rfl, rfl⟩
  | case6 offset c rest _ _ _ hc inner ih =>
      obtain ⟨run, hrun⟩ := ih
      obtain rfl : c = '}' := by simpa using hc
      exact ⟨'}' :: run, .cons hrun⟩
  | case7 inner offset c rest _ _ _ _ ih =>
      obtain ⟨run, hrun⟩ := ih
      exact ⟨c :: run, .cons hrun⟩

/-! ### Verbatim blocks -/

theorem width_takeWhile_equals (cs : List Char) :
    Text.width (cs.takeWhile (· == '=')) = fenceWidth cs := by
  unfold fenceWidth
  induction cs with
  | nil => rfl
  | cons c cs ih =>
      by_cases hc : c = '='
      · subst hc
        have hequals : '='.utf8Size = 1 := rfl
        simp [hequals, ih, Nat.add_comm]
      · simp [hc]

/-- A closing brace ends a run of `=`. -/
theorem fenceWidth_append_brace (text rest : List Char) :
    fenceWidth (text ++ '}' :: rest) = fenceWidth text := by
  unfold fenceWidth
  induction text with
  | nil => rfl
  | cons c text ih =>
      rw [List.cons_append, List.takeWhile_cons, List.takeWhile_cons]
      split
      · rw [List.length_cons, List.length_cons, ih]
      · rfl

theorem exists_walk_scanVerbatim (width : Nat) (text : List Char) (offset : Nat) (cs : List Char) :
    ∃ run, Place.Walk run ⟨offset, cs⟩ (scanVerbatim width text offset cs).next := by
  fun_induction scanVerbatim width text offset cs with
  | case1 text offset => exact ⟨[], .refl _⟩
  | case2 text offset c rest hclose =>
      simp only [Bool.and_eq_true, beq_iff_eq] at hclose
      obtain ⟨rfl, rfl⟩ := hclose
      refine ⟨'}' :: rest.takeWhile (· == '='), .cons ⟨List.takeWhile_append_dropWhile.symm, ?_⟩⟩
      rw [width_takeWhile_equals]
      rfl
  | case3 text offset c rest _ ih =>
      obtain ⟨run, hrun⟩ := ih
      exact ⟨c :: run, .cons hrun⟩

theorem exists_walk_readVerbatim {p : Place} {verbatim : Verbatim} {fence : Fence}
    (h : opensVerbatim p.rest = true) (hread : readVerbatim p = (verbatim, fence)) :
    ∃ run, Place.Walk run p verbatim.next := by
  obtain rfl : (readVerbatim p).1 = verbatim := congrArg Prod.fst hread
  simp only [opensVerbatim, Bool.and_eq_true, beq_iff_eq] at h
  obtain ⟨offset, cs⟩ := p
  cases hafter : afterFence cs with
  | nil => simp [hafter] at h
  | cons c rest =>
      obtain ⟨run, hrun⟩ := exists_walk_scanVerbatim (fenceWidth cs) []
        (offset + fenceWidth cs + c.utf8Size) rest
      have hfence : Place.Walk (cs.takeWhile (· == '=')) ⟨offset, cs⟩
          ⟨offset + fenceWidth cs, c :: rest⟩ :=
        ⟨by rw [← hafter]; exact List.takeWhile_append_dropWhile.symm,
          by rw [width_takeWhile_equals]⟩
      have hinside : Place.Walk (c :: run) ⟨offset + fenceWidth cs, c :: rest⟩
          (readVerbatim ⟨offset, cs⟩).1.next :=
        .cons (by simpa only [readVerbatim, hafter, Place.advance] using hrun)
      exact ⟨_, hfence.trans hinside⟩

/-! ### Headers -/

namespace Header

variable {opener close : Char} {cs text rest : List Char}

/-- The walk to a closing delimiter ends with it, and does not look behind it. -/
theorem skipList_cases {quoted : Bool} {taken taken' : List Char}
    (h : skipList close quoted taken cs = some (taken', rest)) :
    ∃ run, cs = run ++ rest ∧ taken' = run.reverse ++ taken ∧ run.getLast? = some close ∧
      ∀ rest', skipList close quoted taken (run ++ rest') = some (taken', rest') := by
  fun_induction skipList close quoted taken cs with
  | case1 => cases h
  | case2 taken d rest' ih =>
      obtain ⟨run, rfl, rfl, hlast, hrun⟩ := ih h
      exact ⟨'\\' :: d :: run, rfl, by simp, by simp [List.getLast?_cons, hlast], hrun⟩
  | case3 taken c rest' hpair ih =>
      obtain ⟨run, rfl, rfl, hlast, hrun⟩ := ih h
      -- The delimiter is still to come, so a backslash would stand in front of a character.
      have hc : c ≠ '\\' := by
        rintro rfl
        cases run with
        | nil => cases hlast
        | cons d run => exact hpair d (run ++ rest) rfl rfl
      exact ⟨c :: run, rfl, by simp, by simp [List.getLast?_cons, hlast],
        fun rest' => by rw [List.cons_append, skipList_quoted_cons hc, hrun]⟩
  | case4 taken c rest' hc =>
      cases h
      obtain rfl : c = close := by simpa using hc
      exact ⟨[c], rfl, rfl, rfl, fun rest' => by rw [List.singleton_append, skipList, if_pos hc]⟩
  | case5 taken c rest' hc ih =>
      obtain ⟨run, rfl, rfl, hlast, hrun⟩ := ih h
      exact ⟨c :: run, rfl, by simp, by simp [List.getLast?_cons, hlast],
        fun rest' => by rw [List.cons_append, skipList, if_neg hc, hrun]⟩

theorem list?_of_head (h : rest.head? ≠ some opener) :
    list? opener close rest = some ([], rest) := by
  cases rest with
  | nil => rfl
  | cons c rest =>
      have hc : c ≠ opener := by simpa using h
      simp [list?, hc]

/-- A list is missing, or it ends with its delimiter and does not look behind it. -/
theorem list?_cases (h : list? opener close cs = some (text, rest)) :
    cs = text ++ rest ∧ ((text = [] ∧ rest.head? ≠ some opener) ∨ (text.getLast? = some close ∧
      ∀ rest', list? opener close (text ++ rest') = some (text, rest'))) := by
  by_cases hhead : cs.head? = some opener
  · cases cs with
    | nil => cases hhead
    | cons c inside =>
        obtain rfl : c = opener := by simpa using hhead
        rw [list?, if_pos (beq_self_eq_true c)] at h
        obtain ⟨⟨taken, rest⟩, hskip, heq⟩ := Option.map_eq_some_iff.mp h
        obtain ⟨run, rfl, rfl, hlast, hrun⟩ := skipList_cases hskip
        cases heq
        refine ⟨by simp, .inr ⟨by simp [List.getLast?_cons, hlast], fun rest' => ?_⟩⟩
        simp [list?, hrun]
  · rw [list?_of_head hhead] at h
    cases h
    exact ⟨rfl, .inl ⟨rfl, hhead⟩⟩

theorem extent_eq (h : extent cs = .closed text rest) : cs = text ++ rest := by
  unfold extent at h
  split at h
  · cases h
  · next hparams =>
      split at h
      · cases h
      · next hattributes =>
          cases h
          rw [(list?_cases hparams).1, (list?_cases hattributes).1, List.append_assoc]

/-- Where no list is opened, no header is read. -/
theorem readAt_of_head (p : Place) (hparams : p.rest.head? ≠ some '(')
    (hattributes : p.rest.head? ≠ some '[') : readAt p = ⟨{}, [], p⟩ := by
  have hread : read p.offset [] = .ok {} := by
    rw [read, pieces]
    rfl
  unfold readAt
  rw [extent, list?_of_head hparams]
  simp only [list?_of_head hattributes, List.nil_append, hread]
  rfl

theorem exists_walk_readAt {p : Place} {reading : Reading} (h : readAt p = reading) :
    ∃ run, Place.Walk run p reading.next := by
  subst h
  unfold readAt
  split
  · next text rest h =>
      refine ⟨text, ?_⟩
      split <;> exact .pass p (extent_eq h)
  · exact ⟨p.rest, .pass p (List.append_nil _).symm⟩

end Header

/-! ### Nodes, tags and blocks -/

variable {options : ReaderOptions}

theorem TagAt.span_eq {depth start : Nat} {cs : List Char} {tag : Passage Tag}
    (h : TagAt options depth start cs tag) : tag.value.span = ⟨start, tag.next.offset⟩ := by
  cases h
  rfl

/-- Text in front of no tag ends with the source, or at the brace that closes the block. -/
theorem next_cases_of_readText {depth offset : Nat} {cs text : List Char} {next : Place}
    (h : readText (depth != 0) [] offset cs = ⟨text, next⟩) (hnext : next.rest.head? ≠ some '\\') :
    next.rest = [] ∨ (depth ≠ 0 ∧ ∃ rest, next.rest = '}' :: rest) := by
  have hstops := stopsText_of_readText h
  generalize next.rest = rest at hstops hnext ⊢
  cases hstops with
  | finish => exact .inl rfl
  | tag hstart => exact absurd rfl hnext
  | @close rest hblock => exact .inr ⟨by simpa using hblock, rest, rfl⟩

/-- Nodes end with the source, or at the brace that closes their block. -/
theorem NodesAt.next_cases {depth : Nat} {p : Place} {nodes : Passage (List Node)}
    (h : NodesAt options depth p nodes) :
    nodes.next.rest = [] ∨ (depth ≠ 0 ∧ ∃ rest, nodes.next.rest = '}' :: rest) := by
  induction h using NodesAt.induction with
  | last htext hnext => exact next_cases_of_readText htext hnext
  | tag _ _ _ ih => exact ih

/-- Nodes that end before the source does end at a brace. -/
theorem NodesAt.eq_brace {depth : Nat} {p : Place} {nodes : List Node} {faults : List Diagnostic}
    {stop : Nat} {c : Char} {rest : List Char}
    (h : NodesAt options depth p ⟨nodes, faults, ⟨stop, c :: rest⟩⟩) : c = '}' := by
  rcases h.next_cases with hend | ⟨-, _, hclose⟩
  · cases hend
  · exact (List.cons.inj hclose).1

/-- A tag in front of which text ends has a name. -/
theorem stopsText_backslash {inBlock : Bool} {cs : List Char} (h : StopsText inBlock ('\\' :: cs)) :
    ∃ c rest, cs = c :: rest ∧ Text.isNameStart c = true := by
  cases h with
  | tag hstart => exact ⟨_, _, rfl, hstart⟩

mutual

theorem NodesAt.exists_walk {depth : Nat} {p : Place} {nodes : Passage (List Node)} :
    NodesAt options depth p nodes → ∃ run, Place.Walk run p nodes.next
  | .last htext _ => exists_walk_of_readText htext
  | .tag htext htag hmore => by
      obtain ⟨gap, hgap⟩ := exists_walk_of_readText htext
      obtain ⟨run, hrun⟩ := htag.exists_walk
      obtain ⟨tail, htail⟩ := hmore.exists_walk
      exact ⟨_, hgap.trans (.trans (.cons hrun) htail)⟩

theorem TagAt.exists_walk {depth start : Nat} {cs : List Char} {tag : Passage Tag} :
    TagAt options depth start cs tag → ∃ run, Place.Walk run ⟨start + 1, cs⟩ tag.next
  | .intro hreading hblocks => by
      obtain ⟨header, hheader⟩ := Header.exists_walk_readAt hreading
      obtain ⟨run, hrun⟩ := hblocks.exists_walk
      exact ⟨_, (Place.walk_name start cs).trans (hheader.trans hrun)⟩

theorem BlocksAt.exists_walk {depth : Nat} {p : Place} {blocks : Passage (List Block)} :
    BlocksAt options depth p blocks → ∃ run, Place.Walk run p blocks.next
  | .none _ _ => ⟨[], .refl _⟩
  | .tooDeep hskip _ hmore => by
      obtain ⟨inside, hinside⟩ := exists_walk_passBlock 0 _ _
      obtain ⟨run, hrun⟩ := hmore.exists_walk
      exact ⟨_, (Place.walk_skipBlanks hskip).trans (.cons (hinside.trans hrun))⟩
  | .unclosed hskip _ hbody => by
      obtain ⟨inside, hinside⟩ := hbody.exists_walk
      exact ⟨_, (Place.walk_skipBlanks hskip).trans (.cons hinside)⟩
  | .plain hskip _ hbody hmore => by
      obtain ⟨inside, hinside⟩ := hbody.exists_walk
      obtain ⟨run, hrun⟩ := hmore.exists_walk
      obtain rfl := hbody.eq_brace
      exact ⟨_, (Place.walk_skipBlanks hskip).trans (.cons (hinside.trans (.cons hrun)))⟩
  | .verbatim hskip hopens hread hmore => by
      obtain ⟨inside, hinside⟩ := exists_walk_readVerbatim hopens hread
      obtain ⟨run, hrun⟩ := hmore.exists_walk
      exact ⟨_, (Place.walk_skipBlanks hskip).trans (hinside.trans hrun)⟩

end

/-- A tag begins with its name. -/
theorem TagAt.exists_run_eq {depth start : Nat} {cs run : List Char} {tag : Passage Tag}
    (h : TagAt options depth start cs tag) (hwalk : Place.Walk run ⟨start + 1, cs⟩ tag.next) :
    ∃ behind, run = cs.takeWhile Text.isNameChar ++ behind := by
  cases h with
  | intro hreading hblocks =>
      obtain ⟨header, hheader⟩ := Header.exists_walk_readAt hreading
      obtain ⟨blocks, hblocks⟩ := hblocks.exists_walk
      exact ⟨_, hwalk.run_eq ((Place.walk_name start cs).trans (hheader.trans hblocks))⟩

/-- Text that ends at a tag ends there whatever follows the tag. -/
theorem TagAt.stopsText_append {inBlock : Bool} {depth start : Nat} {cs run : List Char}
    {tag : Passage Tag} (h : TagAt options depth start cs tag)
    (hwalk : Place.Walk run ⟨start + 1, cs⟩ tag.next) (hstops : StopsText inBlock ('\\' :: cs))
    (rest' : List Char) : StopsText inBlock ('\\' :: (run ++ rest')) := by
  obtain ⟨c, rest, rfl, hstart⟩ := stopsText_backslash hstops
  obtain ⟨behind, rfl⟩ := h.exists_run_eq hwalk
  rw [List.takeWhile_cons, if_pos (Text.isNameChar_of_isNameStart hstart)]
  exact .tag hstart

end TaggedText
