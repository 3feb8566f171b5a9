import TaggedText.Proofs.Document.Places

/-!
# How far a tag looks ahead

A tag looks at the character behind it to see that it goes on no further, and at nothing else.  So
what follows a tag can be exchanged for anything that does not go on with it.

`Inert` is a text that goes on with no part of a tag: it begins with no character of a name, no
delimiter of a header, no blank and no block.  `Recut` is two texts that differ in their ends alone;
if what is put in is inert, a part of a tag takes off the front of the one what it takes off the
front of the other.  There is one lemma for each part, and `TagAt.recut` puts them together.

Two companions are needed wherever a tag is moved.  A tag is read alike with fewer blocks open
around it (`TagAt.raise`), and no tag ends with a backslash (`TagAt.endsClear`), so that what stands
behind it is not escaped.
-/

namespace TaggedText

/-- The fault lies within a header that was closed. -/
def Diagnostic.IsHeaderFault : Diagnostic → Prop
  | .malformed _ message _ => message ≠ "Unterminated tag header"
  | .unterminatedBlock _ _ => False
  | .nestingTooDeep _ _ => False

/-- **The text goes on with no part of a tag**: no name, no header, no blanks and no block. -/
def Inert (w : List Char) : Prop :=
  ∀ c, w.head? = some c →
    Text.isNameChar c = false ∧ Text.isBlank c = false ∧ c ∉ ['(', '[', '{', '=']

theorem Inert.nil : Inert [] :=
  nofun

theorem Inert.cons {c : Char} (hname : Text.isNameChar c = false) (hblank : Text.isBlank c = false)
    (hdelimiter : c ∉ ['(', '[', '{', '=']) (rest : List Char) : Inert (c :: rest) := by
  rintro d hd
  obtain rfl : c = d := by simpa using hd
  exact ⟨hname, hblank, hdelimiter⟩

theorem Inert.head?_ne {w : List Char} (hw : Inert w) {c : Char} (hc : c ∈ ['(', '[', '{', '=']) :
    w.head? ≠ some c :=
  fun hhead => (hw c hhead).2.2 hc

/-- **The texts differ in their ends alone**, where one has `v` and the other `w`. -/
def Recut (v w cs ds : List Char) : Prop :=
  ∃ u, cs = u ++ v ∧ ds = u ++ w

namespace Recut

variable {v w cs ds : List Char}

theorem append (h : Recut v w cs ds) (run : List Char) : Recut v w (run ++ cs) (run ++ ds) := by
  obtain ⟨u, rfl, rfl⟩ := h
  exact ⟨run ++ u, (List.append_assoc _ _ _).symm, (List.append_assoc _ _ _).symm⟩

theorem cons (h : Recut v w cs ds) (c : Char) : Recut v w (c :: cs) (c :: ds) :=
  h.append [c]

/-- Where nothing is left, nothing is put in its place. -/
theorem eq_nil (h : Recut v [] [] ds) : ds = [] := by
  obtain ⟨u, hu, rfl⟩ := h
  rw [(List.append_eq_nil_iff.mp hu.symm).1]
  rfl

/-- Either the texts begin with the same character, or one is `v` and the other `w`. -/
theorem head_cases (h : Recut v w cs ds) :
    (∃ c cs' ds', cs = c :: cs' ∧ ds = c :: ds' ∧ Recut v w cs' ds') ∨ cs = v ∧ ds = w := by
  obtain ⟨u, rfl, rfl⟩ := h
  cases u with
  | nil => exact .inr ⟨rfl, rfl⟩
  | cons c u => exact .inl ⟨c, u ++ v, u ++ w, rfl, rfl, u, rfl, rfl⟩

/-- The first character has a property that it has in `w`, and that it had before. -/
theorem head {q : Char → Prop} (h : Recut v w cs ds) (hcs : ∀ c, cs.head? = some c → q c)
    (hw : ∀ c, w.head? = some c → q c) : ∀ c, ds.head? = some c → q c := by
  rcases h.head_cases with ⟨c, cs', ds', rfl, rfl, -⟩ | ⟨-, rfl⟩
  · exact hcs
  · exact hw

/-- A character that `w` does not begin with was there before. -/
theorem head?_eq {c : Char} (h : Recut v w cs ds) (hw : w.head? ≠ some c)
    (hds : ds.head? = some c) : cs.head? = some c := by
  rcases h.head_cases with ⟨d, cs', ds', rfl, rfl, -⟩ | ⟨-, rfl⟩
  · exact hds
  · exact absurd hds hw

/-- Behind a run that does not go on in `w`, the texts still differ in their ends alone. -/
theorem dropWhile {q : Char → Bool} (h : Recut v w cs ds)
    (hw : ∀ c, w.head? = some c → q c = false) :
    Recut v w (cs.dropWhile q) (ds.dropWhile q) ∨ ds.dropWhile q = w := by
  obtain ⟨u, rfl, rfl⟩ := h
  cases hu : u.dropWhile q with
  | nil =>
      refine .inr ?_
      rw [List.dropWhile_append, hu, if_pos List.isEmpty_nil]
      exact @dropWhile_append_of_head q [] w nofun hw
  | cons c u' =>
      refine .inl ⟨c :: u', ?_, ?_⟩ <;> simp [List.dropWhile_append, hu]

end Recut

variable {v w : List Char}

/-! ### Headers -/

namespace Header

variable {opener close : Char} {cs text rest rest' : List Char}

theorem list?_recut (h : list? opener close cs = some (text, rest)) (hw : w.head? ≠ some opener)
    (hrest : Recut v w rest rest') : list? opener close (text ++ rest') = some (text, rest') := by
  rcases (list?_cases h).2 with ⟨rfl, hhead⟩ | ⟨-, hagain⟩
  · have hhead' : ∀ c, rest'.head? = some c → c ≠ opener :=
      hrest.head (fun c hc hopener => hhead (hopener ▸ hc)) fun c hc hopener => hw (hopener ▸ hc)
    exact list?_of_head fun hopener => hhead' opener hopener rfl
  · exact hagain rest'

theorem extent_recut (h : extent cs = .closed text rest) (hw : Inert w)
    (hrest : Recut v w rest rest') : extent (text ++ rest') = .closed text rest' := by
  unfold extent at h
  split at h
  · cases h
  · next params _ hparams =>
      split at h
      · cases h
      · next attributes _ hattributes =>
          cases h
          have hbehind := hrest.append attributes
          rw [← (list?_cases hattributes).1] at hbehind
          rw [List.append_assoc, extent,
            list?_recut hparams (hw.head?_ne (by decide)) hbehind]
          simp only [list?_recut hattributes (hw.head?_ne (by decide)) hrest]

theorem exists_extent_eq {p : Place} (h : ∀ d ∈ (readAt p).diagnostics, d.IsHeaderFault) :
    ∃ text rest, extent p.rest = .closed text rest ∧ (readAt p).next = p.pass text rest := by
  unfold readAt at *
  cases hextent : extent p.rest with
  | closed text rest =>
      refine ⟨text, rest, rfl, ?_⟩
      simp only
      split <;> rfl
  | unclosed close =>
      rw [hextent] at h
      exact absurd rfl (h _ List.mem_cons_self)

/-- The characters of a header decide how it is read. -/
theorem readAt_congr {offset : Nat} {cs' : List Char} (h : extent cs = .closed text rest)
    (h' : extent cs' = .closed text rest') :
    readAt ⟨offset, cs'⟩ =
      { readAt ⟨offset, cs⟩ with next := ⟨(readAt ⟨offset, cs⟩).next.offset, rest'⟩ } := by
  unfold readAt
  simp only [h, h']
  cases read offset text <;> rfl

/-- **A header is read alike** in front of texts that go on with no part of it. -/
theorem readAt_recut {p : Place} {run : List Char} {reading : Reading}
    (hreading : readAt p = reading) (hfaults : ∀ d ∈ reading.diagnostics, d.IsHeaderFault)
    (hwalk : Place.Walk run p reading.next) (hw : Inert w)
    (hrest : Recut v w reading.next.rest rest') :
    readAt ⟨p.offset, run ++ rest'⟩ =
      { reading with next := ⟨reading.next.offset, rest'⟩ } := by
  subst hreading
  obtain ⟨text, rest, hextent, hnext⟩ := exists_extent_eq hfaults
  rw [hnext] at hwalk hrest
  obtain rfl := hwalk.run_eq (.pass p (extent_eq hextent))
  exact readAt_congr hextent (extent_recut hextent hw hrest)

theorem endsClear_of_list? (h : list? opener close cs = some (text, rest)) (hclose : close ≠ '\\') :
    Text.EndsClear text := by
  rcases (list?_cases h).2 with ⟨rfl, -⟩ | ⟨hlast, -⟩
  · exact .nil
  · exact fun hbackslash => hclose (Option.some.inj (hlast.symm.trans hbackslash))

theorem endsClear_of_readAt {p : Place} {run : List Char} {reading : Reading}
    (hreading : readAt p = reading) (hfaults : ∀ d ∈ reading.diagnostics, d.IsHeaderFault)
    (hwalk : Place.Walk run p reading.next) : Text.EndsClear run := by
  subst hreading
  obtain ⟨text, rest, hextent, hnext⟩ := exists_extent_eq hfaults
  rw [hnext] at hwalk
  obtain rfl := hwalk.run_eq (.pass p (extent_eq hextent))
  unfold extent at hextent
  split at hextent
  · cases hextent
  · next hparams =>
      split at hextent
      · cases hextent
      · next hattributes =>
          cases hextent
          exact (endsClear_of_list? hparams (by decide)).append
            (endsClear_of_list? hattributes (by decide))

end Header

/-! ### What opens a block -/

section

variable {cs ds rest rest' : List Char}

/-- A block opens here, behind blanks. -/
def OpensBlock (cs : List Char) : Prop :=
  (cs.dropWhile Text.isBlank).head? = some '{' ∨ opensVerbatim (cs.dropWhile Text.isBlank) = true

theorem opensVerbatim_iff :
    opensVerbatim cs = true ↔ cs.head? = some '=' ∧ (afterFence cs).head? = some '{' := by
  have hwidth : 0 < fenceWidth cs ↔ cs.head? = some '=' := by
    unfold fenceWidth
    cases cs with
    | nil => simp
    | cons c cs => by_cases hc : c = '=' <;> simp [hc]
  simp [opensVerbatim, hwidth]

theorem Inert.not_opensVerbatim (hw : Inert w) : opensVerbatim w ≠ true :=
  fun h => hw.head?_ne (by decide) (opensVerbatim_iff.mp h).1

theorem Recut.opensVerbatim (h : Recut v w cs ds) (hw : Inert w)
    (hds : TaggedText.opensVerbatim ds = true) : TaggedText.opensVerbatim cs = true := by
  obtain ⟨hfence, hopen⟩ := opensVerbatim_iff.mp hds
  have hequals : ∀ c, w.head? = some c → (c == '=') = false := by
    intro c hc
    rw [beq_eq_false_iff_ne]
    rintro rfl
    exact hw.head?_ne (by decide) hc
  refine opensVerbatim_iff.mpr ⟨h.head?_eq (hw.head?_ne (by decide)) hfence, ?_⟩
  rcases h.dropWhile hequals with hafter | hafter
  · exact hafter.head?_eq (hw.head?_ne (by decide)) hopen
  · rw [afterFence, hafter] at hopen
    exact absurd hopen (hw.head?_ne (by decide))

theorem Recut.opensBlock (h : Recut v w cs ds) (hw : Inert w) (hds : OpensBlock ds) :
    OpensBlock cs := by
  rcases h.dropWhile fun c hc => (hw c hc).2.1 with hbehind | hbehind
  · rcases hds with hplain | hverbatim
    · exact .inl (hbehind.head?_eq (hw.head?_ne (by decide)) hplain)
    · exact .inr (hbehind.opensVerbatim hw hverbatim)
  · rw [OpensBlock, hbehind] at hds
    rcases hds with hplain | hverbatim
    · exact absurd hplain (hw.head?_ne (by decide))
    · exact absurd hverbatim hw.not_opensVerbatim

/-- The blanks in front of a block are skipped alike, whatever the block holds. -/
theorem Place.skipBlanks_append {p here : Place} {c : Char} {cs : List Char}
    (h : p.skipBlanks = here) (hrest : here.rest = c :: cs) (cs' : List Char) :
    (Place.mk p.offset (p.rest.takeWhile Text.isBlank ++ c :: cs')).skipBlanks =
      ⟨here.offset, c :: cs'⟩ := by
  subst h
  have hc : Text.isBlank c = false := of_dropWhile_eq_cons hrest
  have hhead : ∀ d, (c :: cs').head? = some d → Text.isBlank d = false := by
    rintro d hd
    obtain rfl : c = d := by simpa using hd
    exact hc
  simp only [Place.skipBlanks, Place.pass, takeWhile_takeWhile_append _ hhead,
    dropWhile_takeWhile_append _ hhead]

theorem Place.skipBlanks_append_rest {p here : Place} (h : p.skipBlanks = here)
    (hne : here.rest ≠ []) (behind : List Char) :
    (Place.mk p.offset (p.rest ++ behind)).skipBlanks = ⟨here.offset, here.rest ++ behind⟩ := by
  obtain ⟨c, cs, hrest⟩ := List.exists_cons_of_ne_nil hne
  rw [(Place.walk_skipBlanks h).rest_eq, hrest, List.append_assoc]
  exact Place.skipBlanks_append h hrest (cs ++ behind)

end

/-! ### Verbatim blocks -/

section

variable {cs rest rest' : List Char}

theorem fenceWidth_append_of_mem {run : List Char} (h : '}' ∈ run) (rest : List Char) :
    fenceWidth (run ++ rest) = fenceWidth run := by
  obtain ⟨front, back, rfl⟩ := List.append_of_mem h
  rw [List.append_assoc, List.cons_append, fenceWidth_append_brace, fenceWidth_append_brace]

theorem head?_afterFence_ne (cs : List Char) : (afterFence cs).head? ≠ some '=' := by
  intro hhead
  have hnot := List.head?_dropWhile_not (· == '=') cs
  rw [show (cs.dropWhile (· == '=')).head? = some '=' from hhead] at hnot
  cases hnot

/-- The text of a closed verbatim block ends with its fence, and what follows does not go on
with that. -/
theorem scanVerbatim_cases {width : Nat} {text : List Char} {offset : Nat}
    (h : (scanVerbatim width text offset cs).closed = true) :
    ∃ run, cs = run ++ (scanVerbatim width text offset cs).next.rest ∧ '}' ∈ run ∧
      Text.EndsClear run ∧ (scanVerbatim width text offset cs).next.rest.head? ≠ some '=' ∧
      ∀ rest' : List Char, rest'.head? ≠ some '=' → scanVerbatim width text offset (run ++ rest') =
        { scanVerbatim width text offset cs with
          next := ⟨(scanVerbatim width text offset cs).next.offset, rest'⟩ } := by
  fun_induction scanVerbatim width text offset cs with
  | case1 text offset => cases h
  | case2 text offset c rest hclose =>
      obtain ⟨rfl, hwidth⟩ : c = '}' ∧ fenceWidth rest = width := by simpa using hclose
      have hequals : ∀ d ∈ rest.takeWhile (· == '='), (d == '=') = true :=
        List.all_eq_true.mp List.all_takeWhile
      have hclear : Text.EndsClear ('}' :: rest.takeWhile (· == '=')) := by
        refine .of_forall fun d hd => ?_
        rintro rfl
        have hmem : '\\' ∈ rest.takeWhile (· == '=') := by simpa using hd
        cases hequals _ hmem
      refine ⟨'}' :: rest.takeWhile (· == '='), ?_, List.mem_cons_self, hclear,
        head?_afterFence_ne rest, fun rest' hrest' => ?_⟩
      · exact congrArg ('}' :: ·) List.takeWhile_append_dropWhile.symm
      · have hhead : ∀ d, rest'.head? = some d → (d == '=') = false := by
          intro d hd
          rw [beq_eq_false_iff_ne]
          rintro rfl
          exact hrest' hd
        have hfence : fenceWidth (rest.takeWhile (· == '=') ++ rest') = width := by
          rw [fenceWidth, takeWhile_takeWhile_append _ hhead, ← hwidth, fenceWidth]
        rw [List.cons_append, scanVerbatim, hfence, afterFence, dropWhile_takeWhile_append _ hhead]
        simp
  | case3 text offset c rest hopen ih =>
      obtain ⟨run, hrest, hbrace, hclear, hhead, hrun⟩ := ih h
      refine ⟨c :: run, congrArg (c :: ·) hrest, List.mem_cons_of_mem _ hbrace,
        hclear.append_of_ne_nil (List.ne_nil_of_mem hbrace) [c], hhead, fun rest' hrest' => ?_⟩
      rw [hrest, fenceWidth_append_of_mem hbrace] at hopen
      rw [List.cons_append, scanVerbatim, fenceWidth_append_of_mem hbrace, if_neg hopen,
        hrun rest' hrest']

theorem readVerbatim_eq {offset : Nat} {inside : List Char} (h : afterFence cs = '{' :: inside) :
    readVerbatim ⟨offset, cs⟩ =
      (scanVerbatim (fenceWidth cs) [] (offset + fenceWidth cs + '{'.utf8Size) inside,
        ⟨fenceWidth cs,
          (scanVerbatim (fenceWidth cs) [] (offset + fenceWidth cs + '{'.utf8Size)
            inside).closed⟩) := by
  simp only [readVerbatim, h, Place.advance]

/-- A verbatim block that is not closed ends with the source. -/
theorem next_rest_of_readVerbatim {p : Place} {verbatim : Verbatim} {fence : Fence}
    (hread : readVerbatim p = (verbatim, fence)) (hopen : fence.closed = false) :
    verbatim.next.rest = [] := by
  have hscan : ∀ width text offset cs, (scanVerbatim width text offset cs).closed = false →
      (scanVerbatim width text offset cs).next.rest = [] := by
    intro width text offset cs h
    fun_induction scanVerbatim width text offset cs with
    | case1 => rfl
    | case2 => cases h
    | case3 _ _ _ _ _ ih => exact ih h
  cases hread
  exact hscan _ _ _ _ hopen

/-- **A closed verbatim block** ends with its fence, and is read alike in front of everything that
does not go on with that. -/
theorem readVerbatim_cases {p : Place} {verbatim : Verbatim} {fence : Fence}
    (hopens : opensVerbatim p.rest = true) (hread : readVerbatim p = (verbatim, fence))
    (hclosed : fence.closed = true) :
    ∃ run, Place.Walk ('=' :: run) p verbatim.next ∧ Text.EndsClear ('=' :: run) ∧
      verbatim.next.rest.head? ≠ some '=' ∧
      ∀ rest' : List Char, rest'.head? ≠ some '=' →
        opensVerbatim ('=' :: run ++ rest') = true ∧
        readVerbatim ⟨p.offset, '=' :: run ++ rest'⟩ =
          ({ verbatim with next := ⟨verbatim.next.offset, rest'⟩ }, fence) := by
  obtain ⟨offset, cs⟩ := p
  obtain ⟨hfence, hopen⟩ := opensVerbatim_iff.mp hopens
  obtain ⟨inside, hafter⟩ : ∃ inside, afterFence cs = '{' :: inside :=
    List.head?_eq_some_iff.mp hopen
  obtain ⟨equals, hequals⟩ : ∃ equals, cs.takeWhile (· == '=') = '=' :: equals := by
    obtain ⟨rest, rfl⟩ := List.head?_eq_some_iff.mp hfence
    exact ⟨_, rfl⟩
  have hcs : cs = cs.takeWhile (· == '=') ++ '{' :: inside := by
    rw [← hafter]
    exact List.takeWhile_append_dropWhile.symm
  obtain ⟨whole, hwhole⟩ := exists_walk_readVerbatim hopens hread
  rw [readVerbatim_eq hafter] at hread
  cases hread
  obtain ⟨run, hinside, hbrace, hclear, hhead, hrun⟩ := scanVerbatim_cases hclosed
  refine ⟨equals ++ '{' :: run, ?_, ?_, hhead, fun rest' hrest' => ?_⟩
  · have hrest : cs = '=' :: (equals ++ '{' :: run) ++
        (scanVerbatim (fenceWidth cs) [] (offset + fenceWidth cs + '{'.utf8Size)
          inside).next.rest := by
      rw [hequals] at hcs
      simpa [← hinside] using hcs
    obtain rfl := List.append_cancel_right (hwhole.rest_eq.symm.trans hrest)
    exact hwhole
  · have hblock := hclear.append_of_ne_nil (List.ne_nil_of_mem hbrace) ('=' :: equals ++ ['{'])
    simpa using hblock
  · have hbrace : ∀ d, ('{' :: (run ++ rest')).head? = some d → (d == '=') = false := by
      rintro d ⟨⟩
      rfl
    have hsplit : '=' :: (equals ++ '{' :: run) ++ rest' =
        cs.takeWhile (· == '=') ++ '{' :: (run ++ rest') := by
      simp [hequals]
    have hafter' : afterFence ('=' :: (equals ++ '{' :: run) ++ rest') = '{' :: (run ++ rest') := by
      rw [hsplit, afterFence, dropWhile_takeWhile_append _ hbrace]
    have hwidth' : fenceWidth ('=' :: (equals ++ '{' :: run) ++ rest') = fenceWidth cs := by
      rw [hsplit, fenceWidth, takeWhile_takeWhile_append _ hbrace, fenceWidth]
    refine ⟨opensVerbatim_iff.mpr ⟨rfl, by rw [hafter']; rfl⟩, ?_⟩
    rw [readVerbatim_eq hafter', hwidth', hrun rest' hrest']

end

/-! ### Tags -/

section

variable {options : ReaderOptions} {rest' : List Char}

/-- Blocks are missing alike in front of texts with which no block goes on. -/
theorem BlocksAt.none_recut {depth : Nat} {p : Place} (hw : Inert w)
    (hplain : p.skipBlanks.rest.head? ≠ some '{')
    (hverbatim : opensVerbatim p.skipBlanks.rest = false) (hrest : Recut v w p.rest rest') :
    BlocksAt options depth ⟨p.offset, rest'⟩ ⟨[], [], ⟨p.offset, rest'⟩⟩ := by
  have hnone : ¬ OpensBlock rest' := by
    intro hopens
    rcases hrest.opensBlock hw hopens with hbrace | hfence
    · exact hplain hbrace
    · exact Bool.false_ne_true (hverbatim.symm.trans hfence)
  simp only [OpensBlock, not_or, Bool.not_eq_true] at hnone
  exact .none hnone.1 hnone.2

/-- Blocks that end with the source leave nothing to exchange. -/
theorem BlocksAt.recut_finished {depth : Nat} {p : Place} {blocks : Passage (List Block)}
    {run : List Char} (h : BlocksAt options depth p blocks) (hwalk : Place.Walk run p blocks.next)
    (hnext : blocks.next.rest = []) (hrest : Recut v [] blocks.next.rest rest') :
    BlocksAt options depth ⟨p.offset, run ++ rest'⟩
      { blocks with next := ⟨blocks.next.offset, rest'⟩ } := by
  rw [hnext] at hrest
  obtain rfl := hrest.eq_nil
  have hrun : run ++ [] = p.rest := by rw [hwalk.rest_eq, hnext]
  rw [hrun, ← hnext]
  exact h

/-- Where an open block is a fault, and there is none, no block is open. -/
theorem ReaderOptions.strictFences_eq_false {span : Span} {fence : Nat}
    (h : ∀ d ∈ options.unterminated span fence, d.IsHeaderFault) :
    options.strictFences = false := by
  cases hstrict : options.strictFences with
  | false => rfl
  | true =>
      have hmem : Diagnostic.unterminatedBlock span fence ∈ options.unterminated span fence := by
        simp [unterminated, hstrict]
      exact (h _ hmem).elim

/-- A tag is its name and what stands behind the name. -/
theorem TagAt.of_name {depth start : Nat} {cs behind : List Char} {reading : Header.Reading}
    {blocks : Passage (List Block)}
    (hbehind : ∀ c, behind.head? = some c → Text.isNameChar c = false)
    (hreading : Header.readAt ⟨start + 1 + Text.width (cs.takeWhile Text.isNameChar), behind⟩ =
      reading)
    (hblocks : BlocksAt options depth reading.next blocks) :
    TagAt options depth start (cs.takeWhile Text.isNameChar ++ behind)
      ⟨{ name := String.ofList (cs.takeWhile Text.isNameChar)
         params := reading.header.params
         attributes := reading.header.attributes
         blocks := blocks.value
         span := ⟨start, blocks.next.offset⟩ },
        reading.diagnostics ++ blocks.diagnostics, blocks.next⟩ := by
  have hname := takeWhile_takeWhile_append cs hbehind
  have htag := @TagAt.intro options depth start (cs.takeWhile Text.isNameChar ++ behind) reading
    blocks (by rwa [hname, dropWhile_takeWhile_append cs hbehind]) hblocks
  rwa [hname] at htag

/-- **The name and the header of a tag are read alike** in front of texts that go on with no part
of them, and blocks are read behind them. -/
theorem TagAt.of_recut {depth start : Nat} {cs header : List Char} {reading : Header.Reading}
    {blocks : Passage (List Block)} (hw : Inert w)
    (hreading : Header.readAt ⟨start + 1 + Text.width (cs.takeWhile Text.isNameChar),
      cs.dropWhile Text.isNameChar⟩ = reading)
    (hfaults : ∀ d ∈ reading.diagnostics, d.IsHeaderFault)
    (hheader : Place.Walk header ⟨start + 1 + Text.width (cs.takeWhile Text.isNameChar),
      cs.dropWhile Text.isNameChar⟩ reading.next)
    (hrest : Recut v w reading.next.rest rest')
    (hblocks : BlocksAt options depth ⟨reading.next.offset, rest'⟩ blocks) :
    TagAt options depth start (cs.takeWhile Text.isNameChar ++ (header ++ rest'))
      ⟨{ name := String.ofList (cs.takeWhile Text.isNameChar)
         params := reading.header.params
         attributes := reading.header.attributes
         blocks := blocks.value
         span := ⟨start, blocks.next.offset⟩ },
        reading.diagnostics ++ blocks.diagnostics, blocks.next⟩ := by
  have hreading' := Header.readAt_recut hreading hfaults hheader hw hrest
  have hname : ∀ c, (header ++ rest').head? = some c → Text.isNameChar c = false := by
    have hall := hrest.append header
    rw [← hheader.rest_eq] at hall
    refine hall.head (fun c hc => ?_) fun c hc => (hw c hc).1
    obtain ⟨rest, hrest⟩ := List.head?_eq_some_iff.mp hc
    exact of_dropWhile_eq_cons hrest
  have htag := TagAt.of_name hname hreading' hblocks
  exact htag

mutual

theorem NodesAt.recut {depth : Nat} {p : Place} {nodes : Passage (List Node)} {rest : List Char}
    {rest' run : List Char} (hw : Inert w)
    (hend : w = [] ∨ options.strictFences = true) : NodesAt options depth p nodes →
    (∀ d ∈ nodes.diagnostics, d.IsHeaderFault) → Place.Walk run p nodes.next →
    nodes.next.rest = '}' :: rest → Recut v w rest rest' →
      NodesAt options depth ⟨p.offset, run ++ '}' :: rest'⟩
        { nodes with next := ⟨nodes.next.offset, '}' :: rest'⟩ }
  | .last htext hnext, _, hwalk, hbrace, _ => by
      have hstops := stopsText_of_readText htext
      rw [hbrace] at hstops
      cases hstops with
      | close hblock =>
          refine .last (readText_append htext ?_ hwalk (.close hblock)) (by simp)
          rw [hbrace]
          exact List.cons_ne_nil _ _
  | @NodesAt.tag _ _ start _ text behind tag more htext htag hmore, hfaults, hwalk, hbrace,
      hrest => by
      obtain ⟨htagFaults, hmoreFaults⟩ := List.forall_mem_append.mp hfaults
      obtain ⟨gap, hgap⟩ := exists_walk_of_readText htext
      obtain ⟨run, hrun⟩ := htag.exists_walk
      obtain ⟨tail, htail⟩ := hmore.exists_walk
      obtain rfl := hwalk.run_eq (hgap.trans ((Place.Walk.cons hrun).trans htail))
      have hmore' := hmore.recut hw hend hmoreFaults htail hbrace hrest
      have hbehind : Recut v w tag.next.rest (tail ++ '}' :: rest') := by
        rw [htail.rest_eq, hbrace]
        exact (hrest.cons '}').append tail
      have htag' := htag.recut hw hend htagFaults hrun hbehind
      have hstops := htag.stopsText_append hrun (stopsText_of_readText htext)
        (tail ++ '}' :: rest')
      have htext' := readText_append htext (List.cons_ne_nil _ _) hgap hstops
      simpa using NodesAt.tag htext' htag' hmore'

theorem TagAt.recut {depth start : Nat} {cs : List Char} {tag : Passage Tag}
    {rest' run : List Char} (hw : Inert w)
    (hend : w = [] ∨ options.strictFences = true) :
    TagAt options depth start cs tag → (∀ d ∈ tag.diagnostics, d.IsHeaderFault) →
    Place.Walk run ⟨start + 1, cs⟩ tag.next → Recut v w tag.next.rest rest' →
      TagAt options depth start (run ++ rest')
        { tag with next := ⟨tag.next.offset, rest'⟩ }
  | @TagAt.intro _ _ _ _ reading blocks hreading hblocks, hfaults, hwalk, hrest => by
      obtain ⟨hheaderFaults, hblockFaults⟩ := List.forall_mem_append.mp hfaults
      obtain ⟨header, hheader⟩ := Header.exists_walk_readAt hreading
      obtain ⟨run, hrun⟩ := hblocks.exists_walk
      obtain rfl := hwalk.run_eq ((Place.walk_name start cs).trans (hheader.trans hrun))
      have hblocks' := hblocks.recut hw hend hblockFaults hrun hrest
      have hbehind := hrest.append run
      rw [← hrun.rest_eq] at hbehind
      have htag := TagAt.of_recut hw hreading hheaderFaults hheader hbehind hblocks'
      rwa [List.append_assoc, List.append_assoc]

theorem BlocksAt.recut {depth : Nat} {p : Place} {blocks : Passage (List Block)}
    {rest' run : List Char} (hw : Inert w)
    (hend : w = [] ∨ options.strictFences = true) : BlocksAt options depth p blocks →
    (∀ d ∈ blocks.diagnostics, d.IsHeaderFault) → Place.Walk run p blocks.next →
    Recut v w blocks.next.rest rest' →
      BlocksAt options depth ⟨p.offset, run ++ rest'⟩
        { blocks with next := ⟨blocks.next.offset, rest'⟩ }
  | .none hplain hverbatim, _, hwalk, hrest => by
      obtain rfl := hwalk.run_eq (.refl _)
      exact .none_recut hw hplain hverbatim hrest
  | .tooDeep _ _ _, hfaults, _, _ => (hfaults _ List.mem_cons_self).elim
  | .unclosed hskip hdepth hbody, hfaults, hwalk, hrest => by
      have hopen := ReaderOptions.strictFences_eq_false (List.forall_mem_append.mp hfaults).2
      obtain rfl : w = [] := hend.resolve_right (by simp [hopen])
      exact BlocksAt.recut_finished (.unclosed hskip hdepth hbody) hwalk rfl hrest
  | @BlocksAt.plain _ _ start stop p inside rest c nodes faults more hskip hdepth hbody hmore,
      hfaults, hwalk, hrest => by
      obtain ⟨hbodyFaults, hmoreFaults⟩ := List.forall_mem_append.mp hfaults
      obtain ⟨body, hbodyWalk⟩ := hbody.exists_walk
      obtain ⟨run, hrun⟩ := hmore.exists_walk
      have hmore' := hmore.recut hw hend hmoreFaults hrun hrest
      have hbehind := hrest.append run
      rw [← hrun.rest_eq] at hbehind
      have hbody' := hbody.recut hw hend hbodyFaults hbodyWalk
        (congrArg (· :: rest) hbody.eq_brace) hbehind
      obtain rfl := hbody.eq_brace
      obtain rfl := hwalk.run_eq ((Place.walk_skipBlanks hskip).trans
        (.cons (hbodyWalk.trans (.cons hrun))))
      have hskip' := Place.skipBlanks_append hskip rfl (body ++ '}' :: (run ++ rest'))
      simpa using BlocksAt.plain hskip' hdepth hbody' hmore'
  | @BlocksAt.verbatim _ _ p here verbatim fence more hskip hopens hread hmore, hfaults, hwalk,
      hrest => by
      obtain ⟨hfenceFaults, hmoreFaults⟩ := List.forall_mem_append.mp hfaults
      obtain ⟨run, hrun⟩ := hmore.exists_walk
      have hmore' := hmore.recut hw hend hmoreFaults hrun hrest
      by_cases hclosed : fence.closed = true
      · obtain ⟨fenced, hfenced, -, hhead, hagain⟩ := readVerbatim_cases hopens hread hclosed
        obtain rfl := hwalk.run_eq ((Place.walk_skipBlanks hskip).trans (hfenced.trans hrun))
        have hhead' : (run ++ rest').head? ≠ some '=' := by
          have hbehind := hrest.append run
          rw [← hrun.rest_eq] at hbehind
          exact fun hequals => hhead (hbehind.head?_eq (hw.head?_ne (by decide)) hequals)
        obtain ⟨hopens', hread'⟩ := hagain _ hhead'
        have hskip' := Place.skipBlanks_append hskip hfenced.rest_eq (fenced ++ (run ++ rest'))
        rw [List.append_assoc, List.append_assoc]
        exact .verbatim hskip' hopens' hread' hmore'
      · rw [if_neg hclosed] at hfenceFaults
        have hopen := ReaderOptions.strictFences_eq_false hfenceFaults
        obtain rfl : w = [] := hend.resolve_right (by simp [hopen])
        have hnext := hrun.rest_eq
        rw [next_rest_of_readVerbatim hread (by simpa using hclosed)] at hnext
        exact BlocksAt.recut_finished (.verbatim hskip hopens hread hmore) hwalk
          (List.append_eq_nil_iff.mp hnext.symm).2 hrest

end

/-! ### The ends of tags -/

/-- The way through an opening brace ends with it. -/
theorem Place.exists_walk_open {p : Place} {start : Nat} {inside : List Char}
    (h : p.skipBlanks = ⟨start, '{' :: inside⟩) :
    ∃ run, Place.Walk run p ⟨start + 1, inside⟩ ∧ Text.EndsClear run := by
  have hbrace : Text.EndsClear ['{'] := .of_forall (by simp)
  exact ⟨_, (Place.walk_skipBlanks h).trans (.cons (.refl _)),
    hbrace.append_of_ne_nil (List.cons_ne_nil _ _) _⟩

/-- The way through a body and its closing brace ends with the brace. -/
theorem NodesAt.exists_walk_close {depth stop : Nat} {p : Place} {nodes : List Node}
    {faults : List Diagnostic} {rest : List Char}
    (h : NodesAt options depth p ⟨nodes, faults, ⟨stop, '}' :: rest⟩⟩) :
    ∃ run, Place.Walk run p ⟨stop + 1, rest⟩ ∧ Text.EndsClear run := by
  obtain ⟨run, hrun⟩ := h.exists_walk
  have hbrace : Text.EndsClear ['}'] := .of_forall (by simp)
  exact ⟨_, hrun.trans (.cons (.refl _)), hbrace.append_of_ne_nil (List.cons_ne_nil _ _) run⟩

theorem BlocksAt.endsClear {depth : Nat} {p : Place} {blocks : Passage (List Block)}
    {run : List Char} (hstrict : options.strictFences = true) (h : BlocksAt options depth p blocks)
    (hfaults : ∀ d ∈ blocks.diagnostics, d.IsHeaderFault) (hwalk : Place.Walk run p blocks.next) :
    Text.EndsClear run := by
  induction h using BlocksAt.induction generalizing run with
  | none _ _ =>
      obtain rfl := hwalk.run_eq (.refl _)
      exact .nil
  | tooDeep _ _ _ _ => exact (hfaults _ List.mem_cons_self).elim
  | unclosed _ _ _ =>
      have hopen := ReaderOptions.strictFences_eq_false (List.forall_mem_append.mp hfaults).2
      exact absurd hstrict (by simp [hopen])
  | plain hskip _ hbody hmore ih =>
      obtain rfl := hbody.eq_brace
      obtain ⟨front, hfront, hfrontClear⟩ := Place.exists_walk_open hskip
      obtain ⟨body, hbodyWalk, hbodyClear⟩ := hbody.exists_walk_close
      obtain ⟨run, hrun⟩ := hmore.exists_walk
      obtain rfl := hwalk.run_eq (hfront.trans (hbodyWalk.trans hrun))
      exact hfrontClear.append
        (hbodyClear.append (ih (List.forall_mem_append.mp hfaults).2 hrun))
  | @verbatim _ p _ _ fence _ hskip hopens hread hmore ih =>
      obtain ⟨hfenceFaults, hmoreFaults⟩ := List.forall_mem_append.mp hfaults
      obtain ⟨run, hrun⟩ := hmore.exists_walk
      have hmoreClear := ih hmoreFaults hrun
      by_cases hclosed : fence.closed = true
      · obtain ⟨fenced, hfenced, hclear, -, -⟩ := readVerbatim_cases hopens hread hclosed
        obtain rfl := hwalk.run_eq ((Place.walk_skipBlanks hskip).trans (hfenced.trans hrun))
        have hblock := hclear.append_of_ne_nil (List.cons_ne_nil _ _)
          (p.rest.takeWhile Text.isBlank)
        simpa using hblock.append hmoreClear
      · rw [if_neg hclosed] at hfenceFaults
        have hopen := ReaderOptions.strictFences_eq_false hfenceFaults
        exact absurd hstrict (by simp [hopen])

theorem Text.endsClear_name (cs : List Char) : EndsClear (cs.takeWhile isNameChar) := by
  refine .of_forall fun c hc => ne_of_isNameChar ?_ (by decide)
  exact List.all_eq_true.mp List.all_takeWhile c hc

/-- **No tag ends with a backslash**, where an open block is a fault and there is none. -/
theorem TagAt.endsClear {depth start : Nat} {cs run : List Char} {tag : Passage Tag}
    (hstrict : options.strictFences = true) (h : TagAt options depth start cs tag)
    (hfaults : ∀ d ∈ tag.diagnostics, d.IsHeaderFault)
    (hwalk : Place.Walk run ⟨start + 1, cs⟩ tag.next) : Text.EndsClear run := by
  cases h with
  | intro hreading hblocks =>
      obtain ⟨hheaderFaults, hblockFaults⟩ := List.forall_mem_append.mp hfaults
      obtain ⟨header, hheader⟩ := Header.exists_walk_readAt hreading
      obtain ⟨run, hrun⟩ := hblocks.exists_walk
      obtain rfl := hwalk.run_eq ((Place.walk_name start cs).trans (hheader.trans hrun))
      have hheaderClear := Header.endsClear_of_readAt hreading hheaderFaults hheader
      exact (Text.endsClear_name cs).append
        (hheaderClear.append (hblocks.endsClear hstrict hblockFaults hrun))

/-! ### Fewer open blocks -/

mutual

theorem NodesAt.raise {depth depth' : Nat} {p : Place} {nodes : Passage (List Node)} :
    NodesAt options depth p nodes → (∀ d ∈ nodes.diagnostics, d.IsHeaderFault) →
    depth' ≤ depth → (depth != 0) = (depth' != 0) → NodesAt options depth' p nodes
  | .last htext hnext, _, _, hzero =>
      .last (hzero ▸ htext) hnext
  | .tag htext htag hmore, hfaults, hle, hzero => by
      obtain ⟨htagFaults, hmoreFaults⟩ := List.forall_mem_append.mp hfaults
      exact .tag (hzero ▸ htext) (htag.raise htagFaults hle) (hmore.raise hmoreFaults hle hzero)

/-- **A tag is read alike with fewer blocks open around it**, if none in it nests too deep. -/
theorem TagAt.raise {depth depth' start : Nat} {cs : List Char} {tag : Passage Tag} :
    TagAt options depth start cs tag → (∀ d ∈ tag.diagnostics, d.IsHeaderFault) →
    depth' ≤ depth → TagAt options depth' start cs tag
  | .intro hreading hblocks, hfaults, hle =>
      .intro hreading (hblocks.raise (List.forall_mem_append.mp hfaults).2 hle)

theorem BlocksAt.raise {depth depth' : Nat} {p : Place} {blocks : Passage (List Block)} :
    BlocksAt options depth p blocks → (∀ d ∈ blocks.diagnostics, d.IsHeaderFault) →
    depth' ≤ depth → BlocksAt options depth' p blocks
  | .none hplain hverbatim, _, _ => .none hplain hverbatim
  | .tooDeep _ _ _, hfaults, _ => (hfaults _ List.mem_cons_self).elim
  | .unclosed hskip hdepth hbody, hfaults, hle =>
      .unclosed hskip (by omega)
        (hbody.raise (List.forall_mem_append.mp hfaults).1 (by omega) rfl)
  | .plain hskip hdepth hbody hmore, hfaults, hle => by
      obtain ⟨hbodyFaults, hmoreFaults⟩ := List.forall_mem_append.mp hfaults
      exact .plain hskip (by omega) (hbody.raise hbodyFaults (by omega) rfl)
        (hmore.raise hmoreFaults hle)
  | .verbatim hskip hopens hread hmore, hfaults, hle =>
      .verbatim hskip hopens hread (hmore.raise (List.forall_mem_append.mp hfaults).2 hle)

end

end

end TaggedText
