import TaggedText.Document.Reader

/-!
# The grammar of documents

What the reader of documents accepts, as a grammar: derivations say which nodes, which diagnostics
and which place behind them belong to a place of a source.

The reader recurses on lengths, and its parts call one another inside of matches on what came back.
Nobody wants to do induction on that twice.  `NodesAt`, `TagAt` and `BlocksAt` have one constructor
for each way to go on, with all that was read on the way as premises, and no recursion on lengths is
left in them; every later fact about reading is an induction over derivations.

Nothing is lost by this.  What is read has a derivation (`readNodes_at`, `readTag_at`,
`readBlocks_at`), and only that (`nodesAt_iff`, `Document.read_eq_ok_iff`), faults included.
-/

namespace TaggedText

/-- A part without the bound on what it leaves. -/
structure Passage (α : Type) where
  value : α
  diagnostics : List Diagnostic
  next : Place

/-- What a part says. -/
def Part.passage {α : Type} {bound : Nat} (p : Part α bound) : Passage α :=
  ⟨p.value, p.diagnostics, p.next⟩

/-! ### Equations of the reader -/

section

variable {options : ReaderOptions} {depth offset start : Nat} {cs text inside rest : List Char}

theorem readNodes_of_end {stop : Nat}
    (h : readText (depth != 0) [] offset cs = ⟨text, ⟨stop, []⟩⟩) :
    (readNodes options depth offset cs).passage = ⟨textBody text, [], ⟨stop, []⟩⟩ := by
  rw [readNodes]
  split
  · rename_i h'
    rw [h] at h'
    cases h'
  · rename_i h'
    rw [h] at h'
    cases h'
    rfl

theorem readNodes_of_close {c : Char}
    (h : readText (depth != 0) [] offset cs = ⟨text, ⟨start, c :: rest⟩⟩) (hc : c ≠ '\\') :
    (readNodes options depth offset cs).passage = ⟨textBody text, [], ⟨start, c :: rest⟩⟩ := by
  rw [readNodes]
  split
  · rename_i h'
    rw [h] at h'
    cases h'
    simp [hc, Part.passage]
  · rename_i h'
    rw [h] at h'
    cases h'

theorem readNodes_of_tag (h : readText (depth != 0) [] offset cs = ⟨text, ⟨start, '\\' :: rest⟩⟩) :
    (readNodes options depth offset cs).passage =
      let tag := (readTag options depth start rest).passage
      let more := (readNodes options depth tag.next.offset tag.next.rest).passage
      ⟨textBody text ++ .tag tag.value :: more.value, tag.diagnostics ++ more.diagnostics,
        more.next⟩ := by
  rw [readNodes]
  split
  · rename_i h'
    rw [h] at h'
    cases h'
    rfl
  · rename_i h'
    rw [h] at h'
    cases h'

theorem readTag_eq {reading : Header.Reading}
    (h : Header.readAt ⟨start + 1 + Text.width (cs.takeWhile Text.isNameChar),
      cs.dropWhile Text.isNameChar⟩ = reading) :
    (readTag options depth start cs).passage =
      let blocks := (readBlocks options depth reading.next.offset reading.next.rest).passage
      ⟨{ name := String.ofList (cs.takeWhile Text.isNameChar)
         params := reading.header.params
         attributes := reading.header.attributes
         blocks := blocks.value
         span := ⟨start, blocks.next.offset⟩ },
        reading.diagnostics ++ blocks.diagnostics, blocks.next⟩ := by
  subst h
  rw [readTag]
  rfl

theorem readBlocks_of_none (hplain : (Place.skipBlanks ⟨offset, cs⟩).rest.head? ≠ some '{')
    (hverbatim : opensVerbatim (Place.skipBlanks ⟨offset, cs⟩).rest = false) :
    (readBlocks options depth offset cs).passage = ⟨[], [], ⟨offset, cs⟩⟩ := by
  rw [readBlocks]
  split
  · rfl
  · rename_i c inside h
    rw [h] at hplain hverbatim
    have hc : c ≠ '{' := by simpa using hplain
    simp [hc, hverbatim, Part.passage]

theorem readBlocks_of_tooDeep (h : Place.skipBlanks ⟨offset, cs⟩ = ⟨start, '{' :: inside⟩)
    (hdepth : options.maxDepth ≤ depth) :
    (readBlocks options depth offset cs).passage =
      let after := passBlock 0 (start + 1) inside
      let more := (readBlocks options depth after.offset after.rest).passage
      ⟨{} :: more.value,
        .nestingTooDeep ⟨start, start + 1⟩ options.maxDepth :: more.diagnostics, more.next⟩ := by
  rw [readBlocks]
  split
  · rename_i h'
    rw [h] at h'
    cases h'
  · rename_i h'
    rw [h] at h'
    cases h'
    simp [hdepth, Part.passage]

theorem readBlocks_of_unclosed {nodes : List Node} {faults : List Diagnostic} {stop : Nat}
    (h : Place.skipBlanks ⟨offset, cs⟩ = ⟨start, '{' :: inside⟩) (hdepth : depth < options.maxDepth)
    (hbody : (readNodes options (depth + 1) (start + 1) inside).passage =
      ⟨nodes, faults, ⟨stop, []⟩⟩) :
    (readBlocks options depth offset cs).passage =
      ⟨[{ body := nodes }], faults ++ options.unterminated ⟨start, stop⟩ 0, ⟨stop, []⟩⟩ := by
  rw [readBlocks]
  split
  · rename_i h'
    rw [h] at h'
    cases h'
  · rename_i h'
    rw [h] at h'
    cases h'
    rw [if_pos (by rfl), if_neg (by omega)]
    split
    · rename_i hread
      rw [hread] at hbody
      cases hbody
      rfl
    · rename_i hread
      rw [hread] at hbody
      cases hbody

theorem readBlocks_of_plain {nodes : List Node} {faults : List Diagnostic} {stop : Nat} {c : Char}
    (h : Place.skipBlanks ⟨offset, cs⟩ = ⟨start, '{' :: inside⟩) (hdepth : depth < options.maxDepth)
    (hbody : (readNodes options (depth + 1) (start + 1) inside).passage =
      ⟨nodes, faults, ⟨stop, c :: rest⟩⟩) :
    (readBlocks options depth offset cs).passage =
      let more := (readBlocks options depth (stop + 1) rest).passage
      ⟨{ body := nodes } :: more.value, faults ++ more.diagnostics, more.next⟩ := by
  rw [readBlocks]
  split
  · rename_i h'
    rw [h] at h'
    cases h'
  · rename_i h'
    rw [h] at h'
    cases h'
    rw [if_pos (by rfl), if_neg (by omega)]
    split
    · rename_i hread
      rw [hread] at hbody
      cases hbody
    · rename_i hread
      rw [hread] at hbody
      cases hbody
      rfl

theorem readBlocks_of_verbatim {here : Place} {verbatim : Verbatim} {fence : Fence}
    (h : Place.skipBlanks ⟨offset, cs⟩ = here) (hopens : opensVerbatim here.rest = true)
    (hread : readVerbatim here = (verbatim, fence)) :
    (readBlocks options depth offset cs).passage =
      let more := (readBlocks options depth verbatim.next.offset verbatim.next.rest).passage
      ⟨verbatim.block :: more.value,
        (if fence.closed then []
          else options.unterminated ⟨here.offset, verbatim.next.offset⟩ fence.width) ++
          more.diagnostics,
        more.next⟩ := by
  subst h
  rw [readBlocks]
  split
  · rename_i h'
    rw [h'] at hopens
    cases hopens
  · rename_i c inside h'
    rw [h'] at hopens hread
    have hc : c ≠ '{' := by
      rintro rfl
      cases hopens
    simp only [beq_iff_eq, hc, if_false, hopens, dif_pos, Part.passage]
    rw [hread, h']

end

/-! ### Derivations -/

mutual

/-- **Nodes at a place**, with `depth` plain blocks open: text, and tags with text between them. -/
inductive NodesAt (options : ReaderOptions) : Nat → Place → Passage (List Node) → Prop
  /-- No tag follows: the source ends, or the block. -/
  | last {depth : Nat} {p next : Place} {text : List Char} :
      readText (depth != 0) [] p.offset p.rest = ⟨text, next⟩ → next.rest.head? ≠ some '\\' →
      NodesAt options depth p ⟨textBody text, [], next⟩
  | tag {depth start : Nat} {p : Place} {text rest : List Char} {tag : Passage Tag}
      {more : Passage (List Node)} :
      readText (depth != 0) [] p.offset p.rest = ⟨text, ⟨start, '\\' :: rest⟩⟩ →
      TagAt options depth start rest tag → NodesAt options depth tag.next more →
      NodesAt options depth p
        ⟨textBody text ++ .tag tag.value :: more.value, tag.diagnostics ++ more.diagnostics,
          more.next⟩

/-- **A tag** whose backslash stands at byte `start`, in front of some characters: a name, a header
and blocks. -/
inductive TagAt (options : ReaderOptions) : Nat → Nat → List Char → Passage Tag → Prop
  | intro {depth start : Nat} {cs : List Char} {reading : Header.Reading}
      {blocks : Passage (List Block)} :
      Header.readAt ⟨start + 1 + Text.width (cs.takeWhile Text.isNameChar),
        cs.dropWhile Text.isNameChar⟩ = reading →
      BlocksAt options depth reading.next blocks →
      TagAt options depth start cs
        ⟨{ name := String.ofList (cs.takeWhile Text.isNameChar)
           params := reading.header.params
           attributes := reading.header.attributes
           blocks := blocks.value
           span := ⟨start, blocks.next.offset⟩ },
          reading.diagnostics ++ blocks.diagnostics, blocks.next⟩

/-- **Blocks at a place**, as long as one follows. -/
inductive BlocksAt (options : ReaderOptions) : Nat → Place → Passage (List Block) → Prop
  | none {depth : Nat} {p : Place} :
      p.skipBlanks.rest.head? ≠ some '{' → opensVerbatim p.skipBlanks.rest = false →
      BlocksAt options depth p ⟨[], [], p⟩
  /-- A plain block that may not open here counts as empty. -/
  | tooDeep {depth start : Nat} {p : Place} {inside : List Char} {more : Passage (List Block)} :
      p.skipBlanks = ⟨start, '{' :: inside⟩ → options.maxDepth ≤ depth →
      BlocksAt options depth (passBlock 0 (start + 1) inside) more →
      BlocksAt options depth p
        ⟨{} :: more.value, .nestingTooDeep ⟨start, start + 1⟩ options.maxDepth :: more.diagnostics,
          more.next⟩
  /-- The source ends inside a plain block. -/
  | unclosed {depth start stop : Nat} {p : Place} {inside : List Char} {nodes : List Node}
      {faults : List Diagnostic} :
      p.skipBlanks = ⟨start, '{' :: inside⟩ → depth < options.maxDepth →
      NodesAt options (depth + 1) ⟨start + 1, inside⟩ ⟨nodes, faults, ⟨stop, []⟩⟩ →
      BlocksAt options depth p
        ⟨[{ body := nodes }], faults ++ options.unterminated ⟨start, stop⟩ 0, ⟨stop, []⟩⟩
  | plain {depth start stop : Nat} {p : Place} {inside rest : List Char} {c : Char}
      {nodes : List Node} {faults : List Diagnostic} {more : Passage (List Block)} :
      p.skipBlanks = ⟨start, '{' :: inside⟩ → depth < options.maxDepth →
      NodesAt options (depth + 1) ⟨start + 1, inside⟩ ⟨nodes, faults, ⟨stop, c :: rest⟩⟩ →
      BlocksAt options depth ⟨stop + 1, rest⟩ more →
      BlocksAt options depth p
        ⟨{ body := nodes } :: more.value, faults ++ more.diagnostics, more.next⟩
  | verbatim {depth : Nat} {p here : Place} {verbatim : Verbatim} {fence : Fence}
      {more : Passage (List Block)} :
      p.skipBlanks = here → opensVerbatim here.rest = true → readVerbatim here = (verbatim, fence) →
      BlocksAt options depth verbatim.next more →
      BlocksAt options depth p
        ⟨verbatim.block :: more.value,
          (if fence.closed then []
            else options.unterminated ⟨here.offset, verbatim.next.offset⟩ fence.width) ++
            more.diagnostics,
          more.next⟩

end

section

variable {options : ReaderOptions}

/-- **Induction on nodes, tag by tag.**  What stands in the blocks of a tag is left alone. -/
@[elab_as_elim]
theorem NodesAt.induction
    {motive : ∀ (depth : Nat) (p : Place) (nodes : Passage (List Node)),
      NodesAt options depth p nodes → Prop}
    (last : ∀ {depth : Nat} {p next : Place} {text : List Char}
      (htext : readText (depth != 0) [] p.offset p.rest = ⟨text, next⟩)
      (hnext : next.rest.head? ≠ some '\\'), motive depth p _ (.last htext hnext))
    (tag : ∀ {depth start : Nat} {p : Place} {text rest : List Char} {tag : Passage Tag}
      {more : Passage (List Node)}
      (htext : readText (depth != 0) [] p.offset p.rest = ⟨text, ⟨start, '\\' :: rest⟩⟩)
      (htag : TagAt options depth start rest tag) (hmore : NodesAt options depth tag.next more),
      motive depth tag.next more hmore → motive depth p _ (.tag htext htag hmore))
    {depth : Nat} {p : Place} {nodes : Passage (List Node)} (h : NodesAt options depth p nodes) :
    motive depth p nodes h :=
  @NodesAt.rec options motive (fun _ _ _ _ _ => True) (fun _ _ _ _ => True) last
    (fun htext htag hmore _ ih => tag htext htag hmore ih)
    (fun _ _ _ => trivial) (fun _ _ => trivial) (fun _ _ _ _ => trivial) (fun _ _ _ _ => trivial)
    (fun _ _ _ _ _ _ => trivial) (fun _ _ _ _ _ => trivial) depth p nodes h

/-- **Induction on blocks, one after another.**  What stands in a block is left alone. -/
@[elab_as_elim]
theorem BlocksAt.induction
    {motive : ∀ (depth : Nat) (p : Place) (blocks : Passage (List Block)),
      BlocksAt options depth p blocks → Prop}
    (none : ∀ {depth : Nat} {p : Place} (hplain : p.skipBlanks.rest.head? ≠ some '{')
      (hverbatim : opensVerbatim p.skipBlanks.rest = false),
      motive depth p _ (.none hplain hverbatim))
    (tooDeep : ∀ {depth start : Nat} {p : Place} {inside : List Char}
      {more : Passage (List Block)} (hskip : p.skipBlanks = ⟨start, '{' :: inside⟩)
      (hdepth : options.maxDepth ≤ depth)
      (hmore : BlocksAt options depth (passBlock 0 (start + 1) inside) more),
      motive depth _ more hmore → motive depth p _ (.tooDeep hskip hdepth hmore))
    (unclosed : ∀ {depth start stop : Nat} {p : Place} {inside : List Char} {nodes : List Node}
      {faults : List Diagnostic} (hskip : p.skipBlanks = ⟨start, '{' :: inside⟩)
      (hdepth : depth < options.maxDepth)
      (hbody : NodesAt options (depth + 1) ⟨start + 1, inside⟩ ⟨nodes, faults, ⟨stop, []⟩⟩),
      motive depth p _ (.unclosed hskip hdepth hbody))
    (plain : ∀ {depth start stop : Nat} {p : Place} {inside rest : List Char} {c : Char}
      {nodes : List Node} {faults : List Diagnostic} {more : Passage (List Block)}
      (hskip : p.skipBlanks = ⟨start, '{' :: inside⟩) (hdepth : depth < options.maxDepth)
      (hbody : NodesAt options (depth + 1) ⟨start + 1, inside⟩ ⟨nodes, faults, ⟨stop, c :: rest⟩⟩)
      (hmore : BlocksAt options depth ⟨stop + 1, rest⟩ more),
      motive depth _ more hmore → motive depth p _ (.plain hskip hdepth hbody hmore))
    (verbatim : ∀ {depth : Nat} {p here : Place} {verbatim : Verbatim} {fence : Fence}
      {more : Passage (List Block)} (hskip : p.skipBlanks = here)
      (hopens : opensVerbatim here.rest = true) (hread : readVerbatim here = (verbatim, fence))
      (hmore : BlocksAt options depth verbatim.next more),
      motive depth verbatim.next more hmore → motive depth p _ (.verbatim hskip hopens hread hmore))
    {depth : Nat} {p : Place} {blocks : Passage (List Block)}
    (h : BlocksAt options depth p blocks) :
    motive depth p blocks h :=
  @BlocksAt.rec options (fun _ _ _ _ => True) (fun _ _ _ _ _ => True) motive
    (fun _ _ => trivial) (fun _ _ _ _ _ => trivial) (fun _ _ _ => trivial) none tooDeep
    (fun hskip hdepth hbody _ => unclosed hskip hdepth hbody)
    (fun hskip hdepth hbody hmore _ ih => plain hskip hdepth hbody hmore ih) verbatim
    depth p blocks h

end

/-! ### What has a derivation is read -/

section

variable {options : ReaderOptions}

mutual

theorem NodesAt.read_eq {depth : Nat} {p : Place} {nodes : Passage (List Node)} :
    NodesAt options depth p nodes →
      (readNodes options depth p.offset p.rest).passage = nodes
  | @NodesAt.last _ _ _ ⟨_, []⟩ _ htext _ => readNodes_of_end htext
  | @NodesAt.last _ _ _ ⟨_, _ :: _⟩ _ htext hnext => readNodes_of_close htext (by simpa using hnext)
  | .tag htext htag hmore => by
      rw [readNodes_of_tag htext, htag.read_eq]
      simp only [hmore.read_eq]

theorem TagAt.read_eq {depth start : Nat} {cs : List Char} {tag : Passage Tag} :
    TagAt options depth start cs tag → (readTag options depth start cs).passage = tag
  | .intro hreading hblocks => by
      rw [readTag_eq hreading, hblocks.read_eq]

theorem BlocksAt.read_eq {depth : Nat} {p : Place} {blocks : Passage (List Block)} :
    BlocksAt options depth p blocks →
      (readBlocks options depth p.offset p.rest).passage = blocks
  | .none hplain hverbatim => readBlocks_of_none hplain hverbatim
  | .tooDeep hskip hdepth hmore => by
      rw [readBlocks_of_tooDeep hskip hdepth]
      simp only [hmore.read_eq]
  | .unclosed hskip hdepth hbody => readBlocks_of_unclosed hskip hdepth hbody.read_eq
  | .plain hskip hdepth hbody hmore => by
      rw [readBlocks_of_plain hskip hdepth hbody.read_eq]
      simp only [hmore.read_eq]
  | .verbatim hskip hopens hread hmore => by
      rw [readBlocks_of_verbatim hskip hopens hread]
      simp only [hmore.read_eq]

end

theorem NodesAt.unique {depth : Nat} {p : Place} {nodes nodes' : Passage (List Node)}
    (h : NodesAt options depth p nodes) (h' : NodesAt options depth p nodes') : nodes = nodes' :=
  h.read_eq.symm.trans h'.read_eq

theorem TagAt.unique {depth start : Nat} {cs : List Char} {tag tag' : Passage Tag}
    (h : TagAt options depth start cs tag) (h' : TagAt options depth start cs tag') : tag = tag' :=
  h.read_eq.symm.trans h'.read_eq

end

/-! ### What is read has a derivation -/

section

variable (options : ReaderOptions)

mutual

theorem readNodes_at (depth offset : Nat) (cs : List Char) :
    NodesAt options depth ⟨offset, cs⟩ (readNodes options depth offset cs).passage := by
  match h : readText (depth != 0) [] offset cs with
  | ⟨text, ⟨stop, []⟩⟩ =>
      rw [readNodes_of_end h]
      exact .last h (by simp)
  | ⟨text, ⟨start, c :: rest⟩⟩ =>
      have hrest := tail_lt_of_readText h
      -- Text ends at a backslash or at a closing brace.
      by_cases hc : c = '\\'
      · subst hc
        have htag := (readTag options depth start rest).left_le
        rw [readNodes_of_tag h]
        exact .tag h (readTag_at depth start rest)
          (readNodes_at depth (readTag options depth start rest).next.offset
            (readTag options depth start rest).next.rest)
      · rw [readNodes_of_close h hc]
        exact .last h (by simpa using hc)
termination_by 2 * cs.length
decreasing_by all_goals omega

theorem readTag_at (depth start : Nat) (cs : List Char) :
    TagAt options depth start cs (readTag options depth start cs).passage := by
  have hheader := left_le_of_readAt (start + 1 + Text.width (cs.takeWhile Text.isNameChar)) cs
  rw [readTag_eq rfl]
  exact .intro rfl (readBlocks_at depth _ _)
termination_by 2 * cs.length + 1
decreasing_by exact Nat.lt_succ_of_le (Nat.mul_le_mul_left 2 hheader)

theorem readBlocks_at (depth offset : Nat) (cs : List Char) :
    BlocksAt options depth ⟨offset, cs⟩ (readBlocks options depth offset cs).passage := by
  match h : Place.skipBlanks ⟨offset, cs⟩ with
  | ⟨start, []⟩ =>
      rw [readBlocks_of_none (by rw [h]; simp) (by rw [h]; rfl)]
      exact .none (by rw [h]; simp) (by rw [h]; rfl)
  | ⟨start, c :: inside⟩ =>
      have hinside := tail_lt_of_skipBlanks h
      by_cases hc : c = '{'
      · subst hc
        by_cases hdepth : options.maxDepth ≤ depth
        · have hpass := left_lt_of_passBlock (start + 1) hinside
          rw [readBlocks_of_tooDeep h hdepth]
          exact .tooDeep h hdepth
            (readBlocks_at depth (passBlock 0 (start + 1) inside).offset
              (passBlock 0 (start + 1) inside).rest)
        · have hbody := readNodes_at (depth + 1) (start + 1) inside
          have hleft := (readNodes options (depth + 1) (start + 1) inside).left_le
          match hread : (readNodes options (depth + 1) (start + 1) inside).passage with
          | ⟨nodes, faults, ⟨stop, []⟩⟩ =>
              rw [hread] at hbody
              rw [readBlocks_of_unclosed h (by omega) hread]
              exact .unclosed h (by omega) hbody
          | ⟨nodes, faults, ⟨stop, c :: rest⟩⟩ =>
              -- The body and its closing brace take characters away.
              have hrest : rest.length < inside.length := by
                have hnext := congrArg (fun body => body.next.rest.length) hread
                simp only [Part.passage, List.length_cons] at hnext
                omega
              rw [hread] at hbody
              rw [readBlocks_of_plain h (by omega) hread]
              exact .plain h (by omega) hbody (readBlocks_at depth (stop + 1) rest)
      · by_cases hopens : opensVerbatim (c :: inside) = true
        · have hverbatim := left_lt_of_readVerbatim h hopens
          rw [readBlocks_of_verbatim h hopens rfl]
          exact .verbatim h hopens rfl
            (readBlocks_at depth (readVerbatim ⟨start, c :: inside⟩).1.next.offset
              (readVerbatim ⟨start, c :: inside⟩).1.next.rest)
        · rw [readBlocks_of_none (by rw [h]; simpa using hc) (by rw [h]; simpa using hopens)]
          exact .none (by rw [h]; simpa using hc) (by rw [h]; simpa using hopens)
termination_by 2 * cs.length
decreasing_by all_goals first | omega | (simp only at *; omega)

end

end

/-! ### Whole sources -/

/-- **The reader follows the grammar.** -/
theorem nodesAt_iff {options : ReaderOptions} {depth : Nat} {p : Place}
    {nodes : Passage (List Node)} :
    NodesAt options depth p nodes ↔ (readNodes options depth p.offset p.rest).passage = nodes := by
  constructor
  · exact NodesAt.read_eq
  · rintro rfl
    exact readNodes_at options depth p.offset p.rest

/-- A source is a document exactly if the grammar finds nothing wrong with it. -/
theorem Document.read_eq_ok_iff {options : ReaderOptions} {source : String} {d : Document} :
    Document.read options source = .ok d ↔
      ∃ next, NodesAt options 0 ⟨0, source.toList⟩ ⟨d.body, [], next⟩ := by
  simp only [nodesAt_iff, Document.read]
  constructor
  · intro h
    split at h
    · rename_i hempty
      cases h
      rw [List.isEmpty_iff] at hempty
      exact ⟨(readNodes options 0 0 source.toList).next, by rw [Part.passage, hempty]⟩
    · cases h
  · rintro ⟨next, h⟩
    have hvalue : (readNodes options 0 0 source.toList).value = d.body := congrArg Passage.value h
    have hdiagnostics : (readNodes options 0 0 source.toList).diagnostics = [] :=
      congrArg Passage.diagnostics h
    rw [hvalue, hdiagnostics]
    rfl

end TaggedText
