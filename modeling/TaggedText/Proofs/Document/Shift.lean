import TaggedText.Proofs.Document.Grammar
import TaggedText.Proofs.Header.Shift

/-!
# Documents further down

What a part of a source says does not depend on where the part stands: with more bytes in front,
every place in it moves by their number, and nothing else changes.

A tree is shifted node by node, and a `Passage`, what a derivation says of a part, with everything
in it.  Each constructor of the grammar then goes to itself (`NodesAt.shift`, `TagAt.shift`,
`BlocksAt.shift`).
-/

namespace TaggedText

/-! ### Trees -/

section

variable (n : Nat)

mutual

/-- The same node, `n` bytes further down. -/
def Node.shift : Node → Node
  | .text value => .text value
  | .tag tag => .tag tag.shift

/-- The same tag, `n` bytes further down, with the tags in its blocks. -/
def Tag.shift : Tag → Tag
  | ⟨name, params, attributes, blocks, span⟩ =>
    ⟨name, params, attributes, blocksShift blocks, span.shift n⟩

/-- The same blocks, `n` bytes further down. -/
def blocksShift : List Block → List Block
  | [] => []
  | ⟨verbatim, body⟩ :: rest => ⟨verbatim, nodesShift body⟩ :: blocksShift rest

/-- The same nodes, `n` bytes further down. -/
def nodesShift : List Node → List Node
  | [] => []
  | node :: rest => node.shift :: nodesShift rest

end

theorem nodesShift_eq_map (nodes : List Node) : nodesShift n nodes = nodes.map (Node.shift n) := by
  induction nodes with
  | nil => rfl
  | cons node rest ih => rw [nodesShift, ih, List.map_cons]

@[simp] theorem nodesShift_append (xs ys : List Node) :
    nodesShift n (xs ++ ys) = nodesShift n xs ++ nodesShift n ys := by
  simp [nodesShift_eq_map]

@[simp] theorem nodesShift_textBody (text : List Char) :
    nodesShift n (textBody text) = textBody text := by
  unfold textBody
  split <;> rfl

/-! ### Runs of characters -/

theorem readText_shift (inBlock : Bool) (text : List Char) (offset : Nat) (cs : List Char) :
    readText inBlock text (offset + n) cs =
      ⟨(readText inBlock text offset cs).text,
        (readText inBlock text offset cs).next.shift n⟩ := by
  fun_induction readText inBlock text offset cs with
  | case1 text offset => rfl
  | case2 text offset =>
      simp only [readText, Place.shift]
      congr 2
      omega
  | case3 text offset c rest hstart => rw [readText, if_pos hstart, Place.shift]
  | case4 text offset c rest hstart ih =>
      rw [readText, if_neg hstart, ← ih]
      congr 1
      omega
  | case5 text offset c rest hlast hpair hclose =>
      rw [readText, if_pos hclose, Place.shift] <;> assumption
  | case6 text offset c rest hlast hpair hclose ih =>
      rw [readText, if_neg hclose, ← ih, Nat.add_right_comm] <;> assumption

theorem Place.shift_skipBlanks (p : Place) : (p.shift n).skipBlanks = p.skipBlanks.shift n :=
  p.shift_pass n _ _

theorem passBlock_shift (inner offset : Nat) (cs : List Char) :
    passBlock inner (offset + n) cs = (passBlock inner offset cs).shift n := by
  fun_induction passBlock inner offset cs with
  | case1 inner offset => rfl
  | case2 inner offset => simp [passBlock, Place.shift, Nat.add_right_comm]
  | case3 inner offset c rest ih =>
      rw [passBlock, ← ih]
      congr 1
      omega
  | case4 inner offset c rest hlast hpair hopen ih =>
      rw [Nat.add_right_comm] at ih
      cases inner with
      | zero => rw [passBlock.eq_4, if_pos hopen, ih] <;> assumption
      | succ inner => rw [passBlock.eq_5, if_pos hopen, ih] <;> assumption
  | case5 offset c rest hlast hpair hopen hclose =>
      rw [passBlock.eq_4, if_neg hopen, if_pos hclose, Place.shift, Nat.add_right_comm] <;>
        assumption
  | case6 offset c rest hlast hpair hopen hclose inner ih =>
      rw [passBlock, if_neg hopen, if_pos hclose, ← ih, Nat.add_right_comm] <;> assumption
  | case7 inner offset c rest hlast hpair hopen hclose ih =>
      rw [Nat.add_right_comm] at ih
      cases inner with
      | zero => rw [passBlock.eq_4, if_neg hopen, if_neg hclose, ih] <;> assumption
      | succ inner => rw [passBlock.eq_5, if_neg hopen, if_neg hclose, ih] <;> assumption

theorem scanVerbatim_shift (width : Nat) (text : List Char) (offset : Nat) (cs : List Char) :
    scanVerbatim width text (offset + n) cs =
      { scanVerbatim width text offset cs with
        next := (scanVerbatim width text offset cs).next.shift n } := by
  fun_induction scanVerbatim width text offset cs with
  | case1 text offset => rfl
  | case2 text offset c rest hclose =>
      simp only [scanVerbatim, if_pos hclose, Place.shift, Nat.add_right_comm offset n,
        Nat.add_right_comm (offset + 1) n]
  | case3 text offset c rest hclose ih =>
      rw [scanVerbatim, if_neg hclose, Nat.add_right_comm, ih]

theorem readVerbatim_shift (p : Place) :
    readVerbatim (p.shift n) =
      ({ (readVerbatim p).1 with next := (readVerbatim p).1.next.shift n },
        (readVerbatim p).2) := by
  have hadvance : (Place.mk (p.offset + n + fenceWidth p.rest) (afterFence p.rest)).advance 1 =
      ((Place.mk (p.offset + fenceWidth p.rest) (afterFence p.rest)).advance 1).shift n := by
    rw [Nat.add_right_comm]
    cases afterFence p.rest with
    | nil => rfl
    | cons c rest => simp [Place.advance, Place.shift, Nat.add_right_comm]
  simp only [readVerbatim, Place.shift_rest, Place.shift_offset, hadvance, scanVerbatim_shift]

theorem ReaderOptions.unterminated_shift (options : ReaderOptions) (span : Span) (fence : Nat) :
    options.unterminated (span.shift n) fence =
      (options.unterminated span fence).map (Diagnostic.shift n) := by
  unfold unterminated
  split <;> rfl

/-! ### Derivations -/

/-- The same part of a document, `n` bytes further down. -/
def Passage.shift {α : Type} (move : α → α) (part : Passage α) : Passage α :=
  ⟨move part.value, part.diagnostics.map (Diagnostic.shift n), part.next.shift n⟩

variable {options : ReaderOptions}

mutual

theorem NodesAt.shift {depth : Nat} {p : Place} {nodes : Passage (List Node)} :
    NodesAt options depth p nodes →
      NodesAt options depth (p.shift n) (nodes.shift n (nodesShift n))
  | .last htext hnext => by
      simp only [Passage.shift, nodesShift_textBody, List.map_nil]
      exact .last (by rw [Place.shift_offset, readText_shift, Place.shift_rest, htext]) hnext
  | .tag htext htag hmore => by
      simp only [Passage.shift, nodesShift_append, nodesShift_textBody, List.map_append]
      exact .tag (by rw [Place.shift_offset, readText_shift, Place.shift_rest, htext]; rfl)
        htag.shift hmore.shift

theorem TagAt.shift {depth start : Nat} {cs : List Char} {tag : Passage Tag} :
    TagAt options depth start cs tag →
      TagAt options depth (start + n) cs (tag.shift n (Tag.shift n))
  | @TagAt.intro _ _ _ cs reading _ hreading hblocks => by
      simp only [Passage.shift, List.map_append]
      have hreading' : Header.readAt ⟨start + n + 1 + Text.width (cs.takeWhile Text.isNameChar),
          cs.dropWhile Text.isNameChar⟩ = reading.shift n := by
        rw [← hreading, ← Header.readAt_shift, Place.shift, Nat.add_right_comm start n,
          Nat.add_right_comm (start + 1) n]
      exact .intro hreading' hblocks.shift

theorem BlocksAt.shift {depth : Nat} {p : Place} {blocks : Passage (List Block)} :
    BlocksAt options depth p blocks →
      BlocksAt options depth (p.shift n) (blocks.shift n (blocksShift n))
  | .none hplain hverbatim =>
      .none (by rwa [Place.shift_skipBlanks]) (by rwa [Place.shift_skipBlanks])
  | @BlocksAt.tooDeep _ _ start p inside _ hskip hdepth hmore => by
      have hskip' : (p.shift n).skipBlanks = ⟨start + n, '{' :: inside⟩ := by
        rw [Place.shift_skipBlanks, hskip, Place.shift]
      have hmore' := hmore.shift
      rw [← passBlock_shift, Nat.add_right_comm] at hmore'
      have hshift := BlocksAt.tooDeep hskip' hdepth hmore'
      rwa [Nat.add_right_comm start n] at hshift
  | @BlocksAt.unclosed _ _ start stop p inside nodes faults hskip hdepth hbody => by
      have hskip' : (p.shift n).skipBlanks = ⟨start + n, '{' :: inside⟩ := by
        rw [Place.shift_skipBlanks, hskip, Place.shift]
      have hbody' := hbody.shift
      rw [Place.shift, Nat.add_right_comm] at hbody'
      simp only [Passage.shift, List.map_append, ← ReaderOptions.unterminated_shift]
      exact .unclosed hskip' hdepth hbody'
  | @BlocksAt.plain _ _ start stop p inside rest c nodes faults more hskip hdepth hbody hmore => by
      have hskip' : (p.shift n).skipBlanks = ⟨start + n, '{' :: inside⟩ := by
        rw [Place.shift_skipBlanks, hskip, Place.shift]
      have hbody' := hbody.shift
      have hmore' := hmore.shift
      rw [Place.shift, Nat.add_right_comm] at hbody' hmore'
      simp only [Passage.shift, List.map_append]
      exact .plain hskip' hdepth hbody' hmore'
  | @BlocksAt.verbatim _ _ p here verbatim fence more hskip hopens hread hmore => by
      have hread' : readVerbatim (here.shift n) =
          ({ verbatim with next := verbatim.next.shift n }, fence) := by
        rw [readVerbatim_shift, hread]
      have hskip' : (p.shift n).skipBlanks = here.shift n := by rw [Place.shift_skipBlanks, hskip]
      have hfaults : (if fence.closed = true then []
            else options.unterminated ⟨here.offset, verbatim.next.offset⟩ fence.width).map
              (Diagnostic.shift n) =
          if fence.closed = true then []
            else options.unterminated ⟨here.offset + n, verbatim.next.offset + n⟩ fence.width := by
        split
        · rfl
        · exact (options.unterminated_shift n _ _).symm
      simp only [Passage.shift, List.map_append, hfaults, Verbatim.block, blocksShift,
        nodesShift_textBody]
      exact .verbatim hskip' hopens hread' hmore.shift

end

end

end TaggedText
