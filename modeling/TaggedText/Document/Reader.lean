import TaggedText.Document.Fence
import TaggedText.Header.Extent

/-!
# Reading documents

A source is text with tags in it.  A backslash in front of a name start opens a tag; in front of any
other character it makes that character text.  A tag is its name, a header if a delimiter follows
directly, and blocks as long as one follows, with spaces and tabs allowed before each.  Inside a
plain block an unescaped closing brace ends the block.

The grammar has three parts that call one another, `readNodes`, `readTag` and `readBlocks`.  The
number of plain blocks that are open says whether a closing brace counts and whether one more block
may be opened, so no other state is passed down.  A block that nests too deep is not read at all:
`passBlock` walks over it by counting braces.

**What ends the recursion.**  A tag may be followed by anything, so no part of the grammar is
structural in the source.  Every part comes instead with the proof that it leaves no more characters
than it found.

**What is reported.**  Nothing is reported twice and nothing is dropped: diagnostics are joined in
the order in which their parts end.  `Document.read` gives the document if there are none, and
otherwise all of them.
-/

namespace TaggedText

/-- How to read a source.  With `strictFences` a block that is still open at the end is a fault, and
otherwise it ends there.  Plain blocks nest at most `maxDepth` deep. -/
structure ReaderOptions where
  strictFences : Bool := false
  maxDepth : Nat := 64
  deriving DecidableEq, Repr, Inhabited

/-! ### Text -/

/-- A run of text and the place behind it. -/
structure TextRun where
  text : List Char
  next : Place
  deriving DecidableEq, Repr

/-- Reads text up to a tag, to the brace that closes the block (when `inBlock`), or to the end.
`text` holds, last first, what has been read; a backslash gives way to the character behind it. -/
def readText (inBlock : Bool) (text : List Char) (offset : Nat) : List Char → TextRun
  | [] => ⟨text.reverse, ⟨offset, []⟩⟩
  | ['\\'] => ⟨('\\' :: text).reverse, ⟨offset + 1, []⟩⟩
  | '\\' :: c :: rest =>
    if Text.isNameStart c then ⟨text.reverse, ⟨offset, '\\' :: c :: rest⟩⟩
    else readText inBlock (c :: text) (offset + 1 + c.utf8Size) rest
  | c :: rest =>
    if inBlock && c == '}' then ⟨text.reverse, ⟨offset, c :: rest⟩⟩
    else readText inBlock (c :: text) (offset + c.utf8Size) rest

theorem readText_length_le (inBlock : Bool) (text : List Char) (offset : Nat) (cs : List Char) :
    (readText inBlock text offset cs).next.rest.length ≤ cs.length := by
  fun_induction readText inBlock text offset cs with
  | case1 => simp
  | case2 => simp
  | case3 => simp
  | case4 _ _ _ _ _ ih => simp only [List.length_cons]; omega
  | case5 => simp
  | case6 _ _ _ _ _ _ _ ih => simp only [List.length_cons]; omega

/-! ### Blocks that are skipped -/

/-- Walks to the brace that closes a block and through it, or to the end.  `inner` counts the braces
that were opened on the way; a backslash takes the next character with it. -/
def passBlock (inner : Nat) (offset : Nat) : List Char → Place
  | [] => ⟨offset, []⟩
  | ['\\'] => ⟨offset + 1, []⟩
  | '\\' :: c :: rest => passBlock inner (offset + 1 + c.utf8Size) rest
  | c :: rest =>
    if c == '{' then passBlock (inner + 1) (offset + 1) rest
    else if c == '}' then
      match inner with
      | 0 => ⟨offset + 1, rest⟩
      | inner + 1 => passBlock inner (offset + 1) rest
    else passBlock inner (offset + c.utf8Size) rest

theorem passBlock_length_le (inner offset : Nat) (cs : List Char) :
    (passBlock inner offset cs).rest.length ≤ cs.length := by
  fun_induction passBlock inner offset cs with
  | case1 => simp
  | case2 => simp
  | case3 _ _ _ _ ih => simp only [List.length_cons]; omega
  | case4 _ _ _ _ _ _ ih => simp only [List.length_cons]; omega
  | case5 => simp
  | case6 _ _ _ _ _ _ _ ih => simp only [List.length_cons]; omega
  | case7 _ _ _ _ _ _ _ _ ih => simp only [List.length_cons]; omega

/-! ### The grammar -/

/-- A part of a document: what it is, what is wrong with it, and the place behind it, with no more
than `bound` characters left. -/
structure Part (α : Type) (bound : Nat) where
  value : α
  diagnostics : List Diagnostic
  next : Place
  left_le : next.rest.length ≤ bound

/-- What is reported when the source ends inside a block. -/
def ReaderOptions.unterminated (options : ReaderOptions) (span : Span) (fence : Nat) :
    List Diagnostic :=
  if options.strictFences then [.unterminatedBlock span fence] else []

/-- A tag leaves fewer characters than the text in front of it found. -/
theorem tail_lt_of_readText {inBlock : Bool} {offset start : Nat} {cs text rest : List Char} {c : Char}
    (h : readText inBlock [] offset cs = ⟨text, ⟨start, c :: rest⟩⟩) : rest.length < cs.length := by
  have := readText_length_le inBlock [] offset cs
  rw [h, List.length_cons] at this
  omega

/-- A block leaves fewer characters than the blanks in front of it found. -/
theorem tail_lt_of_skipBlanks {p : Place} {start : Nat} {rest : List Char} {c : Char}
    (h : p.skipBlanks = ⟨start, c :: rest⟩) : rest.length < p.rest.length := by
  have := Place.length_skipBlanks_le p
  rw [h, List.length_cons] at this
  omega

/-- A verbatim block leaves fewer characters than the blanks in front of it found. -/
theorem left_lt_of_readVerbatim {p here : Place} (hp : p.skipBlanks = here)
    (hv : opensVerbatim here.rest = true) :
    (readVerbatim here).1.next.rest.length < p.rest.length := by
  have := Place.length_skipBlanks_le p
  rw [hp] at this
  exact Nat.lt_of_lt_of_le (readVerbatim_length_lt hv) this

/-- A skipped block leaves fewer characters than the blanks in front of it found. -/
theorem left_lt_of_passBlock (offset : Nat) {inside cs : List Char} (h : inside.length < cs.length) :
    (passBlock 0 offset inside).rest.length < cs.length :=
  Nat.lt_of_le_of_lt (passBlock_length_le 0 offset inside) h

/-- A header leaves no more characters than the name in front of it found. -/
theorem left_le_of_readAt (offset : Nat) (cs : List Char) :
    (Header.readAt ⟨offset, cs.dropWhile Text.isNameChar⟩).next.rest.length ≤ cs.length :=
  Nat.le_trans (Header.readAt_length_le _) (length_dropWhile_le Text.isNameChar cs)

mutual

/-- Reads text and tags with `depth` plain blocks open: to the end, or to the brace that closes the
innermost block. -/
def readNodes (options : ReaderOptions) (depth offset : Nat) (cs : List Char) :
    Part (List Node) cs.length :=
  match h : readText (depth != 0) [] offset cs with
  | ⟨text, ⟨start, c :: rest⟩⟩ =>
    have rest_lt : rest.length < cs.length := tail_lt_of_readText h
    if c == '\\' then
      let ⟨tag, tagFaults, afterTag, tag_le⟩ := readTag options depth start rest
      let ⟨more, moreFaults, next, more_le⟩ := readNodes options depth afterTag.offset afterTag.rest
      { value := textBody text ++ .tag tag :: more
        diagnostics := tagFaults ++ moreFaults
        next := next
        left_le := by omega }
    else
      { value := textBody text
        diagnostics := []
        next := ⟨start, c :: rest⟩
        left_le := rest_lt }
  | ⟨text, ⟨stop, []⟩⟩ =>
    { value := textBody text
      diagnostics := []
      next := ⟨stop, []⟩
      left_le := Nat.zero_le _ }
termination_by 2 * cs.length
decreasing_by all_goals omega

/-- Reads a tag whose backslash stands at byte `start`, in front of `cs`. -/
def readTag (options : ReaderOptions) (depth start : Nat) (cs : List Char) : Part Tag cs.length :=
  let name := cs.takeWhile Text.isNameChar
  match h : Header.readAt ⟨start + 1 + Text.width name, cs.dropWhile Text.isNameChar⟩ with
  | ⟨header, headerFaults, afterHeader⟩ =>
    have header_le : afterHeader.rest.length ≤ cs.length := by
      have := left_le_of_readAt (start + 1 + Text.width name) cs
      rwa [h] at this
    let ⟨blocks, blockFaults, next, blocks_le⟩ :=
      readBlocks options depth afterHeader.offset afterHeader.rest
    { value :=
        { name := String.ofList name
          params := header.params
          attributes := header.attributes
          blocks := blocks
          span := ⟨start, next.offset⟩ }
      diagnostics := headerFaults ++ blockFaults
      next := next
      left_le := by omega }
termination_by 2 * cs.length + 1
decreasing_by omega

/-- Reads blocks as long as one follows, and stops where the last one ends.  The body of a block
stops at its closing brace or at the end of the source. -/
def readBlocks (options : ReaderOptions) (depth offset : Nat) (cs : List Char) :
    Part (List Block) cs.length :=
  match h : Place.skipBlanks ⟨offset, cs⟩ with
  | ⟨_, []⟩ =>
    { value := []
      diagnostics := []
      next := ⟨offset, cs⟩
      left_le := Nat.le_refl _ }
  | ⟨start, c :: inside⟩ =>
    have inside_lt : inside.length < cs.length := tail_lt_of_skipBlanks h
    if c == '{' then
      if depth ≥ options.maxDepth then
        have after_lt := left_lt_of_passBlock (start + 1) inside_lt
        let ⟨more, moreFaults, next, more_le⟩ :=
          readBlocks options depth (passBlock 0 (start + 1) inside).offset
            (passBlock 0 (start + 1) inside).rest
        { value := {} :: more
          diagnostics := .nestingTooDeep ⟨start, start + 1⟩ options.maxDepth :: moreFaults
          next := next
          left_le := by omega }
      else
        match readNodes options (depth + 1) (start + 1) inside with
        | ⟨body, bodyFaults, ⟨stop, []⟩, _⟩ =>
          { value := [{ body := body }]
            diagnostics := bodyFaults ++ options.unterminated ⟨start, stop⟩ 0
            next := ⟨stop, []⟩
            left_le := Nat.zero_le _ }
        | ⟨body, bodyFaults, ⟨stop, _ :: rest⟩, body_le⟩ =>
          have rest_lt : rest.length < cs.length := Nat.lt_trans body_le inside_lt
          let ⟨more, moreFaults, next, more_le⟩ := readBlocks options depth (stop + 1) rest
          { value := { body := body } :: more
            diagnostics := bodyFaults ++ moreFaults
            next := next
            left_le := by omega }
    else if hv : opensVerbatim (c :: inside) = true then
      have read_lt := left_lt_of_readVerbatim h hv
      match readVerbatim ⟨start, c :: inside⟩, read_lt with
      | (verbatim, fence), read_lt =>
        let ⟨more, moreFaults, next, more_le⟩ :=
          readBlocks options depth verbatim.next.offset verbatim.next.rest
        { value := verbatim.block :: more
          diagnostics :=
            (if fence.closed then []
              else options.unterminated ⟨start, verbatim.next.offset⟩ fence.width) ++ moreFaults
          next := next
          left_le := Nat.le_of_lt (Nat.lt_of_le_of_lt more_le read_lt) }
    else
      { value := []
        diagnostics := []
        next := ⟨offset, cs⟩
        left_le := Nat.le_refl _ }
termination_by 2 * cs.length
decreasing_by all_goals first | omega | (simp only at *; omega)

end

/-! ### Whole sources -/

/-- **Reads a source.**  It is a document if nothing is wrong with it, and otherwise every fault is
listed. -/
def Document.read (options : ReaderOptions) (source : String) : Except (List Diagnostic) Document :=
  let part := readNodes options 0 0 source.toList
  if part.diagnostics.isEmpty then .ok ⟨part.value⟩ else .error part.diagnostics

end TaggedText
