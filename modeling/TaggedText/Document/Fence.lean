import TaggedText.Document.Basic

/-!
# Fences: verbatim blocks

A verbatim block `=={ … }==` opens with a run of `=` and a brace, and closes at the first brace that
is followed by a run of exactly as many `=`.  Everything between is text as it stands, and without a
closing fence the block reaches to the end of the source.

`fenceWidth` and `afterFence` measure the run at the front of a text, `scanVerbatim` looks for its
counterpart, and `readVerbatim` puts the block together.  That the scan takes characters and gives
none is proved here already, since the reader of documents recurses on what the block leaves over.
-/

namespace TaggedText

/-- The number of `=` at the front. -/
def fenceWidth (cs : List Char) : Nat :=
  (cs.takeWhile (· == '=')).length

/-- What follows the run of `=` at the front. -/
def afterFence (cs : List Char) : List Char :=
  cs.dropWhile (· == '=')

/-- A run of `=` that is not empty, and an opening brace behind it. -/
def opensVerbatim (cs : List Char) : Bool :=
  fenceWidth cs > 0 && (afterFence cs).head? == some '{'

/-- The inside of a verbatim block: its text, whether a closing fence came, and the place behind
it. -/
structure Verbatim where
  text : List Char
  closed : Bool
  next : Place
  deriving DecidableEq, Repr

/-- Reads up to a closing brace with exactly `width` times `=` behind it, or to the end.  `text`
holds, last first, what has been read. -/
def scanVerbatim (width : Nat) (text : List Char) (offset : Nat) : List Char → Verbatim
  | [] => ⟨text.reverse, false, ⟨offset, []⟩⟩
  | c :: rest =>
    if c == '}' && fenceWidth rest == width then
      ⟨text.reverse, true, ⟨offset + 1 + width, afterFence rest⟩⟩
    else scanVerbatim width (c :: text) (offset + c.utf8Size) rest

/-- The width of a fence, and whether it was closed before the source ended. -/
structure Fence where
  width : Nat
  closed : Bool
  deriving DecidableEq, Repr

/-- The block of a verbatim text. -/
def Verbatim.block (v : Verbatim) : Block :=
  ⟨true, textBody v.text⟩

/-- Reads the verbatim block whose fence starts at a place. -/
def readVerbatim (p : Place) : Verbatim × Fence :=
  let width := fenceWidth p.rest
  let inside := (Place.mk (p.offset + width) (afterFence p.rest)).advance 1
  let v := scanVerbatim width [] inside.offset inside.rest
  (v, ⟨width, v.closed⟩)

/-! ### A verbatim block takes characters and gives none -/

theorem afterFence_length_le (cs : List Char) : (afterFence cs).length ≤ cs.length :=
  length_dropWhile_le _ _

theorem scanVerbatim_length_le (width : Nat) (text : List Char) (offset : Nat) (cs : List Char) :
    (scanVerbatim width text offset cs).next.rest.length ≤ cs.length := by
  fun_induction scanVerbatim width text offset cs with
  | case1 => simp
  | case2 _ _ _ rest => have := afterFence_length_le rest; simp only [List.length_cons]; omega
  | case3 _ _ _ _ _ ih => simp only [List.length_cons]; omega

theorem readVerbatim_length_lt {p : Place} (h : opensVerbatim p.rest = true) :
    (readVerbatim p).1.next.rest.length < p.rest.length := by
  simp only [opensVerbatim, Bool.and_eq_true, beq_iff_eq] at h
  simp only [readVerbatim]
  cases hrest : afterFence p.rest with
  | nil => simp [hrest] at h
  | cons c rest =>
    have hle := afterFence_length_le p.rest
    have := scanVerbatim_length_le (fenceWidth p.rest) []
      (p.offset + fenceWidth p.rest + c.utf8Size) rest
    simp only [hrest, List.length_cons] at hle
    simp only [Place.advance]
    omega

end TaggedText
