import TaggedText.Source.Text

/-!
# Places and cursors

A reader of a source is always at some *place*: so many bytes have gone by, and these characters are
left.  It never looks back, so this pair is all it has to carry.  `Place.pass` walks over a run of
characters and `Place.advance` over a number of them, and a `Span` is what lies between two places.

A *cursor* is a place together with the buffer that it walks over.  Copying one gives an independent
position, so looking ahead is walking a copy; `takeUntil` gives what lies between the two, and
`moveTo` brings the original up to the copy.

Not every pair of a number and some characters is a place of a given buffer.  `Place.Of` singles out
those that are, by what has gone by.
-/

namespace TaggedText

/-- A range of bytes in a source; `stop` is the first byte that is no longer in it. -/
structure Span where
  start : Nat := 0
  stop : Nat := 0
  deriving DecidableEq, Repr, Inhabited

/-- The same range in a source that has `n` more bytes in front. -/
def Span.shift (n : Nat) (s : Span) : Span :=
  ⟨s.start + n, s.stop + n⟩

/-- **A place in a source.**  `offset` bytes lie before it and the characters `rest` lie after. -/
structure Place where
  offset : Nat := 0
  rest : List Char
  deriving DecidableEq, Repr, Inhabited

namespace Place

/-- The place behind a run that has just been read, where `rest` is what the run leaves. -/
def pass (p : Place) (run rest : List Char) : Place :=
  ⟨p.offset + Text.width run, rest⟩

/-- Walks over at most `n` characters; the end of the source stops the walk. -/
def advance : Nat → Place → Place
  | 0, p => p
  | _ + 1, ⟨offset, []⟩ => ⟨offset, []⟩
  | n + 1, ⟨offset, c :: rest⟩ => advance n ⟨offset + c.utf8Size, rest⟩

/-- Walks over spaces and tabs. -/
def skipBlanks (p : Place) : Place :=
  p.pass (p.rest.takeWhile Text.isBlank) (p.rest.dropWhile Text.isBlank)

/-- `p` is a place of `buffer`: what lies before it, and what is left, make up the buffer. -/
def Of (buffer : List Char) (p : Place) : Prop :=
  ∃ before, buffer = before ++ p.rest ∧ p.offset = Text.width before

end Place

theorem length_dropWhile_le (q : Char → Bool) (cs : List Char) :
    (cs.dropWhile q).length ≤ cs.length :=
  (List.dropWhile_sublist q).length_le

@[simp] theorem Place.length_skipBlanks_le (p : Place) :
    p.skipBlanks.rest.length ≤ p.rest.length :=
  length_dropWhile_le _ _

/-! ### Cursors -/

/-- A place together with the buffer it belongs to. -/
structure Cursor where
  buffer : String
  place : Place
  deriving DecidableEq, Repr, Inhabited

namespace Cursor

/-- The cursor at the start of a buffer. -/
def start (buffer : String) : Cursor :=
  ⟨buffer, ⟨0, buffer.toList⟩⟩

/-- The number of bytes before the cursor. -/
def index (c : Cursor) : Nat :=
  c.place.offset

/-- What lies after the cursor. -/
def rest (c : Cursor) : String :=
  String.ofList c.place.rest

/-- Nothing is left. -/
def atEnd (c : Cursor) : Bool :=
  c.place.rest.isEmpty

/-- The character after the cursor. -/
def peek (c : Cursor) : Option Char :=
  c.place.rest.head?

/-- What lies after the cursor begins with `s`. -/
def startsWith (c : Cursor) (s : String) : Bool :=
  s.toList.isPrefixOf c.place.rest

/-- Walks over `n` characters, or to the end of the buffer. -/
def next (c : Cursor) (n : Nat) : Cursor :=
  { c with place := c.place.advance n }

/-- Takes over the position of `other`. -/
def moveTo (c other : Cursor) : Cursor :=
  { c with place := other.place }

/-- The text between this cursor and `other`; nothing when `other` is behind. -/
def takeUntil (c other : Cursor) : String :=
  String.ofList (Text.takeBytes (other.index - c.index) c.place.rest)

end Cursor

end TaggedText
