/-!
# Source text: character classes and widths

A source is a list of characters, and positions in it count the bytes of its UTF-8 form.  Two things
are shared by every reader of the library, and this file is where they stand: how wide a run of
characters is (`Text.width`), and which characters make up a name (`isNameStart`, `isNameChar`,
`isName`) or separate the parts of a tag (`isBlank`).

Widths are sums, and `width_append` is all that most later proofs need of them.  The one operation
that goes the other way, from bytes to characters, is `takeBytes`; it never splits a character.

The classes know ASCII only.  That is not a simplification: a tag name is ASCII by definition of the
format, and every other character is text.
-/

namespace TaggedText.Text

/-! ### Widths -/

/-- The bytes that a run of characters takes in UTF-8. -/
def width (cs : List Char) : Nat :=
  cs.foldl (fun n c => n + c.utf8Size) 0

theorem foldl_utf8Size (cs : List Char) (n : Nat) :
    cs.foldl (fun n c => n + c.utf8Size) n = n + width cs := by
  induction cs generalizing n with
  | nil => simp [width]
  | cons c cs ih => simp only [width, List.foldl_cons] at ih ⊢; rw [ih, ih (0 + _)]; omega

@[simp] theorem width_nil : width [] = 0 := rfl

@[simp] theorem width_cons (c : Char) (cs : List Char) : width (c :: cs) = c.utf8Size + width cs := by
  rw [width, List.foldl_cons, foldl_utf8Size]; omega

@[simp] theorem width_append (cs ds : List Char) : width (cs ++ ds) = width cs + width ds := by
  induction cs with
  | nil => simp
  | cons c cs ih => simp [ih]; omega

/-- The longest run at the front of `cs` that takes at most `n` bytes. -/
def takeBytes : Nat → List Char → List Char
  | _, [] => []
  | n, c :: cs => if c.utf8Size ≤ n then c :: takeBytes (n - c.utf8Size) cs else []

/-- A run of characters is found again in front of whatever follows it. -/
theorem takeBytes_width_append (cs ds : List Char) : takeBytes (width cs) (cs ++ ds) = cs := by
  induction cs with
  | nil =>
    cases ds with
    | nil => rfl
    | cons d ds =>
      have : ¬ d.utf8Size ≤ 0 := by have := d.utf8Size_pos; omega
      simp [takeBytes, this]
  | cons c cs ih => simp [takeBytes, ih]

/-! ### Character classes -/

/-- A name starts with an ASCII letter or an underscore. -/
def isNameStart (c : Char) : Bool :=
  c.isAlpha || c == '_'

/-- A name goes on with ASCII letters, digits, underscores and hyphens. -/
def isNameChar (c : Char) : Bool :=
  c.isAlphanum || c == '_' || c == '-'

/-- A name: a start character and characters that go on. -/
def isName : List Char → Bool
  | [] => false
  | c :: cs => isNameStart c && cs.all isNameChar

/-- A space or a tab: what may stand between a tag and its blocks. -/
def isBlank (c : Char) : Bool :=
  c == ' ' || c == '\t'

theorem isNameChar_of_isNameStart {c : Char} (h : isNameStart c = true) : isNameChar c = true := by
  simp only [isNameStart, isNameChar, Char.isAlphanum, Bool.or_eq_true] at h ⊢
  rcases h with h | h <;> simp [h]

end TaggedText.Text
