import TaggedText.Header.Token

/-!
# Pieces of a header

The characters of a header, cut into tokens.  At each position the longest token is taken; spaces,
tabs and line breaks separate tokens, and what begins no token is kept as an invalid piece, so that
no character of the text is lost.

`Header.scan` is one step of the cutting: it takes the piece that starts with a given character and
says what is left.  Every piece is a proper front part of what it was cut from, which is the fact
that `Header.pieces` recurses on.

A broken string is invalid as a whole.  It reaches from its quote through all its complete elements:
up to the end of the text, or up to a backslash that escapes nothing because a line feed or the end
follows it.
-/

namespace TaggedText.Header

/-- Spaces, tabs and line breaks between tokens. -/
def isGap (c : Char) : Bool :=
  c == ' ' || c == '\t' || c == '\n' || c == '\r'

/-- One step of the cutting: a token, or none for an invalid piece; its characters; and the rest. -/
structure Scan where
  token? : Option Token
  text : List Char
  rest : List Char
  deriving Inhabited

/-! ### The kinds of token -/

/-- The character that an escape stands for. -/
def unescape (c : Char) : Char :=
  if c == 'n' then '\n' else if c == 't' then '\t' else c

/-- Reads the elements of a string behind its opening quote.  `value` and `text` hold, last first,
what the elements read so far stand for and how they are written. -/
def scanString (value text : List Char) : List Char → Scan
  | [] => ⟨none, text.reverse, []⟩
  | '"' :: rest => ⟨some (.string (String.ofList value.reverse)), ('"' :: text).reverse, rest⟩
  | ['\\'] => ⟨none, text.reverse, ['\\']⟩
  | '\\' :: c :: rest =>
    if c == '\n' then ⟨none, text.reverse, '\\' :: c :: rest⟩
    else scanString (unescape c :: value) (c :: '\\' :: text) rest
  | c :: rest => scanString (c :: value) (c :: text) rest

/-- Reads a numeral whose first digit is the first of `digits`: digits, and a fraction if a point
with a digit behind it follows. -/
def scanNumber (negative : Bool) (sign digits : List Char) : Scan :=
  let integral := digits.takeWhile Char.isDigit
  let whole : Scan :=
    ⟨some (.number (Number.ofDigits negative integral [] 0)), sign ++ integral,
      digits.dropWhile Char.isDigit⟩
  match whole.rest with
  | '.' :: rest =>
    let fractional := rest.takeWhile Char.isDigit
    if fractional.isEmpty then whole
    else
      ⟨some (.number (Number.ofDigits negative integral fractional 0)),
        sign ++ integral ++ '.' :: fractional, rest.dropWhile Char.isDigit⟩
  | _ => whole

/-- The token of a name; the two truth values are words of their own. -/
def wordToken (spelling : String) : Token :=
  if spelling == "true" then .bool true
  else if spelling == "false" then .bool false
  else .name spelling

/-- The token that a single character is. -/
def delimiter? (c : Char) : Option Token :=
  if c == '(' then some .openParen
  else if c == ')' then some .closeParen
  else if c == '[' then some .openBracket
  else if c == ']' then some .closeBracket
  else if c == ',' then some .comma
  else if c == '=' then some .equals
  else none

/-- Takes the piece that starts with `c`. -/
def scan (c : Char) (rest : List Char) : Scan :=
  match delimiter? c with
  | some token => ⟨some token, [c], rest⟩
  | none =>
    if Text.isNameStart c then
      let word := c :: rest.takeWhile Text.isNameChar
      ⟨some (wordToken (String.ofList word)), word, rest.dropWhile Text.isNameChar⟩
    else if c.isDigit then scanNumber false [] (c :: rest)
    else if c == '"' then scanString [] ['"'] rest
    else if c == '-' then
      match rest with
      | d :: _ => if d.isDigit then scanNumber true ['-'] rest else ⟨none, [c], rest⟩
      | [] => ⟨none, [c], rest⟩
    else ⟨none, [c], rest⟩

/-! ### Every piece is a proper front part -/

theorem scanString_length_le (value text cs : List Char) :
    (scanString value text cs).rest.length ≤ cs.length := by
  fun_induction scanString value text cs <;> simp_all <;> omega

theorem scanNumber_length_le (negative : Bool) (sign digits : List Char) :
    (scanNumber negative sign digits).rest.length ≤ (digits.dropWhile Char.isDigit).length := by
  unfold scanNumber
  simp only
  split
  · rename_i rest h
    split
    · simp
    · have := length_dropWhile_le Char.isDigit rest
      simp only [h, List.length_cons]; omega
  · simp

theorem scan_length_le (c : Char) (rest : List Char) : (scan c rest).rest.length ≤ rest.length := by
  unfold scan
  split
  · simp
  · split
    · exact length_dropWhile_le _ _
    · split
      · rename_i h
        refine Nat.le_trans (scanNumber_length_le _ _ _) ?_
        rw [List.dropWhile_cons, if_pos h]
        exact length_dropWhile_le _ _
      · split
        · exact scanString_length_le _ _ _
        · split
          · split
            · split
              · refine Nat.le_trans (scanNumber_length_le _ _ _) ?_
                exact length_dropWhile_le _ _
              · simp
            · simp
          · simp

/-! ### All pieces -/

/-- A token, or a stretch that begins no token, with its range. -/
structure Piece where
  token? : Option Token
  text : List Char
  span : Span
  deriving Inhabited

/-- All pieces of a text that starts at byte `offset`. -/
def pieces (offset : Nat) : List Char → List Piece
  | [] => []
  | c :: rest =>
    if isGap c then pieces (offset + c.utf8Size) rest
    else
      let found := scan c rest
      let stop := offset + Text.width found.text
      ⟨found.token?, found.text, ⟨offset, stop⟩⟩ :: pieces stop found.rest
termination_by cs => cs.length
decreasing_by
  · simp
  · have := scan_length_le c rest
    simp only [List.length_cons]; omega

/-- The tokens among the pieces. -/
def tokens (ps : List Piece) : List (Token × Span) :=
  ps.filterMap fun p => p.token?.map fun t => (t, p.span)

/-- The pieces that are no tokens. -/
def invalid (ps : List Piece) : List Piece :=
  ps.filter fun p => p.token?.isNone

end TaggedText.Header
