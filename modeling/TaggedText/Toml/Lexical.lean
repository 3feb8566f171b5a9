import TaggedText.Toml.Basic
import TaggedText.Number.Layout

/-!
# The words of TOML

Blanks, comments, line ends, keys, the four kinds of text, and the scalars that are written as one
word.

A reader takes characters and gives what it read and the rest, or nothing.  None of them reports why
it failed, since a tag set that cannot be read is refused without a reason.  Loops over characters
carry a number of steps that the length of the input bounds.
-/

namespace TaggedText.Toml

/-- The mark of a text that is taken as it stands. -/
def apostrophe : Char := '\x27'

/-- A space or a tab. -/
def isBlank (c : Char) : Bool :=
  c == ' ' || c == '\t'

/-- Control characters, tabs excepted, stand nowhere but in line ends. -/
def isPlain (c : Char) : Bool :=
  c == '\t' || (c.toNat ≥ 0x20 && c.toNat != 0x7f)

/-- Walks over spaces and tabs. -/
def skipBlanks (cs : List Char) : List Char :=
  cs.dropWhile isBlank

/-- The rest behind a line break. -/
def newline? : List Char → Option (List Char)
  | '\n' :: rest => some rest
  | '\r' :: '\n' :: rest => some rest
  | _ => none

/-- Walks over a comment, if there is one. -/
def skipComment : List Char → List Char
  | '#' :: rest => rest.dropWhile isPlain
  | cs => cs

/-- The rest behind the end of a statement: blanks, a comment, and a line break or the end. -/
def lineEnd? (cs : List Char) : Option (List Char) :=
  match skipComment (skipBlanks cs) with
  | [] => some []
  | rest => newline? rest

/-- Walks over blanks, comments and line breaks. -/
def skipLines : Nat → List Char → List Char
  | 0, cs => cs
  | steps + 1, cs =>
    let rest := skipComment (skipBlanks cs)
    match newline? rest with
    | some rest => skipLines steps rest
    | none => rest

/-! ### Texts -/

/-- The value of a hexadecimal digit. -/
def hexValue? (c : Char) : Option Nat :=
  if c.isDigit then some (c.toNat - '0'.toNat)
  else if 'a' ≤ c && c ≤ 'f' then some (c.toNat - 'a'.toNat + 10)
  else if 'A' ≤ c && c ≤ 'F' then some (c.toNat - 'A'.toNat + 10)
  else none

/-- The character whose number `count` hexadecimal digits give. -/
def hexChar? (count : Nat) (cs : List Char) : Option (Char × List Char) := do
  let digits ← (cs.take count).mapM hexValue?
  let code := digits.foldl (fun n d => 16 * n + d) 0
  if digits.length = count ∧ code.isValidChar then some (Char.ofNat code, cs.drop count) else none

/-- The character that an escape stands for. -/
def escape? : List Char → Option (Char × List Char)
  | 'b' :: rest => some ('\x08', rest)
  | 't' :: rest => some ('\t', rest)
  | 'n' :: rest => some ('\n', rest)
  | 'f' :: rest => some ('\x0c', rest)
  | 'r' :: rest => some ('\r', rest)
  | '"' :: rest => some ('"', rest)
  | '\\' :: rest => some ('\\', rest)
  | 'u' :: rest => hexChar? 4 rest
  | 'U' :: rest => hexChar? 8 rest
  | _ => none

/-- The rest of a one-line text behind its opening mark. -/
def lineText? (mark : Char) (text : List Char) : Nat → List Char → Option (String × List Char)
  | 0, _ => none
  | _, [] => none
  | steps + 1, c :: rest =>
    if c == mark then some (String.ofList text.reverse, rest)
    else if c == '\\' && mark == '"' then do
      let (d, rest) ← escape? rest
      lineText? mark (d :: text) steps rest
    else if isPlain c then lineText? mark (c :: text) steps rest
    else none

/-- Walks over blanks and line breaks behind a backslash that ends a line. -/
def skipFold : Nat → List Char → List Char
  | 0, cs => cs
  | steps + 1, cs =>
    let rest := skipBlanks cs
    match newline? rest with
    | some rest => skipFold steps rest
    | none => rest

/-- The rest of a text of several lines behind its opening marks.  Up to two further marks may stand
right in front of the closing three, and a line break is a line feed. -/
def blockText? (mark : Char) (text : List Char) : Nat → List Char → Option (String × List Char)
  | 0, _ => none
  | _, [] => none
  | steps + 1, c :: rest =>
    if c == mark then
      let marks := ((c :: rest).takeWhile (· == mark)).length
      if marks < 3 then blockText? mark (c :: text) steps rest
      else
        let extra := min (marks - 3) 2
        some (String.ofList (List.replicate extra mark ++ text).reverse,
          (c :: rest).drop (extra + 3))
    else
      match newline? (c :: rest) with
      | some rest => blockText? mark ('\n' :: text) steps rest
      | none =>
        if c == '\\' && mark == '"' then
          if (newline? (skipBlanks rest)).isSome then
            blockText? mark text steps (skipFold rest.length rest)
          else do
            let (d, rest) ← escape? rest
            blockText? mark (d :: text) steps rest
        else if isPlain c then blockText? mark (c :: text) steps rest
        else none

/-- A text in any of its notations. -/
def text? (cs : List Char) : Option (String × List Char) :=
  match cs with
  | a :: b :: c :: rest =>
    if (a == '"' || a == apostrophe) && a == b && b == c then
      blockText? a [] (rest.length + 1) ((newline? rest).getD rest)
    else if a == '"' || a == apostrophe then lineText? a [] cs.length (b :: c :: rest)
    else none
  | a :: rest =>
    if a == '"' || a == apostrophe then lineText? a [] cs.length rest else none
  | [] => none

/-! ### Keys -/

/-- The characters of bare keys. -/
def isBare (c : Char) : Bool :=
  c.isAlphanum || c == '_' || c == '-'

/-- One key: bare, or a one-line text. -/
def simpleKey? (cs : List Char) : Option (String × List Char) :=
  match cs with
  | [] => none
  | c :: rest =>
    if c == '"' || c == apostrophe then lineText? c [] cs.length rest
    else
      let bare := cs.takeWhile isBare
      if bare.isEmpty then none else some (String.ofList bare, cs.dropWhile isBare)

/-- How deep arrays and inline tables may nest, and how many parts a key may have. -/
def depthLimit : Nat := 79

/-- A key: simple keys with points, and perhaps blanks, between them.  The last one comes apart. -/
def key? (path : List String) : Nat → List Char → Option ((List String × String) × List Char)
  | 0, _ => none
  | steps + 1, cs => do
    let (key, rest) ← simpleKey? cs
    match skipBlanks rest with
    | '.' :: more => key? (key :: path) steps (skipBlanks more)
    | _ => if path.length < depthLimit then return ((path.reverse, key), rest) else none

/-! ### Scalars -/

/-- Digits of a base, with single underscores between them. -/
def isDigits (digit : Char → Bool) : List Char → Bool
  | [] => false
  | [c] => digit c
  | c :: '_' :: rest => digit c && isDigits digit rest
  | c :: rest => digit c && isDigits digit rest

/-- Decimal digits without a leading zero. -/
def isDecimal (cs : List Char) : Bool :=
  isDigits Char.isDigit cs && (cs.length == 1 || cs.head? != some '0')

/-- Digits without their underscores. -/
def bareDigits (cs : List Char) : List Char :=
  cs.filter (· != '_')

/-- The value of digits of a base. -/
def digitsValue (base : Nat) (cs : List Char) : Nat :=
  (bareDigits cs).foldl (fun n c => base * n + (hexValue? c).getD 0) 0

/-- The first number that a whole number stays below in size, when it is not negative. -/
def integerBound : Nat := Number.twoTo 63

/-- A whole number of 64 bits, in one of four bases. -/
def isInteger (word : List Char) : Bool :=
  match word with
  | '0' :: 'x' :: ds => isDigits (fun c => (hexValue? c).isSome) ds && digitsValue 16 ds < integerBound
  | '0' :: 'o' :: ds =>
    isDigits (fun c => '0' ≤ c && c ≤ '7') ds && digitsValue 8 ds < integerBound
  | '0' :: 'b' :: ds => isDigits (fun c => c == '0' || c == '1') ds && digitsValue 2 ds < integerBound
  | '-' :: ds => isDecimal ds && digitsValue 10 ds ≤ integerBound
  | '+' :: ds => isDecimal ds && digitsValue 10 ds < integerBound
  | ds => isDecimal ds && digitsValue 10 ds < integerBound

/-- A word without its sign. -/
def unsigned (word : List Char) : List Char :=
  match word with
  | '-' :: rest => rest
  | '+' :: rest => rest
  | _ => word

/-- A number with a fraction or an exponent, or an infinity, or not-a-number.  A positive number may not
be too large for a double; a negative one that is too large is negative infinity. -/
def isFloat (word : List Char) : Bool :=
  let body := unsigned word
  let mantissa := body.takeWhile fun c => c != 'e' && c != 'E'
  let exponent := body.drop mantissa.length
  let integral := mantissa.takeWhile (· != '.')
  let fraction := mantissa.drop integral.length
  let fractionFits := fraction.isEmpty || isDigits Char.isDigit (fraction.drop 1)
  let exponentFits := exponent.isEmpty || isDigits Char.isDigit (unsigned (exponent.drop 1))
  let inRange :=
    match Number.read? (String.ofList (bareDigits word)) with
    | some x => !(x.isInf && 0 < x)
    | none => false
  body == ['i', 'n', 'f'] || body == ['n', 'a', 'n']
    || (isDecimal integral && fractionFits && exponentFits
      && !(fraction.isEmpty && exponent.isEmpty) && inRange)

/-- The number that `count` decimal digits give, if it is in a range. -/
def field? (count low high : Nat) (cs : List Char) : Option (Nat × List Char) :=
  let digits := cs.take count
  let n := Number.natOfDigits digits
  if digits.length = count ∧ digits.all Char.isDigit ∧ low ≤ n ∧ n ≤ high then
    some (n, cs.drop count)
  else none

/-- The number of days of a month. -/
def daysOf (year month : Nat) : Nat :=
  if month = 2 then
    if year % 4 = 0 ∧ (year % 100 ≠ 0 ∨ year % 400 = 0) then 29 else 28
  else if month = 4 ∨ month = 6 ∨ month = 9 ∨ month = 11 then 30
  else 31

/-- The rest behind a date. -/
def date? (cs : List Char) : Option (List Char) := do
  let (year, rest) ← field? 4 0 9999 cs
  match rest with
  | '-' :: rest =>
    let (month, rest) ← field? 2 1 12 rest
    match rest with
    | '-' :: rest =>
      let (_, rest) ← field? 2 1 (daysOf year month) rest
      return rest
    | _ => none
  | _ => none

/-- The rest behind a time of day. -/
def time? (cs : List Char) : Option (List Char) := do
  let (_, rest) ← field? 2 0 23 cs
  match rest with
  | ':' :: rest =>
    let (_, rest) ← field? 2 0 59 rest
    match rest with
    | ':' :: rest =>
      let (_, rest) ← field? 2 0 60 rest
      match rest with
      | '.' :: rest =>
        if (rest.head?.map Char.isDigit).getD false then return rest.dropWhile Char.isDigit else none
      | _ => return rest
    | _ => none
  | _ => none

/-- Hours and minutes, and nothing behind them. -/
def isHourMinute (cs : List Char) : Bool :=
  match field? 2 0 23 cs with
  | some (_, ':' :: rest) => ((field? 2 0 59 rest).map fun found => found.2.isEmpty).getD false
  | _ => false

/-- The offset of a time from universal time, or nothing. -/
def isOffset (cs : List Char) : Bool :=
  match cs with
  | [] => true
  | ['Z'] => true
  | ['z'] => true
  | '+' :: rest => isHourMinute rest
  | '-' :: rest => isHourMinute rest
  | _ => false

/-- A date, a time of day, or both, then perhaps with an offset. -/
def isDateTime (word : List Char) : Bool :=
  match date? word with
  | some [] => true
  | some (c :: rest) =>
    (c == 'T' || c == 't' || c == ' ') && ((time? rest).map isOffset).getD false
  | none => ((time? word).map List.isEmpty).getD false

/-- The characters that words of scalars consist of. -/
def isScalarChar (c : Char) : Bool :=
  c.isAlphanum || c == '_' || c == '-' || c == '+' || c == '.' || c == ':'

/-- What a word is. -/
def classify? (word : List Char) : Option Scalar :=
  if word == "true".toList || word == "false".toList then some .boolean
  else if isInteger word then some .integer
  else if isFloat word then some .float
  else if isDateTime word then some .dateTime
  else none

/-- A scalar at the front.  A date takes a time with it that only one space separates from it. -/
def scalar? (cs : List Char) : Option (Scalar × List Char) :=
  let word := cs.takeWhile isScalarChar
  let rest := cs.dropWhile isScalarChar
  match date? word, rest with
  | some [], ' ' :: more =>
    if (more.head?.map Char.isDigit).getD false then
      let time := more.takeWhile isScalarChar
      (classify? (word ++ ' ' :: time)).map fun kind => (kind, more.dropWhile isScalarChar)
    else some (.dateTime, rest)
  | _, _ => (classify? word).map fun kind => (kind, rest)

end TaggedText.Toml
