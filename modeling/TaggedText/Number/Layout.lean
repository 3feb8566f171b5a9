import TaggedText.Number.Shortest

/-!
# Numbers as text

How the digits of a double are laid out, and how a numeral is read.

The two formats of the library differ in a few decisions, and a `Layout` is these decisions as data:
`Layout.plain` never uses an exponent and puts no point into a whole number, while `Layout.json` has
an exponent for very large and very small numbers and writes `.0` behind a whole one.
`Layout.render` follows whichever it is given.

Reading goes the other way.  `read?` takes a numeral apart, and `ofDigits` finds the double that is
nearest to it.
-/

namespace TaggedText.Number

/-- **The decisions of a number format.**  `tie` chooses between two shortest decimals that are
equally near; `positional e` says that a number whose leading digit stands for `10 ^ e` is written
without an exponent; `wholePoint` says that a whole number still gets a fraction `.0`; `plusSign` is
what stands before an exponent that is not negative. -/
structure Layout where
  tie : Tie
  positional : Int → Bool
  wholePoint : Bool
  plusSign : String

/-- Every digit is written out, a whole number has no point, and a tie goes away from zero. -/
def Layout.plain : Layout :=
  ⟨.larger, fun _ => true, false, ""⟩

/-- Numbers from `0.00001` up to, but not including, `10000000000000000` are written out, a larger
exponent has a plus sign, and a tie goes to the even digit. -/
def Layout.json : Layout :=
  ⟨.even, fun e => -5 ≤ e && e ≤ 15, true, "+"⟩

/-- `n` zeros. -/
def zeros (n : Nat) : String :=
  String.ofList (List.replicate n '0')

/-- The text of a decimal of no sign. -/
def Layout.decimal (l : Layout) (d : Decimal) : String :=
  let digits := Nat.toDigits 10 d.digits
  let point : Int := digits.length + d.exponent
  if l.positional (point - 1) then
    if d.exponent ≥ 0 then
      String.ofList digits ++ zeros d.exponent.toNat ++ (if l.wholePoint then ".0" else "")
    else if point > 0 then
      String.ofList (digits.take point.toNat) ++ "." ++ String.ofList (digits.drop point.toNat)
    else
      "0." ++ zeros (-point).toNat ++ String.ofList digits
  else
    let fraction := digits.drop 1
    String.ofList (digits.take 1)
      ++ (if fraction.isEmpty then "" else "." ++ String.ofList fraction)
      ++ "e" ++ (if point > 0 then l.plusSign else "") ++ toString (point - 1)

/-- The text of a double. -/
def Layout.render (l : Layout) (x : Float) : String :=
  match FloatParts.ofFloat x with
  | .notANumber => "NaN"
  | .infinite negative => if negative then "-inf" else "inf"
  | .finite b => (if b.negative then "-" else "") ++ l.decimal (b.shortest l.tie)

/-! ### Reading -/

/-- The natural number that decimal digits stand for. -/
def natOfDigits (digits : List Char) : Nat :=
  digits.foldl (fun n c => 10 * n + (c.toNat - '0'.toNat)) 0

/-- The double nearest to `± integral.fractional · 10 ^ exponent`.  A power of ten beyond `10 ^ 400`
is past every double, and one so small that the digits stay below `10 ^ -400` rounds to zero, so
the power is cut off there. -/
def ofDigits (negative : Bool) (integral fractional : List Char) (exponent : Int) : Float :=
  let mantissa := natOfDigits (integral ++ fractional)
  let least : Int := -(400 + integral.length + fractional.length : Nat)
  let scale : Int := max least (min 400 (exponent - fractional.length))
  let x :=
    match scale with
    | .ofNat e => Float.ofScientific mantissa false e
    | .negSucc e => Float.ofScientific mantissa true (e + 1)
  if negative then -x else x

/-- The whole number of an optional sign and digits. -/
def readExponent? : List Char → Option Int
  | '-' :: cs => if cs.isEmpty || !cs.all Char.isDigit then none else some (-(natOfDigits cs : Int))
  | '+' :: cs => if cs.isEmpty || !cs.all Char.isDigit then none else some (natOfDigits cs)
  | cs => if cs.isEmpty || !cs.all Char.isDigit then none else some (natOfDigits cs)

/-- The double of an unsigned numeral: digits, an optional fraction, an optional exponent, with a
digit before or after the point. -/
def readUnsigned? (negative : Bool) (cs : List Char) : Option Float :=
  let integral := cs.takeWhile Char.isDigit
  let afterIntegral := cs.dropWhile Char.isDigit
  let (fractional, afterFraction) :=
    match afterIntegral with
    | '.' :: rest => (rest.takeWhile Char.isDigit, rest.dropWhile Char.isDigit)
    | rest => ([], rest)
  if integral.isEmpty && fractional.isEmpty then none
  else
    match afterFraction with
    | [] => some (ofDigits negative integral fractional 0)
    | c :: rest =>
      if c == 'e' || c == 'E' then
        (readExponent? rest).map (ofDigits negative integral fractional)
      else none

/-- The double of a spelled number: a numeral, an infinity or not-a-number, with an optional sign. -/
def read? (s : String) : Option Float :=
  let (negative, cs) :=
    match s.toList with
    | '-' :: rest => (true, rest)
    | '+' :: rest => (false, rest)
    | rest => (false, rest)
  let word := String.ofList (cs.map Char.toLower)
  if word == "inf" || word == "infinity" then
    some (if negative then -(1.0 / 0.0) else 1.0 / 0.0)
  else if word == "nan" then some (0.0 / 0.0)
  else readUnsigned? negative cs

end TaggedText.Number
