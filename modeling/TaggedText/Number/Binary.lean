/-!
# Binary floating-point values as exact numbers

A finite double is a whole number times a power of two.  `FloatParts.ofFloat` takes a double apart
into sign, significand and exponent (`Binary`), or says that it is an infinity or no number at all.
From there on everything that the library prints about a double is computed in exact integer
arithmetic, with the powers `twoTo` and `tenTo`, and no rounding happens anywhere.

`Binary.toInt?` is the whole number that a double is, if it is one.
-/

namespace TaggedText.Number

/-- The finite double `± significand · 2 ^ exponent`. -/
structure Binary where
  negative : Bool
  significand : Nat
  exponent : Int
  deriving DecidableEq, Repr, Inhabited

/-- What a double can be. -/
inductive FloatParts where
  | notANumber
  | infinite (negative : Bool)
  | finite (value : Binary)
  deriving DecidableEq, Repr

/-- The power `2 ^ n`. -/
def twoTo (n : Nat) : Nat := Nat.pow 2 n

/-- The power `10 ^ n`. -/
def tenTo (n : Nat) : Nat := Nat.pow 10 n

/-- The number of bits that a double keeps of its significand; a normal one has one more, unwritten. -/
def fractionBits : Nat := 52

/-- The exponent of the least positive double. -/
def leastExponent : Int := -1074

/-- Reads the sign, the eleven exponent bits and the fraction of a double's bit pattern. -/
def FloatParts.ofBits (bits : Nat) : FloatParts :=
  let negative := bits / twoTo 63 % 2 = 1
  let biased := bits / twoTo fractionBits % twoTo 11
  let fraction := bits % twoTo fractionBits
  if biased = 2047 then
    if fraction = 0 then .infinite negative else .notANumber
  else if biased = 0 then .finite ⟨negative, fraction, leastExponent⟩
  else .finite ⟨negative, twoTo fractionBits + fraction, leastExponent + (biased - 1 : Nat)⟩

/-- Takes a double apart. -/
def FloatParts.ofFloat (x : Float) : FloatParts :=
  .ofBits x.toBits.toNat

/-- The double is zero, of either sign. -/
def Binary.isZero (b : Binary) : Bool :=
  b.significand == 0

/-- The size of the double as a whole number, if it has no fraction. -/
def Binary.toNat? (b : Binary) : Option Nat :=
  match b.exponent with
  | .ofNat e => some (b.significand * twoTo e)
  | .negSucc e =>
    if b.significand % twoTo (e + 1) = 0 then some (b.significand / twoTo (e + 1)) else none

/-- The double as a whole number, if it has no fraction; both zeros are the whole number zero. -/
def Binary.toInt? (b : Binary) : Option Int :=
  b.toNat?.map fun n => if b.negative then -(n : Int) else n

end TaggedText.Number
