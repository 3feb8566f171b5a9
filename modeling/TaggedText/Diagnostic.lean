import TaggedText.Source.Place

/-!
# Diagnostics

What can be wrong with a source, and how that is said in one line.

There are three kinds of fault: a header that is malformed, a block that is never closed, and a
block that nests too deep.  Each carries the span it is about, so that a diagnostic makes sense away
from the reader that reported it, and `Diagnostic.shift` gives the same fault in a source with more
bytes in front.
-/

namespace TaggedText

/-- **A fault in a source.**
`malformed`: a tag header that breaks its grammar, with what would have been possible there.
`unterminatedBlock`: a block that is still open at the end; `fence` is the width of its fence, zero
for a plain block.
`nestingTooDeep`: a plain block that opens inside `limit` others. -/
inductive Diagnostic where
  | malformed (span : Span) (message : String) (expected : List String)
  | unterminatedBlock (span : Span) (fence : Nat)
  | nestingTooDeep (span : Span) (limit : Nat)
  deriving DecidableEq, Repr, Inhabited

namespace Diagnostic

/-- Where the fault is. -/
def span : Diagnostic → Span
  | malformed span _ _ => span
  | unterminatedBlock span _ => span
  | nestingTooDeep span _ => span

/-- The same fault, `n` bytes further down. -/
def shift (n : Nat) : Diagnostic → Diagnostic
  | malformed span message expected => malformed (span.shift n) message expected
  | unterminatedBlock span fence => unterminatedBlock (span.shift n) fence
  | nestingTooDeep span limit => nestingTooDeep (span.shift n) limit

/-- A range as its two ends. -/
def spanText (s : Span) : String :=
  toString s.start ++ ".." ++ toString s.stop

/-- The fault in one line. -/
def message : Diagnostic → String
  | malformed span message _ => "Parse error at " ++ spanText span ++ ": " ++ message
  | unterminatedBlock span fence =>
    "Unterminated block at " ++ spanText span ++ " (fence width " ++ toString fence ++ ")"
  | nestingTooDeep span limit =>
    "Block at " ++ spanText span ++ " nested deeper than " ++ toString limit ++ " levels"

/-- The fault is a block that is open at the end. -/
def isUnterminated : Diagnostic → Bool
  | unterminatedBlock _ _ => true
  | _ => false

end Diagnostic

end TaggedText
