import TaggedText.Diagnostic
import TaggedText.Source.Columns

/-!
# Reports: diagnostics shown in their source

A report shows a diagnostic in colour: a headline, the place, the lines of the source that it spans
with a mark under them, and a label at the mark.  A span within one line is marked from below, and
one over several lines from the margin (`singleLine`, `multiLine`).

The numbers of a span are taken as counts of characters, though they count bytes.  So a span that
starts or ends past the last character has nothing to show, and only its headline is written; so it
is in an empty source.  One that ends just past the last character has no mark.

Every coloured character is wrapped on its own, and the width of a character on the screen is that
of `Columns`.
-/

namespace TaggedText

namespace Report

/-! ### Words -/

/-- What a diagnostic says at the top. -/
def headline : Diagnostic → String
  | .malformed _ message _ => message
  | .unterminatedBlock _ _ => "Unterminated block"
  | .nestingTooDeep _ _ => "Blocks nested too deeply"

/-- What a diagnostic says at its mark. -/
def label : Diagnostic → String
  | .malformed _ message expected =>
    message ++ (if expected.isEmpty then "" else "\nExpected: " ++ String.intercalate ", " expected)
  | .unterminatedBlock _ fence =>
    "block opened here is never closed by \x60\x7d"
      ++ String.ofList (List.replicate fence '=') ++ "\x60"
  | .nestingTooDeep _ limit => "this block exceeds the nesting limit of " ++ toString limit

/-! ### Colours -/

/-- Text in a colour. -/
def paint (colour text : String) : String :=
  "\x1b[" ++ colour ++ "m" ++ text ++ "\x1b[0m"

/-- The colour of the mark. -/
def red : String := "31"

/-- The colour of the margin beside a line. -/
def marginColour : String := "38;5;246"

/-- The colour of the margin beside a row that is no line. -/
def skippedColour : String := "38;5;240"

/-- The colour of what is not marked. -/
def plainColour : String := "38;5;249"

/-- The same text several times. -/
def times (n : Nat) (text : String) : String :=
  String.join (List.replicate n text)

/-! ### Lines -/

/-- A line of a source: which one it is, the characters before it, its length with its line break, and
its text without blanks at the end. -/
structure Line where
  index : Nat
  start : Nat
  length : Nat
  text : List Char
  deriving Repr, Inhabited

/-- The characters that end a line. -/
def isBreak (c : Char) : Bool :=
  c == '\n' || c == '\r' || c == '\x0b' || c == '\x0c' || c == '\u0085' || c == '\u2028'
    || c == '\u2029'

/-- Cuts a source behind its line breaks; `line` holds, last first, what has been read of a line. -/
def cutLines (line : List Char) : List Char → List (List Char)
  | [] => if line.isEmpty then [] else [line.reverse]
  | '\r' :: '\n' :: rest => ('\n' :: '\r' :: line).reverse :: cutLines [] rest
  | c :: rest =>
    if isBreak c then (c :: line).reverse :: cutLines [] rest else cutLines (c :: line) rest

/-- Text without the blanks at its end. -/
def trimEnd (cs : List Char) : List Char :=
  (cs.reverse.dropWhile Columns.isSpace).reverse

/-- Numbers lines and counts the characters before them. -/
def numberLines (index start : Nat) : List (List Char) → List Line
  | [] => []
  | line :: rest =>
    ⟨index, start, line.length, trimEnd line⟩ :: numberLines (index + 1) (start + line.length) rest

/-- The lines of a source; an empty source has none. -/
def lines (source : List Char) : List Line :=
  numberLines 0 0 (cutLines [] source)

/-- The line of a position; the end of the source belongs to the last line. -/
def lineAt? (source : List Char) (position : Nat) : Option Line :=
  if position ≤ source.length then
    ((lines source).filter fun line => line.start ≤ position).getLast?
  else none

/-! ### Columns -/

/-- The columns that a character takes at an index of its line; a tab reaches to the next multiple of
four. -/
def cellWidth (c : Char) (column : Nat) : Nat :=
  if c == '\t' then (column / 4 + 1) * 4 - column
  else if Columns.isSpace c then 1
  else Columns.ofChar c

/-- A row under a line, as wide as the characters above it: `draw` gives, for each index, what stands
in its first column and what fills its other columns. -/
def row (draw : Nat → String × String) (column : Nat) : Nat → List Char → String
  | 0, _ => ""
  | count + 1, text =>
    let width :=
      match text with
      | [] => 1
      | c :: _ => cellWidth c column
    let (first, fill) := draw column
    (if width = 0 then "" else first ++ times (width - 1) fill)
      ++ row draw (column + 1) count text.tail

/-- A line, red inside the span. -/
def markedText (span : Span) (start column : Nat) : List Char → String
  | [] => ""
  | c :: rest =>
    let position := start + column
    let colour := if span.start ≤ position && position < span.stop then red else plainColour
    (if Columns.isSpace c then times (cellWidth c column) (paint colour " ")
      else paint colour (String.singleton c))
      ++ markedText span start (column + 1) rest

/-! ### Margins -/

/-- The margin beside a line. -/
def numberedMargin (width : Nat) (line : Line) : String :=
  let number := toString (line.index + 1)
  " " ++ paint marginColour (times (width - number.length) " " ++ number ++ " │") ++ " "

/-- The margin beside a row that is no line. -/
def bareMargin (width : Nat) (bar : String) : String :=
  " " ++ paint skippedColour (times (width + 1) " " ++ bar) ++ " "

/-! ### Marked lines -/

/-- The rows of a span in one line.  The label hangs on the middle of the span. -/
def singleLine (width : Nat) (span : Span) (label : String) (line : Line) : String :=
  if span.stop > line.start + line.length then bareMargin width "│" ++ "\n"
  else
    let middle := (span.start + span.stop) / 2 - line.start
    let count := span.stop - line.start + 2
    let dash := paint red "─"
    let under := fun column =>
      if span.start ≤ line.start + column && line.start + column < span.stop then
        (if column = middle then paint red "┬" else dash, dash)
      else if column = middle then (paint red "│", paint red " ")
      else (" ", " ")
    let hook := fun column =>
      if column = middle then (paint red "╰", dash)
      else if column > middle then (dash, dash)
      else (" ", " ")
    numberedMargin width line ++ markedText span line.start 0 line.text ++ "\n"
      ++ bareMargin width "│" ++ row under 0 count line.text ++ "\n"
      ++ bareMargin width "│" ++ row hook 0 count line.text ++ " " ++ label ++ "\n"

/-- The rows of a span of several lines, for the lines that are left of it.  `gap` says that lines
have just been left out. -/
def multiLine (width : Nat) (span : Span) (label : String) (gap : Bool) : List Line → String
  | [] => ""
  | line :: rest =>
    let holds := fun position => line.start ≤ position && position < line.start + line.length
    let dash := paint red "─"
    let arrow := fun corner =>
      numberedMargin width line ++ paint red corner ++ dash ++ paint red "▶" ++ paint red " "
        ++ markedText span line.start 0 line.text ++ "\n"
    let count := line.length + 2
    if holds span.start then arrow "╭" ++ multiLine width span label false rest
    else if holds (span.stop - 1) then
      arrow "├"
        ++ bareMargin width "│" ++ paint red "│" ++ "   " ++ row (fun _ => (" ", " ")) 0 count line.text
        ++ "\n"
        ++ bareMargin width "│" ++ paint red "╰" ++ dash ++ dash ++ dash
        ++ row (fun _ => (dash, dash)) 0 count line.text ++ " " ++ label ++ "\n"
        ++ multiLine width span label false rest
    else
      (if gap then "" else bareMargin width "┆" ++ paint red "┆" ++ "   \n")
        ++ multiLine width span label true rest

/-- The place, the marked lines and the closing rule of a span from `first` to `last`. -/
def body (source : List Char) (filename : String) (span : Span) (label : String)
    (first last : Line) : String :=
  let width := (toString (last.index + 1)).length
  let place :=
    filename ++ ":" ++ toString (first.index + 1) ++ ":" ++ toString (span.start - first.start + 1)
  let indent := times (width + 2) " "
  indent ++ paint marginColour "╭" ++ paint marginColour "─" ++ paint marginColour "[" ++ place
    ++ paint marginColour "]" ++ "\n"
    ++ indent ++ paint marginColour "│" ++ "\n"
    ++ (if first.index = last.index then singleLine width span label first
      else
        multiLine width span label false
          ((lines source).filter fun line => first.index ≤ line.index && line.index ≤ last.index))
    ++ paint marginColour (times (width + 2) "─" ++ "╯") ++ "\n"

end Report

/-- **The report of a diagnostic** in a source. -/
def Diagnostic.report (d : Diagnostic) (source filename : String) : String :=
  let cs := source.toList
  let span := d.span
  Report.paint Report.red "Error:" ++ " " ++ Report.headline d ++ "\n"
    ++ (match Report.lineAt? cs span.start, Report.lineAt? cs (max span.start (span.stop - 1)) with
      | some first, some last => Report.body cs filename span (Report.label d) first last
      | _, _ => "")

end TaggedText
