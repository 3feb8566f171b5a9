import TaggedText.Document.Basic

/-!
# Header tokens

The words of a tag header `(params)[attributes]`: delimiters, literals and names.  One token can
stand for more than one thing, as a bare name is a value among the parameters and the name of an
attribute in brackets; `Token.literal?` and `Token.name?` are these readings.  `Token.describe` is
how a message names a token.
-/

namespace TaggedText.Header

/-- A word of a header.  `true` and `false` are no names. -/
inductive Token where
  | openParen
  | closeParen
  | openBracket
  | closeBracket
  | comma
  | equals
  | bool (value : Bool)
  | name (spelling : String)
  | string (value : String)
  | number (value : Float)
  deriving Inhabited

namespace Token

/-- The value that a token writes down. -/
def literal? : Token → Option Literal
  | bool b => some (.bool b)
  | name s => some (.word s)
  | string s => some (.string s)
  | number x => some (.number x)
  | _ => none

/-- The attribute name that a token writes down. -/
def name? : Token → Option String
  | name s => some s
  | _ => none

/-- How a message names the token. -/
def describe : Token → String
  | openParen => "'('"
  | closeParen => "')'"
  | openBracket => "'['"
  | closeBracket => "']'"
  | comma => "','"
  | equals => "'='"
  | bool b => if b then "'true'" else "'false'"
  | name s => "identifier '" ++ s ++ "'"
  | string s => "string \"" ++ s ++ "\""
  | number x => "number " ++ Number.Layout.plain.render x

end Token

end TaggedText.Header
