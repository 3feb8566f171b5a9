import TaggedText.Toml.Lexical

/-!
# Reading TOML

A document is read line by line: `Toml.statement?` takes one of them, an assignment, a header, or
nothing, and `Toml.read?` folds the statements into a table.  Values are the one place where the
syntax nests.  Arrays and inline tables may hold each other, so their readers call each other; they
carry a number of steps which no input of bounded length exhausts.
-/

namespace TaggedText.Toml

mutual

/-- A value at the front, with `depth` levels of nesting left. -/
def value? (depth : Nat) : Nat → List Char → Option (Value × List Char)
  | 0, _ => none
  | steps + 1, cs =>
    match cs with
    | '[' :: rest =>
      match depth with
      | 0 => none
      | depth + 1 => elements? depth [] steps (skipLines rest.length rest)
    | '{' :: rest =>
      match depth with
      | 0 => none
      | depth + 1 =>
        match skipBlanks rest with
        | '}' :: rest => some (.table [], rest)
        | rest => pairs? depth [] steps rest
    | c :: _ =>
      if c == '"' || c == apostrophe then
        (text? cs).map fun (s, rest) => (.string s, rest)
      else (scalar? cs).map fun (kind, rest) => (.scalar kind, rest)
    | [] => none

/-- The elements of an array and its closing bracket; `found` holds them last first. -/
def elements? (depth : Nat) (found : List Value) :
    Nat → List Char → Option (Value × List Char)
  | 0, _ => none
  | steps + 1, cs =>
    match cs with
    | ']' :: rest => some (.array found.reverse, rest)
    | _ => do
      let (value, rest) ← value? depth steps cs
      match skipLines rest.length rest with
      | ',' :: rest => elements? depth (value :: found) steps (skipLines rest.length rest)
      | ']' :: rest => return (.array (value :: found).reverse, rest)
      | _ => none

/-- The assignments of an inline table and its closing brace. -/
def pairs? (depth : Nat) (fields : Fields) : Nat → List Char → Option (Value × List Char)
  | 0, _ => none
  | steps + 1, cs => do
    let ((path, key), rest) ← key? [] cs.length cs
    match skipBlanks rest with
    | '=' :: rest => do
      let (value, rest) ← value? depth steps (skipBlanks rest)
      let fields ← assign path key value fields
      match skipBlanks rest with
      | ',' :: rest => pairs? depth fields steps (skipBlanks rest)
      | '}' :: rest => return (.ofEntries fields, rest)
      | _ => none
    | _ => none

end

/-- A document while it is being read: its fields, and the path of the last header. -/
structure State where
  fields : Fields := []
  header : List String := []

/-- Reads one statement without its line end. -/
def statement? (s : State) (cs : List Char) : Option (State × List Char) :=
  match cs with
  | [] => some (s, [])
  | '[' :: '[' :: rest => do
    let ((path, key), rest) ← key? [] cs.length (skipBlanks rest)
    match skipBlanks rest with
    | ']' :: ']' :: rest => do
      let fields ← openElement path key s.fields
      return (⟨fields, path ++ [key]⟩, rest)
    | _ => none
  | '[' :: rest => do
    let ((path, key), rest) ← key? [] cs.length (skipBlanks rest)
    match skipBlanks rest with
    | ']' :: rest => do
      let fields ← openTable path key s.fields
      return (⟨fields, path ++ [key]⟩, rest)
    | _ => none
  | c :: _ =>
    if c == '#' || (newline? cs).isSome then some (s, cs)
    else do
      let ((path, key), rest) ← key? [] cs.length cs
      match skipBlanks rest with
      | '=' :: rest => do
        let rest := skipBlanks rest
        let (value, rest) ← value? depthLimit (2 * rest.length + 2) rest
        let fields ← assignWithin s.header path key value s.fields
        return (⟨fields, s.header⟩, rest)
      | _ => none

/-- Reads statements to the end. -/
def statements? (s : State) : Nat → List Char → Option State
  | 0, _ => none
  | _, [] => some s
  | steps + 1, cs => do
    let (s, rest) ← statement? s (skipBlanks cs)
    statements? s steps (← lineEnd? rest)

/-- **Reads a document** as the fields of its outermost table.  A byte order mark may stand in
front. -/
def read? (source : String) : Option (List (String × Value)) :=
  let cs :=
    match source.toList with
    | '\ufeff' :: rest => rest
    | cs => cs
  (statements? {} (cs.length + 1) cs).map fun s => finishFields s.fields

end TaggedText.Toml
