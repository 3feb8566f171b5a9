import TaggedText.Dispatch.Templated
import TaggedText.Toml.Reader

/-!
# Tag sets

A tag set gives a template and a display to each of its tags.  It is written in TOML, as tables
`tags.<name>` with a text `template` and, if wanted, a `display` of `"inline"` or `"block"`.  An
array of the same two values serves as well.

`TagSet.ofToml?` reads a set whole or not at all, and `TagSet.merge` lays one set over another.  The
only use of a set is its resolvers: each tag of it is resolved by its template, and every other tag
by nothing.  `TagSet.builtin` is the tags that need no definition.
-/

namespace TaggedText

/-- Templates by tag name. -/
abbrev TagSet := Table Templated

namespace TagSet

/-- The display of a word. -/
def displayOfWord? (word : String) : Option Display :=
  if word == "inline" then some .inline
  else if word == "block" then some .block
  else none

/-- A display: its word, or a table of which its word is the only key, with nothing in it. -/
def display? : Toml.Value → Option Display
  | .string word => displayOfWord? word
  | .table [(word, .table [])] => displayOfWord? word
  | .table [(word, .array [])] => displayOfWord? word
  | _ => none

/-- The definition from its template and, perhaps, its display. -/
def definitionOf? (template : Option Toml.Value) (display : Option Toml.Value) : Option Templated :=
  match template, display with
  | some (.string template), none => some ⟨template, none⟩
  | some (.string template), some display => (display? display).map fun d => ⟨template, some d⟩
  | _, _ => none

/-- The definition of a tag: a table with keys for its parts, or an array with the parts in order.
Keys that mean nothing here, and further elements, are passed over. -/
def definition? : Toml.Value → Option Templated
  | .table fields => definitionOf? (Fields.find? "template" fields) (Fields.find? "display" fields)
  | .array parts => definitionOf? parts[0]? parts[1]?
  | _ => none

/-- The definitions in the table of all tags. -/
def definitions? : List (String × Toml.Value) → Option (List (String × Templated))
  | [] => some []
  | (name, value) :: rest => do
    let definition ← definition? value
    let more ← definitions? rest
    return (name, definition) :: more

/-- **Reads a tag set.**  A document without a table of tags is an empty set. -/
def ofToml? (source : String) : Option TagSet := do
  let fields ← Toml.read? source
  match Fields.find? "tags" fields with
  | none => return Table.empty
  | some (.table tags) => return Table.ofList (← definitions? tags)
  | some _ => none

/-- The tags that need no definition. -/
def builtin : TagSet :=
  Table.ofList
    [("b", ⟨"<strong>\x7b\x7b data.content \x7d\x7d</strong>", some .inline⟩),
      ("i", ⟨"<em>\x7b\x7b data.content \x7d\x7d</em>", some .inline⟩),
      ("code", ⟨"<code>\x7b\x7b data.content \x7d\x7d</code>", some .inline⟩),
      ("link",
        ⟨"<a href=\"\x7b\x7b data.params.0 \x7d\x7d\">\x7b\x7b data.content \x7d\x7d</a>",
          some .inline⟩),
      ("p", ⟨"<p>\x7b\x7b data.content \x7d\x7d</p>", some .block⟩),
      ("h1", ⟨"<h1>\x7b\x7b data.content \x7d\x7d</h1>", some .block⟩),
      ("h2", ⟨"<h2>\x7b\x7b data.content \x7d\x7d</h2>", some .block⟩),
      ("section",
        ⟨"<section\x7b% if data.attrs.id %\x7d id=\"\x7b\x7b data.attrs.id \x7d\x7d\""
          ++ "\x7b% endif %\x7d>\x7b\x7b data.content \x7d\x7d</section>",
          some .block⟩)]

/-- One set over another: on a tag of both, `upper` wins. -/
def merge (set upper : TagSet) : TagSet :=
  set.extend upper

/-- The resolvers of a set. -/
def resolvers (set : TagSet) : ResolverMap :=
  set.mapValues Templated.resolver

end TagSet

end TaggedText
