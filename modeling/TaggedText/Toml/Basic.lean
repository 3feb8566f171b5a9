import TaggedText.Table

/-!
# TOML documents

The values of a TOML document, and how its statements build its tables.

A table may be defined only once, and what counts as defining it depends on how it came about.  One
that exists because a longer header passed through it may still be defined by its own header, but
one that was written with dotted keys may not; dotted keys in turn may extend only tables that were
written that way.  Inline tables and arrays are closed.  So a table under construction remembers its
`Origin`, and the three kinds of statement (`assign`, `openTable`, `openElement`) consult it.
`Value.ofEntries` forgets it again.
-/

namespace TaggedText.Toml

/-- What a scalar other than text is. -/
inductive Scalar where
  | boolean
  | integer
  | float
  | dateTime
  deriving DecidableEq, Repr, Inhabited

/-- A finished value. -/
inductive Value where
  | string (value : String)
  | scalar (kind : Scalar)
  | array (elements : List Value)
  | table (fields : List (String × Value))
  deriving Inhabited

/-- How a table came about: by its own header, as a step of a longer header, or by dotted keys. -/
inductive Origin where
  | header
  | passage
  | dotted
  deriving DecidableEq, Repr, Inhabited

/-- **What stands under a key** while a document is being read.  Of an array of tables the last
element is the open one; it is kept first. -/
inductive Entry where
  | value (value : Value)
  | table (origin : Origin) (fields : List (String × Entry))
  | elements (reversed : List (List (String × Entry)))
  deriving Inhabited

/-- The fields of a table under construction. -/
abbrev Fields := List (String × Entry)

/-- Goes down a path and applies `act` to the table there.  Missing tables are made; `dotted` says
whether the path is one of dotted keys, which may not enter tables that have a header. -/
def within (dotted : Bool) (act : Origin → Fields → Option Fields) :
    List String → Origin → Fields → Option Fields
  | [], origin, fields => act origin fields
  | key :: path, _, fields =>
    match TaggedText.Fields.find? key fields with
    | none => do
      let origin := if dotted then Origin.dotted else Origin.passage
      let inner ← within dotted act path origin []
      return TaggedText.Fields.insert key (.table origin inner) fields
    | some (.table origin inner) =>
      if dotted && origin == .header then none
      else do
        let inner ← within dotted act path origin inner
        return TaggedText.Fields.insert key (.table origin inner) fields
    | some (.elements (last :: earlier)) => do
      let last ← within dotted act path .header last
      return TaggedText.Fields.insert key (.elements (last :: earlier)) fields
    | some _ => none

/-- Puts a value under a new key of the table that a dotted path leads to. -/
def assign (path : List String) (key : String) (value : Value) (fields : Fields) : Option Fields :=
  within true
    (fun origin fields =>
      if (origin == .dotted) == path.isEmpty then none
      else
        match TaggedText.Fields.find? key fields with
        | some _ => none
        | none => some (TaggedText.Fields.insert key (.value value) fields))
    path .header fields

/-- The header of a table: makes it, or defines one that headers have passed through. -/
def openTable (path : List String) (key : String) (fields : Fields) : Option Fields :=
  within false
    (fun _ fields =>
      match TaggedText.Fields.find? key fields with
      | none => some (TaggedText.Fields.insert key (.table .header []) fields)
      | some (.table .passage inner) =>
        some (TaggedText.Fields.insert key (.table .header inner) fields)
      | some _ => none)
    path .header fields

/-- The header of an element of an array of tables: begins the next element. -/
def openElement (path : List String) (key : String) (fields : Fields) : Option Fields :=
  within false
    (fun _ fields =>
      match TaggedText.Fields.find? key fields with
      | none => some (TaggedText.Fields.insert key (.elements [[]]) fields)
      | some (.elements earlier) =>
        some (TaggedText.Fields.insert key (.elements ([] :: earlier)) fields)
      | some _ => none)
    path .header fields

/-- Puts a value under a key of the table that the last header opened. -/
def assignWithin (header : List String) (path : List String) (key : String) (value : Value)
    (fields : Fields) : Option Fields :=
  within false (fun _ fields => assign path key value fields) header .header fields

/-! ### Finished tables -/

mutual

/-- What stands under a key as a value. -/
def Entry.finish : Entry → Value
  | .value value => value
  | .table _ fields => .table (finishFields fields)
  | .elements reversed => .array (finishElements reversed).reverse

/-- The fields of a table as values. -/
def finishFields : List (String × Entry) → List (String × Value)
  | [] => []
  | (key, entry) :: rest => (key, entry.finish) :: finishFields rest

/-- The elements of an array of tables as values. -/
def finishElements : List (List (String × Entry)) → List Value
  | [] => []
  | fields :: rest => .table (finishFields fields) :: finishElements rest

end

/-- The finished table. -/
def Value.ofEntries (fields : Fields) : Value :=
  .table (finishFields fields)

end TaggedText.Toml
