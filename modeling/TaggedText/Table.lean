/-!
# Tables: finite maps with text keys

Registries, resolver maps, tag sets and the fields of a JSON object are all finite maps from names.
A table keeps its entries in the order of their keys, so that listing one is deterministic and two
tables with the same entries are equal.

The operations are defined twice over, on the bare list of entries (`Fields.insert`, `Fields.find?`)
and on `Table`, which is a type of its own.  The bare list is exposed because a recursive type such
as the JSON values cannot hold a `Table` of itself.

Almost everything that is proved about a table rests on one law, `Fields.find?_insert`: an insertion
answers for its key and changes no other answer.  Insertion replaces in one pass, so the law needs
no assumption of order.
-/

namespace TaggedText

namespace Fields

variable {α : Type}

/-- Puts `value` under `key`, in the order of keys, in place of what was there. -/
def insert (key : String) (value : α) : List (String × α) → List (String × α)
  | [] => [(key, value)]
  | (k, v) :: rest =>
    if key < k then (key, value) :: (k, v) :: rest
    else if key = k then (key, value) :: rest
    else (k, v) :: insert key value rest

/-- What stands under `key`. -/
def find? (key : String) : List (String × α) → Option α
  | [] => none
  | (k, v) :: rest => if key = k then some v else find? key rest

theorem find?_insert (key key' : String) (value : α) (fields : List (String × α)) :
    find? key' (insert key value fields) = if key' = key then some value else find? key' fields := by
  induction fields with
  | nil => simp [insert, find?]
  | cons field rest ih =>
    obtain ⟨k, v⟩ := field
    unfold insert
    split
    · simp [find?]
    · split
      · subst_vars; by_cases h : key' = k <;> simp [find?, h]
      · rename_i hne
        by_cases h : key' = k
        · subst h; simp [find?, Ne.symm hne]
        · simp [find?, h, ih]

/-- Adds entries one after the other. -/
def extend (fields more : List (String × α)) : List (String × α) :=
  more.foldl (fun acc entry => insert entry.1 entry.2 acc) fields

end Fields

/-- A finite map from text keys, in the order of the keys. -/
structure Table (α : Type) where
  entries : List (String × α) := []
  deriving Inhabited

namespace Table

variable {α : Type}

/-- No entries. -/
def empty : Table α := ⟨[]⟩

/-- Puts `value` under `key`, in place of what was there. -/
def insert (t : Table α) (key : String) (value : α) : Table α :=
  ⟨Fields.insert key value t.entries⟩

/-- What stands under `key`. -/
def find? (t : Table α) (key : String) : Option α :=
  Fields.find? key t.entries

/-- Something stands under `key`. -/
def contains (t : Table α) (key : String) : Bool :=
  (t.find? key).isSome

/-- The keys in order. -/
def keys (t : Table α) : List String :=
  t.entries.map Prod.fst

/-- The number of entries. -/
def size (t : Table α) : Nat :=
  t.entries.length

/-- Adds every entry of `other`; on a key of both, `other` wins. -/
def extend (t other : Table α) : Table α :=
  ⟨Fields.extend t.entries other.entries⟩

/-- The table of a list of entries; of two with one key the later wins. -/
def ofList (entries : List (String × α)) : Table α :=
  ⟨Fields.extend [] entries⟩

/-- Applies `f` to every value. -/
def mapValues {β : Type} (f : α → β) (t : Table α) : Table β :=
  ⟨t.entries.map fun entry => (entry.1, f entry.2)⟩

@[simp] theorem find?_empty (key : String) : (empty : Table α).find? key = none := rfl

@[simp] theorem find?_insert (t : Table α) (key key' : String) (value : α) :
    (t.insert key value).find? key' = if key' = key then some value else t.find? key' :=
  Fields.find?_insert key key' value t.entries

end Table

end TaggedText
