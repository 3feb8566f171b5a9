import TaggedText.Header.Stage

/-!
# The extent of a header

Where the header of a tag ends is found without reading it: a list reaches from its opening
delimiter to the first closing one that is not inside quotes.  Only then is the text between them
cut into tokens.

So there are two readings of the same characters, and they may disagree about where quotes are.
`Header.skipList` is the rough one; it walks through a closing delimiter, over quoted strings, and
`Header.extent` applies it to both lists.  `Header.readAt` puts the rough one in front of
`Header.read` and reports a header that is never closed.
-/

namespace TaggedText.Header

/-- Walks up to and through `close`, and gives the characters walked over, last first, in front of
`taken`, and the rest.  Inside quotes only a quote counts, and a backslash takes the next character
with it. -/
def skipList (close : Char) : Bool → List Char → List Char → Option (List Char × List Char)
  | _, _, [] => none
  | true, taken, '\\' :: d :: rest => skipList close true (d :: '\\' :: taken) rest
  | true, taken, c :: rest => skipList close (c != '"') (c :: taken) rest
  | false, taken, c :: rest =>
    if c == close then some (c :: taken, rest)
    else skipList close (c == '"') (c :: taken) rest

/-- The list that starts at the front of `cs`, if `cs` starts with `opener`; `none` if it is never
closed. -/
def list? (opener close : Char) (cs : List Char) : Option (List Char × List Char) :=
  match cs with
  | [] => some ([], [])
  | c :: rest =>
    if c == opener then (skipList close false [c] rest).map fun (taken, rest) => (taken.reverse, rest)
    else some ([], cs)

/-- The text of a header and what follows it, or the delimiter that never comes. -/
inductive Extent where
  | closed (text rest : List Char)
  | unclosed (close : Char)

/-- The header at the front of `cs`: parameters, then attributes, each if there are any. -/
def extent (cs : List Char) : Extent :=
  match list? '(' ')' cs with
  | none => .unclosed ')'
  | some (params, rest) =>
    match list? '[' ']' rest with
    | none => .unclosed ']'
    | some (attributes, rest) => .closed (params ++ attributes) rest

/-! ### A header takes characters and gives none -/

theorem skipList_length_le {close : Char} {quoted : Bool} {taken cs taken' rest : List Char}
    (h : skipList close quoted taken cs = some (taken', rest)) : rest.length ≤ cs.length := by
  fun_induction skipList close quoted taken cs with
  | case1 => cases h
  | case2 _ _ _ ih => have := ih h; simp only [List.length_cons]; omega
  | case3 _ _ _ _ ih => have := ih h; simp only [List.length_cons]; omega
  | case4 => cases h; simp
  | case5 _ _ _ _ ih => have := ih h; simp only [List.length_cons]; omega

theorem list?_length_le {opener close : Char} {cs text rest : List Char}
    (h : list? opener close cs = some (text, rest)) : rest.length ≤ cs.length := by
  unfold list? at h
  split at h
  · simp_all
  · split at h
    · obtain ⟨⟨taken, rest'⟩, hs, heq⟩ := Option.map_eq_some_iff.1 h
      have := skipList_length_le hs
      simp_all; omega
    · simp_all

theorem extent_length_le {cs text rest : List Char} (h : extent cs = .closed text rest) :
    rest.length ≤ cs.length := by
  unfold extent at h
  split at h
  · cases h
  · rename_i hp
    split at h
    · cases h
    · rename_i ha
      cases h
      exact Nat.le_trans (list?_length_le ha) (list?_length_le hp)

/-! ### Reading at a place -/

/-- A header read at a place: the header, what was wrong with it, and the place behind it. -/
structure Reading where
  header : Header
  diagnostics : List Diagnostic
  next : Place

/-- **Reads the header at a place**, if there is one.  A header with any fault counts as empty; one
that is never closed takes the rest of the source. -/
def readAt (p : Place) : Reading :=
  match extent p.rest with
  | .closed text rest =>
    match read p.offset text with
    | .ok h => ⟨h, [], p.pass text rest⟩
    | .error ds => ⟨{}, ds, p.pass text rest⟩
  | .unclosed close =>
    let stop := p.pass p.rest []
    ⟨{}, [.malformed ⟨p.offset, stop.offset⟩ "Unterminated tag header"
      ["'" ++ String.singleton close ++ "'"]], stop⟩

theorem readAt_length_le (p : Place) : (readAt p).next.rest.length ≤ p.rest.length := by
  unfold readAt
  split
  · rename_i h
    split <;> exact extent_length_le h
  · simp [Place.pass]

end TaggedText.Header
