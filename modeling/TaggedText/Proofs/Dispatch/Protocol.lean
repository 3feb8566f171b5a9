import TaggedText.Dispatch.Templated

/-!
# What a template asks for

A templated resolver asks for the parameters of its tag, for the attributes, for the number of
blocks and then for each block in its turn; it ends with the template, filled in with what came
back. Nothing that comes back can lead it off this course: what is missing or of the wrong kind
counts as nothing.

All that a sequence proposes is said under an endless feed (`Sequence.ProposesUnder`), so that "and
nothing ever after" is part of the statement.  `ProposesUnder.propose` puts one proposal in front of
those behind it, with the feed shifted by one.  The loop over the blocks is then an induction from
any block on (`Templated.askBlocks_proposes`), and `Templated.sequence_proposes_course` is the loop
behind the three questions in front of it.
-/

namespace TaggedText

/-! ### Endless feeds -/

namespace Sequence

variable {feed : Nat → Option Json} {command : Command} {commands : List Command}
  {next : Option Json → Sequence}

/-- **All that a sequence proposes**, where `feed k` is fed into its step `k`: these commands in
their order, one at each step, and nothing ever after. -/
def ProposesUnder (s : Sequence) (feed : Nat → Option Json) (commands : List Command) : Prop :=
  ∀ steps, s.proposals ((List.range steps).map feed) =
    (List.range steps).map fun k => commands[k]?

theorem follow_done (values : List (Option Json)) :
    follow (fun _ => done) values = values.map fun _ => none := by
  induction values with
  | nil => rfl
  | cons value values ih => rw [follow, ih, List.map_cons]

theorem proposes_done (feed : Nat → Option Json) : done.ProposesUnder feed [] := by
  intro steps
  rw [proposals, follow_done, List.map_map]
  rfl

/-- The first value that is fed decides how the sequence goes on. -/
theorem follow_cons (next : Option Json → Sequence) (value : Option Json)
    (values : List (Option Json)) :
    follow next (value :: values) = (next value).proposals (value :: values) := by
  rw [proposals, follow, follow]

/-- **One proposal, and those that its answer leads to.** -/
theorem ProposesUnder.propose (h : (next (feed 1)).ProposesUnder (fun k => feed (k + 1)) commands) :
    (Sequence.propose command next).ProposesUnder feed (command :: commands) := by
  intro steps
  cases steps with
  | zero => rfl
  | succ steps =>
      have hrest : follow next ((List.range steps).map fun k => feed (k + 1)) =
          (List.range steps).map fun k => commands[k]? := by
        rw [← h steps]
        cases steps with
        | zero => rfl
        | succ steps =>
            rw [List.range_succ_eq_map, List.map_cons]
            exact follow_cons next _ _
      rw [List.range_succ_eq_map, List.map_cons, List.map_map, proposals, follow]
      exact congrArg (some command :: ·) (hrest.trans (by rw [List.map_map]; rfl))

end Sequence

/-! ### What a feed says -/

namespace Templated

/-- The number of blocks: what comes back for it, if that is a count. -/
def count (feed : Nat → Option Json) : Nat :=
  ((feed 3).bind Json.natural?).getD 0

/-- The text that comes back for a block; whatever is no text counts as empty. -/
def textOf (value : Option Json) : String :=
  (value.bind Json.text?).getD ""

/-- The texts of the blocks. -/
def texts (feed : Nat → Option Json) : List String :=
  (List.range (count feed)).map fun j => textOf (feed (4 + j))

/-- **What the template is filled in with.** -/
def filling (feed : Nat → Option Json) : Json :=
  .object
    [("attrs", (feed 2).getD (.object [])),
      ("blocks", .array ((texts feed).map Json.string)),
      ("content", .string (String.join (texts feed))),
      ("params", (feed 1).getD (.array []))]

/-- The question for a block. -/
def blockQuestion (index : Nat) : Command :=
  { name := "getBlock", index := some index }

/-- The template with what it is filled in with. -/
def filled (t : Templated) (data : Json) : Command :=
  { name := "html", template := some t.template, data := data, display := t.display }

/-- **The course that a tag takes**: three questions about it, one for each block, and the
template. -/
def course (t : Templated) (feed : Nat → Option Json) : List Command :=
  [{ name := "getParams" }, { name := "getAttrs" }, { name := "blockCount" }] ++
    ((List.range (count feed)).map blockQuestion ++ [t.filled (filling feed)])

/-! ### The questions -/

/-- The bindings, by their names. -/
theorem bindings_eq (params attributes : Json) (blocks : List String) :
    bindings params attributes blocks =
      .object
        [("attrs", attributes), ("blocks", .array (blocks.map Json.string)),
          ("content", .string (String.join blocks)), ("params", params)] := by
  simp only [bindings, Json.ofFields, Fields.extend, Fields.insert, List.foldl_cons, List.foldl_nil,
    String.reduceLT, String.reduceEq, if_true, if_false]

/-- **From any block on**, the blocks that are left are asked for in their order, and then the
template is filled in with all that came back. -/
theorem askBlocks_proposes (t : Templated) (params attributes : Json) (index left : Nat)
    (blocks : List String) (feed : Nat → Option Json) :
    (askBlocks t params attributes index blocks left).ProposesUnder feed
      ((List.range' index left).map blockQuestion ++
        [t.filled (bindings params attributes
          (blocks ++ (List.range left).map fun j => textOf (feed (1 + j))))]) := by
  induction left generalizing index blocks feed with
  | zero =>
      rw [List.range_zero, List.map_nil, List.append_nil]
      exact (Sequence.proposes_done _).propose
  | succ left ih =>
      have hblocks : blocks ++ (List.range (left + 1)).map (fun j => textOf (feed (1 + j))) =
          (blocks ++ [textOf (feed 1)]) ++
            (List.range left).map fun j => textOf (feed (1 + j + 1)) := by
        rw [List.range_succ_eq_map, List.map_cons, List.map_map, List.append_assoc]
        rfl
      rw [hblocks, List.range'_succ, List.map_cons, List.cons_append]
      exact (ih (index + 1) (blocks ++ [textOf (feed 1)]) fun k => feed (k + 1)).propose

/-- **A tag takes its course**, whatever is fed back: it asks for its parameters, its attributes and
the number of its blocks, then for as many blocks as that says, each in its turn, and ends with the
template, which it fills in with the answers. -/
theorem sequence_proposes_course (t : Templated) (invocation : Invocation)
    (feed : Nat → Option Json) :
    (t.resolver.sequence invocation).ProposesUnder feed (t.course feed) := by
  have hblocks := askBlocks_proposes t ((feed 1).getD (.array [])) ((feed 2).getD (.object [])) 0
    (count feed) [] fun k => feed (k + 3)
  have htexts : [] ++ (List.range (count feed)).map (fun j => textOf (feed (1 + j + 3))) =
      texts feed := by
    rw [List.nil_append]
    refine List.map_congr_left fun j _ => ?_
    rw [show 1 + j + 3 = 4 + j by omega]
  rw [htexts, bindings_eq, ← List.range_eq_range'] at hblocks
  -- Three questions come before those for the blocks.
  refine Sequence.ProposesUnder.propose ?_
  refine Sequence.ProposesUnder.propose ?_
  refine Sequence.ProposesUnder.propose ?_
  exact hblocks

end Templated

end TaggedText
