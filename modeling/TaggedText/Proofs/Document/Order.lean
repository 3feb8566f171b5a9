import TaggedText.Proofs.Document.Truncation
import TaggedText.Proofs.Header.Spans

/-!
# The order of diagnostics

Diagnostics are listed where their parts end.  What is wrong with a header or with the depth of a
block is found where it stands, and comes in the order of the source.  An open block is found at the
end of the source, and the innermost first.

So a list of diagnostics is two lists, one ascending and then one descending (`Diagnostic.Listed`),
each between bounds.  Two such lists cannot be appended in general.  They can where the first has no
open block, or the second is empty; and an open block leaves nothing to the part behind it, which is
what `Listed.append` asks for.  With that the induction over derivations only has to say which
bounds the parts have, and `Document.listed_of_read_error` is the list of a whole source.
-/

namespace TaggedText

/-! ### Lists of diagnostics -/

/-- **Faults in the order of the source**, none of which is an open block, between two bytes. -/
structure Diagnostic.Ascending (low high : Nat) (ds : List Diagnostic) : Prop where
  closed : ∀ d ∈ ds, d.isUnterminated = false
  within : ∀ d ∈ ds, low ≤ d.span.start ∧ d.span.start ≤ high
  sorted : ds.Pairwise fun a b => a.span.start ≤ b.span.start

/-- **Open blocks from the inside out**, behind a byte and all up to another.  All of them but the
innermost are plain. -/
structure Diagnostic.Descending (low high : Nat) (ds : List Diagnostic) : Prop where
  reaches : ∀ d ∈ ds, ∃ start fence, d = .unterminatedBlock ⟨start, high⟩ fence
  within : ∀ d ∈ ds, low ≤ d.span.start
  sorted : ds.Pairwise fun a b => b.span.start < a.span.start
  plain : ∀ d ∈ ds.tail, ∃ span, d = .unterminatedBlock span 0

variable {low low' mid high high' : Nat} {ds es : List Diagnostic} {d : Diagnostic}

namespace Diagnostic.Ascending

theorem nil (low high : Nat) : Ascending low high [] where
  closed := List.forall_mem_nil _
  within := List.forall_mem_nil _
  sorted := .nil

theorem mono (h : Ascending low high ds) (hlow : low' ≤ low) (hhigh : high ≤ high') :
    Ascending low' high' ds where
  closed := h.closed
  within d hd := ⟨Nat.le_trans hlow (h.within d hd).1, Nat.le_trans (h.within d hd).2 hhigh⟩
  sorted := h.sorted

theorem singleton (hclosed : d.isUnterminated = false) (hlow : low ≤ d.span.start)
    (hhigh : d.span.start ≤ high) : Ascending low high [d] where
  closed := List.forall_mem_singleton.mpr hclosed
  within := List.forall_mem_singleton.mpr ⟨hlow, hhigh⟩
  sorted := List.pairwise_singleton _ _

theorem append (h : Ascending low mid ds) (h' : Ascending mid high es) (hlow : low ≤ mid)
    (hhigh : mid ≤ high) : Ascending low high (ds ++ es) where
  closed := List.forall_mem_append.mpr ⟨h.closed, h'.closed⟩
  within := List.forall_mem_append.mpr
    ⟨(h.mono (Nat.le_refl low) hhigh).within, (h'.mono hlow (Nat.le_refl high)).within⟩
  sorted := List.pairwise_append.mpr ⟨h.sorted, h'.sorted, fun d hd e he =>
    Nat.le_trans (h.within d hd).2 (h'.within e he).1⟩

end Diagnostic.Ascending

namespace Diagnostic.Descending

theorem nil (low high : Nat) : Descending low high [] where
  reaches := List.forall_mem_nil _
  within := List.forall_mem_nil _
  sorted := .nil
  plain := List.forall_mem_nil _

theorem mono (h : Descending low high ds) (hlow : low' ≤ low) : Descending low' high ds where
  reaches := h.reaches
  within d hd := Nat.le_trans hlow (h.within d hd)
  sorted := h.sorted
  plain := h.plain

theorem singleton (start high fence : Nat) :
    Descending start high [.unterminatedBlock ⟨start, high⟩ fence] where
  reaches := List.forall_mem_singleton.mpr ⟨start, fence, rfl⟩
  within := List.forall_mem_singleton.mpr (Nat.le_refl start)
  sorted := List.pairwise_singleton _ _
  plain := List.forall_mem_nil _

/-- A plain block around open blocks is listed behind them. -/
theorem concat {start : Nat} (h : Descending low high ds) (hlow : start < low) :
    Descending start high (ds ++ [.unterminatedBlock ⟨start, high⟩ 0]) where
  reaches := List.forall_mem_append.mpr
    ⟨h.reaches, List.forall_mem_singleton.mpr ⟨start, 0, rfl⟩⟩
  within := List.forall_mem_append.mpr
    ⟨(h.mono (Nat.le_of_lt hlow)).within, List.forall_mem_singleton.mpr (Nat.le_refl start)⟩
  sorted := List.pairwise_append.mpr ⟨h.sorted, List.pairwise_singleton _ _, fun d hd =>
    List.forall_mem_singleton.mpr (Nat.lt_of_lt_of_le hlow (h.within d hd))⟩
  plain := by
    cases ds with
    | nil => exact List.forall_mem_nil _
    | cons d ds =>
        rw [List.cons_append, List.tail_cons]
        exact List.forall_mem_append.mpr
          ⟨h.plain, List.forall_mem_singleton.mpr ⟨⟨start, high⟩, rfl⟩⟩

end Diagnostic.Descending

/-! ### Faults, and then open blocks -/

/-- **Faults in the order of the source, and then open blocks** from the inside out. -/
def Diagnostic.Listed (low high : Nat) (ds : List Diagnostic) : Prop :=
  ∃ faults opens, ds = faults ++ opens ∧ Ascending low high faults ∧ Descending low high opens

namespace Diagnostic

theorem Ascending.listed (h : Ascending low high ds) : Listed low high ds :=
  ⟨ds, [], (List.append_nil ds).symm, h, .nil low high⟩

theorem Descending.listed (h : Descending low high ds) : Listed low high ds :=
  ⟨[], ds, rfl, .nil low high, h⟩

namespace Listed

theorem mono (h : Listed low high ds) (hlow : low' ≤ low) : Listed low' high ds := by
  obtain ⟨faults, opens, rfl, hfaults, hopens⟩ := h
  exact ⟨faults, opens, rfl, hfaults.mono hlow (Nat.le_refl high), hopens.mono hlow⟩

/-- Faults without an open block in front of a list. -/
theorem of_ascending (h : Ascending low mid ds) (h' : Listed mid high es) (hlow : low ≤ mid)
    (hhigh : mid ≤ high) : Listed low high (ds ++ es) := by
  obtain ⟨faults, opens, rfl, hfaults, hopens⟩ := h'
  exact ⟨ds ++ faults, opens, (List.append_assoc _ _ _).symm, h.append hfaults hlow hhigh,
    hopens.mono hlow⟩

/-- **One list behind another.**  A part with an open block leaves nothing, so nothing is wrong
behind it. -/
theorem append (h : Listed low mid ds) (h' : Listed mid high es) (hlow : low ≤ mid)
    (hhigh : mid ≤ high) (hopen : ∀ d ∈ ds, d.isUnterminated = true → es = [] ∧ mid = high) :
    Listed low high (ds ++ es) := by
  obtain ⟨faults, opens, rfl, hfaults, hopens⟩ := h
  cases opens with
  | nil =>
      rw [List.append_nil]
      exact .of_ascending hfaults h' hlow hhigh
  | cons d opens =>
      obtain ⟨start, fence, rfl⟩ := hopens.reaches d List.mem_cons_self
      obtain ⟨rfl, rfl⟩ := hopen _ (List.mem_append_right faults List.mem_cons_self) rfl
      rw [List.append_nil]
      exact ⟨faults, _, rfl, hfaults, hopens⟩

/-- A list without an open block. -/
theorem ascending (h : Listed low high ds) (hclosed : ∀ d ∈ ds, d.isUnterminated = false) :
    Ascending low high ds := by
  obtain ⟨faults, opens, rfl, hfaults, hopens⟩ := h
  cases opens with
  | nil =>
      rw [List.append_nil]
      exact hfaults
  | cons d opens =>
      obtain ⟨start, fence, rfl⟩ := hopens.reaches d List.mem_cons_self
      cases hclosed _ (List.mem_append_right faults List.mem_cons_self)

/-- An open block around a part is listed behind what is wrong with the part. -/
theorem unterminated {start : Nat} (h : Listed low high ds) (hlow : start < low)
    (options : ReaderOptions) : Listed start high (ds ++ options.unterminated ⟨start, high⟩ 0) := by
  unfold ReaderOptions.unterminated
  split
  · obtain ⟨faults, opens, rfl, hfaults, hopens⟩ := h
    exact ⟨faults, _, List.append_assoc _ _ _,
      hfaults.mono (Nat.le_of_lt hlow) (Nat.le_refl high), hopens.concat hlow⟩
  · rw [List.append_nil]
    exact h.mono (Nat.le_of_lt hlow)

end Listed

theorem listed_unterminated (options : ReaderOptions) (start high fence : Nat) :
    Listed start high (options.unterminated ⟨start, high⟩ fence) := by
  unfold ReaderOptions.unterminated
  split
  · exact (Descending.singleton start high fence).listed
  · exact (Ascending.nil start high).listed

end Diagnostic

/-! ### Headers -/

theorem Header.ascending_of_read_error {offset : Nat} {text : List Char}
    (h : Header.read offset text = .error ds) :
    Diagnostic.Ascending offset (offset + Text.width text) ds where
  closed := isUnterminated_of_read h
  within _ hd := start_of_read_error h hd
  sorted := sorted_of_read_error h

/-- **The faults of a header** come in the order of the source. -/
theorem Header.ascending_of_readAt {p : Place} {reading : Header.Reading}
    (h : Header.readAt p = reading) :
    Diagnostic.Ascending p.offset reading.next.offset reading.diagnostics := by
  subst h
  unfold readAt
  split
  · split
    · exact .nil _ _
    · next hread => exact ascending_of_read_error hread
  · exact .singleton rfl (Nat.le_refl _) (Nat.le_add_right _ _)

/-! ### Nodes, tags and blocks -/

variable {options : ReaderOptions}

mutual

theorem NodesAt.listed {depth : Nat} {p : Place} {nodes : Passage (List Node)} :
    NodesAt options depth p nodes →
      Diagnostic.Listed p.offset nodes.next.offset nodes.diagnostics
  | .last _ _ => (Diagnostic.Ascending.nil _ _).listed
  | @NodesAt.tag _ _ start p _ _ tag _ htext htag hmore => by
      obtain ⟨gap, hgap⟩ := exists_walk_of_readText htext
      obtain ⟨run, hrun⟩ := htag.exists_walk
      obtain ⟨tail, htail⟩ := hmore.exists_walk
      have hstart : p.offset ≤ start := hgap.offset_le
      have hstop : start + 1 ≤ tag.next.offset := hrun.offset_le
      refine (htag.listed.mono hstart).append hmore.listed (by omega) htail.offset_le ?_
      intro d hd hopen
      obtain rfl := hmore.eq_of_rest_eq_nil (htag.next_rest_eq_nil hopen hd)
      exact ⟨rfl, rfl⟩

theorem TagAt.listed {depth start : Nat} {cs : List Char} {tag : Passage Tag} :
    TagAt options depth start cs tag → Diagnostic.Listed start tag.next.offset tag.diagnostics
  | @TagAt.intro _ _ _ _ reading _ hreading hblocks => by
      have hname := (Place.walk_name start cs).offset_le
      obtain ⟨header, hheader⟩ := Header.exists_walk_readAt hreading
      obtain ⟨run, hrun⟩ := hblocks.exists_walk
      have hfaults := Header.ascending_of_readAt hreading
      have hheaderStart : start ≤ start + 1 + Text.width (cs.takeWhile Text.isNameChar) := by omega
      have hstop := hheader.offset_le
      exact .of_ascending (hfaults.mono hheaderStart (Nat.le_refl _)) hblocks.listed
        (Nat.le_trans hheaderStart hstop) hrun.offset_le

theorem BlocksAt.listed {depth : Nat} {p : Place} {blocks : Passage (List Block)} :
    BlocksAt options depth p blocks →
      Diagnostic.Listed p.offset blocks.next.offset blocks.diagnostics
  | .none _ _ => (Diagnostic.Ascending.nil _ _).listed
  | @BlocksAt.tooDeep _ _ start p inside more hskip _ hmore => by
      have hblanks : p.offset ≤ start := (Place.walk_skipBlanks hskip).offset_le
      obtain ⟨passed, hpassed⟩ := exists_walk_passBlock 0 (start + 1) inside
      obtain ⟨run, hrun⟩ := hmore.exists_walk
      have hpass : start + 1 ≤ (passBlock 0 (start + 1) inside).offset := hpassed.offset_le
      have hfault : Diagnostic.Ascending p.offset (passBlock 0 (start + 1) inside).offset
          [.nestingTooDeep ⟨start, start + 1⟩ options.maxDepth] :=
        .singleton rfl hblanks (Nat.le_of_succ_le hpass)
      exact .of_ascending hfault hmore.listed (by omega) hrun.offset_le
  | .unclosed hskip _ hbody => by
      have hblanks := (Place.walk_skipBlanks hskip).offset_le
      exact (hbody.listed.unterminated (Nat.lt_succ_self _) options).mono hblanks
  | @BlocksAt.plain _ _ start stop p _ _ _ _ faults _ hskip _ hbody hmore => by
      have hblanks : p.offset ≤ start := (Place.walk_skipBlanks hskip).offset_le
      have hlisted : Diagnostic.Listed (start + 1) stop faults := hbody.listed
      obtain ⟨inside, hinside⟩ := hbody.exists_walk
      obtain ⟨run, hrun⟩ := hmore.exists_walk
      have hstop : start + 1 ≤ stop := hinside.offset_le
      -- The body leaves a brace, so no block in it is open.
      have hclosed : ∀ d ∈ faults, d.isUnterminated = false := by
        intro d hd
        refine Bool.eq_false_iff.mpr fun hopen => ?_
        cases hbody.next_rest_eq_nil hopen hd
      exact .of_ascending ((hlisted.ascending hclosed).mono (by omega) (Nat.le_succ stop))
        hmore.listed (by omega) hrun.offset_le
  | @BlocksAt.verbatim _ _ p here verbatim fence more hskip hopens hread hmore => by
      have hblanks : p.offset ≤ here.offset := (Place.walk_skipBlanks hskip).offset_le
      obtain ⟨inside, hinside⟩ := exists_walk_readVerbatim hopens hread
      obtain ⟨run, hrun⟩ := hmore.exists_walk
      cases hclosed : fence.closed with
      | true => exact hmore.listed.mono (Nat.le_trans hblanks hinside.offset_le)
      | false =>
          obtain rfl := hmore.eq_of_rest_eq_nil (next_rest_of_readVerbatim hread hclosed)
          simp only [Bool.false_eq_true, if_false, List.append_nil]
          exact (Diagnostic.listed_unterminated options _ _ fence.width).mono hblanks

end

/-! ### Sources -/

/-- **What is wrong with a source comes in its order, and the open blocks come last.**  They all
reach to the end of the source, the innermost comes first, and all but that one are plain. -/
theorem Document.listed_of_read_error {source : String}
    (h : Document.read options source = .error ds) :
    Diagnostic.Listed 0 source.utf8ByteSize ds := by
  have hnodes := readNodes_at options 0 0 source.toList
  generalize (readNodes options 0 0 source.toList).passage = nodes at hnodes
  have hdiagnostics : ds = nodes.diagnostics := by
    rw [← Document.diagnostics_eq hnodes, Document.diagnostics, h]
  obtain ⟨run, hrun⟩ := hnodes.exists_walk
  have hend : nodes.next.rest = [] := hnodes.next_cases.resolve_right fun hblock => hblock.1 rfl
  have hsize : nodes.next.offset = source.utf8ByteSize := by
    have hrest := hrun.rest_eq
    rw [hend, List.append_nil] at hrest
    rw [hrun.offset_eq, ← hrest, Text.utf8ByteSize_eq]
    exact Nat.zero_add _
  rw [hdiagnostics, ← hsize]
  exact hnodes.listed

/-- Every kind of fault: a character that begins no token, a block that nests too deep, and an open
verbatim block in an open plain one. -/
def mixedFaults : List Diagnostic :=
  [.malformed ⟨3, 4⟩ "Unexpected character '%'" [], .nestingTooDeep ⟨8, 9⟩ 1,
    .unterminatedBlock ⟨10, 14⟩ 2, .unterminatedBlock ⟨5, 14⟩ 0]

theorem Document.read_mixedFaults :
    Document.read ⟨true, 1⟩ "\\a(%)\x7b\\b\x7b\x7d==\x7bx" = .error mixedFaults := by
  have hfence : BlocksAt ⟨true, 1⟩ 1 ⟨10, ['=', '=', '{', 'x']⟩
      ⟨[⟨true, [.text "x"]⟩], [.unterminatedBlock ⟨10, 14⟩ 2], ⟨14, []⟩⟩ :=
    @BlocksAt.verbatim ⟨true, 1⟩ 1 ⟨10, _⟩ _ _ _ ⟨[], [], ⟨14, []⟩⟩ rfl rfl rfl
      (.none (by decide) (by decide))
  have hdeep := @BlocksAt.tooDeep ⟨true, 1⟩ 1 8 ⟨8, ['{', '}', '=', '=', '{', 'x']⟩
    ['}', '=', '=', '{', 'x'] _ rfl (Nat.le_refl 1) hfence
  have hinner := @TagAt.intro ⟨true, 1⟩ 1 6 ['b', '{', '}', '=', '=', '{', 'x'] _ _
    (Header.readAt_of_head _ (by decide) (by decide)) hdeep
  have hfinish : NodesAt ⟨true, 1⟩ 1 ⟨14, []⟩ ⟨[], [], ⟨14, []⟩⟩ :=
    @NodesAt.last _ _ ⟨14, []⟩ ⟨14, []⟩ [] rfl nofun
  have hbody := @NodesAt.tag ⟨true, 1⟩ 1 6 ⟨6, ['\\', 'b', '{', '}', '=', '=', '{', 'x']⟩ [] _ _ _
    rfl hinner hfinish
  have hblocks := @BlocksAt.unclosed ⟨true, 1⟩ 0 5 14
    ⟨5, ['{', '\\', 'b', '{', '}', '=', '=', '{', 'x']⟩ _ _ _ rfl Nat.one_pos hbody
  have hextent : Header.extent ['(', '%', ')'] = .closed ['(', '%', ')'] [] := rfl
  have hextent' : Header.extent ['(', '%', ')', '{', '\\', 'b', '{', '}', '=', '=', '{', 'x'] =
      .closed ['(', '%', ')'] ['{', '\\', 'b', '{', '}', '=', '=', '{', 'x'] := rfl
  have hreading := @Header.readAt_congr _ _ _ _ 2 _ hextent hextent'
  rw [Header.readAt_strayCharacter] at hreading
  have htag := @TagAt.intro ⟨true, 1⟩ 0 0
    ['a', '(', '%', ')', '{', '\\', 'b', '{', '}', '=', '=', '{', 'x'] _ _ hreading hblocks
  have hend : NodesAt ⟨true, 1⟩ 0 ⟨14, []⟩ ⟨[], [], ⟨14, []⟩⟩ :=
    @NodesAt.last _ _ ⟨14, []⟩ ⟨14, []⟩ [] rfl nofun
  exact Document.read_eq (@NodesAt.tag ⟨true, 1⟩ 0 0 ⟨0, _⟩ [] _ _ _ rfl htag hend)

/-- The faults of the header and of the depth come first. -/
theorem Document.listed_of_read_error_mixedFaults :
    Document.read ⟨true, 1⟩ "\\a(%)\x7b\\b\x7b\x7d==\x7bx" = .error mixedFaults ∧
      Diagnostic.Listed 0 14 mixedFaults :=
  ⟨Document.read_mixedFaults, Document.listed_of_read_error Document.read_mixedFaults⟩

end TaggedText
