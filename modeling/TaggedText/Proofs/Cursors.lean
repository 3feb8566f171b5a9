import Mathlib.Logic.Function.Basic
import TaggedText.Proofs.Header.Spans

/-!
# Cursors stay between characters

A cursor counts the bytes it has gone by and moves by characters, which take up to four bytes each.
However copies of it are made and moved about, it stands between two characters of its buffer, and
what it has left is what its buffer holds from there on.

`Cursor.Over` is this invariant for one cursor: it stands at a place of the buffer.  An operation
acts on a state in which cursors have names, changes the one it is about and leaves the others
alone, so `Over.apply` is a matter of one or two cursors and `Over.run` an induction over the
operations.

`Over.takeUntil_append_rest` is the law of two cursors over one buffer: what lies between them, and
what is left behind the later one, is what the earlier one has left.
`Cursor.run_between_characters` puts all of this together for the cursors of a run.
-/

namespace TaggedText

/-! ### Places of a buffer -/

namespace Place

variable {buffer : List Char} {p q : Place}

theorem of_start (buffer : List Char) : Of buffer ⟨0, buffer⟩ :=
  ⟨[], rfl, rfl⟩

/-- **Walking over characters leads from places of a buffer to places of the buffer.** -/
theorem Of.advance (h : p.Of buffer) (n : Nat) : (p.advance n).Of buffer := by
  fun_induction Place.advance n p with
  | case1 => exact h
  | case2 => exact h
  | case3 n offset c rest ih =>
      obtain ⟨before, hbuffer, hoffset⟩ := h
      refine ih ⟨before ++ [c], ?_, ?_⟩
      · rw [hbuffer, List.append_assoc]
        rfl
      · simp [← hoffset]

theorem advance_advance (m n : Nat) (p : Place) : (p.advance m).advance n = p.advance (m + n) := by
  fun_induction Place.advance m p with
  | case1 p => rw [Nat.zero_add]
  | case2 m offset =>
      cases n with
      | zero => rfl
      | succ n => rfl
  | case3 m offset c rest ih =>
      rw [ih, Nat.succ_add]
      rfl

/-- Of two places of a buffer, the one that lies behind is reached from the other. -/
theorem Of.exists_between (hp : p.Of buffer) (hq : q.Of buffer) (hle : p.offset ≤ q.offset) :
    ∃ between, p.rest = between ++ q.rest ∧ q.offset = p.offset + Text.width between := by
  obtain ⟨before, hbuffer, hoffset⟩ := hp
  obtain ⟨before', hbuffer', hoffset'⟩ := hq
  rcases List.append_eq_append_iff.mp (hbuffer.symm.trans hbuffer') with
    ⟨between, rfl, hrest⟩ | ⟨between, rfl, hrest⟩
  · exact ⟨between, hrest, by rw [hoffset', hoffset, Text.width_append]⟩
  · -- What lies between them is then nothing.
    have hwidth := Text.width_append before' between
    have hnil : between = [] := by
      refine Classical.byContradiction fun hne => ?_
      have := Text.width_pos hne
      omega
    subst hnil
    exact ⟨[], by simpa using hrest.symm, by simp_all⟩

end Place

namespace Cursor

variable {buffer : String} {a b c : Cursor}

/-- **A cursor over a buffer** stands at a place of it. -/
structure Over (buffer : String) (c : Cursor) : Prop where
  buffer_eq : c.buffer = buffer
  place_of : c.place.Of buffer.toList

/-! ### What a cursor has left -/

theorem Over.exists_before (h : Over buffer c) :
    ∃ before : String, before.utf8ByteSize = c.index ∧ buffer = before ++ c.rest := by
  obtain ⟨before, hbuffer, hoffset⟩ := h.place_of
  refine ⟨String.ofList before, ?_, ?_⟩
  · rw [Text.utf8ByteSize_ofList]
    exact hoffset.symm
  · rw [rest, ← String.ofList_append, ← hbuffer, String.ofList_toList]

/-- A cursor stands between two characters, or at an end of its buffer. -/
theorem Over.isValid (h : Over buffer c) : String.Pos.Raw.IsValid buffer ⟨c.index⟩ := by
  obtain ⟨before, hindex, hbuffer⟩ := h.exists_before
  exact String.Pos.Raw.isValid_iff_exists_append.mpr
    ⟨before, c.rest, hbuffer, String.Pos.Raw.ext hindex.symm⟩

theorem startsWith_iff (c : Cursor) (s : String) :
    c.startsWith s = true ↔ ∃ behind, c.rest = s ++ behind := by
  rw [startsWith, List.isPrefixOf_iff_prefix]
  constructor
  · rintro ⟨behind, hbehind⟩
    exact ⟨String.ofList behind,
      by rw [rest, ← hbehind, String.ofList_append, String.ofList_toList]⟩
  · rintro ⟨behind, hbehind⟩
    have hlist := congrArg String.toList hbehind
    rw [rest, String.toList_ofList, String.toList_append] at hlist
    exact ⟨behind.toList, hlist.symm⟩

theorem peek_eq (c : Cursor) : c.peek = c.rest.toList.head? := by
  rw [rest, String.toList_ofList]
  rfl

/-! ### One cursor -/

theorem over_start (buffer : String) : Over buffer (start buffer) :=
  ⟨rfl, Place.of_start _⟩

theorem Over.next (h : Over buffer c) (n : Nat) : Over buffer (c.next n) :=
  ⟨h.buffer_eq, h.place_of.advance n⟩

theorem Over.moveTo (h : Over buffer a) (h' : Over buffer b) : Over buffer (a.moveTo b) :=
  ⟨h.buffer_eq, h'.place_of⟩

/-- **Walking twice is walking once**, over all the characters. -/
theorem next_next (c : Cursor) (m n : Nat) : (c.next m).next n = c.next (m + n) :=
  congrArg (Cursor.mk c.buffer) (Place.advance_advance m n c.place)

/-! ### Two cursors -/

/-- **What lies between two cursors, and then what lies behind the second**, is what lies behind
the first. -/
theorem Over.takeUntil_append_rest (ha : Over buffer a) (hb : Over buffer b)
    (hle : a.index ≤ b.index) : a.takeUntil b ++ b.rest = a.rest := by
  obtain ⟨between, hrest, hoffset⟩ := ha.place_of.exists_between hb.place_of hle
  have hwidth : b.index - a.index = Text.width between := by
    show b.place.offset - a.place.offset = _
    omega
  rw [takeUntil, hwidth, hrest, Text.takeBytes_width_append, rest, ← String.ofList_append, ← hrest,
    rest]

/-- Nothing lies between a cursor and one in front of it. -/
theorem takeUntil_of_le (h : b.index ≤ a.index) : a.takeUntil b = "" := by
  have hnone : Text.takeBytes 0 a.place.rest = [] := Text.takeBytes_width_append [] a.place.rest
  rw [takeUntil, Nat.sub_eq_zero_of_le h, hnone]

/-! ### Cursors by their names -/

/-- **What is done to cursors**, each of which has a name. -/
inductive Operation (ι : Type*) where
  /-- `target` becomes a copy of `source`. -/
  | copy (source target : ι)
  /-- The cursor walks over `n` characters. -/
  | next (name : ι) (n : Nat)
  /-- The cursor takes over the position of another. -/
  | moveTo (name other : ι)

section

variable {ι : Type*}

/-- The cursor that an operation is about. -/
def Operation.acting : Operation ι → ι
  | copy _ target => target
  | next name _ => name
  | moveTo name _ => name

variable [DecidableEq ι] {cursors : ι → Cursor}

/-- The cursors after an operation. -/
def Operation.apply (cursors : ι → Cursor) : Operation ι → ι → Cursor
  | copy source target => Function.update cursors target (cursors source)
  | next name n => Function.update cursors name ((cursors name).next n)
  | moveTo name other => Function.update cursors name ((cursors name).moveTo (cursors other))

/-- The cursors after all of some operations, where each begins at the start of the buffer. -/
def run (buffer : String) (operations : List (Operation ι)) : ι → Cursor :=
  operations.foldl Operation.apply fun _ => start buffer

theorem apply_of_ne (cursors : ι → Cursor) {operation : Operation ι} {i : ι}
    (h : i ≠ operation.acting) : operation.apply cursors i = cursors i := by
  cases operation with
  | copy source target => exact Function.update_of_ne h _ _
  | next name n => exact Function.update_of_ne h _ _
  | moveTo name other => exact Function.update_of_ne h _ _

theorem over_update (h : ∀ i, Over buffer (cursors i)) (name : ι) (hc : Over buffer c) (i : ι) :
    Over buffer (Function.update cursors name c i) := by
  by_cases hi : i = name
  · subst hi
    rwa [Function.update_self]
  · rw [Function.update_of_ne hi]
    exact h i

/-- **An operation keeps cursors over their buffer.** -/
theorem Over.apply (h : ∀ i, Over buffer (cursors i)) (operation : Operation ι) (i : ι) :
    Over buffer (operation.apply cursors i) := by
  cases operation with
  | copy source target => exact over_update h target (h source) i
  | next name n => exact over_update h name ((h name).next n) i
  | moveTo name other => exact over_update h name ((h name).moveTo (h other)) i

/-- **So do any number of operations.** -/
theorem Over.run (buffer : String) (operations : List (Operation ι)) (i : ι) :
    Over buffer (run buffer operations i) := by
  have hfold : ∀ cursors : ι → Cursor, (∀ i, Over buffer (cursors i)) →
      ∀ i, Over buffer (operations.foldl Operation.apply cursors i) := by
    induction operations with
    | nil =>
        intro cursors h
        exact h
    | cons operation operations ih =>
        intro cursors h
        exact ih _ (Over.apply h operation)
  exact hfold _ (fun _ => over_start buffer) i

/-- **However cursors over a buffer are copied and moved**, each of them stands between two
characters of the buffer and has left what the buffer holds from there on; an operation changes the
cursor it is about and no other; walking twice is walking once; and what lies between two cursors is
what has to be put in front of the rest of the second to have the rest of the first. -/
theorem run_between_characters (buffer : String) (operations : List (Operation ι)) :
    (∀ i, let c := run buffer operations i
      c.buffer = buffer ∧ c.index ≤ buffer.utf8ByteSize ∧
        String.Pos.Raw.IsValid buffer ⟨c.index⟩ ∧
        (∃ before : String, before.utf8ByteSize = c.index ∧ buffer = before ++ c.rest) ∧
        c.peek = c.rest.toList.head? ∧
        ∀ s, c.startsWith s = true ↔ ∃ behind, c.rest = s ++ behind) ∧
      (∀ (operation : Operation ι) (i : ι), i ≠ operation.acting →
        operation.apply (run buffer operations) i = run buffer operations i) ∧
      (∀ (i : ι) (m n : Nat), ((run buffer operations i).next m).next n =
        (run buffer operations i).next (m + n)) ∧
      ∀ i j, let a := run buffer operations i
        let b := run buffer operations j
        (a.index ≤ b.index → a.takeUntil b ++ b.rest = a.rest) ∧
          (b.index < a.index → a.takeUntil b = "") := by
  have hover := @Over.run ι _ buffer operations
  refine ⟨fun i => ?_, fun operation i hi => apply_of_ne _ hi, fun i m n => next_next _ m n,
    fun i j => ⟨(hover i).takeUntil_append_rest (hover j),
      fun hlt => takeUntil_of_le (Nat.le_of_lt hlt)⟩⟩
  exact ⟨(hover i).buffer_eq, (hover i).isValid.le_utf8ByteSize, (hover i).isValid,
    (hover i).exists_before, peek_eq _, startsWith_iff _⟩

/-- The first character takes two bytes, and one of two cursors is left behind. -/
theorem run_between_characters_wide :
    let cursors := run "éab" [.next true 2, .copy true false, .next false 1]
    (cursors true).index = 3 ∧ (cursors false).index = 4 ∧
      (cursors true).takeUntil (cursors false) ++ (cursors false).rest = (cursors true).rest ∧
      (cursors false).takeUntil (cursors true) = "" := by
  obtain ⟨-, -, -, hbetween⟩ := run_between_characters "éab"
    ([.next true 2, .copy true false, .next false 1] : List (Operation Bool))
  refine ⟨by decide, by decide, ?_, ?_⟩
  · exact (hbetween true false).1 (by decide)
  · exact (hbetween false true).2 (by decide)

end

end Cursor

end TaggedText
