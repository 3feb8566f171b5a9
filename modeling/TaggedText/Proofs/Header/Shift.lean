import TaggedText.Header.Extent

/-!
# Headers further down

A header says the same wherever it stands.  Only the ranges in its diagnostics move with it.

Nothing in the reading of a header looks at a position, it is only handed through.  So each part of
the reading commutes with the shift, from the pieces of a text to the header at a place of a source,
and `readAt_shift` is the last of a row of equations of the same form.
-/

namespace TaggedText

/-- The same place in a source that has `n` more bytes in front. -/
def Place.shift (n : Nat) (p : Place) : Place :=
  ⟨p.offset + n, p.rest⟩

@[simp] theorem Place.shift_rest (n : Nat) (p : Place) : (p.shift n).rest = p.rest := rfl

@[simp] theorem Place.shift_offset (n : Nat) (p : Place) : (p.shift n).offset = p.offset + n := rfl

theorem Place.shift_pass (n : Nat) (p : Place) (run rest : List Char) :
    (p.shift n).pass run rest = (p.pass run rest).shift n :=
  congrArg (Place.mk · rest) (Nat.add_right_comm _ _ _)

theorem Span.shift_mk (n start stop : Nat) :
    (Span.mk start stop).shift n = ⟨start + n, stop + n⟩ := rfl

@[simp] theorem Diagnostic.span_shift (n : Nat) (d : Diagnostic) :
    (d.shift n).span = d.span.shift n := by
  cases d <;> rfl

namespace Header

/-! ### Pieces -/

/-- The same piece, `n` bytes further down. -/
def Piece.shift (n : Nat) (p : Piece) : Piece :=
  { p with span := p.span.shift n }

theorem pieces_shift (n offset : Nat) (cs : List Char) :
    pieces (offset + n) cs = (pieces offset cs).map (Piece.shift n) := by
  fun_induction pieces offset cs with
  | case1 offset => rw [pieces, List.map_nil]
  | case2 offset c rest hgap ih => rw [pieces, if_pos hgap, ← ih, Nat.add_right_comm]
  | case3 offset c rest hgap found stop ih =>
      rw [pieces, if_neg hgap]
      simp only [List.map_cons, ← ih, Piece.shift, Span.shift_mk, Nat.add_right_comm offset n]
      rfl

/-- The same token, `n` bytes further down. -/
def shiftToken (n : Nat) (t : Token × Span) : Token × Span :=
  (t.1, t.2.shift n)

theorem tokens_map_shift (n : Nat) (ps : List Piece) :
    tokens (ps.map (Piece.shift n)) = (tokens ps).map (shiftToken n) := by
  simp only [tokens, List.filterMap_map, List.map_filterMap]
  congr 1
  funext p
  cases h : p.token? <;> simp [Piece.shift, shiftToken, h]

theorem invalid_map_shift (n : Nat) (ps : List Piece) :
    invalid (ps.map (Piece.shift n)) = (invalid ps).map (Piece.shift n) := by
  simp only [invalid, List.filter_map]
  rfl

/-! ### Tokens -/

/-- The same complaint, `n` bytes further down. -/
def Unexpected.shift (n : Nat) (u : Unexpected) : Unexpected :=
  { u with found := u.found.map (shiftToken n) }

theorem readTokens_shift (n : Nat) (stage : Stage) (ts : List (Token × Span)) :
    readTokens stage (ts.map (shiftToken n)) =
      (readTokens stage ts).mapError (Unexpected.shift n) := by
  induction ts generalizing stage with
  | nil =>
      rw [List.map_nil, readTokens]
      split <;> rfl
  | cons t ts ih =>
      obtain ⟨token, span⟩ := t
      rw [List.map_cons, shiftToken, readTokens, readTokens]
      cases stage.step token with
      | none => rfl
      | some next =>
          obtain ⟨next, add⟩ := next
          simp only [ih]
          cases readTokens next ts <;> rfl

theorem Unexpected.diagnostic_shift (n : Nat) (u : Unexpected) (stop lastToken : Nat) :
    (u.shift n).diagnostic (stop + n) (lastToken + n) = (u.diagnostic stop lastToken).shift n := by
  obtain ⟨found, expected⟩ := u
  cases found <;> rfl

/-! ### Headers -/

/-- Diagnostics are put in order by their places, and keep that order when they all move. -/
theorem mergeSort_map_shift (n : Nat) (ds : List Diagnostic) :
    (ds.map (Diagnostic.shift n)).mergeSort (fun a b => a.span.start ≤ b.span.start) =
      (ds.mergeSort fun a b => a.span.start ≤ b.span.start).map (Diagnostic.shift n) := by
  refine (List.map_mergeSort ?_).symm
  intro a _ b _
  simp [Span.shift]

/-- **A header says the same wherever it stands.** -/
theorem read_shift (n offset : Nat) (text : List Char) :
    read (offset + n) text = (read offset text).mapError (List.map (Diagnostic.shift n)) := by
  have hstray : ((invalid (pieces offset text)).map (Piece.shift n)).map Piece.diagnostic =
      ((invalid (pieces offset text)).map Piece.diagnostic).map (Diagnostic.shift n) := by
    simp only [List.map_map]
    rfl
  unfold read
  simp only [pieces_shift, tokens_map_shift, invalid_map_shift, readTokens_shift, hstray]
  cases readTokens .start (tokens (pieces offset text)) with
  | ok h =>
      have hmap : (Except.ok h : Except Unexpected Header).mapError (Unexpected.shift n) = .ok h :=
        rfl
      simp only [hmap, List.isEmpty_map]
      split <;> rfl
  | error u =>
      have hmap : (Except.error u : Except Unexpected Header).mapError (Unexpected.shift n) =
          .error (u.shift n) := rfl
      have hlast : (((tokens (pieces offset text)).map (shiftToken n)).getLast?.map
            fun t => t.2.stop).getD (offset + Text.width text + n) =
          ((tokens (pieces offset text)).getLast?.map
            fun t => t.2.stop).getD (offset + Text.width text) + n := by
        rw [List.getLast?_map]
        cases (tokens (pieces offset text)).getLast? <;> rfl
      simp only [hmap, Nat.add_right_comm offset n, hlast, Unexpected.diagnostic_shift]
      rw [← List.map_singleton (f := Diagnostic.shift n), ← List.map_append, mergeSort_map_shift]
      rfl

/-- The same reading, `n` bytes further down. -/
def Reading.shift (n : Nat) (r : Reading) : Reading :=
  ⟨r.header, r.diagnostics.map (Diagnostic.shift n), r.next.shift n⟩

theorem readAt_shift (n : Nat) (p : Place) : readAt (p.shift n) = (readAt p).shift n := by
  unfold readAt
  simp only [Place.shift_rest, Place.shift_offset, Place.shift_pass]
  cases extent p.rest with
  | closed text rest =>
      simp only [read_shift]
      cases read p.offset text <;> rfl
  | unclosed close => rfl

end Header

end TaggedText
