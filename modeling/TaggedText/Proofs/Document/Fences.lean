import TaggedText.Proofs.Document.Local

/-!
# Where verbatim blocks close

A verbatim block closes at the first brace that has exactly its fence behind it.  Braces with a
narrower or a wider run of `=` behind them are text, and so is everything else.

`ClosingFence` is such a brace, as a property of what is left of the source, and the scan is the
search for the first place that has it: it stops there, or runs to the end (`scanVerbatim_first`).
Conversely text without a closing fence is taken whole, up to the one behind it
(`scanVerbatim_closingFence`), and that is the round trip.  `readVerbatim_opened` says it for every
fence, with the place behind the block and what the block holds.
-/

namespace TaggedText

/-- **A closing fence** between `before` and `after`: a brace, and behind it exactly `width` times
`=`. -/
structure ClosingFence (width : Nat) (cs before after : List Char) : Prop where
  split : cs = before ++ '}' :: (List.replicate width '=' ++ after)
  ends : after.head? ≠ some '='

variable {width : Nat} {c : Char} {cs text before after rest : List Char}

/-! ### Runs of equals signs -/

theorem beq_equals_eq_false (hrest : rest.head? ≠ some '=') (c : Char) (hc : rest.head? = some c) :
    (c == '=') = false := by
  rw [beq_eq_false_iff_ne]
  rintro rfl
  exact hrest hc

theorem fenceWidth_replicate (hrest : rest.head? ≠ some '=') :
    fenceWidth (List.replicate width '=' ++ rest) = width := by
  have htake : (List.replicate width '=' ++ rest).takeWhile (· == '=') = List.replicate width '=' :=
    takeWhile_append_of_head (by simp) (beq_equals_eq_false hrest)
  rw [fenceWidth, htake, List.length_replicate]

theorem afterFence_replicate (hrest : rest.head? ≠ some '=') :
    afterFence (List.replicate width '=' ++ rest) = rest :=
  dropWhile_append_of_head (by simp) (beq_equals_eq_false hrest)

/-- A text is the run of `=` at its front and what follows it. -/
theorem replicate_fenceWidth_append_afterFence (cs : List Char) :
    List.replicate (fenceWidth cs) '=' ++ afterFence cs = cs := by
  have hrun : cs.takeWhile (· == '=') = List.replicate (fenceWidth cs) '=' :=
    List.eq_replicate_of_mem fun c hc => by
      simpa using List.all_eq_true.mp List.all_takeWhile c hc
  rw [← hrun]
  exact List.takeWhile_append_dropWhile

/-! ### Closing fences -/

theorem not_closingFence_nil : ¬ ClosingFence width [] before after := by
  rintro ⟨hsplit, -⟩
  simp at hsplit

/-- A brace with the fence behind it closes, and every other closing fence stands further down. -/
theorem closingFence_cons_iff :
    ClosingFence width (c :: cs) before after ↔
      (before = [] ∧ c = '}' ∧ fenceWidth cs = width ∧ after = afterFence cs) ∨
        ∃ before', before = c :: before' ∧ ClosingFence width cs before' after := by
  constructor
  · rintro ⟨hsplit, hends⟩
    cases before with
    | nil =>
        obtain ⟨rfl, rfl⟩ := List.cons.inj hsplit
        exact .inl ⟨rfl, rfl, fenceWidth_replicate hends, (afterFence_replicate hends).symm⟩
    | cons d before =>
        obtain ⟨rfl, hcs⟩ := List.cons.inj hsplit
        exact .inr ⟨before, rfl, hcs, hends⟩
  · rintro (⟨rfl, rfl, rfl, rfl⟩ | ⟨before, rfl, hsplit, hends⟩)
    · exact ⟨by rw [replicate_fenceWidth_append_afterFence]; rfl, head?_afterFence_ne cs⟩
    · exact ⟨by rw [hsplit]; rfl, hends⟩

/-- A brace closes the block only if a closing fence stands there. -/
theorem not_closes_of_forall (h : ∀ before after, ¬ ClosingFence width (c :: cs) before after) :
    (c == '}' && fenceWidth cs == width) = false := by
  rw [Bool.eq_false_iff]
  intro hclose
  simp only [Bool.and_eq_true, beq_iff_eq] at hclose
  exact h [] _ (closingFence_cons_iff.mpr (.inl ⟨rfl, hclose.1, hclose.2, rfl⟩))

/-! ### Scanning -/

/-- **Text without a closing fence is taken whole**, whatever follows it behind a brace. -/
theorem scanVerbatim_append_brace (h : ∀ before after, ¬ ClosingFence width text before after)
    (taken : List Char) (offset : Nat) (rest : List Char) :
    scanVerbatim width taken offset (text ++ '}' :: rest) =
      scanVerbatim width (text.reverse ++ taken) (offset + Text.width text) ('}' :: rest) := by
  induction text generalizing taken offset with
  | nil => rfl
  | cons c text ih =>
      have htext : ∀ before after, ¬ ClosingFence width text before after :=
        fun before after hfence => h _ _ (closingFence_cons_iff.mpr (.inr ⟨before, rfl, hfence⟩))
      rw [List.cons_append, scanVerbatim, fenceWidth_append_brace, not_closes_of_forall h,
        if_neg Bool.false_ne_true, ih htext]
      simp [Nat.add_assoc]

/-- A closing fence behind such a text closes the block. -/
theorem scanVerbatim_closingFence (h : ∀ before after, ¬ ClosingFence width text before after)
    (hrest : rest.head? ≠ some '=') (taken : List Char) (offset : Nat) :
    scanVerbatim width taken offset (text ++ '}' :: (List.replicate width '=' ++ rest)) =
      ⟨taken.reverse ++ text, true, ⟨offset + Text.width text + 1 + width, rest⟩⟩ := by
  rw [scanVerbatim_append_brace h, scanVerbatim, fenceWidth_replicate hrest,
    afterFence_replicate hrest]
  simp

/-- **The scan stops at the first closing fence**, or else it runs to the end. -/
theorem scanVerbatim_first (width : Nat) (cs : List Char) :
    (∃ before after, ClosingFence width cs before after ∧
        (∀ before' after', ClosingFence width cs before' after' → before.length ≤ before'.length) ∧
        ∀ taken offset, scanVerbatim width taken offset cs =
          ⟨taken.reverse ++ before, true, ⟨offset + Text.width before + 1 + width, after⟩⟩) ∨
      ((∀ before after, ¬ ClosingFence width cs before after) ∧
        ∀ taken offset, scanVerbatim width taken offset cs =
          ⟨taken.reverse ++ cs, false, ⟨offset + Text.width cs, []⟩⟩) := by
  induction cs with
  | nil => exact .inr ⟨fun _ _ => not_closingFence_nil, fun taken offset => by simp [scanVerbatim]⟩
  | cons c cs ih =>
      by_cases hclose : (c == '}' && fenceWidth cs == width) = true
      · obtain ⟨rfl, hwidth⟩ : c = '}' ∧ fenceWidth cs = width := by simpa using hclose
        refine .inl ⟨[], afterFence cs, closingFence_cons_iff.mpr (.inl ⟨rfl, rfl, hwidth, rfl⟩),
          fun _ _ _ => Nat.zero_le _, fun taken offset => ?_⟩
        rw [scanVerbatim, if_pos hclose]
        simp
      · -- The character is text, and every closing fence stands behind it.
        have hbehind : ∀ before after, ClosingFence width (c :: cs) before after →
            ∃ before', before = c :: before' ∧ ClosingFence width cs before' after := by
          intro before after hfence
          refine (closingFence_cons_iff.mp hfence).resolve_left ?_
          rintro ⟨-, hc, hwidth, -⟩
          exact hclose (by simp [hc, hwidth])
        rcases ih with ⟨before, after, hfence, hfirst, hscan⟩ | ⟨hnone, hscan⟩
        · refine .inl ⟨c :: before, after,
            closingFence_cons_iff.mpr (.inr ⟨before, rfl, hfence⟩), ?_, fun taken offset => ?_⟩
          · intro before' after' hfence'
            obtain ⟨before', rfl, hcs⟩ := hbehind _ _ hfence'
            exact Nat.succ_le_succ (hfirst _ _ hcs)
          · rw [scanVerbatim, if_neg hclose, hscan]
            simp [Nat.add_assoc]
        · refine .inr ⟨fun before after hfence => ?_, fun taken offset => ?_⟩
          · obtain ⟨before', -, hcs⟩ := hbehind _ _ hfence
            exact hnone _ _ hcs
          · rw [scanVerbatim, if_neg hclose, hscan]
            simp [Nat.add_assoc]

/-- Text whose block stays open has no closing fence, and all of it is taken. -/
theorem scanVerbatim_open {taken : List Char} {offset : Nat}
    (h : (scanVerbatim width taken offset cs).closed = false) :
    (∀ before after, ¬ ClosingFence width cs before after) ∧
      scanVerbatim width taken offset cs =
        ⟨taken.reverse ++ cs, false, ⟨offset + Text.width cs, []⟩⟩ := by
  rcases scanVerbatim_first width cs with ⟨_, _, -, -, hscan⟩ | ⟨hnone, hscan⟩
  · rw [hscan] at h
    cases h
  · exact ⟨hnone, hscan taken offset⟩

/-! ### Blocks -/

/-- What is read behind a fence and an opening brace. -/
theorem readVerbatim_replicate (width offset : Nat) (cs : List Char) :
    readVerbatim ⟨offset, List.replicate width '=' ++ '{' :: cs⟩ =
      (scanVerbatim width [] (offset + width + 1) cs,
        ⟨width, (scanVerbatim width [] (offset + width + 1) cs).closed⟩) := by
  have hbrace : ('{' :: cs).head? ≠ some '=' := by simp
  have hopening : '{'.utf8Size = 1 := rfl
  rw [readVerbatim_eq (afterFence_replicate hbrace), fenceWidth_replicate hbrace, hopening]

/-- **A verbatim block closes at the first exact fence, and at nothing else.**  Behind `width` times
`=` and a brace, its text reaches to the first closing fence, behind which it ends; without one it is
all that is left, and the block is open.  The body is the text, or nothing if that is empty.  So a
text without a closing fence in it is read back, in front of anything that does not go on with the
fence behind it. -/
theorem readVerbatim_opened (width offset : Nat) (cs : List Char) :
    (readVerbatim ⟨offset, List.replicate width '=' ++ '{' :: cs⟩).2.width = width ∧
      ((∃ before after, ClosingFence width cs before after) →
        ∃ before after, ClosingFence width cs before after ∧
          (∀ before' after', ClosingFence width cs before' after' →
            before.length ≤ before'.length) ∧
          readVerbatim ⟨offset, List.replicate width '=' ++ '{' :: cs⟩ =
            (⟨before, true, ⟨offset + width + 1 + Text.width before + 1 + width, after⟩⟩,
              ⟨width, true⟩)) ∧
      ((∀ before after, ¬ ClosingFence width cs before after) →
        readVerbatim ⟨offset, List.replicate width '=' ++ '{' :: cs⟩ =
          (⟨cs, false, ⟨offset + width + 1 + Text.width cs, []⟩⟩, ⟨width, false⟩)) ∧
      (readVerbatim ⟨offset, List.replicate width '=' ++ '{' :: cs⟩).1.block =
        ⟨true,
          if (readVerbatim ⟨offset, List.replicate width '=' ++ '{' :: cs⟩).1.text = [] then []
          else [.text (String.ofList
            (readVerbatim ⟨offset, List.replicate width '=' ++ '{' :: cs⟩).1.text)]⟩ ∧
      ∀ content rest, (∀ before after, ¬ ClosingFence width content before after) →
        rest.head? ≠ some '=' →
          readVerbatim ⟨offset, List.replicate width '=' ++
              '{' :: (content ++ '}' :: (List.replicate width '=' ++ rest))⟩ =
            (⟨content, true, ⟨offset + width + 1 + Text.width content + 1 + width, rest⟩⟩,
              ⟨width, true⟩) := by
  refine ⟨by rw [readVerbatim_replicate], ?_, ?_, ?_, ?_⟩
  · rintro ⟨before, after, hfence⟩
    rcases scanVerbatim_first width cs with ⟨before, after, hfence, hfirst, hscan⟩ | ⟨hnone, -⟩
    · exact ⟨before, after, hfence, hfirst, by rw [readVerbatim_replicate, hscan]; rfl⟩
    · exact absurd hfence (hnone _ _)
  · intro hnone
    rcases scanVerbatim_first width cs with ⟨before, after, hfence, -⟩ | ⟨-, hscan⟩
    · exact absurd hfence (hnone _ _)
    · rw [readVerbatim_replicate, hscan]
      rfl
  · simp only [Verbatim.block, textBody, List.isEmpty_iff]
  · intro content rest hcontent hrest
    rw [readVerbatim_replicate, scanVerbatim_closingFence hcontent hrest]
    rfl

/-- Narrower and wider runs of `=` are text: without its fence the block is open, and with it the
text is read back. -/
theorem readVerbatim_opened_nearFences :
    (∀ before after, ¬ ClosingFence 2 "ü\x7d=\x7d===\x7b".toList before after) ∧
      readVerbatim ⟨5, List.replicate 2 '=' ++ '\x7b' :: "ü\x7d=\x7d===\x7b".toList⟩ =
        (⟨"ü\x7d=\x7d===\x7b".toList, false, ⟨17, []⟩⟩, ⟨2, false⟩) ∧
      ['\x7d'].head? ≠ some '=' ∧
      readVerbatim ⟨5, List.replicate 2 '=' ++ '\x7b' ::
          ("ü\x7d=\x7d===\x7b".toList ++ '\x7d' :: (List.replicate 2 '=' ++ ['\x7d']))⟩ =
        (⟨"ü\x7d=\x7d===\x7b".toList, true, ⟨20, ['\x7d']⟩⟩, ⟨2, true⟩) := by
  have hcontent : ∀ before after, ¬ ClosingFence 2 "ü\x7d=\x7d===\x7b".toList before after :=
    (@scanVerbatim_open 2 _ [] 0 (by decide)).1
  have hrest : ['\x7d'].head? ≠ some '=' := by decide
  obtain ⟨-, -, hopen, -, hclosed⟩ := readVerbatim_opened 2 5 "ü\x7d=\x7d===\x7b".toList
  exact ⟨hcontent, hopen hcontent, hrest, hclosed _ _ hcontent hrest⟩

end TaggedText
