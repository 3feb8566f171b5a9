import TaggedText.Proofs.Document.Local
import TaggedText.Proofs.Document.Shift
import TaggedText.Proofs.Document.Tags

/-!
# Tags by themselves

A tag says the same alone as it does in its document (`Document.read_slice`).  Three facts are
behind this, each with a file of its own: a tag ends where its span ends, so the slice is the tag
and what is cut off goes on with no part of it; it does not depend on the blocks around it; and only
the places in it depend on what stands before it.
-/

namespace TaggedText

variable {options : ReaderOptions}

theorem TagAt.name_eq {depth start : Nat} {cs : List Char} {tag : Passage Tag}
    (h : TagAt options depth start cs tag) :
    tag.value.name = String.ofList (cs.takeWhile Text.isNameChar) := by
  cases h
  rfl

/-- **A tag without faults is read alike by itself**, up to the places in it. -/
theorem TagAt.alone {depth start : Nat} {cs run : List Char} {t : Tag} {next : Place}
    (h : TagAt options depth start cs ⟨t, [], next⟩) (hwalk : Place.Walk run ⟨start + 1, cs⟩ next) :
    ∃ tag stop, TagAt options 0 0 run ⟨tag, [], ⟨stop, []⟩⟩ ∧ tag.shift start = t := by
  have hcut : Recut next.rest [] next.rest [] := ⟨[], rfl, rfl⟩
  have hcutTag := h.recut .nil (.inl rfl) nofun hwalk hcut
  have hraised := hcutTag.raise nofun (Nat.zero_le depth)
  rw [List.append_nil] at hraised
  have halone := readTag_at options 0 0 run
  generalize (readTag options 0 0 run).passage = part at halone
  obtain ⟨tag, faults, stop, rest⟩ := part
  have hshift := halone.shift start
  rw [Nat.zero_add] at hshift
  obtain ⟨hvalue, hfaults, hnext⟩ := Passage.mk.inj (hshift.unique hraised)
  obtain rfl : faults = [] := List.map_eq_nil_iff.mp hfaults
  obtain rfl : rest = [] := congrArg Place.rest hnext
  exact ⟨tag, stop, halone, hvalue⟩

/-- A tag that ends with its source is the document. -/
theorem Document.read_of_tag {run : List Char} {tag : Tag} {stop : Nat}
    (hstops : StopsText false ('\\' :: run)) (h : TagAt options 0 0 run ⟨tag, [], ⟨stop, []⟩⟩) :
    Document.read options (.ofList ('\\' :: run)) = .ok ⟨[.tag tag]⟩ := by
  have hfinish : NodesAt options 0 ⟨stop, []⟩ ⟨[], [], ⟨stop, []⟩⟩ := .last rfl nofun
  have hnodes : NodesAt options 0 ⟨0, '\\' :: run⟩ ⟨[.tag tag], [], ⟨stop, []⟩⟩ :=
    @NodesAt.tag options 0 0 ⟨0, '\\' :: run⟩ [] run _ _ (hstops.readText [] 0) h hfinish
  rw [← @String.toList_ofList ('\\' :: run)] at hnodes
  exact Document.read_eq_ok_iff.mpr ⟨_, hnodes⟩

/-! ### A document with a nested tag -/

/-- A tag in a block, with a blank between it and the end of the block. -/
def innerTag : Tag :=
  { name := "b", span := ⟨5, 7⟩ }

/-- A tag around it. -/
def outerTag : Tag :=
  { name := "a", blocks := [⟨false, [.tag innerTag, .text " "]⟩], span := ⟨1, 9⟩ }

theorem Document.read_nestedTags :
    Document.read {} "x\\a \x7b\\b \x7dy" = .ok ⟨[.text "x", .tag outerTag, .text "y"]⟩ := by
  have hinner : TagAt {} 1 5 ['b', ' ', '}', 'y'] ⟨innerTag, [], ⟨7, [' ', '}', 'y']⟩⟩ :=
    @TagAt.intro {} 1 5 ['b', ' ', '}', 'y'] ⟨{}, [], ⟨7, [' ', '}', 'y']⟩⟩
      ⟨[], [], ⟨7, [' ', '}', 'y']⟩⟩ (Header.readAt_of_head _ (by decide) (by decide))
      (.none (by decide) (by decide))
  have hbody : NodesAt {} 1 ⟨5, ['\\', 'b', ' ', '}', 'y']⟩
      ⟨[.tag innerTag, .text " "], [], ⟨8, ['}', 'y']⟩⟩ :=
    @NodesAt.tag {} 1 5 ⟨5, ['\\', 'b', ' ', '}', 'y']⟩ [] ['b', ' ', '}', 'y'] _ _ rfl hinner
      (@NodesAt.last {} 1 ⟨7, [' ', '}', 'y']⟩ ⟨8, ['}', 'y']⟩ [' '] rfl (by decide))
  have hblocks : BlocksAt {} 0 ⟨3, [' ', '{', '\\', 'b', ' ', '}', 'y']⟩
      ⟨outerTag.blocks, [], ⟨9, ['y']⟩⟩ :=
    @BlocksAt.plain {} 0 4 8 ⟨3, [' ', '{', '\\', 'b', ' ', '}', 'y']⟩ _ ['y'] '}' _ [] ⟨[], [], _⟩
      rfl (by decide) hbody (.none (by decide) (by decide))
  have houter : TagAt {} 0 1 ['a', ' ', '{', '\\', 'b', ' ', '}', 'y'] ⟨outerTag, [], ⟨9, ['y']⟩⟩ :=
    @TagAt.intro {} 0 1 ['a', ' ', '{', '\\', 'b', ' ', '}', 'y']
      ⟨{}, [], ⟨3, [' ', '{', '\\', 'b', ' ', '}', 'y']⟩⟩ _
      (Header.readAt_of_head _ (by decide) (by decide)) hblocks
  have hfinish : NodesAt {} 0 ⟨9, ['y']⟩ ⟨[.text "y"], [], ⟨10, []⟩⟩ :=
    @NodesAt.last {} 0 ⟨9, ['y']⟩ ⟨10, []⟩ ['y'] rfl (by decide)
  exact Document.read_eq_ok_iff.mpr ⟨⟨10, []⟩,
    @NodesAt.tag {} 0 1 ⟨0, _⟩ ['x'] _ _ _ rfl houter hfinish⟩

/-! ### Slices -/

/-- **The span of a tag, cut out of the source, is read as that tag.**  It begins with a backslash
and the name of the tag. -/
theorem Document.read_slice {source : String} {d : Document} {t : Tag}
    (h : Document.read options source = .ok d) (ht : t ∈ d.tags) :
    ∃ before slice after : String, source = before ++ slice ++ after ∧
      t.span = ⟨Text.width before.toList, Text.width (before ++ slice).toList⟩ ∧
      (∃ behind, slice = "\\" ++ t.name ++ behind) ∧
      ∃ tag, Document.read options slice = .ok ⟨[.tag tag]⟩ ∧
        tag.shift (Text.width before.toList) = t := by
  obtain ⟨hbefore, hstart, htag⟩ := Document.tagBehind_of_read h ht
  rename_i before rest depth start c next
  obtain ⟨run, hrun⟩ := htag.exists_walk
  obtain ⟨behind, hsplit⟩ := htag.exists_run_eq hrun
  obtain ⟨tag, stop, halone, hshift⟩ := htag.alone hrun
  have hbackslash : '\\'.utf8Size = 1 := rfl
  have hoffset : start = Text.width before := by simpa using hbefore.offset_eq
  have hrest : c :: rest = run ++ next.rest := hrun.rest_eq
  refine ⟨.ofList before, .ofList ('\\' :: run), .ofList next.rest, ?_, ?_, ⟨.ofList behind, ?_⟩,
    tag, Document.read_of_tag ?_ halone, ?_⟩
  · rw [← String.toList_inj]
    simpa [← hrest] using hbefore.rest_eq
  · rw [show t.span = ⟨start, next.offset⟩ from htag.span_eq, hrun.offset_eq, hoffset]
    simp [hbackslash, Nat.add_assoc]
  · rw [show t.name = _ from htag.name_eq, hsplit, ← String.toList_inj]
    simp
  · simpa using htag.stopsText_append hrun (.tag hstart) []
  · simpa [← hoffset] using hshift

/-- The blank behind a tag is no part of it. -/
theorem Document.read_slice_innerTag :
    Document.read {} "x\\a \x7b\\b \x7dy" = .ok ⟨[.text "x", .tag outerTag, .text "y"]⟩ ∧
      innerTag ∈ (Document.mk [.text "x", .tag outerTag, .text "y"]).tags ∧
      ∃ before slice after : String, "x\\a \x7b\\b \x7dy" = before ++ slice ++ after ∧
        innerTag.span = ⟨Text.width before.toList, Text.width (before ++ slice).toList⟩ ∧
        (∃ behind, slice = "\\" ++ innerTag.name ++ behind) ∧
        ∃ tag, Document.read {} slice = .ok ⟨[.tag tag]⟩ ∧
          tag.shift (Text.width before.toList) = innerTag := by
  have hmem : innerTag ∈ (Document.mk [.text "x", .tag outerTag, .text "y"]).tags :=
    .tail _ (.head _)
  exact ⟨Document.read_nestedTags, hmem, Document.read_slice Document.read_nestedTags hmem⟩

end TaggedText
