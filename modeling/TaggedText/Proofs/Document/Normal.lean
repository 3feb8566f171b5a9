import TaggedText.Proofs.Document.Places
import TaggedText.Proofs.Document.Written
import TaggedText.Proofs.Header.Accepted
import TaggedText.Proofs.Header.RoundTrip

/-!
# Accepted documents are in normal form

Text is only put between tags, a tag is only read where a name starts, and a verbatim block is one
text.  So what is read is in normal form, whatever is wrong with the source, and could have been
written.

The one condition that is not local is that no two texts stand side by side.  A run of text reaches
up to a tag or to the end of the nodes, so a tag keeps the text in front of it from the text behind
it; and that the run stopped there is how one knows that a name starts.  For headers it is known
already what can be read.  `Document.isNormal_of_read` is the case of accepted documents.
-/

namespace TaggedText

variable {options : ReaderOptions}

/-! ### Text between tags -/

theorem isNormal_of_mem_textBody {text : List Char} {node : Node} (h : node ∈ textBody text) :
    node.IsNormal := by
  unfold textBody at h
  split at h
  · cases h
  · next hne =>
      rw [List.mem_singleton] at h
      subst h
      intro hempty
      rw [← String.toList_inj, String.toList_ofList] at hempty
      exact hne (List.isEmpty_iff.mpr hempty)

/-- The body of a text is nothing or the text. -/
theorem textBody_cases (text : List Char) :
    textBody text = [] ∨ ∃ value, textBody text = [.text value] := by
  unfold textBody
  split
  · exact .inl rfl
  · exact .inr ⟨_, rfl⟩

theorem nodesNormal_textBody (text : List Char) : nodesNormal (textBody text) := by
  have hnormal := @isNormal_of_mem_textBody text
  rcases textBody_cases text with hbody | ⟨value, hbody⟩
  · rw [hbody]
    trivial
  · rw [hbody] at hnormal ⊢
    exact ⟨hnormal List.mem_cons_self, nofun, trivial⟩

/-- A tag keeps the text in front of it from the text behind it. -/
theorem nodesNormal_textBody_append_tag {text : List Char} {tag : Tag} {nodes : List Node}
    (htag : tag.IsNormal) (hnodes : nodesNormal nodes) :
    nodesNormal (textBody text ++ .tag tag :: nodes) := by
  have hbehind : nodesNormal (.tag tag :: nodes) := ⟨htag, nofun, hnodes⟩
  have hnormal := @isNormal_of_mem_textBody text
  rcases textBody_cases text with hbody | ⟨value, hbody⟩
  · rwa [hbody]
  · rw [hbody] at hnormal ⊢
    refine ⟨hnormal List.mem_cons_self, ?_, hbehind⟩
    rintro - next ⟨⟩
    rfl

/-! ### Whatever is read -/

mutual

theorem NodesAt.isNormal {depth : Nat} {p : Place} {nodes : Passage (List Node)} :
    NodesAt options depth p nodes → nodesNormal nodes.value
  | .last _ _ => nodesNormal_textBody _
  | .tag htext htag hmore =>
      nodesNormal_textBody_append_tag (htag.isNormal (stopsText_of_readText htext)) hmore.isNormal

theorem TagAt.isNormal {inBlock : Bool} {depth start : Nat} {cs : List Char} {tag : Passage Tag} :
    TagAt options depth start cs tag → StopsText inBlock ('\\' :: cs) → tag.value.IsNormal
  | .intro hreading hblocks, hstops => by
      -- The text in front of the tag has ended because a name starts here.
      obtain ⟨c, rest, rfl, hstart⟩ := stopsText_backslash hstops
      refine ⟨?_, ?_, hblocks.isNormal⟩
      · rw [String.toList_ofList, List.takeWhile_cons,
          if_pos (Text.isNameChar_of_isNameStart hstart), Text.isName, hstart, List.all_takeWhile]
        rfl
      · exact hreading ▸ Header.isNormal_readAt _

theorem BlocksAt.isNormal {depth : Nat} {p : Place} {blocks : Passage (List Block)} :
    BlocksAt options depth p blocks → blocksNormal blocks.value
  | .none _ _ => trivial
  | .tooDeep _ _ hmore => ⟨nofun, trivial, hmore.isNormal⟩
  | .unclosed _ _ hbody => ⟨nofun, hbody.isNormal, trivial⟩
  | .plain _ _ hbody hmore => ⟨nofun, hbody.isNormal, hmore.isNormal⟩
  | .verbatim _ _ _ hmore =>
      ⟨fun _ => textBody_cases _, nodesNormal_textBody _, hmore.isNormal⟩

end

/-! ### Accepted documents -/

/-- **Every accepted document is in normal form.**  At every depth no text is empty and no text
follows a text, names are names, and a verbatim block is empty or one text. -/
theorem Document.isNormal_of_read {source : String} {d : Document}
    (h : Document.read options source = .ok d) : d.IsNormal := by
  obtain ⟨next, hnodes⟩ := Document.read_eq_ok_iff.mp h
  exact hnodes.isNormal

/-- A tag with a header, an empty verbatim block, and a plain block that the source cuts off behind
an escaped brace. -/
def cutOffTag : Tag :=
  { name := "x"
    params := [.word "y"]
    attributes := [⟨"k", .bool true⟩]
    blocks := [⟨true, []⟩, ⟨false, [.text "\x7d"]⟩]
    span := ⟨0, 21⟩ }

/-- The comma behind the parameter is one that written headers do not have. -/
theorem Header.readsAs_cutOffTag :
    Header.ReadsAs .start ['(', 'y', ',', ')', '[', 'k', '=', 't', 'r', 'u', 'e', ']']
      ⟨cutOffTag.params, cutOffTag.attributes⟩ := by
  have hword : (Literal.word "y").IsNormal := ⟨by decide, by decide, by decide⟩
  have hattribute : ∀ a ∈ cutOffTag.attributes, a.IsNormal :=
    List.forall_mem_singleton.mpr ⟨⟨by decide, by decide, by decide⟩, trivial⟩
  have hbracketed : Bracketed cutOffTag.attributes ['[', 'k', '=', 't', 'r', 'u', 'e', ']'] :=
    ⟨_, ⟨_, [], ⟨_, rfl, rfl⟩, rfl, rfl⟩, rfl⟩
  have hattributes := Header.ReadsAs.bracketed hattribute hbracketed
  exact .delimiter rfl rfl (.param hword rfl (Header.ends_of_delimiter? rfl)
    (.delimiter rfl rfl (.delimiter rfl rfl hattributes)))

theorem Document.read_cutOffTag :
    Document.read {} "\\x(y,)[k=true]=\x7b\x7d=\x7b\\\x7d" = .ok ⟨[.tag cutOffTag]⟩ := by
  let inside : List Char := ['{', '\\', '}']
  let blocks : List Char := '=' :: '{' :: '}' :: '=' :: inside
  let header : List Char := ['(', 'y', ',', ')', '[', 'k', '=', 't', 'r', 'u', 'e', ']']
  have hextent : Header.extent (header ++ blocks) = .closed header blocks := rfl
  have hread : Header.read 2 header = .ok ⟨cutOffTag.params, cutOffTag.attributes⟩ :=
    Header.read_of_readsAs Header.readsAs_cutOffTag 2
  have hheader : Header.readAt ⟨2, header ++ blocks⟩ =
      ⟨⟨cutOffTag.params, cutOffTag.attributes⟩, [], ⟨14, blocks⟩⟩ := by
    rw [Header.readAt, hextent]
    simp only [hread]
    rfl
  have hbody : NodesAt {} 1 ⟨19, ['\\', '}']⟩ ⟨[.text "\x7d"], [], ⟨21, []⟩⟩ :=
    @NodesAt.last {} 1 ⟨19, ['\\', '}']⟩ ⟨21, []⟩ ['}'] rfl (by decide)
  have hplain : BlocksAt {} 0 ⟨18, inside⟩ ⟨[⟨false, [.text "\x7d"]⟩], [], ⟨21, []⟩⟩ :=
    @BlocksAt.unclosed {} 0 18 21 ⟨18, inside⟩ _ _ [] rfl (by decide) hbody
  have hblocks : BlocksAt {} 0 ⟨14, blocks⟩ ⟨cutOffTag.blocks, [], ⟨21, []⟩⟩ :=
    @BlocksAt.verbatim {} 0 ⟨14, blocks⟩ _ ⟨[], true, ⟨18, inside⟩⟩ ⟨1, true⟩
      ⟨[⟨false, [.text "\x7d"]⟩], [], ⟨21, []⟩⟩ rfl (by decide) (by decide) hplain
  have htag : TagAt {} 0 0 ('x' :: (header ++ blocks)) ⟨cutOffTag, [], ⟨21, []⟩⟩ :=
    @TagAt.intro {} 0 0 ('x' :: (header ++ blocks)) _ ⟨cutOffTag.blocks, [], ⟨21, []⟩⟩ hheader
      hblocks
  have hfinish : NodesAt {} 0 ⟨21, []⟩ ⟨[], [], ⟨21, []⟩⟩ :=
    @NodesAt.last {} 0 ⟨21, []⟩ ⟨21, []⟩ [] rfl (by decide)
  exact Document.read_eq_ok_iff.mpr ⟨⟨21, []⟩,
    @NodesAt.tag {} 0 0 ⟨0, _⟩ [] _ _ _ rfl htag hfinish⟩

/-- The word and the attribute are names, and the text of the open block is not empty. -/
theorem Document.isNormal_of_read_cutOffTag :
    Document.read {} "\\x(y,)[k=true]=\x7b\x7d=\x7b\\\x7d" = .ok ⟨[.tag cutOffTag]⟩ ∧
      (Document.mk [.tag cutOffTag]).IsNormal :=
  ⟨Document.read_cutOffTag, Document.isNormal_of_read Document.read_cutOffTag⟩

end TaggedText
