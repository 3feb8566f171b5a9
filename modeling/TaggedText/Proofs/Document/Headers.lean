import TaggedText.Proofs.Document.Lines
import TaggedText.Proofs.Header.Tokenized

/-!
# Tags with headers

A header that is accepted by itself is read whole in a source, whatever follows it, and the blocks
of its tag are read where it ends.  The danger is in the search for the end of the header, which
might stop inside a string; that it does not is known of accepted lists.  What is left is to put the
header into the derivation of its tag (`TagAt.of_header`), and the tag into a source that begins
with it (`Document.read_of_header`).
-/

namespace TaggedText

variable {options : ReaderOptions} {name front back rest : List Char} {params attributes : Header}
  {offset offset' : Nat}

/-- A list of a header begins with no character of a name. -/
theorem isNameChar_head_of_isListText (hfront : Header.IsListText '(' ')' front)
    (hback : Header.IsListText '[' ']' back) (hne : front ≠ [] ∨ back ≠ []) :
    ∀ c, (front ++ back ++ rest).head? = some c → Text.isNameChar c = false := by
  intro c hc
  rcases hfront with rfl | ⟨hhead, -⟩
  · obtain ⟨inside, rfl⟩ :=
      List.head?_eq_some_iff.mp (hback.resolve_left (hne.resolve_left (by simp))).1
    cases hc
    rfl
  · obtain ⟨inside, rfl⟩ := List.head?_eq_some_iff.mp hhead
    cases hc
    rfl

/-- **A tag whose header is accepted** has nothing wrong with the header, and its blocks are read
behind it. -/
theorem TagAt.of_header {depth start : Nat} {blocks : Passage (List Block)}
    (hname : Text.isName name = true) (hfront : Header.IsListText '(' ')' front)
    (hback : Header.IsListText '[' ']' back) (hne : front ≠ [] ∨ back ≠ [])
    (hrest : back = [] → rest.head? ≠ some '[') (hparams : Header.read offset front = .ok params)
    (hattributes : Header.read offset' back = .ok attributes)
    (hblocks : BlocksAt options depth
      ⟨start + 1 + Text.width name + Text.width (front ++ back), rest⟩ blocks) :
    TagAt options depth start (name ++ (front ++ back ++ rest))
      ⟨{ name := String.ofList name
         params := params.params
         attributes := attributes.attributes
         blocks := blocks.value
         span := ⟨start, blocks.next.offset⟩ },
        blocks.diagnostics, blocks.next⟩ := by
  have hhead : ∀ c, (front ++ back ++ rest).head? = some c → Text.isNameChar c = false :=
    isNameChar_head_of_isListText hfront hback hne
  have hnameChars : ∀ c ∈ name, Text.isNameChar c = true :=
    fun _ hc => Text.isNameChar_of_mem_name hname hc
  have hreading := Header.readAt_of_accepted hfront hback hne hrest hparams hattributes
    (start + 1 + Text.width name)
  have htake := takeWhile_append_of_head hnameChars hhead
  have htag := @TagAt.intro options depth start (name ++ (front ++ back ++ rest)) _ blocks
    (by rw [htake, dropWhile_append_of_head hnameChars hhead, hreading]) hblocks
  rwa [htake] at htag

/-- **A source that begins with a tag whose header is accepted.**  Let parameters and attributes be
accepted one by one, each where there are any.  Then they are the extent of the header and are read
as one, and the source is the tag with what is read behind them: blocks first, and then nodes.
Nothing else is wrong with it. -/
theorem Document.read_of_header (hname : Text.isName name = true)
    (hfront : Header.IsListText '(' ')' front) (hback : Header.IsListText '[' ']' back)
    (hne : front ≠ [] ∨ back ≠ []) (hrest : back = [] → rest.head? ≠ some '[')
    (hparams : Header.read offset front = .ok params)
    (hattributes : Header.read offset' back = .ok attributes) :
    Header.extent (front ++ back ++ rest) = .closed (front ++ back) rest ∧
      (∀ start, Header.read start (front ++ back) =
        .ok ⟨params.params, attributes.attributes⟩) ∧
      ∀ options,
        let blocks := readBlocks options 0 (Text.width ('\\' :: name ++ front ++ back)) rest
        let more := readNodes options 0 blocks.next.offset blocks.next.rest
        Document.read options (.ofList ('\\' :: name ++ front ++ back ++ rest)) =
          if (blocks.diagnostics ++ more.diagnostics).isEmpty then
            .ok ⟨.tag
              { name := String.ofList name
                params := params.params
                attributes := attributes.attributes
                blocks := blocks.value
                span := ⟨0, blocks.next.offset⟩ } :: more.value⟩
          else .error (blocks.diagnostics ++ more.diagnostics) := by
  refine ⟨Header.extent_of_accepted hfront hback hne hrest hparams hattributes,
    Header.read_of_accepted hfront hback hparams hattributes, fun options => ?_⟩
  have hbackslash : '\\'.utf8Size = 1 := rfl
  have hwidth : Text.width ('\\' :: name ++ front ++ back) =
      0 + 1 + Text.width name + Text.width (front ++ back) := by
    simp [hbackslash, Nat.add_assoc]
  have hblocks := readBlocks_at options 0 (Text.width ('\\' :: name ++ front ++ back)) rest
  rw [hwidth] at hblocks ⊢
  have htag := TagAt.of_header hname hfront hback hne hrest hparams hattributes hblocks
  have hmore := readNodes_at options 0
    (readBlocks options 0 (0 + 1 + Text.width name + Text.width (front ++ back)) rest).next.offset
    (readBlocks options 0 (0 + 1 + Text.width name + Text.width (front ++ back)) rest).next.rest
  have hstops : StopsText false ('\\' :: (name ++ (front ++ back ++ rest))) := by
    cases name with
    | nil => cases hname
    | cons c name =>
        simp only [Text.isName, Bool.and_eq_true] at hname
        exact .tag hname.1
  have hnodes := @NodesAt.tag options 0 0 ⟨0, '\\' :: (name ++ (front ++ back ++ rest))⟩ [] _ _ _
    (hstops.readText [] 0) htag hmore
  have hsource : '\\' :: (name ++ (front ++ back ++ rest)) =
      (String.ofList ('\\' :: name ++ front ++ back ++ rest)).toList := by
    simp
  rw [hsource] at hnodes
  rw [Document.read_eq hnodes]
  rfl

/-! ### A header with delimiters in its strings -/

/-- Parameters with a parenthesis and a quote in a string, and a comma that trails. -/
def quotedParams : List Char :=
  ['(', '"', ')', '\\', '"', '"', ' ', ',', 'y', ' ', ',', ')']

/-- An attribute whose value is a bracket. -/
def quotedAttributes : List Char :=
  ['[', 'k', '=', '"', ']', '"', ']']

theorem read_quotedParams :
    Header.read 0 quotedParams = .ok ⟨[.string ")\"", .word "y"], []⟩ := by
  have hinside : Header.Tokenized [')'] [.closeParen] := .token rfl rfl .nil
  have htokenized : Header.Tokenized quotedParams
      [.openParen, .string ")\"", .comma, .name "y", .comma, .closeParen] :=
    .token rfl rfl (.token rfl rfl (.gap rfl (.token rfl rfl (.token rfl rfl
      (.gap rfl (.token rfl rfl hinside))))))
  exact Header.read_eq_ok_iff_tokenized.mpr ⟨_, htokenized, _, [],
    .inr ⟨_, .inr ⟨List.cons_ne_nil _ _, rfl⟩, rfl⟩, .inl ⟨rfl, rfl⟩, rfl⟩

theorem read_quotedAttributes :
    Header.read 0 quotedAttributes = .ok ⟨[], [⟨"k", .string "]"⟩]⟩ := by
  have htokenized : Header.Tokenized quotedAttributes
      [.openBracket, .name "k", .equals, .string "]", .closeBracket] :=
    .token rfl rfl (.token rfl rfl (.token rfl rfl (.token rfl rfl (.token rfl rfl .nil))))
  exact Header.read_eq_ok_iff_tokenized.mpr ⟨_, htokenized, [], _, .inl ⟨rfl, rfl⟩,
    .inr ⟨_, .inl rfl, rfl⟩, rfl⟩

/-- The bracket behind the attributes begins no other list of attributes. -/
theorem Document.read_of_header_quotedDelimiters :
    Text.isName ['a'] = true ∧ Header.IsListText '(' ')' quotedParams ∧
      Header.IsListText '[' ']' quotedAttributes ∧ quotedParams ≠ [] ∧
      (quotedAttributes = [] → ['[', 'z', ']'].head? ≠ some '[') ∧
      Header.read 0 quotedParams = .ok ⟨[.string ")\"", .word "y"], []⟩ ∧
      Header.read 0 quotedAttributes = .ok ⟨[], [⟨"k", .string "]"⟩]⟩ ∧
      Document.read {} "\\a(\")\\\"\" ,y ,)[k=\"]\"][z]" =
        .ok ⟨[.tag
          { name := "a"
            params := [.string ")\"", .word "y"]
            attributes := [⟨"k", .string "]"⟩]
            span := ⟨0, 21⟩ },
          .text "[z]"]⟩ := by
  have hparams : Header.IsListText '(' ')' quotedParams := .inr ⟨rfl, rfl⟩
  have hattributes : Header.IsListText '[' ']' quotedAttributes := .inr ⟨rfl, rfl⟩
  have hne : quotedParams ≠ [] := List.cons_ne_nil _ _
  have hrest : quotedAttributes = [] → ['[', 'z', ']'].head? ≠ some '[' := nofun
  have hblocks : BlocksAt {} 0 ⟨21, ['[', 'z', ']']⟩ ⟨[], [], ⟨21, ['[', 'z', ']']⟩⟩ :=
    .none (by decide) (by decide)
  have hmore : NodesAt {} 0 ⟨21, ['[', 'z', ']']⟩ ⟨[.text "[z]"], [], ⟨24, []⟩⟩ :=
    @NodesAt.last {} 0 ⟨21, _⟩ ⟨24, []⟩ ['[', 'z', ']'] rfl (by decide)
  have hname : Text.isName ['a'] = true := rfl
  obtain ⟨-, -, hread⟩ := Document.read_of_header hname hparams hattributes (.inl hne)
    hrest read_quotedParams read_quotedAttributes
  refine ⟨hname, hparams, hattributes, hne, hrest, read_quotedParams, read_quotedAttributes, ?_⟩
  refine (hread {}).trans ?_
  have hvalue : (readBlocks {} 0 21 ['[', 'z', ']']).value = [] :=
    congrArg Passage.value hblocks.read_eq
  have hfaults : (readBlocks {} 0 21 ['[', 'z', ']']).diagnostics = [] :=
    congrArg Passage.diagnostics hblocks.read_eq
  have hnext : (readBlocks {} 0 21 ['[', 'z', ']']).next = ⟨21, ['[', 'z', ']']⟩ :=
    congrArg Passage.next hblocks.read_eq
  have hnodes : (readNodes {} 0 21 ['[', 'z', ']']).value = [.text "[z]"] :=
    congrArg Passage.value hmore.read_eq
  have hnodesFaults : (readNodes {} 0 21 ['[', 'z', ']']).diagnostics = [] :=
    congrArg Passage.diagnostics hmore.read_eq
  have hwidth : Text.width ('\\' :: ['a'] ++ quotedParams ++ quotedAttributes) = 21 := rfl
  dsimp only
  rw [hwidth, hvalue, hfaults, hnext, hnodes, hnodesFaults]
  rfl

end TaggedText
