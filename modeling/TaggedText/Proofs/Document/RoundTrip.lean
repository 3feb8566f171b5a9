import TaggedText.Proofs.Document.Fences
import TaggedText.Proofs.Document.Written
import TaggedText.Proofs.Header.RoundTrip

/-!
# Written documents are read back

A document in normal form, as it is written, is accepted and read as the document it came from.

What follows a tag is the only danger: blanks and a block, or a bracket, would be read as part of
it.  Text that follows has its braces, brackets and equals signs escaped, so it begins neither, and
the same holds behind blanks.  `EndsTag` is a text that adds nothing to a tag in front of it, and
`Closes` one that ends the nodes in front of it; whatever is written behind a tag ends it.

Texts are read back on their own, escaped ones (`readText_escaped`) and fenced ones
(`readVerbatim_fenced`), and headers are known to be.  The rest is an induction over nodes with
`Node.ReadsBack`, in which what follows is universally quantified; `Document.read_of_written` is the
whole document.
-/

namespace TaggedText

variable {options : ReaderOptions} {cs rest : List Char}

/-! ### Text -/

theorem escapeText_of_mem {c : Char} (h : c ∈ ['\\', '{', '}', '=', '(', '[']) :
    escapeText c = ['\\', c] :=
  if_pos h

theorem escapeText_of_not_mem {c : Char} (h : c ∉ ['\\', '{', '}', '=', '(', '[']) :
    escapeText c = [c] :=
  if_neg h

/-- **Escaped text is a row of elements**, and says the text. -/
theorem spelled_escaped (inBlock : Bool) (value : List Char) :
    Spelled inBlock (value.flatMap escapeText) value := by
  induction value with
  | nil => exact .nil
  | cons c value ih =>
      rw [List.flatMap_cons]
      by_cases hc : c ∈ ['\\', '{', '}', '=', '(', '[']
      · have hall : ['\\', '{', '}', '=', '(', '['].any Text.isNameStart = false := by decide
        have hstart : ¬ Text.isNameStart c = true := List.any_eq_false.mp hall c hc
        rw [escapeText_of_mem hc]
        exact .escape (by simpa using hstart) ih
      · rw [escapeText_of_not_mem hc]
        refine .char ?_ (fun _ => ?_) ih
        · rintro rfl
          exact hc (by simp)
        · rintro rfl
          exact hc (by simp)

/-- **Escaped text is read as the text.** -/
theorem readText_escaped (inBlock : Bool) (text value rest : List Char) (offset : Nat) :
    readText inBlock text offset (value.flatMap escapeText ++ rest) =
      readText inBlock (value.reverse ++ text) (offset + Text.width (value.flatMap escapeText))
        rest :=
  (spelled_escaped inBlock value).readText text rest offset

/-- A text that ends the nodes in front of it: the end of the source, or of the block. -/
def Closes (depth : Nat) (rest : List Char) : Prop :=
  (depth = 0 ∧ rest = []) ∨ (depth ≠ 0 ∧ ∃ more, rest = '}' :: more)

theorem Closes.stopsText {depth : Nat} (h : Closes depth rest) : StopsText (depth != 0) rest := by
  rcases h with ⟨-, rfl⟩ | ⟨hdepth, more, rfl⟩
  · exact .finish
  · exact .close (by simpa using hdepth)

theorem Closes.head?_ne {depth : Nat} (h : Closes depth rest) : rest.head? ≠ some '\\' := by
  rcases h with ⟨-, rfl⟩ | ⟨-, more, rfl⟩
  · nofun
  · simp

/-! ### What may follow a tag -/

/-- No block starts behind the blanks of the text. -/
def StartsNoBlock (rest : List Char) : Prop :=
  ∀ c, (rest.dropWhile Text.isBlank).head? = some c → c ≠ '{' ∧ c ≠ '='

/-- **The text adds nothing to a tag in front of it**: no attributes and no block. -/
structure EndsTag (rest : List Char) : Prop where
  startsNoBlock : StartsNoBlock rest
  startsNoAttributes : rest.head? ≠ some '['

theorem StartsNoBlock.of_head {c : Char} (hblank : Text.isBlank c = false) (hc : c ≠ '{' ∧ c ≠ '=')
    (rest : List Char) : StartsNoBlock (c :: rest) := by
  rintro d hd
  rw [List.dropWhile_cons, if_neg (by simp [hblank])] at hd
  cases hd
  exact hc

theorem Closes.endsTag {depth : Nat} (h : Closes depth rest) : EndsTag rest := by
  rcases h with ⟨-, rfl⟩ | ⟨-, more, rfl⟩
  · exact ⟨nofun, nofun⟩
  · exact ⟨StartsNoBlock.of_head rfl (by decide) more, by simp⟩

theorem StartsNoBlock.escaped (h : StartsNoBlock rest) (value : List Char) :
    StartsNoBlock (value.flatMap escapeText ++ rest) := by
  induction value with
  | nil => exact h
  | cons c value ih =>
      rw [List.flatMap_cons, List.append_assoc]
      by_cases hc : c ∈ ['\\', '{', '}', '=', '(', '[']
      · rw [escapeText_of_mem hc]
        exact StartsNoBlock.of_head rfl (by decide) _
      · rw [escapeText_of_not_mem hc, List.singleton_append]
        cases hblank : Text.isBlank c with
        | true =>
            intro d hd
            rw [List.dropWhile_cons, if_pos hblank] at hd
            exact ih d hd
        | false =>
            refine StartsNoBlock.of_head hblank ⟨?_, ?_⟩ _
            · rintro rfl
              exact hc (by simp)
            · rintro rfl
              exact hc (by simp)

theorem head?_escaped_ne {value : List Char} (hvalue : value ≠ []) (rest : List Char) :
    (value.flatMap escapeText ++ rest).head? ≠ some '[' := by
  cases value with
  | nil => exact absurd rfl hvalue
  | cons c value =>
      rw [List.flatMap_cons, List.append_assoc]
      by_cases hc : c ∈ ['\\', '{', '}', '=', '(', '[']
      · rw [escapeText_of_mem hc]
        simp
      · rw [escapeText_of_not_mem hc]
        intro hhead
        cases hhead
        exact hc (by simp)

/-- Written nodes start no block, whatever blanks they start with. -/
theorem startsNoBlock_of_nodesWritten {nodes : List Node} (h : nodesWritten nodes cs)
    (hrest : StartsNoBlock rest) : StartsNoBlock (cs ++ rest) := by
  induction nodes generalizing cs with
  | nil =>
      obtain rfl := h
      exact hrest
  | cons node nodes ih =>
      obtain ⟨front, back, hfront, hback, rfl⟩ := h
      rw [List.append_assoc]
      cases node with
      | text value =>
          obtain rfl := hfront
          exact (ih hback).escaped value.toList
      | tag tag =>
          obtain ⟨name, params, attributes, blocks, span⟩ := tag
          obtain ⟨header, inside, -, -, rfl⟩ := hfront
          exact StartsNoBlock.of_head rfl (by decide) _

/-- **Written nodes add nothing to a tag in front of them.** -/
theorem endsTag_of_nodesWritten {nodes : List Node} (hnormal : nodesNormal nodes)
    (h : nodesWritten nodes cs) (hrest : EndsTag rest) : EndsTag (cs ++ rest) := by
  refine ⟨startsNoBlock_of_nodesWritten h hrest.startsNoBlock, ?_⟩
  cases nodes with
  | nil =>
      obtain rfl := h
      exact hrest.startsNoAttributes
  | cons node nodes =>
      obtain ⟨front, back, hfront, hback, rfl⟩ := h
      rw [List.append_assoc]
      cases node with
      | text value =>
          obtain rfl := hfront
          have hvalue : value ≠ "" := hnormal.1
          exact head?_escaped_ne (by simpa using hvalue) _
      | tag tag =>
          obtain ⟨name, params, attributes, blocks, span⟩ := tag
          obtain ⟨header, inside, -, -, rfl⟩ := hfront
          simp

/-! ### Fences -/

/-- A text holds no fence that is wider than its runs of `=`. -/
theorem FenceFits.not_closingFence {width : Nat} {text : List Char} (h : FenceFits width text)
    (before after : List Char) : ¬ ClosingFence width text before after := by
  rintro ⟨hsplit, hends⟩
  have hlt := h.2 _ _ hsplit
  rw [fenceWidth_replicate hends] at hlt
  exact Nat.lt_irrefl _ hlt

theorem Fenced.exists_cons {text : List Char} (h : Fenced text cs) : ∃ more, cs = '=' :: more := by
  obtain ⟨width, ⟨hpos, -⟩, rfl⟩ := h
  obtain ⟨n, rfl⟩ : ∃ n, width = n + 1 := ⟨width - 1, by omega⟩
  exact ⟨_, rfl⟩

theorem width_replicate_equals (n : Nat) : Text.width (List.replicate n '=') = n := by
  induction n with
  | zero => rfl
  | succ n ih =>
      have hequals : '='.utf8Size = 1 := rfl
      rw [List.replicate_succ, Text.width_cons, ih, hequals, Nat.add_comm]

/-- **A fenced text is read as the text**, where no equals sign follows. -/
theorem readVerbatim_fenced {text : List Char} (h : Fenced text cs) (hrest : rest.head? ≠ some '=')
    (offset : Nat) :
    opensVerbatim (cs ++ rest) = true ∧
      ∃ width, readVerbatim ⟨offset, cs ++ rest⟩ =
        (⟨text, true, ⟨offset + Text.width cs, rest⟩⟩, ⟨width, true⟩) := by
  obtain ⟨width, hfits, rfl⟩ := h
  have hshape : List.replicate width '=' ++ '{' :: text ++ '}' :: List.replicate width '=' ++ rest =
      List.replicate width '=' ++ '{' :: (text ++ '}' :: (List.replicate width '=' ++ rest)) := by
    simp
  have hbrace : ∀ inside : List Char, ('{' :: inside).head? ≠ some '=' := by simp
  refine ⟨?_, width, ?_⟩
  · rw [hshape, opensVerbatim, fenceWidth_replicate (hbrace _), afterFence_replicate (hbrace _)]
    simpa using hfits.1
  · have hopening : '{'.utf8Size = 1 := rfl
    have hclosing : '}'.utf8Size = 1 := rfl
    rw [hshape, readVerbatim_replicate, scanVerbatim_closingFence hfits.not_closingFence hrest]
    simp only [Text.width_append, Text.width_cons, width_replicate_equals, hopening, hclosing]
    simp
    omega

/-- The body of a verbatim block in normal form is the body of its text. -/
theorem textBody_ownText {body : List Node} (hnormal : nodesNormal body)
    (hbody : body = [] ∨ ∃ value, body = [.text value]) :
    textBody (Block.ownText ⟨true, body⟩).toList = body := by
  rcases hbody with rfl | ⟨value, rfl⟩
  · rfl
  · have hvalue : value ≠ "" := hnormal.1
    have hown : Block.ownText ⟨true, [.text value]⟩ = value := by
      simp [Block.ownText, Node.text?, String.join]
    rw [hown, textBody]
    simp [hvalue]

/-! ### Tags, blocks and nodes -/

/-- **A tag is read back** in front of any text that ends it. -/
def Node.ReadsBack (options : ReaderOptions) : Node → Prop
  | .text _ => True
  | .tag t => ∀ cs, t.Written cs →
    ∀ depth, depth + (Node.tag t).nesting plainBlocks ≤ options.maxDepth →
      ∀ start rest, EndsTag rest →
        ∃ inside t', cs = '\\' :: inside ∧
          (∃ c more, inside = c :: more ∧ Text.isNameStart c = true) ∧
          TagAt options depth start (inside ++ rest) ⟨t', [], ⟨start + Text.width cs, rest⟩⟩ ∧
          t'.unplaced = t.unplaced

/-- Escaped text ends where a tag begins. -/
theorem readText_escaped_tag {inBlock : Bool} {c : Char} (hc : Text.isNameStart c = true)
    (value : List Char) (offset : Nat) :
    readText inBlock [] offset (value.flatMap escapeText ++ '\\' :: c :: rest) =
      ⟨value, ⟨offset + Text.width (value.flatMap escapeText), '\\' :: c :: rest⟩⟩ := by
  rw [readText_escaped, readText, if_pos hc]
  simp

/-- Escaped text ends where a body is closed. -/
theorem Closes.readText_escaped {depth : Nat} (h : Closes depth rest) (value : List Char)
    (offset : Nat) :
    TaggedText.readText (depth != 0) [] offset (value.flatMap escapeText ++ rest) =
      ⟨value, ⟨offset + Text.width (value.flatMap escapeText), rest⟩⟩ := by
  rw [TaggedText.readText_escaped, h.stopsText.readText]
  simp

/-- **Written nodes are read back**, with a text in front of them that has not been read yet. -/
theorem nodesAt_of_written {nodes : List Node} (hnormal : nodesNormal nodes)
    (hnodes : ∀ node ∈ nodes, node.ReadsBack options) {depth : Nat}
    (hdepth : depth + nodesNesting plainBlocks nodes ≤ options.maxDepth)
    (h : nodesWritten nodes cs) (hrest : Closes depth rest) (value : List Char)
    (hvalue : value = [] ∨ ∀ node, nodes.head? = some node → node.isText = false) (offset : Nat) :
    ∃ nodes', NodesAt options depth ⟨offset, value.flatMap escapeText ++ (cs ++ rest)⟩
        ⟨textBody value ++ nodes', [],
          ⟨offset + Text.width (value.flatMap escapeText) + Text.width cs, rest⟩⟩ ∧
      nodesUnplaced nodes' = nodesUnplaced nodes := by
  induction nodes generalizing cs value offset with
  | nil =>
      obtain rfl := h
      refine ⟨[], ?_, rfl⟩
      rw [List.append_nil, Text.width_nil, Nat.add_zero]
      exact .last (hrest.readText_escaped value offset) hrest.head?_ne
  | cons node nodes ih =>
      obtain ⟨front, back, hfront, hback, rfl⟩ := h
      obtain ⟨hnode, halternate, hmore⟩ := hnormal
      rw [nodesNesting] at hdepth
      have hrec := ih hmore (fun node hnode => hnodes node (List.mem_cons_of_mem _ hnode))
        (by omega) hback
      cases node with
      | text v =>
          obtain rfl := hfront
          -- Two texts never meet, so nothing is pending in front of this one.
          obtain rfl : value = [] := by
            rcases hvalue with hnil | hhead
            · exact hnil
            · cases hhead _ rfl
          obtain ⟨nodes', hat, hunplaced⟩ := hrec v.toList (.inr (halternate rfl)) offset
          have hbody : textBody v.toList = [.text v] := by
            have hv : v ≠ "" := hnode
            simp [textBody, hv]
          refine ⟨.text v :: nodes', ?_, ?_⟩
          · rw [hbody] at hat
            rw [Text.width_append, ← Nat.add_assoc, List.append_assoc]
            exact hat
          · rw [nodesUnplaced, nodesUnplaced, hunplaced]
      | tag tag =>
          -- The text in front ends at the tag, and none is pending behind it.
          have hends : EndsTag (back ++ rest) := endsTag_of_nodesWritten hmore hback hrest.endsTag
          obtain ⟨inside, tag', rfl, ⟨c, more, rfl, hc⟩, htag, htagUnplaced⟩ :=
            hnodes _ List.mem_cons_self front hfront depth (by omega)
              (offset + Text.width (value.flatMap escapeText)) (back ++ rest) hends
          obtain ⟨nodes', hat, hunplaced⟩ := hrec [] (.inl rfl)
            (offset + Text.width (value.flatMap escapeText) + Text.width ('\\' :: c :: more))
          refine ⟨.tag tag' :: nodes', ?_, ?_⟩
          · rw [Text.width_append, ← Nat.add_assoc, List.append_assoc]
            exact .tag (readText_escaped_tag hc value offset) htag hat
          · rw [nodesUnplaced, nodesUnplaced, hunplaced, Node.unplaced, Node.unplaced, htagUnplaced]

theorem head?_ne_of_blocksWritten {blocks : List Block} (h : blocksWritten [' '] blocks cs)
    (hrest : EndsTag rest) : (cs ++ rest).head? ≠ some '=' := by
  cases blocks with
  | nil =>
      obtain rfl := h
      intro hhead
      have hends := hrest.startsNoBlock
      cases rest with
      | nil => cases hhead
      | cons c rest =>
          cases hhead
          exact (hends '=' rfl).2 rfl
  | cons block blocks =>
      obtain ⟨verbatim, body⟩ := block
      obtain ⟨front, back, -, -, rfl⟩ := h
      simp

theorem skipBlanks_lead {lead : List Char} (hlead : ∀ c ∈ lead, Text.isBlank c = true) {c : Char}
    (hc : Text.isBlank c = false) (offset : Nat) :
    Place.skipBlanks ⟨offset, lead ++ c :: rest⟩ = ⟨offset + Text.width lead, c :: rest⟩ := by
  have hhead : ∀ d, (c :: rest).head? = some d → Text.isBlank d = false := by
    rintro d ⟨⟩
    exact hc
  rw [Place.skipBlanks, takeWhile_append_of_head hlead hhead, dropWhile_append_of_head hlead hhead]
  rfl

theorem BlocksAt.none_of_endsTag {depth : Nat} (h : EndsTag rest) (offset : Nat) :
    BlocksAt options depth ⟨offset, rest⟩ ⟨[], [], ⟨offset, rest⟩⟩ := by
  have hskip : (Place.skipBlanks ⟨offset, rest⟩).rest = rest.dropWhile Text.isBlank := rfl
  refine .none ?_ ?_
  · rw [hskip]
    intro hhead
    exact (h.startsNoBlock '{' hhead).1 rfl
  · rw [hskip, opensVerbatim, fenceWidth]
    cases hdrop : rest.dropWhile Text.isBlank with
    | nil => rfl
    | cons c more =>
        have hc := (h.startsNoBlock c (by rw [hdrop]; rfl)).2
        simp [hc]

/-- A text in a fence is read as a verbatim block, with blanks in front of the fence. -/
theorem BlocksAt.of_fenced {depth : Nat} {lead text front more : List Char} {blocks : List Block}
    {next : Place} (hlead : ∀ c ∈ lead, Text.isBlank c = true) (hfenced : Fenced text front)
    (hmore : more.head? ≠ some '=') (offset : Nat)
    (hat : BlocksAt options depth ⟨offset + Text.width lead + Text.width front, more⟩
      ⟨blocks, [], next⟩) :
    BlocksAt options depth ⟨offset, lead ++ (front ++ more)⟩
      ⟨⟨true, textBody text⟩ :: blocks, [], next⟩ := by
  obtain ⟨tail, rfl⟩ := hfenced.exists_cons
  obtain ⟨hopens, width, hread⟩ := readVerbatim_fenced hfenced hmore (offset + Text.width lead)
  have hskip : Place.skipBlanks ⟨offset, lead ++ ('=' :: tail ++ more)⟩ =
      ⟨offset + Text.width lead, '=' :: tail ++ more⟩ :=
    skipBlanks_lead hlead rfl offset
  exact .verbatim hskip hopens hread hat

/-- A body in braces is read as a plain block, with blanks in front of the brace. -/
theorem BlocksAt.of_braced {depth : Nat} {lead inside more : List Char} {body : List Node}
    {blocks : List Block} {next : Place} (hlead : ∀ c ∈ lead, Text.isBlank c = true)
    (hdepth : depth < options.maxDepth) (offset : Nat)
    (hbody : NodesAt options (depth + 1) ⟨offset + Text.width lead + 1, inside ++ '}' :: more⟩
      ⟨body, [], ⟨offset + Text.width lead + 1 + Text.width inside, '}' :: more⟩⟩)
    (hat : BlocksAt options depth
      ⟨offset + Text.width lead + Text.width ('{' :: inside ++ ['}']), more⟩ ⟨blocks, [], next⟩) :
    BlocksAt options depth ⟨offset, lead ++ ('{' :: inside ++ ['}'] ++ more)⟩
      ⟨⟨false, body⟩ :: blocks, [], next⟩ := by
  have hskip : Place.skipBlanks ⟨offset, lead ++ ('{' :: inside ++ ['}'] ++ more)⟩ =
      ⟨offset + Text.width lead, '{' :: (inside ++ '}' :: more)⟩ := by
    rw [List.append_assoc]
    exact skipBlanks_lead hlead rfl offset
  have hopening : '{'.utf8Size = 1 := rfl
  have hclosing : '}'.utf8Size = 1 := rfl
  have hwidth : offset + Text.width lead + Text.width ('{' :: inside ++ ['}']) =
      offset + Text.width lead + 1 + Text.width inside + 1 := by
    simp only [Text.width_append, Text.width_cons, Text.width_nil, hopening, hclosing]
    omega
  rw [hwidth] at hat
  exact .plain hskip hdepth hbody hat

/-- **Written blocks are read back**, with blanks in front of the first. -/
theorem blocksAt_of_written {blocks : List Block} (hnormal : blocksNormal blocks)
    (hbodies : ∀ block ∈ blocks, ∀ node ∈ block.body, node.ReadsBack options) {depth : Nat}
    (hdepth : depth + blocksNesting plainBlocks blocks ≤ options.maxDepth) {lead : List Char}
    (hlead : ∀ c ∈ lead, Text.isBlank c = true) (h : blocksWritten lead blocks cs)
    (hrest : EndsTag rest) (offset : Nat) :
    ∃ blocks', BlocksAt options depth ⟨offset, cs ++ rest⟩
        ⟨blocks', [], ⟨offset + Text.width cs, rest⟩⟩ ∧
      blocksUnplaced blocks' = blocksUnplaced blocks := by
  induction blocks generalizing cs lead offset with
  | nil =>
      obtain rfl := h
      exact ⟨[], BlocksAt.none_of_endsTag hrest offset, rfl⟩
  | cons block blocks ih =>
      obtain ⟨verbatim, body⟩ := block
      obtain ⟨front, back, hfront, hback, rfl⟩ := h
      obtain ⟨hverbatim, hbody, hmore⟩ := hnormal
      rw [blocksNesting] at hdepth
      -- From the second block on the blanks in front are one space.
      have hrec := ih hmore (fun block hblock => hbodies block (List.mem_cons_of_mem _ hblock))
        (by omega) (List.all_eq_true.mp (by decide)) hback
      obtain ⟨blocks', hat, hunplaced⟩ := hrec (offset + Text.width lead + Text.width front)
      rw [List.append_assoc, List.append_assoc, Text.width_append, Text.width_append,
        ← Nat.add_assoc, ← Nat.add_assoc]
      cases verbatim with
      | true =>
          have hfenced : Fenced (Block.ownText ⟨true, body⟩).toList front := hfront
          have hmoreHead := head?_ne_of_blocksWritten hback hrest
          refine ⟨⟨true, body⟩ :: blocks', ?_, ?_⟩
          · have hblocks := BlocksAt.of_fenced hlead hfenced hmoreHead offset hat
            rwa [textBody_ownText hbody (hverbatim rfl)] at hblocks
          · rw [blocksUnplaced, blocksUnplaced, hunplaced]
      | false =>
          obtain ⟨inside, hinside, rfl⟩ := hfront
          have hplain : plainBlocks false = 1 := rfl
          have hinner : depth + 1 + nodesNesting plainBlocks body ≤ options.maxDepth := by omega
          have hcloses : Closes (depth + 1) ('}' :: (back ++ rest)) := .inr ⟨by omega, _, rfl⟩
          obtain ⟨body', hbodyAt, hbodyUnplaced⟩ :=
            nodesAt_of_written hbody (hbodies _ List.mem_cons_self) hinner hinside hcloses []
              (.inl rfl) (offset + Text.width lead + 1)
          refine ⟨⟨false, body'⟩ :: blocks', ?_, ?_⟩
          · exact .of_braced hlead (by omega) offset hbodyAt hat
          · rw [blocksUnplaced, blocksUnplaced, hunplaced, hbodyUnplaced]

/-- What is written behind a header begins no attributes. -/
theorem head?_ne_bracket_of_blocksWritten {blocks : List Block} (h : blocksWritten [] blocks cs)
    (hrest : EndsTag rest) : (cs ++ rest).head? ≠ some '[' := by
  cases blocks with
  | nil =>
      obtain rfl := h
      exact hrest.startsNoAttributes
  | cons block blocks =>
      obtain ⟨verbatim, body⟩ := block
      obtain ⟨front, back, hfront, -, rfl⟩ := h
      cases verbatim with
      | true =>
          have hfenced : Fenced (Block.ownText ⟨true, body⟩).toList front := hfront
          obtain ⟨more, rfl⟩ := hfenced.exists_cons
          simp
      | false =>
          obtain ⟨inside, -, rfl⟩ := hfront
          simp

/-- A name in front of a header is found whole. -/
theorem name_append_header {name : List Char} (hname : Text.isName name = true) {header : Header}
    {text : List Char} (h : header.Written text) (rest : List Char) :
    (name ++ (text ++ rest)).takeWhile Text.isNameChar = name ∧
      (name ++ (text ++ rest)).dropWhile Text.isNameChar = text ++ rest := by
  have hchars : ∀ c ∈ name, Text.isNameChar c = true := fun c hc =>
    Text.isNameChar_of_mem_name hname hc
  have hhead : ∀ c, (text ++ rest).head? = some c → Text.isNameChar c = false := by
    obtain ⟨params, attributes, -, -, rfl⟩ := h
    rintro c ⟨⟩
    rfl
  exact ⟨takeWhile_append_of_head hchars hhead, dropWhile_append_of_head hchars hhead⟩

theorem exists_nameStart {name : List Char} (h : Text.isName name = true) (rest : List Char) :
    ∃ c more, name ++ rest = c :: more ∧ Text.isNameStart c = true := by
  cases name with
  | nil => cases h
  | cons c name =>
      rw [Text.isName, Bool.and_eq_true] at h
      exact ⟨c, _, rfl, h.1⟩

/-- **A written tag is read back**, where the tags in its blocks are. -/
theorem Node.readsBack_tag {t : Tag} (hnormal : t.IsNormal)
    (hbodies : ∀ block ∈ t.blocks, ∀ node ∈ block.body, node.ReadsBack options) :
    (Node.tag t).ReadsBack options := by
  obtain ⟨name, params, attributes, blocks, span⟩ := t
  rintro cs ⟨header, inside, hheader, hinside, rfl⟩ depth hdepth start rest hrest
  obtain ⟨hname, hheaderNormal, hblocks⟩ := hnormal
  obtain ⟨htake, hdrop⟩ := name_append_header hname hheader (inside ++ rest)
  have hreading := Header.readAt_of_written hheaderNormal hheader
    (head?_ne_bracket_of_blocksWritten hinside hrest) (start + 1 + Text.width name.toList)
  have hlead : ∀ c ∈ ([] : List Char), Text.isBlank c = true := nofun
  obtain ⟨blocks', hat, hunplaced⟩ := blocksAt_of_written hblocks hbodies hdepth hlead hinside hrest
    (start + 1 + Text.width name.toList + Text.width header)
  have hshape : name.toList ++ header ++ inside ++ rest =
      name.toList ++ (header ++ (inside ++ rest)) := by
    simp
  have hwidth : start + Text.width ('\\' :: (name.toList ++ header ++ inside)) =
      start + 1 + Text.width name.toList + Text.width header + Text.width inside := by
    have hbackslash : '\\'.utf8Size = 1 := rfl
    simp only [Text.width_cons, Text.width_append, hbackslash]
    omega
  have hstart : ∃ c more, name.toList ++ header ++ inside = c :: more ∧
      Text.isNameStart c = true := by
    rw [List.append_assoc]
    exact exists_nameStart hname _
  have htag : TagAt options depth start (name.toList ++ header ++ inside ++ rest)
      ⟨⟨name, params, attributes, blocks',
          ⟨start, start + 1 + Text.width name.toList + Text.width header + Text.width inside⟩⟩, [],
        ⟨start + Text.width ('\\' :: (name.toList ++ header ++ inside)), rest⟩⟩ := by
    rw [hshape, hwidth]
    have hplace : (⟨start + 1 + Text.width ((name.toList ++ (header ++ (inside ++ rest))).takeWhile
          Text.isNameChar), (name.toList ++ (header ++ (inside ++ rest))).dropWhile
          Text.isNameChar⟩ : Place) =
        ⟨start + 1 + Text.width name.toList, header ++ (inside ++ rest)⟩ := by
      rw [htake, hdrop]
    have htag := TagAt.intro ((congrArg Header.readAt hplace).trans hreading) hat
    rw [htake, String.ofList_toList] at htag
    exact htag
  refine ⟨_, _, rfl, hstart, htag, ?_⟩
  rw [Tag.unplaced, Tag.unplaced, hunplaced]

theorem Node.readsBack (node : Node) (hnormal : node.IsNormal) : node.ReadsBack options := by
  induction node using Node.induction with
  | text value => trivial
  | tag t ih =>
      refine Node.readsBack_tag hnormal fun block hblock node hnode => ?_
      obtain ⟨name, params, attributes, blocks, span⟩ := t
      have hbody := nodesNormal_of_mem hnormal.2.2 hblock
      exact ih block hblock node hnode (isNormal_of_mem hbody hnode)

/-! ### Whole documents -/

/-- **Print, then read.**  A document in normal form whose plain blocks nest no deeper than the
reader allows can be written, and however it is written it is accepted and read back, places
aside. -/
theorem Document.read_of_written (options : ReaderOptions) (d : Document) (hnormal : d.IsNormal)
    (hdepth : d.nesting plainBlocks ≤ options.maxDepth) :
    (∃ cs, d.Written cs) ∧
      ∀ cs, d.Written cs →
        ∃ d', Document.read options (String.ofList cs) = .ok d' ∧ d'.unplaced = d.unplaced := by
  refine ⟨hnormal.exists_written, fun cs h => ?_⟩
  have hnodes : ∀ node ∈ d.body, node.ReadsBack options := fun node hnode =>
    Node.readsBack node (isNormal_of_mem hnormal hnode)
  obtain ⟨nodes', hat, hunplaced⟩ := nodesAt_of_written hnormal hnodes
    (by rw [Nat.zero_add]; exact hdepth) h (.inl ⟨rfl, rfl⟩) [] (.inl rfl) 0
  refine ⟨⟨nodes'⟩, ?_, ?_⟩
  · rw [Document.read_eq_ok_iff, String.toList_ofList]
    rw [List.append_nil] at hat
    exact ⟨_, hat⟩
  · rw [Document.unplaced, Document.unplaced, hunplaced]

/-- The numeral `-1.50`. -/
def Numeral.sample : Numeral :=
  ⟨true, ['1'], ['5', '0'], by simp, List.all_eq_true.mp (by decide),
    List.all_eq_true.mp (by decide)⟩

/-- Text that looks like a block behind a tag without blocks, a string with a parenthesis and a
quote in it, and a verbatim text that looks like a closing fence. -/
def Document.sample : Document :=
  ⟨[.text "f(x",
    .tag
      { name := "a"
        params := [.string ")\"\\", .number Numeral.sample.value, .word "yes"]
        attributes := [⟨"key", .bool true⟩]
        blocks := [
          { body := [.tag { name := "true" }, .text " \x7b=[\x7d"] },
          { verbatim := true, body := [.text "\x7d=\x7d"] },
          {}] },
    .text "\t=="]⟩

/-- The sample is read back with one level of blocks and open blocks reported. -/
theorem Document.read_of_written_sample :
    Document.sample.IsNormal ∧ Document.sample.nesting plainBlocks ≤ 1 ∧
      (∃ cs, Document.sample.Written cs) ∧
        ∀ cs, Document.sample.Written cs →
          ∃ d', Document.read ⟨true, 1⟩ (String.ofList cs) = .ok d' ∧
            d'.unplaced = Document.sample.unplaced := by
  have hnumber :
      ∃ n : Numeral, Number.read? (String.ofList n.spelling) = some Numeral.sample.value :=
    ⟨_, Numeral.sample.read?_spelling⟩
  have hnormal : Document.sample.IsNormal := by
    simp [Document.IsNormal, Document.sample, nodesNormal, blocksNormal, Node.IsNormal,
      Tag.IsNormal, Header.IsNormal, Literal.IsNormal, Attribute.IsNormal, IsPlainName, Node.isText,
      hnumber, Text.isName, Text.isNameStart, Text.isNameChar]
  have hdepth : Document.sample.nesting plainBlocks ≤ 1 := by decide
  exact ⟨hnormal, hdepth, Document.read_of_written ⟨true, 1⟩ Document.sample hnormal hdepth⟩

end TaggedText
