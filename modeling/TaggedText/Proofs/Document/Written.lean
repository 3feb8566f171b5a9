import TaggedText.Document.Fence
import TaggedText.Proofs.Document.Nesting
import TaggedText.Proofs.Header.Written

/-!
# How documents are written

The canonical spelling of documents, and the documents that have one.

A character of text is escaped where it would mean something (`escapeText`), and verbatim text is
put into a fence that does not occur in it (`FenceFits`).  Any run of `=` that is wide enough will
do, so being written is a relation here, as it is for numbers in headers.

A document is in normal form if it could have been read: no text is empty or beside another, and a
verbatim block is one text at most (`Document.IsNormal`).  Every such document is written somehow
(`IsNormal.exists_written`).  What is written does not say where tags stand, and documents are
compared without their places (`Document.unplaced`).
-/

namespace TaggedText

/-! ### Text and fences -/

/-- A character of text as it is written: what could begin something else takes a backslash. -/
def escapeText (c : Char) : List Char :=
  if c ∈ ['\\', '{', '}', '=', '(', '['] then ['\\', c] else [c]

/-- The fence is wider than every run of `=` that follows a closing brace in the text. -/
def FenceFits (width : Nat) (text : List Char) : Prop :=
  0 < width ∧ ∀ before after, text = before ++ '}' :: after → fenceWidth after < width

/-- A text in a fence that fits. -/
def Fenced (text cs : List Char) : Prop :=
  ∃ width, FenceFits width text ∧
    cs = List.replicate width '=' ++ '{' :: text ++ '}' :: List.replicate width '='

theorem fenceWidth_le_length (cs : List Char) : fenceWidth cs ≤ cs.length :=
  (List.takeWhile_sublist _).length_le

/-- Some fence always fits. -/
theorem exists_fenced (text : List Char) : ∃ cs, Fenced text cs := by
  refine ⟨_, text.length + 1, ⟨Nat.succ_pos _, ?_⟩, rfl⟩
  rintro before after rfl
  have hle := fenceWidth_le_length after
  simp only [List.length_append, List.length_cons]
  omega

/-! ### Written documents -/

mutual

/-- **How a node is written.** -/
def Node.Written : Node → List Char → Prop
  | .text value, cs => cs = value.toList.flatMap escapeText
  | .tag tag, cs => tag.Written cs

/-- A tag is a backslash, its name, its header and its blocks. -/
def Tag.Written : Tag → List Char → Prop
  | ⟨name, params, attributes, blocks, _⟩, cs =>
    ∃ header inside, Header.Written ⟨params, attributes⟩ header ∧ blocksWritten [] blocks inside ∧
      cs = '\\' :: (name.toList ++ header ++ inside)

/-- Blocks one after the other, with `lead` in front of the first and a space in front of each
other. -/
def blocksWritten (lead : List Char) : List Block → List Char → Prop
  | [], cs => cs = []
  | ⟨verbatim, body⟩ :: rest, cs =>
    ∃ front back,
      (if verbatim then Fenced (Block.ownText ⟨verbatim, body⟩).toList front
        else ∃ inside, nodesWritten body inside ∧ front = '{' :: inside ++ ['}']) ∧
      blocksWritten [' '] rest back ∧ cs = lead ++ front ++ back

/-- Nodes one after the other. -/
def nodesWritten : List Node → List Char → Prop
  | [], cs => cs = []
  | node :: rest, cs =>
    ∃ front back, node.Written front ∧ nodesWritten rest back ∧ cs = front ++ back

end

/-- **How a document is written.** -/
def Document.Written (d : Document) (cs : List Char) : Prop :=
  nodesWritten d.body cs

/-! ### Normal form -/

mutual

/-- A text that is not empty, or a tag in normal form. -/
def Node.IsNormal : Node → Prop
  | .text value => value ≠ ""
  | .tag tag => tag.IsNormal

/-- The name is a name, and header and blocks are in normal form. -/
def Tag.IsNormal : Tag → Prop
  | ⟨name, params, attributes, blocks, _⟩ =>
    Text.isName name.toList = true ∧ Header.IsNormal ⟨params, attributes⟩ ∧ blocksNormal blocks

/-- Bodies are in normal form, and verbatim ones hold one text at most. -/
def blocksNormal : List Block → Prop
  | [] => True
  | ⟨verbatim, body⟩ :: rest =>
    (verbatim = true → body = [] ∨ ∃ value, body = [.text value]) ∧ nodesNormal body ∧
      blocksNormal rest

/-- The nodes are in normal form, and no text follows a text. -/
def nodesNormal : List Node → Prop
  | [] => True
  | node :: rest =>
    node.IsNormal ∧ (node.isText = true → ∀ next, rest.head? = some next → next.isText = false) ∧
      nodesNormal rest

end

/-- **A document in normal form.** -/
def Document.IsNormal (d : Document) : Prop :=
  nodesNormal d.body

theorem isNormal_of_mem {nodes : List Node} (h : nodesNormal nodes) {node : Node}
    (hnode : node ∈ nodes) : node.IsNormal := by
  induction nodes with
  | nil => cases hnode
  | cons first rest ih =>
      rcases List.mem_cons.mp hnode with rfl | hmem
      · exact h.1
      · exact ih h.2.2 hmem

/-! ### Normal documents are written -/

theorem exists_nodesWritten {nodes : List Node} (h : ∀ node ∈ nodes, ∃ cs, node.Written cs) :
    ∃ cs, nodesWritten nodes cs := by
  induction nodes with
  | nil => exact ⟨[], rfl⟩
  | cons node rest ih =>
      obtain ⟨front, hfront⟩ := h node List.mem_cons_self
      obtain ⟨back, hback⟩ := ih fun node hnode => h node (List.mem_cons_of_mem _ hnode)
      exact ⟨_, front, back, hfront, hback, rfl⟩

theorem exists_blocksWritten {blocks : List Block}
    (h : ∀ block ∈ blocks, ∀ node ∈ block.body, ∃ cs, node.Written cs) (lead : List Char) :
    ∃ cs, blocksWritten lead blocks cs := by
  induction blocks generalizing lead with
  | nil => exact ⟨[], rfl⟩
  | cons block rest ih =>
      obtain ⟨verbatim, body⟩ := block
      obtain ⟨back, hback⟩ := ih (fun block hblock => h block (List.mem_cons_of_mem _ hblock)) [' ']
      cases verbatim with
      | true =>
          obtain ⟨front, hfront⟩ := exists_fenced (Block.ownText ⟨true, body⟩).toList
          exact ⟨_, front, back, hfront, hback, rfl⟩
      | false =>
          obtain ⟨inside, hinside⟩ := exists_nodesWritten (h _ List.mem_cons_self)
          exact ⟨_, _, back, ⟨inside, hinside, rfl⟩, hback, rfl⟩

theorem nodesNormal_of_mem {blocks : List Block} (h : blocksNormal blocks) {block : Block}
    (hblock : block ∈ blocks) : nodesNormal block.body := by
  induction blocks with
  | nil => cases hblock
  | cons first rest ih =>
      obtain ⟨verbatim, body⟩ := first
      obtain ⟨-, hbody, hrest⟩ := h
      rcases List.mem_cons.mp hblock with rfl | hmem
      · exact hbody
      · exact ih hrest hmem

theorem Node.IsNormal.exists_written (node : Node) (h : node.IsNormal) :
    ∃ cs, node.Written cs := by
  induction node using Node.induction with
  | text value => exact ⟨_, rfl⟩
  | tag tag ih =>
      obtain ⟨name, params, attributes, blocks, span⟩ := tag
      obtain ⟨-, hheader, hblocks⟩ := h
      obtain ⟨header, hheader⟩ := hheader.exists_written
      obtain ⟨inside, hinside⟩ := exists_blocksWritten (fun block hblock node hnode =>
        ih block hblock node hnode (isNormal_of_mem (nodesNormal_of_mem hblocks hblock) hnode)) []
      exact ⟨_, header, inside, hheader, hinside, rfl⟩

/-- **Every document in normal form is written somehow.** -/
theorem Document.IsNormal.exists_written {d : Document} (h : d.IsNormal) : ∃ cs, d.Written cs :=
  exists_nodesWritten fun node hnode =>
    Node.IsNormal.exists_written node (isNormal_of_mem h hnode)

/-! ### Documents without places -/

mutual

/-- A node without the places of its tags. -/
def Node.unplaced : Node → Node
  | .text value => .text value
  | .tag tag => .tag tag.unplaced

/-- A tag without its place. -/
def Tag.unplaced : Tag → Tag
  | ⟨name, params, attributes, blocks, _⟩ =>
    ⟨name, params, attributes, blocksUnplaced blocks, {}⟩

/-- Blocks without the places of tags. -/
def blocksUnplaced : List Block → List Block
  | [] => []
  | ⟨verbatim, body⟩ :: rest => ⟨verbatim, nodesUnplaced body⟩ :: blocksUnplaced rest

/-- Nodes without the places of tags. -/
def nodesUnplaced : List Node → List Node
  | [] => []
  | node :: rest => node.unplaced :: nodesUnplaced rest

end

/-- A document without the places of its tags. -/
def Document.unplaced (d : Document) : Document :=
  ⟨nodesUnplaced d.body⟩

end TaggedText
