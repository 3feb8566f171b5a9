import TaggedText.Proofs.Header.Extent
import TaggedText.Proofs.Header.Scan

/-!
# Written headers are read back

A header as it is written is cut into the tokens of its values and is read as the header it came
from.

Tokens are cut at their longest, so a value ends only where a character follows that cannot belong
to it.  In a written header that is a delimiter, and all delimiters are alike in this; `Scans` is a
text that is one token in front of any of them, and every written value is such a text
(`scans_literal`).

What a text is read as depends on where the header stands when the text begins.  `ReadsAs` says it
from a stage on, and is put together along the lists of the header, item by item.
`readAt_of_written` is the whole header in front of whatever follows it, once its extent is known.
-/

namespace TaggedText

variable {l : Literal} {cs : List Char}

namespace Header

/-! ### Tokens of values -/

/-- The scan of a text in front of a delimiter finds a token and takes the text. -/
def Scans (cs : List Char) (token : Token) : Prop :=
  ∃ c r, cs = c :: r ∧ isGap c = false ∧
    ∀ d rest, Ends d → scan c (r ++ d :: rest) = ⟨some token, cs, d :: rest⟩

theorem CutOut.scans {cs : List Char} {token : Token} (h : CutOut cs token)
    (hcons : ∃ c r, cs = c :: r ∧ isGap c = false) : Scans cs token := by
  obtain ⟨c, r, rfl, hgap⟩ := hcons
  exact ⟨c, r, rfl, hgap, fun d rest hd => h.scan_eq rfl (hd.breaks rest)⟩

theorem scans_name {name : List Char} (h : Text.isName name = true) :
    Scans name (wordToken (String.ofList name)) :=
  (cutOut_name h).scans (exists_cons_of_isName h)

theorem quoted_escaped (value : List Char) :
    Quoted value (value.flatMap Literal.escape ++ ['"']) := by
  induction value with
  | nil => exact .close
  | cons c value ih =>
      rw [List.flatMap_cons, List.append_assoc]
      by_cases hquote : c = '"'
      · subst hquote
        exact Quoted.escape (c := '"') (by decide) ih
      by_cases hbackslash : c = '\\'
      · subst hbackslash
        exact Quoted.escape (c := '\\') (by decide) ih
      rw [Literal.escape_of_ne hquote hbackslash]
      exact .char hquote hbackslash ih

theorem scans_quoted (value : List Char) :
    Scans (Literal.quoted value) (.string (String.ofList value)) :=
  (quoted_escaped value).cutOut.scans ⟨'"', _, rfl, rfl⟩

theorem scans_numeral (n : Numeral) : Scans n.spelling (.number n.value) :=
  (cutOut_numeral n).scans (exists_cons_of_numeral n)

end Header

/-- The token of a value. -/
def Literal.token : Literal → Header.Token
  | .string value => .string value
  | .number x => .number x
  | .bool b => .bool b
  | .word spelling => .name spelling

namespace Header

/-- **The scan of a written value finds its token.** -/
theorem scans_literal (hnormal : l.IsNormal) (h : l.Written cs) : Scans cs l.token := by
  cases l with
  | string value =>
      obtain rfl := h
      have hscans := scans_quoted value.toList
      rwa [String.ofList_toList] at hscans
  | number x =>
      obtain ⟨n, rfl, hn⟩ := h
      rw [n.read?_spelling] at hn
      cases hn
      exact scans_numeral n
  | bool b =>
      obtain rfl := h
      cases b
      · exact scans_name (by decide)
      · exact scans_name (by decide)
  | word spelling =>
      obtain rfl := h
      obtain ⟨hname, htrue, hfalse⟩ := hnormal
      have hscans := scans_name hname
      rw [String.ofList_toList, wordToken] at hscans
      simpa [htrue, hfalse, Literal.token] using hscans

theorem scans_attributeName {name : String} (h : IsPlainName name) :
    Scans name.toList (.name name) :=
  scans_literal (l := .word name) h rfl

/-! ### Reading tokens -/

/-- **What a text is read as**, from a stage on: every piece of it is a token, and the tokens give
the header. -/
def ReadsAs (stage : Stage) (cs : List Char) (header : Header) : Prop :=
  ∀ offset, (∀ p ∈ pieces offset cs, p.token?.isSome = true) ∧
    readTokens stage (tokens (pieces offset cs)) = .ok header

variable {stage next : Stage} {token : Token} {add : Header → Header} {header : Header}
  {rest : List Char}

theorem ReadsAs.nil (h : stage.mayEnd = true) : ReadsAs stage [] {} := by
  intro offset
  rw [pieces]
  exact ⟨by simp, by simp [tokens, readTokens, h]⟩

/-- One piece, and the pieces of the rest. -/
theorem pieces_cons {c : Char} {r : List Char} {found : Scan} (hgap : isGap c = false)
    (hscan : scan c r = found) (offset : Nat) :
    pieces offset (c :: r) =
      ⟨found.token?, found.text, ⟨offset, offset + Text.width found.text⟩⟩ ::
        pieces (offset + Text.width found.text) found.rest := by
  rw [pieces, hgap, hscan]
  simp

/-- One token, and what the rest is read as. -/
theorem ReadsAs.cons {c : Char} {r text : List Char} (hgap : isGap c = false)
    (hscan : scan c r = ⟨some token, text, rest⟩) (hstep : stage.step token = some (next, add))
    (h : ReadsAs next rest header) : ReadsAs stage (c :: r) (add header) := by
  intro offset
  obtain ⟨hpieces, htokens⟩ := h (offset + Text.width text)
  have hfirst := pieces_cons hgap hscan offset
  have hfirstTokens : tokens (pieces offset (c :: r)) =
      (token, ⟨offset, offset + Text.width text⟩) ::
        tokens (pieces (offset + Text.width text) rest) := by
    rw [hfirst, tokens, List.filterMap_cons]
    rfl
  constructor
  · rw [hfirst]
    simpa using hpieces
  · rw [hfirstTokens, readTokens, hstep]
    simp only [htokens]

/-- Delimiters add nothing to a header. -/
theorem ReadsAs.delimiter {c : Char} (hc : delimiter? c = some token)
    (hstep : stage.step token = some (next, id)) (h : ReadsAs next rest header) :
    ReadsAs stage (c :: rest) header := by
  have hscan : scan c rest = ⟨some token, [c], rest⟩ := by simp [scan, hc]
  exact ReadsAs.cons (ends_of_delimiter? hc).notGap hscan hstep h

theorem ReadsAs.scans {d : Char} (hcs : Scans cs token) (hd : Ends d)
    (hstep : stage.step token = some (next, add)) (h : ReadsAs next (d :: rest) header) :
    ReadsAs stage (cs ++ d :: rest) (add header) := by
  obtain ⟨c, r, rfl, hgap, hscan⟩ := hcs
  exact ReadsAs.cons hgap (hscan d rest hd) hstep h

/-! ### Reading lists -/

theorem ends_closeParen : Ends ')' := ends_of_delimiter? rfl

theorem ends_closeBracket : Ends ']' := ends_of_delimiter? rfl

/-- Behind an item stands a comma or the closing delimiter. -/
theorem exists_ends_of_following {α : Type} {written : α → List Char → Prop} {items : List α}
    (h : Following written items cs) {close : Char} (hclose : Ends close) (rest : List Char) :
    ∃ d tail, cs ++ close :: rest = d :: tail ∧ Ends d := by
  cases items with
  | nil =>
      obtain rfl := h
      exact ⟨close, rest, rfl, hclose⟩
  | cons item items =>
      obtain ⟨front, back, -, -, rfl⟩ := h
      exact ⟨',', _, rfl, ends_of_delimiter? rfl⟩

theorem step_beforeParam (l : Literal) :
    Stage.beforeParam.step l.token =
      some (.afterParam, fun header => { header with params := l :: header.params }) := by
  cases l <;> rfl

theorem step_afterEquals (name : String) (l : Literal) :
    (Stage.afterEquals name).step l.token =
      some (.afterAttribute,
        fun header => { header with attributes := ⟨name, l⟩ :: header.attributes }) := by
  cases l <;> rfl

theorem ReadsAs.param {d : Char} (hnormal : l.IsNormal) (h : l.Written cs) (hd : Ends d)
    (hrest : ReadsAs .afterParam (d :: rest) header) :
    ReadsAs .beforeParam (cs ++ d :: rest) { header with params := l :: header.params } :=
  ReadsAs.scans (scans_literal hnormal h) hd (step_beforeParam l) hrest

theorem ReadsAs.followingParams {params : List Literal} (hnormal : ∀ l ∈ params, l.IsNormal)
    (h : Following Literal.Written params cs) (hrest : ReadsAs .afterParams rest header) :
    ReadsAs .afterParam (cs ++ ')' :: rest) { header with params := params ++ header.params } := by
  induction params generalizing cs with
  | nil =>
      obtain rfl := h
      exact ReadsAs.delimiter rfl rfl hrest
  | cons l params ih =>
      obtain ⟨front, back, hfront, hback, rfl⟩ := h
      have hrest' := ih (fun l hl => hnormal l (List.mem_cons_of_mem _ hl)) hback
      obtain ⟨d, tail, hshape, hd⟩ := exists_ends_of_following hback ends_closeParen rest
      rw [hshape] at hrest'
      rw [List.cons_append, List.append_assoc, hshape]
      exact ReadsAs.delimiter rfl rfl
        (ReadsAs.param (hnormal l List.mem_cons_self) hfront hd hrest')

theorem ReadsAs.params {params : List Literal} (hnormal : ∀ l ∈ params, l.IsNormal)
    (h : Listed Literal.Written params cs) (hrest : ReadsAs .afterParams rest header) :
    ReadsAs .beforeParam (cs ++ ')' :: rest) { header with params := params ++ header.params } := by
  cases params with
  | nil =>
      obtain rfl := h
      exact ReadsAs.delimiter rfl rfl hrest
  | cons l params =>
      obtain ⟨front, back, hfront, hback, rfl⟩ := h
      have hrest' := ReadsAs.followingParams
        (fun l hl => hnormal l (List.mem_cons_of_mem _ hl)) hback hrest
      obtain ⟨d, tail, hshape, hd⟩ := exists_ends_of_following hback ends_closeParen rest
      rw [hshape] at hrest'
      rw [List.append_assoc, hshape]
      exact ReadsAs.param (hnormal l List.mem_cons_self) hfront hd hrest'

theorem ReadsAs.attribute {a : Attribute} {d : Char} (hnormal : a.IsNormal) (h : a.Written cs)
    (hd : Ends d) (hrest : ReadsAs .afterAttribute (d :: rest) header) :
    ReadsAs .beforeAttribute (cs ++ d :: rest)
      { header with attributes := a :: header.attributes } := by
  obtain ⟨value, hvalue, rfl⟩ := h
  have hafterEquals : ReadsAs (.afterEquals a.name) (value ++ d :: rest)
      { header with attributes := a :: header.attributes } :=
    ReadsAs.scans (scans_literal hnormal.2 hvalue) hd (step_afterEquals a.name a.value) hrest
  have hafterName : ReadsAs (.afterName a.name) ('=' :: (value ++ d :: rest))
      { header with attributes := a :: header.attributes } :=
    ReadsAs.delimiter rfl rfl hafterEquals
  have hstep : Stage.beforeAttribute.step (.name a.name) = some (.afterName a.name, id) := rfl
  have hname :=
    ReadsAs.scans (scans_attributeName hnormal.1) (ends_of_delimiter? rfl) hstep hafterName
  rw [List.append_assoc, List.cons_append]
  exact hname

theorem ReadsAs.followingAttributes {attributes : List Attribute}
    (hnormal : ∀ a ∈ attributes, a.IsNormal) (h : Following Attribute.Written attributes cs) :
    ReadsAs .afterAttribute (cs ++ [']']) { attributes := attributes } := by
  induction attributes generalizing cs with
  | nil =>
      obtain rfl := h
      exact ReadsAs.delimiter rfl rfl (ReadsAs.nil rfl)
  | cons a attributes ih =>
      obtain ⟨front, back, hfront, hback, rfl⟩ := h
      have hrest := ih (fun a ha => hnormal a (List.mem_cons_of_mem _ ha)) hback
      obtain ⟨d, tail, hshape, hd⟩ := exists_ends_of_following hback ends_closeBracket []
      rw [hshape] at hrest
      rw [List.cons_append, List.append_assoc, hshape]
      exact ReadsAs.delimiter rfl rfl
        (ReadsAs.attribute (hnormal a List.mem_cons_self) hfront hd hrest)

theorem ReadsAs.bracketed {attributes : List Attribute} (hnormal : ∀ a ∈ attributes, a.IsNormal)
    (h : Bracketed attributes cs) : ReadsAs .afterParams cs { attributes := attributes } := by
  cases attributes with
  | nil =>
      obtain rfl := h
      exact ReadsAs.nil rfl
  | cons a attributes =>
      obtain ⟨inside, ⟨front, back, hfront, hback, rfl⟩, rfl⟩ := h
      have hrest := ReadsAs.followingAttributes
        (fun a ha => hnormal a (List.mem_cons_of_mem _ ha)) hback
      obtain ⟨d, tail, hshape, hd⟩ := exists_ends_of_following hback ends_closeBracket []
      rw [hshape] at hrest
      rw [List.cons_append, List.append_assoc, hshape]
      exact ReadsAs.delimiter rfl rfl
        (ReadsAs.attribute (hnormal a List.mem_cons_self) hfront hd hrest)

/-! ### Whole headers -/

/-- **A written header is read as what it came from.** -/
theorem readsAs_of_written (hnormal : header.IsNormal) (h : header.Written cs) :
    ReadsAs .start cs header := by
  obtain ⟨params, attributes, hparams, hattributes, rfl⟩ := h
  have hrest := ReadsAs.params hnormal.1 hparams (ReadsAs.bracketed hnormal.2 hattributes)
  rw [List.append_nil] at hrest
  exact ReadsAs.delimiter rfl rfl hrest

theorem read_of_readsAs (h : ReadsAs .start cs header) (offset : Nat) :
    read offset cs = .ok header := by
  obtain ⟨hpieces, htokens⟩ := h offset
  have hstray : invalid (pieces offset cs) = [] := by
    rw [invalid, List.filter_eq_nil_iff]
    intro p hp
    have hsome := hpieces p hp
    rw [Option.isSome_iff_ne_none] at hsome
    simpa using hsome
  rw [read, htokens, hstray]
  rfl

/-- **A written header is read whole at its place**, where no bracket follows that could begin
attributes. -/
theorem readAt_of_written (hnormal : header.IsNormal) (h : header.Written cs)
    (hrest : rest.head? ≠ some '[') (offset : Nat) :
    readAt ⟨offset, cs ++ rest⟩ = ⟨header, [], ⟨offset + Text.width cs, rest⟩⟩ := by
  rw [readAt, extent_of_written hnormal h hrest]
  simp only [read_of_readsAs (readsAs_of_written hnormal h)]
  rfl

end Header

end TaggedText
