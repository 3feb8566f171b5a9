import TaggedText.Proofs.Header.Shape
import TaggedText.Proofs.Header.Spans

/-!
# The token that makes a header hopeless

A header is read token by token, and as long as it is read it can still be completed.  So the first
token that fits nowhere is the first with which no header begins, and what the message expects
instead is what stands there in some header.

## What a message claims

Its terms are defined by the grammar alone, with no reader in them.  Tokens are those of a header if
they spell one and each of them has a spelling (`IsHeader`), they are viable if a header begins with
them, and a class of tokens can follow them if it stands behind them in some header (`CanFollow`).
`Hopeless` is the complaint about a text whose tokens are no header.  That the tokens of headers are
those of the texts that are accepted is a theorem (`isHeader_iff_exists_read`).

## Why it is right

`Stage.walk` is the stage that tokens lead to.  Tokens are viable exactly if they lead to one
(`viable_iff`): every stage can be completed, by the few tokens of `Stage.finish`, and a walk can be
read off whatever spells a header.  What can follow them is what that stage expects
(`canFollow_iff`).  For this the classes of a header are needed in their order, and a witness for
each class, which has to be spelled as well; a blank behind each spelling keeps it from running into
the next.

`faults_point_at_hopeless` puts the parts together for all texts.
-/

namespace TaggedText.Header

/-! ### Headers and what they begin with -/

/-- **Each of the tokens has a spelling.**  A number or a name need not have one. -/
def Writable (ts : List Token) : Prop :=
  ∀ t ∈ ts, ∃ run, Lexeme t run

/-- **The tokens of a header**: they spell one, and each of them has a spelling. -/
def IsHeader (ts : List Token) : Prop :=
  (∃ header : Header, header.Spells ts) ∧ Writable ts

/-- **Tokens with which a header begins.** -/
def Viable (ts : List Token) : Prop :=
  ∃ behind, IsHeader (ts ++ behind)

/-- **The class can follow** the tokens `front`: it stands behind them in some header. -/
def CanFollow (front : List Token) (c : Class) : Prop :=
  ∃ behind before after, IsHeader (front ++ behind) ∧ IsShape (before ++ c :: after) ∧
    Fits (before ++ c :: after) (front ++ behind) ∧ before.length = front.length

/-- The classes that can follow, each of them once. -/
def Follows (front : List Token) (expected : List Class) : Prop :=
  expected.Nodup ∧ ∀ c, c ∈ expected ↔ CanFollow front c

/-- The faults of a header, if there are any. -/
def faults (offset : Nat) (text : List Char) : List Diagnostic :=
  match read offset text with
  | .ok _ => []
  | .error ds => ds

/-- **The complaint about tokens that are no header.**  It points at the first of them with which
none begins; where all of them begin one, it points at the end of the text. -/
inductive Hopeless (offset : Nat) (text : List Char) : Diagnostic → Prop
  | token {front behind : List (Token × Span)} {t : Token} {span : Span} {expected : List Class} :
      tokens (pieces offset text) = front ++ (t, span) :: behind →
      Viable (front.map Prod.fst) → ¬ Viable (front.map Prod.fst ++ [t]) →
      Follows (front.map Prod.fst) expected →
      Hopeless offset text
        (.malformed span ("Unexpected " ++ t.describe) (expected.map Class.label))
  | finish {expected : List Class} :
      Viable (words text) → ¬ IsHeader (words text) → Follows (words text) expected →
      Hopeless offset text
        (.malformed ⟨offset + Text.width text, tokensEnd offset text⟩
          "Unexpected end of tag header" (expected.map Class.label))

/-! ### Texts for tokens -/

variable {ts front behind : List Token} {t : Token} {c : Class} {offset : Nat} {text : List Char}

theorem Writable.append (hfront : Writable front) (hbehind : Writable behind) :
    Writable (front ++ behind) :=
  fun t ht => (List.mem_append.mp ht).elim (hfront t) (hbehind t)

theorem Writable.of_append_left (h : Writable (front ++ behind)) : Writable front :=
  fun t ht => h t (List.mem_append_left _ ht)

theorem writable_words (text : List Char) : Writable (words text) := by
  intro t ht
  obtain ⟨⟨t, span⟩, hmem, rfl⟩ := List.mem_map.mp ht
  obtain ⟨piece, hpiece, htoken, -⟩ := mem_tokens hmem
  exact ⟨piece.text, (mem_pieces hpiece).2.1 t htoken⟩

/-- **Tokens that have spellings are those of a text**: a blank behind each spelling breaks it
off. -/
theorem exists_tokenized (h : Writable ts) : ∃ text, Tokenized text ts := by
  induction ts with
  | nil => exact ⟨[], .nil⟩
  | cons t ts ih =>
      obtain ⟨⟨run, hrun⟩, hts⟩ := List.forall_mem_cons.mp h
      obtain ⟨rest, hrest⟩ := ih hts
      obtain ⟨c, cs, rfl, hgap⟩ := hrun.exists_cons
      have hscan : scan c (cs ++ ' ' :: rest) = ⟨some t, c :: cs, ' ' :: rest⟩ :=
        hrun.cutOut.scan_eq rfl (breaks_cons (by decide) (by decide))
      exact ⟨_, .token hgap hscan (.gap rfl hrest)⟩

/-- **The tokens of headers** are those of the texts that are accepted. -/
theorem isHeader_iff_exists_read :
    IsHeader ts ↔ ∃ text header, words text = ts ∧ read 0 text = .ok header := by
  constructor
  · rintro ⟨⟨header, hspells⟩, hwritable⟩
    obtain ⟨text, htext⟩ := exists_tokenized hwritable
    have hread : read 0 text = .ok header := read_eq_ok_iff_tokenized.mpr ⟨ts, htext, hspells⟩
    exact ⟨text, header, (tokenized_iff.mp htext).2, hread⟩
  · rintro ⟨text, header, rfl, hread⟩
    exact ⟨⟨header, (read_eq_ok_iff.mp hread).2⟩, writable_words text⟩

/-- The tokens of a text are those of a header where they are read as one. -/
theorem isHeader_words_iff : IsHeader (words text) ↔
    ∃ header, readTokens .start (tokens (pieces offset text)) = .ok header := by
  simp only [readTokens_eq_ok_iff, map_fst_tokens_pieces]
  exact and_iff_left (writable_words text)

theorem exists_lexeme_bool : ∃ run, Lexeme (.bool true) run :=
  ⟨['t', 'r', 'u', 'e'], @Lexeme.word ['t', 'r', 'u', 'e'] rfl⟩

/-- Every class but the end has a token. -/
theorem Class.exists_covers (h : c ≠ .endOfHeader) : ∃ t, c.Covers t ∧ ∃ run, Lexeme t run := by
  cases c with
  | value => exact ⟨.bool true, rfl, exists_lexeme_bool⟩
  | attributeName => exact ⟨.name "a", rfl, ['a'], @Lexeme.word ['a'] rfl⟩
  | openParen => exact ⟨.openParen, rfl, ['('], .delimiter rfl⟩
  | closeParen => exact ⟨.closeParen, rfl, [')'], .delimiter rfl⟩
  | openBracket => exact ⟨.openBracket, rfl, ['['], .delimiter rfl⟩
  | closeBracket => exact ⟨.closeBracket, rfl, [']'], .delimiter rfl⟩
  | comma => exact ⟨.comma, rfl, [','], .delimiter rfl⟩
  | equals => exact ⟨.equals, rfl, ['='], .delimiter rfl⟩
  | endOfHeader => exact absurd rfl h

/-! ### From stage to stage -/

namespace Stage

/-- The stage that tokens lead to, if each of them takes a step. -/
def walk : Stage → List Token → Option Stage
  | stage, [] => some stage
  | stage, t :: ts => (stage.step t).bind fun next => next.1.walk ts

/-- Tokens that complete a header from a stage on. -/
def finish : Stage → List Token
  | start => []
  | beforeParam => [.closeParen]
  | afterParam => [.closeParen]
  | afterParams => []
  | beforeAttribute => [.closeBracket]
  | afterName _ => [.equals, .bool true, .closeBracket]
  | afterEquals _ => [.bool true, .closeBracket]
  | afterAttribute => [.closeBracket]
  | complete => []

variable {stage next last : Stage} {add : Header → Header}

theorem walk_cons (h : stage.step t = some (next, add)) (ts : List Token) :
    stage.walk (t :: ts) = next.walk ts := by
  rw [walk, h, Option.bind_some]

theorem exists_step_of_walk (h : stage.walk (t :: ts) = some last) :
    ∃ next add, stage.step t = some (next, add) ∧ next.walk ts = some last := by
  obtain ⟨⟨next, add⟩, hstep, hnext⟩ := Option.bind_eq_some_iff.mp h
  exact ⟨next, add, hstep, hnext⟩

theorem walk_append (front behind : List Token) (stage : Stage) :
    stage.walk (front ++ behind) = (stage.walk front).bind fun last => last.walk behind := by
  induction front generalizing stage with
  | nil => rfl
  | cons t front ih =>
      rw [List.cons_append, walk, walk, Option.bind_assoc]
      exact Option.bind_congr fun next _ => ih next.1

/-- **Every stage can still be completed.** -/
theorem exists_completes_finish (stage : Stage) :
    ∃ header, stage.Completes header stage.finish := by
  have hread : ∃ header,
      readTokens stage (stage.finish.map fun t => (t, ⟨0, 0⟩)) = .ok header := by
    cases stage <;> exact ⟨_, rfl⟩
  obtain ⟨header, hread⟩ := hread
  refine ⟨header, ?_⟩
  simpa [Function.comp_def] using readTokens_eq_ok_iff.mp hread

theorem writable_finish (stage : Stage) : Writable stage.finish := by
  intro t ht
  have htoken : t = .closeParen ∨ t = .closeBracket ∨ t = .equals ∨ t = .bool true := by
    cases stage <;> grind [finish]
  rcases htoken with rfl | rfl | rfl | rfl
  · exact ⟨[')'], .delimiter rfl⟩
  · exact ⟨[']'], .delimiter rfl⟩
  · exact ⟨['='], .delimiter rfl⟩
  · exact exists_lexeme_bool

/-- **What completes a header goes on from the stage** that its first tokens lead to. -/
theorem exists_completes_append_iff : (∃ header, stage.Completes header (front ++ behind)) ↔
    ∃ last, stage.walk front = some last ∧ ∃ header, last.Completes header behind := by
  induction front generalizing stage with
  | nil => simp [walk]
  | cons t front ih =>
      constructor
      · rintro ⟨header, h⟩
        obtain ⟨next, add, rest, hstep, -, hrest⟩ := exists_step h
        rw [walk_cons hstep]
        exact ih.mp ⟨rest, hrest⟩
      · rintro ⟨last, hwalk, hlast⟩
        obtain ⟨next, add, hstep, hnext⟩ := exists_step_of_walk hwalk
        obtain ⟨rest, hrest⟩ := ih.mpr ⟨last, hnext, hlast⟩
        exact ⟨add rest, completes_of_step hstep hrest⟩

/-- What is left of a shape when tokens that fit it have been read. -/
theorem shapes_of_walk {before after : List Class} (hshapes : stage.Shapes (before ++ after))
    (h : Fits (before ++ after) (front ++ behind)) (hlength : before.length = front.length)
    (hwalk : stage.walk front = some last) : last.Shapes after := by
  induction front generalizing stage before with
  | nil =>
      obtain rfl := List.length_eq_zero_iff.mp hlength
      cases hwalk
      exact hshapes
  | cons t front ih =>
      cases before with
      | nil => cases hlength
      | cons c before =>
          obtain ⟨hcovers, hfits⟩ := fits_cons_iff.mp h
          obtain ⟨next, add, hstep, hnext⟩ :=
            exists_step_of_covers (mem_expected_of_shapes hshapes) hcovers
          rw [walk_cons hstep] at hwalk
          exact ih ((hnext _).mp hshapes) hfits (Nat.succ.inj hlength) hwalk

/-- The classes of tokens that lead to a stage, whatever stands behind them. -/
theorem exists_shapes_of_walk (h : stage.walk front = some last) :
    ∃ before : List Class, before.length = front.length ∧
      (∀ cs, last.Shapes cs → stage.Shapes (before ++ cs)) ∧
      ∀ cs ts, Fits cs ts → Fits (before ++ cs) (front ++ ts) := by
  induction front generalizing stage with
  | nil =>
      cases h
      exact ⟨[], rfl, fun _ hcs => hcs, fun _ _ hfits => hfits⟩
  | cons t front ih =>
      obtain ⟨next, add, hstep, hnext⟩ := exists_step_of_walk h
      obtain ⟨before, hlength, hshapes, hfits⟩ := ih hnext
      obtain ⟨c, hmem, hcovers⟩ := exists_covers_of_step hstep
      obtain ⟨next', add', hstep', hiff⟩ := exists_step_of_covers hmem hcovers
      rw [hstep] at hstep'
      cases hstep'
      exact ⟨c :: before, congrArg Nat.succ hlength, fun cs hcs => (hiff _).mpr (hshapes cs hcs),
        fun cs ts hcs => .token hcovers (hfits cs ts hcs)⟩

/-- What is expected at a stage is where some tokens go on to complete a header. -/
theorem exists_fits_of_mem_expected (h : c ∈ stage.expected) :
    ∃ after ts, stage.Shapes (c :: after) ∧ Fits (c :: after) ts ∧
      (∃ header, stage.Completes header ts) ∧ Writable ts := by
  by_cases hend : c = .endOfHeader
  · subst hend
    have hmay := endOfHeader_mem_expected_iff.mp h
    exact ⟨[], [], shapes_end_iff.mpr hmay, .finish, ⟨{}, completes_nil_iff.mpr ⟨hmay, rfl⟩⟩, nofun⟩
  · obtain ⟨t, hcovers, hlexeme⟩ := Class.exists_covers hend
    obtain ⟨next, add, hstep, hnext⟩ := exists_step_of_covers h hcovers
    obtain ⟨header, hfinish⟩ := next.exists_completes_finish
    obtain ⟨after, hafter, hfits⟩ := exists_fits_of_completes hfinish
    exact ⟨after, t :: next.finish, (hnext after).mpr hafter, .token hcovers hfits,
      ⟨add header, completes_of_step hstep hfinish⟩,
      List.forall_mem_cons.mpr ⟨hlexeme, next.writable_finish⟩⟩

theorem nodup_expected (stage : Stage) : stage.expected.Nodup := by
  cases stage <;> simp [expected]

end Stage

/-! ### What can follow -/

theorem exists_spells_append_iff : (∃ header : Header, header.Spells (front ++ behind)) ↔
    ∃ last, Stage.start.walk front = some last ∧ ∃ header, last.Completes header behind :=
  @Stage.exists_completes_append_iff front behind .start

/-- **What headers begin with leads to a stage.** -/
theorem viable_iff (hwritable : Writable front) :
    Viable front ↔ ∃ last, Stage.start.walk front = some last := by
  constructor
  · rintro ⟨behind, hheader⟩
    obtain ⟨last, hlast, -⟩ := exists_spells_append_iff.mp hheader.1
    exact ⟨last, hlast⟩
  · rintro ⟨last, hlast⟩
    have hspells := exists_spells_append_iff.mpr ⟨last, hlast, last.exists_completes_finish⟩
    exact ⟨last.finish, hspells, hwritable.append last.writable_finish⟩

/-- **What can follow is what the stage expects** that the tokens lead to. -/
theorem canFollow_iff {last : Stage} (hwritable : Writable front)
    (hlast : Stage.start.walk front = some last) : CanFollow front c ↔ c ∈ last.expected := by
  constructor
  · rintro ⟨behind, before, after, -, hshape, hfits, hlength⟩
    have hstart : Stage.start.Shapes (before ++ c :: after) := hshape
    exact Stage.mem_expected_of_shapes (Stage.shapes_of_walk hstart hfits hlength hlast)
  · intro hmem
    obtain ⟨before, hlength, hshapes, hfits⟩ := Stage.exists_shapes_of_walk hlast
    obtain ⟨after, ts, hafter, hts, hcompletes, hbehind⟩ := Stage.exists_fits_of_mem_expected hmem
    have hspells := exists_spells_append_iff.mpr ⟨last, hlast, hcompletes⟩
    have hheader : IsHeader (front ++ ts) := ⟨hspells, hwritable.append hbehind⟩
    exact ⟨ts, before, after, hheader, hshapes _ hafter, hfits _ _ hts, hlength⟩

theorem follows_expected {last : Stage} (hwritable : Writable front)
    (hlast : Stage.start.walk front = some last) : Follows front last.expected :=
  ⟨last.nodup_expected, fun _ => (canFollow_iff hwritable hlast).symm⟩

/-! ### Where reading stops -/

/-- **Tokens are read up to the first without a step**, or up to an end that comes too early. -/
theorem cases_of_readTokens_error {stage : Stage} {ts : List (Token × Span)} {u : Unexpected}
    (h : readTokens stage ts = .error u) :
    (∃ front t behind last, ts = front ++ t :: behind ∧
        stage.walk (front.map Prod.fst) = some last ∧ last.step t.1 = none ∧
        u = ⟨some t, last.expected⟩) ∨
      ∃ last, stage.walk (ts.map Prod.fst) = some last ∧ last.mayEnd = false ∧
        u = ⟨none, last.expected⟩ := by
  induction ts generalizing stage with
  | nil =>
      rw [readTokens] at h
      split at h
      · cases h
      · next hopen =>
          cases h
          exact .inr ⟨stage, rfl, by simpa using hopen, rfl⟩
  | cons t ts ih =>
      obtain ⟨token, span⟩ := t
      rw [readTokens] at h
      split at h
      · next next add hstep =>
          split at h
          · cases h
          · next hrest =>
              cases h
              rcases ih hrest with ⟨front, t, behind, last, rfl, hwalk, hnone, rfl⟩ |
                ⟨last, hwalk, hopen, rfl⟩
              · refine .inl ⟨(token, span) :: front, t, behind, last, rfl, ?_, hnone, rfl⟩
                rw [List.map_cons, Stage.walk_cons hstep, hwalk]
              · refine .inr ⟨last, ?_, hopen, rfl⟩
                rw [List.map_cons, Stage.walk_cons hstep, hwalk]
      · next hstep =>
          cases h
          exact .inl ⟨[], (token, span), ts, stage, rfl, rfl, hstep, rfl⟩

/-- **Where reading stops, the header is hopeless.** -/
theorem hopeless_of_readTokens_error {u : Unexpected}
    (h : readTokens .start (tokens (pieces offset text)) = .error u) :
    Hopeless offset text (u.diagnostic (offset + Text.width text) (tokensEnd offset text)) := by
  have hwords := map_fst_tokens_pieces offset text
  rcases cases_of_readTokens_error h with
    ⟨front, ⟨t, span⟩, behind, last, htokens, hwalk, hnone, rfl⟩ | ⟨last, hwalk, hopen, rfl⟩
  · have hsplit : words text = front.map Prod.fst ++ [t] ++ behind.map Prod.fst := by
      simp [← hwords, htokens]
    have hthrough : Writable (front.map Prod.fst ++ [t]) :=
      (hsplit ▸ writable_words text).of_append_left
    have hfront := hthrough.of_append_left
    refine .token htokens ((viable_iff hfront).mpr ⟨last, hwalk⟩) ?_ (follows_expected hfront hwalk)
    rw [viable_iff hthrough, Stage.walk_append, hwalk]
    simp [Stage.walk, hnone]
  · rw [hwords] at hwalk
    have hwritable := writable_words text
    refine .finish ((viable_iff hwritable).mpr ⟨last, hwalk⟩) ?_ (follows_expected hwritable hwalk)
    intro hheader
    obtain ⟨header, hread⟩ := isHeader_words_iff.mp hheader
    rw [h] at hread
    cases hread

/-! ### All faults -/

theorem faults_of_readTokens_ok {header : Header}
    (h : readTokens .start (tokens (pieces offset text)) = .ok header) :
    faults offset text = (invalid (pieces offset text)).map Piece.diagnostic := by
  simp only [faults, read, h]
  split
  · next hread =>
      split at hread
      · next hstray => exact (List.isEmpty_iff.mp hstray).symm
      · cases hread
  · next hread =>
      split at hread
      · cases hread
      · cases hread
        rfl

theorem faults_perm_of_readTokens_error {u : Unexpected}
    (h : readTokens .start (tokens (pieces offset text)) = .error u) :
    (faults offset text).Perm ((invalid (pieces offset text)).map Piece.diagnostic ++
      [u.diagnostic (offset + Text.width text) (tokensEnd offset text)]) := by
  simp only [faults, read, h]
  exact List.mergeSort_perm _ _

theorem faults_sorted (offset : Nat) (text : List Char) :
    (faults offset text).Pairwise fun a b => a.span.start ≤ b.span.start := by
  unfold faults
  split
  · exact .nil
  · next hread => exact sorted_of_read_error hread

/-- **The faults of a header point at what makes it hopeless.**  Besides those of the invalid pieces
there is one fault if the tokens are no header, and none if they are one.  It points at the first
token with which no header begins, or at the end if all tokens begin one, and lists what can follow
the tokens in front of it.  All faults stand in the order in which they begin. -/
theorem faults_point_at_hopeless (offset : Nat) (text : List Char) :
    (faults offset text).Pairwise (fun a b => a.span.start ≤ b.span.start) ∧
      ∃ fault : Option Diagnostic,
        (faults offset text).Perm
          ((invalid (pieces offset text)).map Piece.diagnostic ++ fault.toList) ∧
        (fault = none ↔ IsHeader (words text)) ∧
        ∀ d ∈ fault, Hopeless offset text d := by
  refine ⟨faults_sorted offset text, ?_⟩
  have hheader := @isHeader_words_iff offset text
  cases hread : readTokens .start (tokens (pieces offset text)) with
  | ok header =>
      rw [hread] at hheader
      exact ⟨none, by simp [faults_of_readTokens_ok hread], by simp [hheader], nofun⟩
  | error u =>
      rw [hread] at hheader
      refine ⟨some _, faults_perm_of_readTokens_error hread, by simp [hheader], ?_⟩
      rintro d ⟨⟩
      exact hopeless_of_readTokens_error hread

-- Behind a parameter no other can follow at once, and an exclamation mark is no token.
example : faults 0 ['(', 'a', ' ', 'b', '!', ')'] =
    [.malformed ⟨3, 4⟩ "Unexpected identifier 'b'" ["','", "')'"],
      .malformed ⟨4, 5⟩ "Unexpected character '!'" []] := by
  cbv

end TaggedText.Header
