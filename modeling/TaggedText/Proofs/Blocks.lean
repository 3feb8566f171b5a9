import Mathlib.Data.List.SplitBy
import TaggedText.Proofs.Limits
import TaggedText.Proofs.Siblings

/-!
# Blocks as text

A resolver learns what is in a block as one text, as a text for each child, or as a text for each
run of packets of one kind.  All three are made of the same packets, the markup of the children in
order, and none is lost, doubled or moved.

## Runs

`Packet.runs` splits packets into maximal runs of those that stand in a line and those that do not,
by the library's `List.splitBy`.  The texts of display mode come from a scan that carries a text in
progress, and `Inquiry.joinRuns_eq_runs` generalises it to a run in progress: the next packet goes
on with the run, or ends it.  That runs alternate (`IsRun.alternate`) is the same two cases once
more.

## What a block comes back as

`Engine.AnswersForBlock` collects what the inquiries give, with a field for each, in terms of the
markup of the children one level down (`Engine.markupOf`).  The children have to be rendered without
a fault, since a fault ends the inquiry.

## A block and a document

A document with the same body has the same markup, but it is rendered with another number of levels.
`collect_dispatchWithin_eq` shows that the number makes no difference where it is enough, and it
goes through the strict engine with the fewer levels, which every other engine extends.

That is where the interpreters besides the library's come in.  One that swallows the faults of what
it dispatches can find out how many levels are left, one that reads the policy can find it out where
faults are forgiven, and one may fault only there.  `Engine.sounding_differs` has an engine with all
three, on which a block and a document with the same body differ, and a block is lost that a strict
engine renders.  So `Engine.answersForBlock_of_renders` asks that the children are rendered without
a fault under the engine's own policy as well, and, for the document, that faults are passed on and
the policy is not read.

The same example shows why the children are rendered one level below the inquiry.  On their own they
may take all the levels there are, and then nothing is left for the inquiry around them.
-/

namespace TaggedText

/-! ### Runs of packets -/

namespace Packet

/-- **Packets as maximal runs** of those that stand in a line and those that do not. -/
def runs (ps : List Packet) : List (List Packet) :=
  ps.splitBy fun p q => p.isInline == q.isInline

/-- **A run**: packets that all stand in a line, or all do not. -/
structure IsRun (isInline : Bool) (run : List Packet) : Prop where
  ne_nil : run ≠ []
  kind : ∀ p ∈ run, p.isInline = isInline

namespace IsRun

variable {isInline : Bool} {run : List Packet} {q : Packet}

theorem singleton (hq : q.isInline = isInline) : IsRun isInline [q] where
  ne_nil := by simp
  kind p hp := by rw [List.mem_singleton.mp hp, hq]

theorem concat (h : IsRun isInline run) (hq : q.isInline = isInline) :
    IsRun isInline (run ++ [q]) where
  ne_nil := by simp
  kind p hp := by
    rcases List.mem_append.mp hp with hp | hp
    · exact h.kind p hp
    · rw [List.mem_singleton.mp hp, hq]

theorem runs_eq (h : IsRun isInline run) : runs run = [run] := by
  refine List.splitBy_of_isChain h.ne_nil (List.Pairwise.isChain ?_)
  refine List.pairwise_of_forall_mem_list fun p hp q hq => ?_
  simp [h.kind p hp, h.kind q hq]

/-- A packet of the other kind ends a run. -/
theorem runs_append_cons (h : IsRun isInline run) (hq : q.isInline = !isInline)
    (rest : List Packet) : runs (run ++ q :: rest) = run :: runs (q :: rest) := by
  rw [runs, List.splitBy_append, ← runs, h.runs_eq]
  · rfl
  · intro p hp q' hq'
    rw [List.head?_cons, Option.mem_some_iff] at hq'
    rw [← hq', hq, h.kind p (List.mem_of_mem_getLast? hp)]
    cases isInline <;> rfl

/-- **Runs alternate**, beginning with the kind of the first packet. -/
theorem alternate (h : IsRun isInline run) (rest : List Packet) {k : Nat} {run' : List Packet}
    (hk : (runs (run ++ rest))[k]? = some run') :
    IsRun (isInline == (k % 2 == 0)) run' := by
  induction rest generalizing isInline run k with
  | nil =>
      rw [List.append_nil, h.runs_eq] at hk
      obtain ⟨rfl, rfl⟩ : k = 0 ∧ run = run' := by
        cases k <;> simp_all
      simpa using h
  | cons q rest ih =>
      by_cases hq : q.isInline = isInline
      · exact ih (h.concat hq) (by simpa using hk)
      · have hother : q.isInline = !isInline := Bool.eq_not_of_ne hq
        rw [h.runs_append_cons hother] at hk
        cases k with
        | zero =>
            cases hk
            simpa using h
        | succ k =>
            have hnext := ih (singleton hother) hk
            have hkind : ((!isInline) == (k % 2 == 0)) = (isInline == ((k + 1) % 2 == 0)) := by
              rcases Nat.mod_two_eq_zero_or_one k with hmod | hmod <;> cases isInline <;>
                simp [Nat.add_mod, hmod]
            rwa [hkind] at hnext

end IsRun

end Packet

namespace Inquiry

open Packet (IsRun runs)

@[simp] theorem contents_append (ps qs : List Packet) :
    contents (ps ++ qs) = contents ps ++ contents qs := by
  simp [contents]

theorem contents_singleton (p : Packet) : contents [p] = p.content := by
  simp [contents]

/-- The contents of parts, joined, are the contents of the whole. -/
theorem join_map_contents (parts : List (List Packet)) :
    String.join (parts.map contents) = contents parts.flatten := by
  induction parts with
  | nil => rfl
  | cons part rest ih => simp [ih]

/-- **The texts of display mode are those of the maximal runs.** -/
theorem joinRuns_eq_runs {isInline : Bool} {run : List Packet} (h : IsRun isInline run)
    (rest : List Packet) :
    joinRuns isInline (contents run) rest = (runs (run ++ rest)).map contents := by
  -- The text so far is that of a run that goes on, or ends, with the next packet.
  induction rest generalizing isInline run with
  | nil => simp [joinRuns, h.runs_eq]
  | cons q rest ih =>
      rw [joinRuns]
      by_cases hq : q.isInline = isInline
      · rw [if_pos (by simpa using hq), ← contents_singleton q, ← contents_append,
          ih (h.concat hq), List.append_assoc, List.singleton_append]
      · have hother : q.isInline = !isInline := Bool.eq_not_of_ne hq
        rw [if_neg (by simpa using hq), h.runs_append_cons hother, List.map_cons,
          ← contents_singleton q, ih (.singleton hother), List.singleton_append]

/-- So they are for packets that begin in a line. -/
theorem joinRuns_cons_eq_runs {p : Packet} (hp : p.isInline = true) (rest : List Packet) :
    joinRuns true "" (p :: rest) = (runs (p :: rest)).map contents := by
  rw [joinRuns, if_pos (by simp [hp]), String.empty_append, ← contents_singleton p,
    joinRuns_eq_runs (.singleton hp), List.singleton_append]

theorem join_map_contents_runs (ps : List Packet) :
    String.join ((runs ps).map contents) = contents ps := by
  rw [join_map_contents, runs, List.flatten_splitBy]

/-- In display mode a tag in front is preceded by an empty text. -/
def leadIn : List Node → List Packet
  | [] => []
  | first :: _ => if first.isText then [] else [.html (some .inline) ""]

/-- The text in front is empty. -/
theorem contents_leadIn (body : List Node) : contents (leadIn body) = "" := by
  cases body with
  | nil => rfl
  | cons first rest => cases first <;> rfl

section

variable {context : Context} {command : Command} {block : Block}

theorem subjectBlock_eq {tag : Tag} (htag : command.tag? = some tag)
    (hblock : tag.block? (command.index.getD 0) = some block) :
    subjectBlock context command = .done (some block) := by
  simp [subjectBlock, subjectTag, htag, hblock]

variable {parts : List (List Packet)} (hsubject : subjectBlock context command = .done (some block))
  (hparts : htmlPacketsOfNodes context (block.body.map .ofNode) = .done parts)

include hsubject hparts

theorem getBlock_eq : getBlock context command = .done (some (.string (contents parts.flatten))) := by
  simp [getBlock, hsubject, hparts]

theorem getBlockChildNodes_eq (hbody : block.body ≠ []) (hmode : command.displayMode = false) :
    getBlockChildNodes context command =
      .done (some (.array (parts.map fun part => .string (contents part)))) := by
  obtain ⟨first, rest, hcons⟩ := List.exists_cons_of_ne_nil hbody
  rw [hcons, List.map_cons] at hparts
  simp [getBlockChildNodes, hsubject, hcons, hmode, hparts]

/-- In display mode the text in front is rendered with the children. -/
theorem getBlockChildNodes_eq_joinRuns (hbody : block.body ≠ [])
    (hmode : command.displayMode = true)
    (hlead : htmlPackets context (.text "") = .done [.html (some .inline) ""]) :
    getBlockChildNodes context command =
      .done (some (.array ((joinRuns true "" (leadIn block.body ++ parts.flatten)).map
        Json.string))) := by
  obtain ⟨first, rest, hcons⟩ := List.exists_cons_of_ne_nil hbody
  rw [hcons, List.map_cons] at hparts
  cases hfirst : first.isText with
  | true =>
      simp [getBlockChildNodes, hsubject, hcons, hmode, hparts, hfirst, leadIn]
  | false =>
      have hled : htmlPacketsOfNodes context
          (.text "" :: .ofNode first :: rest.map .ofNode) =
            .done ([.html (some .inline) ""] :: parts) := by
        rw [htmlPacketsOfNodes, hlead, hparts]
        rfl
      simp [getBlockChildNodes, hsubject, hcons, hmode, hled, hfirst, leadIn]

end

end Inquiry

/-! ### Parts of documents -/

namespace Engine

/-- **A part of a document is rendered without a fault**, with `left` levels left. -/
def Renders (e : Engine) (left : Nat) (subject : Subject) : Prop :=
  ∀ fault, (e.dispatchWithin left (.render subject)).collect.2 ≠ .error (.fault fault)

theorem Renders.of_isOk {e : Engine} {left : Nat} {subject : Subject}
    (h : (e.dispatchWithin left (.render subject)).collect.2.isOk = true) :
    e.Renders left subject := by
  intro fault hfault
  rw [hfault] at h
  cases h

/-- **The markup of a part of a document**: the packets of that name. -/
def markupOf (e : Engine) (left : Nat) (subject : Subject) : List Packet :=
  (e.dispatchWithin left (.render subject)).collect.1.filter Packet.isHtml

/-- The markup of a body, child by child. -/
def partsOf (e : Engine) (left : Nat) (body : List Node) : List (List Packet) :=
  body.map fun node => e.markupOf left (.ofNode node)

/-- The markup of a body is what its packets hold of it. -/
theorem flatten_partsOf (e : Engine) (left : Nat) (body : List Node) :
    (e.partsOf left body).flatten = (body.flatMap fun node =>
      (e.dispatchWithin left (.render (.ofNode node))).collect.1).filter Packet.isHtml := by
  rw [List.filter_flatMap]
  rfl

/-- The markup of a body, run by run, beginning with one that stands in a line. -/
def runsOf (e : Engine) (left : Nat) (body : List Node) : List (List Packet) :=
  Packet.runs (Inquiry.leadIn body ++ (e.partsOf left body).flatten)

variable {e : Engine} {left : Nat}

section

variable (he : e.registry.Extends .builtins)

include he

/-- Where a strict engine renders a node, there are levels for it. -/
theorem exists_left_of_renders (hpolicy : e.policy = .strict) {node : Node}
    (h : e.Renders left (.ofNode node)) : ∃ left', left = left' + 2 := by
  have hsettle : ∀ fault, (e.policy.settle fault : Emitter (Option Json)).collect.2 =
      .error (.fault fault) := fun fault => by rw [hpolicy]; rfl
  match left with
  | left + 2 => exact ⟨left, rfl⟩
  | 1 =>
      unfold Renders at h
      rw [dispatch_render he] at h
      cases node <;> exact absurd (hsettle _) (h _)
  | 0 => exact absurd (hsettle _) (h _)

/-- The markup of a text is one packet that stands in a line. -/
theorem markupOf_text (value : String) :
    e.markupOf (left + 2) (.text value) = [.html (some .inline) value] := by
  rw [markupOf, dispatch_renderText he]
  rfl

/-- A text is rendered wherever there are levels. -/
theorem renders_text (value : String) : e.Renders (left + 2) (.text value) := by
  intro fault
  rw [dispatch_renderText he]
  nofun

/-- With the text in front, the markup of a body begins in a line. -/
theorem exists_leadIn_append_eq_cons (left : Nat) (first : Node) (rest : List Node) :
    ∃ p ps, Inquiry.leadIn (first :: rest) ++ (e.partsOf (left + 2) (first :: rest)).flatten =
      p :: ps ∧ p.isInline = true := by
  cases first with
  | text value =>
      refine ⟨.html (some .inline) value, (e.partsOf (left + 2) rest).flatten, ?_, rfl⟩
      simp [Inquiry.leadIn, Node.isText, partsOf, Subject.ofNode, markupOf_text he]
  | tag tag => exact ⟨.html (some .inline) "", _, rfl, rfl⟩

section

variable (hothers : e.registry.All fun name i =>
  Registry.builtins.find? name = none → i.behaviour.Persists)

include hothers

/-- What is rendered without a fault has a value. -/
theorem Renders.exists_collect_eq {subject : Subject} (h : e.Renders left subject) :
    ∃ value, (e.dispatchWithin left (.render subject)).collect =
      ((e.dispatchWithin left (.render subject)).collect.1, .ok value) := by
  rcases (dispatchWithin_persists he hothers left (.render subject)).collect_cases with
    ⟨packets, value, hcollect⟩ | ⟨packets, fault, hcollect⟩
  · exact ⟨value, by rw [hcollect]⟩
  · exact absurd (by rw [hcollect]) (h fault)

/-- An inquiry keeps the markup of what it renders. -/
theorem htmlPackets_eq_markupOf {subject : Subject} (h : e.Renders left subject) :
    Inquiry.htmlPackets (e.contextWithin left) subject = .done (e.markupOf left subject) := by
  obtain ⟨value, hcollect⟩ := h.exists_collect_eq he hothers
  rw [Inquiry.htmlPackets, contextWithin, hcollect]
  rfl

/-- The markup of a body is kept child by child. -/
theorem htmlPacketsOfNodes_eq_partsOf {body : List Node}
    (h : ∀ node ∈ body, e.Renders left (.ofNode node)) :
    Inquiry.htmlPacketsOfNodes (e.contextWithin left) (body.map .ofNode) =
      .done (e.partsOf left body) := by
  induction body with
  | nil => rfl
  | cons node rest ih =>
      rw [List.map_cons, Inquiry.htmlPacketsOfNodes,
        htmlPackets_eq_markupOf he hothers (h node List.mem_cons_self),
        ih fun node hnode => h node (List.mem_cons_of_mem _ hnode)]
      rfl

end

end

/-! ### Inquiries about a block -/

/-- **What the inquiries about a block give**: all of its markup, in order, as one text, child by
child and run by run.  They are values at once, so no packet comes with them. -/
structure AnswersForBlock (e : Engine) (left : Nat) (command : Command) (body : List Node) :
    Prop where
  asText : e.dispatchWithin (left + 1) { command with name := "getBlock" } =
    .done (some (.string (Inquiry.contents (e.partsOf left body).flatten)))
  byChild : e.dispatchWithin (left + 1)
      { command with name := "getBlockChildNodes", displayMode := false } =
    .done (some (.array ((e.partsOf left body).map fun part => .string (Inquiry.contents part))))
  byRun : e.dispatchWithin (left + 1)
      { command with name := "getBlockChildNodes", displayMode := true } =
    .done (some (.array ((e.runsOf left body).map fun run => .string (Inquiry.contents run))))
  /-- The first run stands in a line, the second does not, and so on. -/
  alternate : ∀ k run, (e.runsOf left body)[k]? = some run → Packet.IsRun (k % 2 == 0) run
  join_byChild : String.join ((e.partsOf left body).map Inquiry.contents) =
    Inquiry.contents (e.partsOf left body).flatten
  join_byRun : String.join ((e.runsOf left body).map Inquiry.contents) =
    Inquiry.contents (e.partsOf left body).flatten

section

variable (he : e.registry.Extends .builtins) (hothers : e.registry.All fun name i =>
    Registry.builtins.find? name = none → i.behaviour.Persists)
  {command : Command} {tag : Tag} {block : Block} (htag : command.tag? = some tag)
  (hblock : tag.block? (command.index.getD 0) = some block) (hbody : block.body ≠ [])
  (hrenders : ∀ node ∈ block.body, e.Renders left (.ofNode node))

include he hothers htag hblock hbody hrenders

/-- **The inquiries about a block account for its markup**, where there are levels for texts. -/
theorem answersForBlock_of_levels (hlevels : ∃ left', left = left' + 2) :
    e.AnswersForBlock left command block.body := by
  obtain ⟨left, rfl⟩ := hlevels
  have hparts := htmlPacketsOfNodes_eq_partsOf he hothers hrenders
  obtain ⟨first, rest, hcons⟩ := List.exists_cons_of_ne_nil hbody
  obtain ⟨p, ps, hmarkup, hinline⟩ := exists_leadIn_append_eq_cons he left first rest
  rw [← hcons] at hmarkup
  have hlead : Inquiry.htmlPackets (e.contextWithin (left + 2)) (.text "") =
      .done [.html (some .inline) ""] := by
    rw [htmlPackets_eq_markupOf he hothers (renders_text he ""), markupOf_text he]
  have hsubject : ∀ name displayMode, Inquiry.subjectBlock (e.contextWithin (left + 2))
      { command with name := name, displayMode := displayMode } = .done (some block) :=
    fun _ _ => Inquiry.subjectBlock_eq htag hblock
  have hchildNodes : ∀ displayMode, e.dispatchWithin (left + 2 + 1)
      { command with name := "getBlockChildNodes", displayMode := displayMode } =
        Inquiry.getBlockChildNodes (e.contextWithin (left + 2))
          { command with name := "getBlockChildNodes", displayMode := displayMode } :=
    fun _ => dispatchWithin_builtin he _ (i := ⟨.isPublic, Inquiry.getBlockChildNodes⟩)
      (by simp [Registry.builtins]) _
  refine ⟨?asText, ?byChild, ?byRun, ?alternate, ?join_byChild, ?join_byRun⟩
  case asText =>
    rw [dispatchWithin_builtin he { command with name := "getBlock" }
      (i := ⟨.isPublic, Inquiry.getBlock⟩) (by simp [Registry.builtins])]
    exact Inquiry.getBlock_eq (hsubject _ _) hparts
  case byChild =>
    rw [hchildNodes]
    exact Inquiry.getBlockChildNodes_eq (hsubject _ _) hparts hbody rfl
  case byRun =>
    rw [hchildNodes]
    refine (Inquiry.getBlockChildNodes_eq_joinRuns (hsubject _ _) hparts hbody rfl hlead).trans ?_
    rw [runsOf, hmarkup, Inquiry.joinRuns_cons_eq_runs hinline, List.map_map]
    rfl
  case alternate =>
    intro k run hk
    rw [runsOf, hmarkup] at hk
    simpa using (Packet.IsRun.singleton hinline).alternate ps hk
  case join_byChild => exact Inquiry.join_map_contents _
  case join_byRun =>
    rw [runsOf, Inquiry.join_map_contents_runs, Inquiry.contents_append, Inquiry.contents_leadIn,
      String.empty_append]

end

/-! ### A block and a document -/

section

variable (hpass : e.registry.All fun _ i => i.behaviour.IsOwn ∨
    (e.policy = .strict ∨ i.behaviour.IgnoresPolicy) ∧ i.behaviour.PassesFaultsOn)
  {left' : Nat} {subject : Subject} (h : (e.limited .strict e.maxDepth).Renders left subject)

include hpass h

/-- What a strict engine renders without a fault is the same with more levels, whatever the policy. -/
theorem collect_dispatchWithin_of_le (hle : left ≤ left') :
    (e.dispatchWithin left' (.render subject)).collect =
      ((e.limited .strict e.maxDepth).dispatchWithin left (.render subject)).collect := by
  rcases (dispatchWithin_cutOff_of_policy hpass e.maxDepth e.maxDepth hle
    (.render subject)).collect_cases with ⟨fault, hfault⟩ | hcollect
  · exact absurd hfault (h fault)
  · exact hcollect.symm

/-- **The number of levels makes no difference** to what a strict engine renders without a fault with
either. -/
theorem collect_dispatchWithin_eq (h' : (e.limited .strict e.maxDepth).Renders left' subject) :
    (e.dispatchWithin left (.render subject)).collect =
      (e.dispatchWithin left' (.render subject)).collect := by
  -- With the fewer levels of the two, a strict engine gives what both give.
  rcases Nat.le_total left left' with hle | hle
  · rw [collect_dispatchWithin_of_le hpass h (Nat.le_refl left),
      collect_dispatchWithin_of_le hpass h hle]
  · rw [collect_dispatchWithin_of_le hpass h' hle,
      collect_dispatchWithin_of_le hpass h' (Nat.le_refl left')]

end

theorem renderEach_cons (node : Node) (rest : List Node) :
    Rendering.renderEach (e.contextWithin left) (node :: rest) =
      (e.dispatchWithin left (.render (.ofNode node))).bind fun _ =>
        Rendering.renderEach (e.contextWithin left) rest :=
  rfl

section

variable (he : e.registry.Extends .builtins) (hothers : e.registry.All fun name i =>
    Registry.builtins.find? name = none → i.behaviour.Persists)

include he hothers

/-- Nodes that are rendered one after the other give what each of them gives. -/
theorem collect_renderEach_of_renders {nodes : List Node}
    (h : ∀ node ∈ nodes, e.Renders left (.ofNode node)) :
    (Rendering.renderEach (e.contextWithin left) nodes).collect =
      (nodes.flatMap fun node => (e.dispatchWithin left (.render (.ofNode node))).collect.1,
        .ok ()) := by
  induction nodes with
  | nil => rfl
  | cons node rest ih =>
      obtain ⟨value, hcollect⟩ := (h node List.mem_cons_self).exists_collect_eq he hothers
      rw [renderEach_cons, Emitter.collect_bind_ok hcollect,
        ih fun node hnode => h node (List.mem_cons_of_mem _ hnode), List.flatMap_cons]

/-- Where nodes are rendered without a fault, each of them is. -/
theorem renders_of_collect_renderEach {nodes : List Node}
    (h : ∀ fault, (Rendering.renderEach (e.contextWithin left) nodes).collect.2 ≠
      .error (.fault fault)) :
    ∀ node ∈ nodes, e.Renders left (.ofNode node) := by
  induction nodes with
  | nil => nofun
  | cons node rest ih =>
      have hfirst : e.Renders left (.ofNode node) := by
        intro fault hfault
        refine h fault ?_
        rw [renderEach_cons, Emitter.collect_bind_error (Prod.ext rfl hfault)]
      obtain ⟨value, hcollect⟩ := hfirst.exists_collect_eq he hothers
      rw [renderEach_cons, Emitter.collect_bind_ok hcollect] at h
      intro node' hnode'
      rcases List.mem_cons.mp hnode' with rfl | hnode'
      · exact hfirst
      · exact ih h node' hnode'

/-- A document whose nodes are rendered without a fault gives their packets. -/
theorem render_of_renders (hdepth : e.maxDepth = left + 2) {nodes : List Node}
    (h : ∀ node ∈ nodes, e.Renders left (.ofNode node)) :
    e.render ⟨nodes⟩ = .ok ⟨nodes.flatMap fun node =>
      (e.dispatchWithin left (.render (.ofNode node))).collect.1, none⟩ :=
  render_of_ok he hdepth (collect_renderEach_of_renders he hothers h)

/-- Where a strict engine renders a document without a fault, there are levels for its nodes, and
each of them is rendered without a fault. -/
theorem renders_of_render (hpolicy : e.policy = .strict) {nodes : List Node}
    (h : ∀ fault, e.render ⟨nodes⟩ ≠ .error fault) :
    ∃ left, e.maxDepth = left + 2 ∧ ∀ node ∈ nodes, e.Renders left (.ofNode node) := by
  by_cases hdepth : e.maxDepth < 2
  · obtain ⟨fault, hsettle⟩ := exists_dispatch_eq_settle he hdepth
    refine absurd ?_ (h fault)
    rw [render, dispatch, hsettle, hpolicy]
    rfl
  · obtain ⟨left, hleft⟩ : ∃ left, e.maxDepth = left + 2 := ⟨e.maxDepth - 2, by omega⟩
    refine ⟨left, hleft, renders_of_collect_renderEach he hothers fun fault hfault => ?_⟩
    exact h fault (render_of_fault he hleft (Prod.ext rfl hfault))

end

/-- **The inquiries about a block account for its markup.**  Whatever the resolvers, the policy and
the number of levels are, and whatever interpreters there are besides the built-in ones, as long as
they do not halt of their own accord: if the children of a block are rendered without a fault under a
strict policy, and under the engine's own, the block comes back as the markup of its children, whole,
child by child and run by run, and no packet comes with it.  And where faults are passed on, a
document with the same children has the same markup, if it is rendered without a fault under a strict
policy too. -/
theorem answersForBlock_of_renders (he : e.registry.Extends .builtins)
    (hothers : e.registry.All fun name i =>
      Registry.builtins.find? name = none → i.behaviour.Persists)
    {command : Command} {tag : Tag} {block : Block} (htag : command.tag? = some tag)
    (hblock : tag.block? (command.index.getD 0) = some block) (hbody : block.body ≠ [])
    (hstrict : ∀ node ∈ block.body, (e.limited .strict e.maxDepth).Renders left (.ofNode node))
    (hlenient : e.policy = .lenient → ∀ node ∈ block.body, e.Renders left (.ofNode node)) :
    e.AnswersForBlock left command block.body ∧
      ((e.registry.All fun _ i => i.behaviour.IsOwn ∨
          (e.policy = .strict ∨ i.behaviour.IgnoresPolicy) ∧ i.behaviour.PassesFaultsOn) →
        (∀ fault, (e.limited .strict e.maxDepth).render ⟨block.body⟩ ≠ .error fault) →
          ∃ outcome, e.render ⟨block.body⟩ = .ok outcome ∧
            Packet.joined Packet.htmlName outcome.packets =
              Inquiry.contents (e.partsOf left block.body).flatten) := by
  have hrenders : ∀ node ∈ block.body, e.Renders left (.ofNode node) := by
    cases hpolicy : e.policy with
    | lenient => exact hlenient hpolicy
    | strict =>
        have hsame : e.limited .strict e.maxDepth = e := by rw [← hpolicy]; rfl
        rwa [hsame] at hstrict
  obtain ⟨first, rest, hcons⟩ := List.exists_cons_of_ne_nil hbody
  have hlevels := exists_left_of_renders (e := e.limited .strict e.maxDepth) he rfl
    (hstrict first (by simp [hcons]))
  refine ⟨answersForBlock_of_levels he hothers htag hblock hbody hrenders hlevels,
    fun hpass hdocument => ?_⟩
  obtain ⟨top, hdepth, htop⟩ :=
    renders_of_render (e := e.limited .strict e.maxDepth) he hothers rfl hdocument
  have hsame := fun node hnode =>
    collect_dispatchWithin_eq hpass (htop node hnode) (hstrict node hnode)
  have hrendersTop : ∀ node ∈ block.body, e.Renders top (.ofNode node) := by
    intro node hnode fault
    rw [hsame node hnode]
    exact hrenders node hnode fault
  have hparts : e.partsOf top block.body = e.partsOf left block.body :=
    List.map_congr_left fun node hnode => by rw [markupOf, markupOf, hsame node hnode]
  refine ⟨_, render_of_renders he hothers hdepth hrendersTop, ?_⟩
  rw [Packet.joined_htmlName, ← flatten_partsOf, hparts]

end Engine

/-! ### An interpreter that scatters packets -/

/-- Sends packets of all sorts: markup in a line and of its own, untyped and empty, and a note. -/
def Behaviour.scattering : Behaviour := fun _ _ => do
  Emitter.send (.html (some .block) "a")
  Emitter.send (.html none "")
  Emitter.send ⟨"note", some .inline, "n"⟩
  Emitter.send (.html (some .inline) "b")
  return none

/-- An engine that asks for it at the tag `s`. -/
def Engine.scattering : Engine where
  registry := Registry.builtins.insert "scatter" ⟨.isPublic, .scattering⟩
  resolvers := Table.empty.insert "s" { sequence := fun _ => .script [{ name := "scatter" }] }
  templates := fun _ _ => .error .unfillable
  maxDepth := 8

/-- Two such tags, a text between them and a tag that nothing resolves. -/
def Block.scattered : Block where
  body := [.tag { name := "s" }, .text "t", .tag { name := "s" }, .tag { name := "unknown" }]

/-- A request about the block. -/
def Command.aboutScattered : Command :=
  { name := "inquire", subject := some (.tag { name := "b", blocks := [.scattered] }) }

/-- Its nodes are rendered without a fault. -/
theorem Engine.renders_scattered (policy : Policy) :
    ∀ node ∈ Block.scattered.body,
      (Engine.scattering.limited policy 8).Renders 7 (.ofNode node) := by
  have hok : ∀ policy, ∀ node ∈ Block.scattered.body,
      ((Engine.scattering.limited policy 8).dispatchWithin 7
        (.render (.ofNode node))).collect.2.isOk = true := by
    rintro (_ | _) <;> decide +kernel
  exact fun node hnode => .of_isOk (hok policy node hnode)

/-- The block comes back as a whole and in five runs, and the document has the same markup. -/
theorem Engine.answersForBlock_of_renders_scattered :
    Engine.scattering.registry.Extends .builtins ∧
      (Engine.scattering.registry.All fun name i =>
        Registry.builtins.find? name = none → i.behaviour.Persists) ∧
      (∀ node ∈ Block.scattered.body,
        (Engine.scattering.limited .strict 8).Renders 7 (.ofNode node)) ∧
      Engine.scattering.AnswersForBlock 7 .aboutScattered Block.scattered.body ∧
      (Engine.scattering.runsOf 7 Block.scattered.body).map Inquiry.contents =
        ["", "a", "bt", "a", "b"] ∧
      ∃ outcome, Engine.scattering.render ⟨Block.scattered.body⟩ = .ok outcome ∧
        Packet.joined Packet.htmlName outcome.packets = "abtab" := by
  have hextends : Engine.scattering.registry.Extends .builtins :=
    (Registry.Extends.refl _).insert _ (by simp [Registry.builtins])
  have hscattering : Behaviour.scattering.Persists := fun _ _ _ =>
    (Emitter.Persists.send _).bind fun _ => (Emitter.Persists.send _).bind fun _ =>
      (Emitter.Persists.send _).bind fun _ => (Emitter.Persists.send _).bind fun _ => .done none
  have hothers : Engine.scattering.registry.All fun name i =>
      Registry.builtins.find? name = none → i.behaviour.Persists :=
    Registry.builtins_all_of_other.insert fun _ => hscattering
  have hpass : Engine.scattering.registry.All fun _ i => i.behaviour.IsOwn ∨
      (Engine.scattering.policy = .strict ∨ i.behaviour.IgnoresPolicy) ∧
        i.behaviour.PassesFaultsOn :=
    Table.All.insert
      (fun name i hfind => .inl ⟨name, i, .inl (Registry.html_extends name i hfind), rfl⟩)
      (.inr ⟨.inr fun _ _ _ => rfl, fun _ _ _ _ => .refl _⟩)
  have hdocument : ∀ fault, (Engine.scattering.limited .strict 8).render ⟨Block.scattered.body⟩ ≠
      .error fault := by
    intro fault hfault
    have hok : ((Engine.scattering.limited .strict 8).render ⟨Block.scattered.body⟩).isOk = true :=
      by decide +kernel
    rw [hfault] at hok
    cases hok
  have htag : Command.aboutScattered.tag? = some { name := "b", blocks := [.scattered] } := rfl
  obtain ⟨hanswers, hrender⟩ := Engine.answersForBlock_of_renders hextends hothers htag rfl
    (by simp [Block.scattered]) (Engine.renders_scattered .strict)
    fun _ => Engine.renders_scattered .lenient
  obtain ⟨outcome, houtcome, hjoined⟩ := hrender hpass hdocument
  refine ⟨hextends, hothers, Engine.renders_scattered .strict, hanswers, by decide +kernel, outcome,
    houtcome, hjoined.trans ?_⟩
  decide +kernel

/-! ### Interpreters that look at faults and at the policy -/

/-- Says whether there are levels left for a text, and swallows the fault if there are none. -/
def Behaviour.sounding : Behaviour := fun context _ =>
  match (context.dispatch (.render (.text ""))).collect.2 with
  | .ok _ => (Emitter.send (.html none "room")).bind fun _ => .done none
  | .error _ => (Emitter.send (.html none "ground")).bind fun _ => .done none

/-- Says whether there are levels left for a text, but only where faults are forgiven. -/
def Behaviour.peering : Behaviour := fun context _ =>
  match context.policy with
  | .strict => .done none
  | .lenient =>
    (Inquiry.htmlPackets context (.text "")).bind fun packets =>
      (Emitter.send (.html none (if packets.isEmpty then "ground" else "room"))).bind fun _ =>
        .done none

/-- Faults, but only where faults are forgiven. -/
def Behaviour.grudging : Behaviour := fun context command =>
  match context.policy with
  | .strict => .done none
  | .lenient => .stop (.fault (.missingTarget command.name))

theorem Behaviour.sounding_persists : sounding.Persists := by
  intro context command _
  unfold sounding
  split <;> exact (Emitter.Persists.send _).bind fun _ => .done none

theorem Behaviour.peering_persists : peering.Persists := by
  intro context command hdispatch
  unfold peering
  split
  · exact .done none
  · have hpackets : (Inquiry.htmlPackets context (.text "")).Persists :=
      (hdispatch _).ofResult.bind fun _ => .done _
    exact hpackets.bind fun _ => (Emitter.Persists.send _).bind fun _ => .done none

/-- It swallows nothing. -/
theorem Behaviour.peering_passesFaultsOn : peering.PassesFaultsOn := by
  intro context dispatch command hdispatch
  unfold peering
  dsimp only
  split
  · exact .refl _
  · exact (Emitter.CutOff.isCongruence.kept (hdispatch _)).bind fun _ => .refl _

theorem Behaviour.grudging_persists : grudging.Persists := by
  intro context command _
  unfold grudging
  split
  · exact .done none
  · exact .fault _

/-- An engine that asks for each of them at a tag. -/
def Engine.sounding : Engine where
  registry := Registry.builtins
    |>.insert "sound" ⟨.isPublic, .sounding⟩
    |>.insert "peer" ⟨.isPublic, .peering⟩
    |>.insert "grudge" ⟨.isPublic, .grudging⟩
  resolvers := Table.empty
    |>.insert "s" { sequence := fun _ => .script [{ name := "sound" }] }
    |>.insert "p" { sequence := fun _ => .script [{ name := "peer" }] }
    |>.insert "g" { sequence := fun _ => .script [{ name := "grudge" }] }
  templates := fun _ _ => .error .unfillable

/-- What `getBlock` gives of a block that holds the node. -/
def Engine.blockText (e : Engine) (node : Node) : Except Fault (Option String) :=
  let tag : Tag := { name := "b", blocks := [{ body := [node] }] }
  (e.dispatch { name := "getBlock", subject := some (.tag tag) }).map fun outcome =>
    outcome.value.bind Json.text?

/-- The markup of a document that holds the node. -/
def Engine.documentText (e : Engine) (node : Node) : Except Fault String :=
  (e.render ⟨[node]⟩).map fun outcome => Packet.joined Packet.htmlName outcome.packets

/-- **A block and a document may differ, and a block may be lost**, though a strict engine renders
the nodes without a fault: with six levels where a fault is swallowed (`s`), where the policy is read
(`p`) and where only forgiving engines fault (`g`); and with two levels, of which a text takes both. -/
theorem Engine.sounding_differs :
    (Engine.sounding.registry.Extends .builtins ∧
      Engine.sounding.registry.All fun name i =>
        Registry.builtins.find? name = none → i.behaviour.Persists) ∧
      (Behaviour.sounding.IgnoresPolicy ∧
        (Engine.sounding.limited .strict 6).Renders 5 (.tag { name := "s" }) ∧
        (Engine.sounding.limited .strict 6).blockText (.tag { name := "s" }) = .ok (some "room") ∧
        (Engine.sounding.limited .strict 6).documentText (.tag { name := "s" }) = .ok "ground") ∧
      (Behaviour.peering.PassesFaultsOn ∧
        (Engine.sounding.limited .strict 6).Renders 5 (.tag { name := "p" }) ∧
        (Engine.sounding.limited .strict 6).documentText (.tag { name := "p" }) = .ok "" ∧
        (Engine.sounding.limited .lenient 6).blockText (.tag { name := "p" }) = .ok (some "room") ∧
        (Engine.sounding.limited .lenient 6).documentText (.tag { name := "p" }) = .ok "ground") ∧
      ((Engine.sounding.limited .strict 6).Renders 5 (.tag { name := "g" }) ∧
        (Engine.sounding.limited .lenient 6).blockText (.tag { name := "g" }) =
          .error (.missingTarget "grudge")) ∧
      ((Engine.sounding.limited .strict 2).Renders 2 (.text "t") ∧
        (Engine.sounding.limited .lenient 2).blockText (.text "t") = .ok (some "")) := by
  have hextends : Engine.sounding.registry.Extends .builtins :=
    (((Registry.Extends.refl _).insert _ (by simp [Registry.builtins])).insert _
      (by simp [Registry.builtins])).insert _ (by simp [Registry.builtins])
  have hpersists : Engine.sounding.registry.All fun name i =>
      Registry.builtins.find? name = none → i.behaviour.Persists :=
    ((Registry.builtins_all_of_other.insert fun _ => Behaviour.sounding_persists).insert
      fun _ => Behaviour.peering_persists).insert fun _ => Behaviour.grudging_persists
  refine ⟨⟨hextends, hpersists⟩, ⟨fun _ _ _ => rfl, .of_isOk ?_, ?_, ?_⟩,
    ⟨Behaviour.peering_passesFaultsOn, .of_isOk ?_, ?_, ?_, ?_⟩, ⟨.of_isOk ?_, ?_⟩, .of_isOk ?_, ?_⟩
  all_goals decide +kernel

end TaggedText
