import TaggedText.Target

/-!
# Collecting packets

`Emitter.collect` is what a caller sees who takes every packet.  This file computes it through the
combinators of the library: one computation after the other, the sink of a tag
(`Rendering.errorGuard`) and the sink of a tree (`Target.gather`).

A sink answers for itself only when it refuses.  Under a caller that takes everything, a packet is
refused by `errorGuard` alone, so an induction along the accepted answers is enough; the branches of
a refused packet are never entered.  A computation without error packets therefore goes through the
sink of a tag unchanged (`collect_through_errorGuard`), and the sink of a tree moves markup from the
packets into its state and does nothing else (`collect_through_gather`).
-/

namespace TaggedText

/-! ### Markup among packets -/

namespace Packet

variable {name : String} {p : Packet} {ps qs : List Packet}

@[simp] theorem joined_nil : joined name [] = "" := rfl

@[simp] theorem joined_append : joined name (ps ++ qs) = joined name ps ++ joined name qs := by
  simp [joined]

theorem joined_cons (name : String) (p : Packet) (ps : List Packet) :
    joined name (p :: ps) = joined name [p] ++ joined name ps := by
  rw [← joined_append, List.singleton_append]

@[simp] theorem isError_html (display : Option Display) (content : String) :
    (html display content).isError = false := rfl

/-- The markup of packets is the content of those that carry markup. -/
theorem joined_htmlName : joined htmlName ps = Inquiry.contents (ps.filter isHtml) := rfl

theorem joined_htmlName_single_of_isHtml (h : p.isHtml = true) :
    joined htmlName [p] = p.content := by
  have hp : (p.name == htmlName) = true := h
  simp [joined, hp]

theorem joined_htmlName_single_of_not_isHtml (h : p.isHtml = false) : joined htmlName [p] = "" := by
  have hp : (p.name == htmlName) = false := h
  simp [joined, hp]

/-- Only the packets of markup count. -/
@[simp] theorem joined_filter_isHtml : joined htmlName (ps.filter isHtml) = joined htmlName ps := by
  rw [joined_htmlName, joined_htmlName, List.filter_filter]
  simp only [Bool.and_self]

/-- No markup is left where the markup was taken out. -/
theorem filter_isHtml_filter_not (ps : List Packet) :
    (ps.filter fun p => !p.isHtml).filter isHtml = [] := by
  rw [List.filter_filter, List.filter_eq_nil_iff]
  simp

@[simp] theorem joined_filter_not_isHtml :
    joined htmlName (ps.filter fun p => !p.isHtml) = "" := by
  rw [joined_htmlName, filter_isHtml_filter_not]
  rfl

end Packet

namespace Emitter

variable {α β γ σ : Type}

/-! ### One computation after the other -/

@[simp] theorem collect_done (a : α) : (done a).collect = ([], .ok a) := rfl

@[simp] theorem collect_stop (i : Interrupt) : (stop i : Emitter α).collect = ([], .error i) := rfl

@[simp] theorem collect_emit (p : Packet) (resume : Answer → Emitter α) :
    (emit p resume).collect = (p :: (resume (.ok ())).collect.1, (resume (.ok ())).collect.2) := rfl

@[simp] theorem collect_send (p : Packet) : (send p).collect = ([p], .ok ()) := rfl

theorem bind_assoc (x : Emitter α) (f : α → Emitter β) (g : β → Emitter γ) :
    (x.bind f).bind g = x.bind fun a => (f a).bind g := by
  induction x with
  | done a => rfl
  | stop i => rfl
  | emit packet resume ih =>
      rw [emit_bind, emit_bind, emit_bind]
      exact congrArg _ (funext fun answer => ih answer)

/-- What comes after a computation with a value. -/
theorem collect_bind_ok {x : Emitter α} {f : α → Emitter β} {packets : List Packet} {a : α}
    (h : x.collect = (packets, .ok a)) :
    (x.bind f).collect = (packets ++ (f a).collect.1, (f a).collect.2) := by
  induction x generalizing packets with
  | done value => cases h; simp
  | stop interrupt => cases h
  | emit p resume ih =>
      rw [collect_emit, Prod.mk.injEq] at h
      obtain ⟨rfl, hresult⟩ := h
      rw [emit_bind, collect_emit, ih (.ok ()) (Prod.ext rfl hresult)]
      rfl

/-- Nothing comes after a computation that stops. -/
theorem collect_bind_error {x : Emitter α} {f : α → Emitter β} {packets : List Packet}
    {i : Interrupt} (h : x.collect = (packets, .error i)) :
    (x.bind f).collect = (packets, .error i) := by
  induction x generalizing packets with
  | done value => cases h
  | stop interrupt => cases h; rfl
  | emit p resume ih =>
      rw [collect_emit, Prod.mk.injEq] at h
      obtain ⟨rfl, hresult⟩ := h
      rw [emit_bind, collect_emit, ih (.ok ()) (Prod.ext rfl hresult)]

/-! ### Sinks -/

/-- A computation whose packets report no error passes through the sink of a tag unchanged. -/
theorem collect_through_errorGuard {x : Emitter α} {packets : List Packet}
    {result : Except Interrupt α} (h : x.collect = (packets, result))
    (hpackets : ∀ p ∈ packets, p.isError = false) (aborted : Bool) :
    (through Rendering.errorGuard aborted x).collect = (packets, .ok (aborted, result)) := by
  induction x generalizing packets with
  | done value => cases h; rfl
  | stop interrupt => cases h; rfl
  | emit p resume ih =>
      rw [collect_emit, Prod.mk.injEq] at h
      obtain ⟨rfl, hresult⟩ := h
      have hp : p.isError = false := hpackets p List.mem_cons_self
      have hrest := ih (.ok ()) (Prod.ext rfl hresult)
        fun q hq => hpackets q (List.mem_cons_of_mem _ hq)
      simp only [through, Rendering.errorGuard, hp, Bool.false_eq_true, if_false, offer, emit_bind,
        done_bind, collect_emit, hrest]

/-- The sink of a tree keeps the markup for itself and lets everything else pass. -/
theorem collect_through_gather (x : Emitter α) (content : String) :
    (through Target.gather content x).collect =
      (x.collect.1.filter fun p => !p.isHtml,
        .ok (content ++ Packet.joined Packet.htmlName x.collect.1, x.collect.2)) := by
  induction x generalizing content with
  | done value => simp [through]
  | stop interrupt => simp [through]
  | emit p resume ih =>
      rw [through, collect_emit]
      cases hp : p.isHtml with
      | true =>
          rw [Packet.joined_cons, Packet.joined_htmlName_single_of_isHtml hp]
          simp [Target.gather, hp, ih, String.append_assoc]
      | false =>
          rw [Packet.joined_cons, Packet.joined_htmlName_single_of_not_isHtml hp]
          simp [Target.gather, hp, ih, offer]

end Emitter

end TaggedText
