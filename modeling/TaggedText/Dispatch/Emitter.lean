import TaggedText.Dispatch.Command

/-!
# Emitters: computations that offer packets

An interpreter runs for a while, offers a packet to whoever called it, and goes on with the answer:
the packet was taken, or it was refused and there is a reason to stop.  It ends with a value or with
such a reason.  An `Emitter` is exactly that, as a value: a tree that branches on the answers.

The caller's side is not part of the value: a sink is a function on emitters, and `Emitter.through`
runs a computation against one that has a state and may offer packets itself.  So a computation that
ignores a refusal and goes on can be written down like any other, and laws about sinks are laws
about trees, by induction.

Two callers matter most.  `Emitter.collect` is the one that takes everything; `Emitter.send` is the
computation that stops at once if it is refused.

## Two reasons to stop

An `Interrupt` is a fault on its way to the top, or a halt: somebody up the chain takes no more
packets.  A halt is not an error of anybody, which is why the engine turns the one into a failure
and the other into a dispatch without a value.
-/

namespace TaggedText

/-! ### Faults and interrupts -/

/-- **What an engine that does not forgive reports.** -/
inductive Fault where
  | unknownCommand (name : String)
  | blockOutOfRange (tag : String) (index count : Nat)
  | missingTarget (command : String)
  | depthExceeded (command : String) (limit : Nat)
  deriving DecidableEq, Repr, Inhabited

/-- A fault in words. -/
def Fault.message : Fault → String
  | unknownCommand name => "unknown command '" ++ name ++ "'"
  | blockOutOfRange tag index count =>
    "block " ++ toString index ++ " out of range for tag '" ++ tag ++ "' with "
      ++ toString count ++ " block(s)"
  | missingTarget command => "command '" ++ command ++ "' requires a tag target"
  | depthExceeded command limit =>
    "dispatch of '" ++ command ++ "' exceeds the nesting limit of " ++ toString limit

/-- Why a computation stops before it has a value: someone up the chain takes no more packets, or a
fault is on its way to the top. -/
inductive Interrupt where
  | halted
  | fault (fault : Fault)
  deriving DecidableEq, Repr, Inhabited

/-- What is said to an offered packet: taken, or refused with a reason to stop. -/
abbrev Answer := Except Interrupt Unit

/-! ### Emitters -/

/-- **A computation that offers packets** and ends with a value or an interrupt. -/
inductive Emitter (α : Type) where
  | done (value : α)
  | stop (interrupt : Interrupt)
  | emit (packet : Packet) (resume : Answer → Emitter α)

namespace Emitter

variable {α β σ : Type}

/-- One computation after the other. -/
def bind : Emitter α → (α → Emitter β) → Emitter β
  | done a, f => f a
  | stop i, _ => stop i
  | emit p resume, f => emit p fun answer => (resume answer).bind f

instance : Monad Emitter where
  pure := done
  bind := bind

instance : Inhabited (Emitter α) := ⟨stop .halted⟩

@[simp] theorem pure_eq (a : α) : (pure a : Emitter α) = done a := rfl

@[simp] theorem bind_eq (x : Emitter α) (f : α → Emitter β) : x >>= f = x.bind f := rfl

@[simp] theorem done_bind (a : α) (f : α → Emitter β) : (done a).bind f = f a := rfl

@[simp] theorem stop_bind (i : Interrupt) (f : α → Emitter β) : (stop i).bind f = stop i := rfl

@[simp] theorem emit_bind (p : Packet) (resume : Answer → Emitter α) (f : α → Emitter β) :
    (emit p resume).bind f = emit p fun answer => (resume answer).bind f := rfl

/-- Offers a packet; the answer is the value. -/
def offer (p : Packet) : Emitter Answer :=
  emit p done

/-- Offers a packet and stops if it is refused. -/
def send (p : Packet) : Emitter Unit :=
  emit p fun
    | .ok () => done ()
    | .error i => stop i

/-- Ends as `result` says. -/
def ofResult : Except Interrupt α → Emitter α
  | .ok a => done a
  | .error i => stop i

/-- Runs a computation against a sink.  The sink sees each packet, keeps a state, may offer packets
of its own, and gives the answer; the state and the result come back as a value. -/
def through (sink : σ → Packet → Emitter (σ × Answer)) (s : σ) :
    Emitter α → Emitter (σ × Except Interrupt α)
  | done a => done (s, .ok a)
  | stop i => done (s, .error i)
  | emit p resume =>
    (sink s p).bind fun (s, answer) => through sink s (resume answer)

/-- The packets and the result when every packet is taken. -/
def collect : Emitter α → List Packet × Except Interrupt α
  | done a => ([], .ok a)
  | stop i => ([], .error i)
  | emit p resume =>
    let (packets, result) := (resume (.ok ())).collect
    (p :: packets, result)

end Emitter

end TaggedText
