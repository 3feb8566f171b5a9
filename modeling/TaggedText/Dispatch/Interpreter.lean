import TaggedText.Dispatch.Emitter
import TaggedText.Dispatch.Resolver

/-!
# Interpreters and registries

An interpreter handles one command name.  It is given a `Context`, which can dispatch further
commands and knows the resolvers, the templates and the policy, and it answers a command with an
emitter.  Interpreters are public or private; resolvers can ask for public ones only.

A context offers the dispatcher and the visibility of names, and not the registry itself: nothing
more is needed, and so contexts come before interpreters.

What fills in templates is a parameter throughout.  A `TemplateEngine` is any function from a
template and its bindings to a text, and if it fails it says why in its own words (`TemplateFault`).

A `Policy` decides about faults that can be passed over: a lenient one goes on without output, a
strict one raises them.
-/

namespace TaggedText

/-- How recoverable faults are treated: passed over without output, or raised. -/
inductive Policy where
  | lenient
  | strict
  deriving DecidableEq, Repr, Inhabited

/-- **Why a template gave no output**, in the words of what was to fill it in. -/
structure TemplateFault where
  reason : String
  deriving DecidableEq, Repr, Inhabited

namespace TemplateFault

/-- The fault as it is reported. -/
def message (fault : TemplateFault) : String :=
  "template rendering failed: " ++ fault.reason

/-- The template could not be read. -/
def unreadable : TemplateFault := ⟨"Failed to parse '__tera_one_off'"⟩

/-- The template was read, and could not be filled in. -/
def unfillable : TemplateFault := ⟨"Failed to render '__tera_one_off'"⟩

end TemplateFault

/-- What fills in a template with bindings. -/
abbrev TemplateEngine := String → Json → Except TemplateFault String

/-- **What an interpreter is given.** -/
structure Context where
  isPublic : String → Bool
  resolvers : ResolverMap
  templates : TemplateEngine
  policy : Policy
  target : String
  dispatch : Command → Emitter (Option Json)

/-- A recoverable fault under a policy: nothing, or an interrupt. -/
def Policy.settle {α : Type} (policy : Policy) (fault : Fault) : Emitter (Option α) :=
  match policy with
  | .lenient => .done none
  | .strict => .stop (.fault fault)

/-- Who may ask for an interpreter: tag resolvers too, or only other interpreters. -/
inductive Visibility where
  | isPublic
  | isPrivate
  deriving DecidableEq, Repr, Inhabited

/-- What an interpreter does with a command. -/
abbrev Behaviour := Context → Command → Emitter (Option Json)

/-- A behaviour and who may ask for it. -/
structure Interpreter where
  visibility : Visibility := .isPublic
  behaviour : Behaviour

instance : Inhabited Interpreter := ⟨{ behaviour := fun _ _ => .done none }⟩

/-- Interpreters by name. -/
abbrev Registry := Table Interpreter

/-- The name belongs to a public interpreter. -/
def Registry.isPublic (r : Registry) (name : String) : Bool :=
  match r.find? name with
  | some i => i.visibility == .isPublic
  | none => false

end TaggedText
