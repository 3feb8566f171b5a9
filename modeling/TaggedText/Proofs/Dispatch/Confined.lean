import TaggedText.Proofs.Dispatch.Relating

/-!
# Which commands a command can bring about

An interpreter dispatches further commands.  Those of the library dispatch commands of their own
making, what resolvers propose, and, for a `tree`, the commands that the tree holds.

`Command.Reaches` says when dispatching a command can come to an interpreter of a given name.  It
looks at the names, the current command and the children of commands alone, so it does not change
when a tree fills in data or when a tag becomes the subject.

A behaviour is confined if it comes to a name only where its command or a proposal does
(`Behaviour.Confined`).  That all interpreters of the library are is an instance of the walk through
them in `Relating`, with equality as the relation and "does not reach the name" as what is allowed.
`Engine.dispatchWithin_congr` is the consequence: what cannot be reached makes no difference.
-/

namespace TaggedText

/-! ### Reaching -/

/-- **Dispatching the command can come to the interpreter `name`**: by its own name, or by a command
that it holds as a tree.  A tree whose current command is undefined dispatches nothing. -/
inductive Command.Reaches (name : String) : Command → Prop
  | here {c : Command} : c.name = name → Reaches name c
  | child {c child : Command} {block : List Command} :
      c.name = "tree" → (∀ current, c.current = some current → current.isUndefined = false) →
      block ∈ c.children → child ∈ block → Reaches name child → Reaches name c
  | current {c current : Command} :
      c.name = "tree" → c.current = some current → current.isUndefined = false →
      Reaches name current → Reaches name c

/-- Reaching does not depend on the subject and the data of a command. -/
theorem Command.Reaches.congr {name : String} {c c' : Command} (h : c.Reaches name)
    (hname : c'.name = c.name) (hcurrent : c'.current = c.current)
    (hchildren : c'.children = c.children) : c'.Reaches name := by
  cases h with
  | here h => exact .here (hname.trans h)
  | child htree hdefined hblock hchild h =>
      exact .child (hname.trans htree) (by rwa [hcurrent]) (by rwa [hchildren]) hchild h
  | current htree hsome hdefined h =>
      exact .current (hname.trans htree) (hcurrent.trans hsome) hdefined h

/-- What reaches a name that is not its own is a tree. -/
theorem Command.Reaches.eq_tree {name : String} {c : Command} (h : c.Reaches name)
    (hname : c.name ≠ name) : c.name = "tree" := by
  cases h with
  | here h => exact absurd h hname
  | child htree => exact htree
  | current htree => exact htree

/-- A command that is no tree reaches its own name alone. -/
theorem Command.not_reaches {name : String} {c : Command} (hname : c.name ≠ name)
    (htree : c.name ≠ "tree") : ¬ c.Reaches name :=
  fun h => htree (h.eq_tree hname)

/-- What a tree that does not reach a name holds does not reach it either. -/
theorem Command.holdsOnly_not_reaches {name : String} {c : Command} (htree : c.name = "tree")
    (hc : ¬ c.Reaches name) : c.HoldsOnly fun c => ¬ c.Reaches name where
  child hdefined _ hblock _ hchild h := hc (.child htree hdefined hblock hchild h)
  -- The data make no difference to what the current command reaches.
  current _ hsome hdefined _ h := hc (.current htree hsome hdefined (h.congr rfl rfl rfl))

/-! ### Private interpreters -/

/-- A name that is none of theirs is no name of a built-in interpreter. -/
theorem Registry.ne_of_builtin {name n : String} (hname : Registry.composing.find? name = none)
    (hn : (Registry.builtins.find? n).isSome) : n ≠ name := by
  rintro rfl
  obtain ⟨i, hi⟩ := Option.isSome_iff_exists.mp hn
  rw [composing_extends n i hi] at hname
  cases hname

/-- They and one private interpreter more. -/
def Registry.withPrivate (name : String) (behaviour : Behaviour) : Registry :=
  Registry.composing.insert name ⟨.isPrivate, behaviour⟩

/-! ### Confined behaviours -/

/-- **A behaviour that comes to `name` only where its command or a proposal does**: its answer to a
command of its own, by the name `key`, does not change with a dispatcher that agrees on all commands
that do not reach `name`. -/
def Behaviour.Confined (name key : String) (behaviour : Behaviour) : Prop :=
  ∀ (context : Context) (dispatch : Command → Emitter (Option Json)) (command : Command),
    context.resolvers.ProposesOnly (fun c => context.isPublic c.name = true → ¬ c.Reaches name) →
    (∀ c, ¬ c.Reaches name → context.dispatch c = dispatch c) →
    command.name = key → ¬ command.Reaches name →
      behaviour context command = behaviour { context with dispatch := dispatch } command

theorem Command.allowsRendering_not_reaches {name : String}
    (hname : Registry.composing.find? name = none) :
    Command.AllowsRendering fun c => ¬ c.Reaches name where
  render _ := Command.not_reaches (Registry.ne_of_builtin hname
    (by simp [Registry.builtins, Command.render])) (by simp [Command.render])
  part c n hn := by
    simp only [List.mem_cons, List.not_mem_nil, or_false] at hn
    refine Command.not_reaches (Registry.ne_of_builtin hname ?_) ?_
    · rcases hn with rfl | rfl | rfl | rfl <;> simp [Registry.builtins]
    · rcases hn with rfl | rfl | rfl | rfl <;> simp

/-- **All interpreters of the library are confined**, for a name that is none of theirs. -/
theorem Registry.composing_confined {name : String} (hname : Registry.composing.find? name = none) :
    Registry.composing.All fun key i => i.behaviour.Confined name key := by
  intro key i hfind context dispatch command hproposes hdispatch hkey hcommand
  refine composing_respects Emitter.Relation.isCongruence_eq
    (Command.allowsRendering_not_reaches hname) key i hfind context
    { context with dispatch := dispatch } command ?_ ?_
  · exact
      { isPublic := rfl
        resolvers := rfl
        templates := rfl
        target := rfl
        settle := fun _ => rfl
        markup := fun _ _ => rfl
        failure := fun _ _ _ _ => rfl
        dispatch := hdispatch
        -- The tag becomes the subject, which reaching does not look at.
        proposals := fun n resolver hfind invocation c hc hpublic _ h =>
          hproposes n resolver hfind invocation c hc hpublic (h.congr rfl rfl rfl) }
  · exact fun htree => Command.holdsOnly_not_reaches (hkey.trans htree) hcommand

/-! ### Dispatching -/

namespace Registry

variable {name : String} {b : Behaviour}

theorem withPrivate_find?_of_ne {n : String} (h : n ≠ name) :
    (withPrivate name b).find? n = composing.find? n := by
  rw [withPrivate, Table.find?_insert, if_neg h]

@[simp] theorem withPrivate_find?_self :
    (withPrivate name b).find? name = some ⟨.isPrivate, b⟩ := by
  rw [withPrivate, Table.find?_insert, if_pos rfl]

theorem withPrivate_extends (hname : composing.find? name = none) :
    Registry.Extends (.withPrivate name b) .composing :=
  (Registry.Extends.refl _).insert _ hname

theorem withPrivate_extends_builtins (hname : composing.find? name = none) :
    Registry.Extends (.withPrivate name b) .builtins :=
  fun n i hfind => withPrivate_extends hname n i (composing_extends n i hfind)

/-- Who may ask for an interpreter does not depend on what the private one does. -/
theorem withPrivate_isPublic (name : String) (b b' : Behaviour) :
    (withPrivate name b).isPublic = (withPrivate name b').isPublic := by
  funext n
  by_cases hn : n = name
  · subst hn
    simp [isPublic]
  · simp only [isPublic, withPrivate_find?_of_ne hn]

end Registry

/-- **What cannot be reached makes no difference** to a dispatch. -/
theorem Engine.dispatchWithin_congr (e : Engine) {name : String}
    (hname : Registry.composing.find? name = none) (b b' : Behaviour)
    (hproposes : e.resolvers.ProposesOnly fun c =>
      (Registry.withPrivate name b).isPublic c.name = true → ¬ c.Reaches name)
    (levels : Nat) {command : Command} (hcommand : ¬ command.Reaches name) :
    { e with registry := .withPrivate name b }.dispatchWithin levels command =
      { e with registry := .withPrivate name b' }.dispatchWithin levels command := by
  induction levels generalizing command with
  | zero => rfl
  | succ left ih =>
      have hne : command.name ≠ name := fun h => hcommand (.here h)
      have hfind := Registry.withPrivate_find?_of_ne (b := b) hne
      have hfind' := Registry.withPrivate_find?_of_ne (b := b') hne
      cases hcomposing : Registry.composing.find? command.name with
      | none => simp only [Engine.dispatchWithin, hfind, hfind', hcomposing]
      | some i =>
          rw [Engine.dispatchWithin_succ (hfind.trans hcomposing),
            Engine.dispatchWithin_succ (hfind'.trans hcomposing)]
          -- What the behaviour dispatches has one level less, where the two engines agree.
          have hconfined := Registry.composing_confined hname _ _ hcomposing
          rw [hconfined _ ({ e with registry := .withPrivate name b' }.dispatchWithin left) command
            hproposes (fun c hc => ih hc) rfl hcommand]
          simp only [Engine.contextWithin, Registry.withPrivate_isPublic name b b']

end TaggedText
