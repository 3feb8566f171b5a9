import TaggedText.Dispatch.Command
import TaggedText.Source.Visible

/-!
# Resolvers: what a tag stands for

A resolver is bound to one tag name.  When a document is composed it is asked for one command that
describes the tag; when a document is rendered it proposes commands one at a time, each with the
value of the one before at hand.

A `Sequence` of proposals never sees packets: it proposes commands and is told their values, nothing
else.  As a tree that branches on these values it is finite, and `Sequence.follow` walks along a
given feed.  The simplest sequence is a fixed list of commands (`Sequence.script`).
-/

namespace TaggedText

/-- **A proposal of commands.**  The value that a command returned, if any, decides how the sequence
goes on. -/
inductive Sequence where
  | done
  | propose (command : Command) (next : Option Json → Sequence)
  deriving Inhabited

namespace Sequence

/-- A fixed list of commands, whatever they return. -/
def script : List Command → Sequence
  | [] => done
  | command :: rest => propose command fun _ => script rest

/-- What a sequence proposes, one answer for each value fed.  `next` awaits the first value; after
the end nothing is proposed any more. -/
def follow (next : Option Json → Sequence) : List (Option Json) → List (Option Command)
  | [] => []
  | value :: feed =>
    match next value with
    | done => none :: follow (fun _ => done) feed
    | propose command next => some command :: follow next feed

/-- What the sequence proposes under a feed; the first value finds nobody waiting for it. -/
def proposals (s : Sequence) (feed : List (Option Json)) : List (Option Command) :=
  follow (fun _ => s) feed

end Sequence

/-- What a resolver is told: the target of the output, and the tag. -/
structure Invocation where
  target : String
  tag : Tag
  deriving Inhabited

/-- **What stands for a tag.**  Left to itself a resolver describes its tag as undefined and proposes
nothing. -/
structure Resolver where
  resolve : Invocation → Command := fun _ => .undefined
  sequence : Invocation → Sequence := fun _ => .done

instance : Inhabited Resolver := ⟨{}⟩

/-- Tag names and what stands for them. -/
abbrev ResolverMap := Table Resolver

/-- The tag names of a map in one line. -/
def ResolverMap.summary (map : ResolverMap) : String :=
  "ResolverMap \x7b tags: [" ++ String.intercalate ", " (map.keys.map Quoted.encode) ++ "] \x7d"

end TaggedText
