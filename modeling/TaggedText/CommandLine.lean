import TaggedText.Directory
import TaggedText.Render
import TaggedText.Report

/-!
# The command line

What the program does with its arguments and the files they name, as a function.  It is given the
directory it was started in and what stands on its input, and its `Answer` is an exit code, the
output, and what is said on the error channel; nothing else of the world is touched, so the outer
layer has only to read and to write.
-/

namespace TaggedText.CommandLine

/-- The arguments, read. -/
structure Options where
  input : Option String := none
  tags : Option String := none
  target : Option OutputTarget := none
  static : Bool := false
  strict : Bool := false
  strictFences : Bool := false
  verbosity : Nat := 0
  deriving Repr, Inhabited

/-- Why arguments cannot be read. -/
inductive UsageFault where
  | unknown (argument : String)
  | repeated (argument : String)
  | missingValue (argument : String)
  | badValue (argument value : String)
  | helpWanted
  deriving DecidableEq, Repr

/-- The fault in words. -/
def UsageFault.message : UsageFault → String
  | unknown argument => "error: unexpected argument '" ++ argument ++ "' found"
  | repeated argument => "error: the argument '" ++ argument ++ "' cannot be used multiple times"
  | missingValue argument => "error: a value is required for '" ++ argument ++ "' but none was supplied"
  | badValue argument value => "error: invalid value '" ++ value ++ "' for '" ++ argument ++ "'"
  | helpWanted => "Usage: [OPTIONS] [FILE]"

/-! ### Reading arguments -/

/-- Takes over a tag set file; no file has an empty name. -/
def withTags (o : Options) (value : String) : Except UsageFault Options :=
  if value.isEmpty then .error (.missingValue "--tags")
  else if o.tags.isSome then .error (.repeated "--tags")
  else .ok { o with tags := some value }

/-- Takes over an output target. -/
def withTarget (o : Options) (value : String) : Except UsageFault Options :=
  if o.target.isSome then .error (.repeated "--target")
  else if value == "html" then .ok { o with target := some .html }
  else if value == "text" then .ok { o with target := some .text }
  else .error (.badValue "--target" value)

/-- Takes over an input file; no file has an empty name. -/
def withInput (o : Options) (value : String) : Except UsageFault Options :=
  if value.isEmpty then .error (.missingValue "[FILE]")
  else if o.input.isSome then .error (.unknown value)
  else .ok { o with input := some value }

/-- Takes over a long option that has no value. -/
def withFlag (o : Options) (argument : String) : Except UsageFault Options :=
  if argument == "--static" then
    if o.static then .error (.repeated argument) else .ok { o with static := true }
  else if argument == "--strict" then
    if o.strict then .error (.repeated argument) else .ok { o with strict := true }
  else if argument == "--strict-fences" then
    if o.strictFences then .error (.repeated argument) else .ok { o with strictFences := true }
  else if argument == "--verbose" then .ok { o with verbosity := o.verbosity + 1 }
  else if argument == "--help" then .error .helpWanted
  else .error (.unknown argument)

/-- A long option and what stands behind its first `=`, if there is one. -/
def splitLong (argument : String) : String × Option String :=
  let cs := argument.toList
  let name := cs.takeWhile (· != '=')
  (String.ofList name,
    if name.length < cs.length then some (String.ofList (cs.drop (name.length + 1))) else none)

/-- An option that waits for its value in the next argument. -/
inductive Awaited where
  | tags
  | target
  deriving DecidableEq, Repr

/-- Takes over a bundle of short options; the last one may wait for its value. -/
def withBundle (o : Options) : List Char → Except UsageFault (Options × Option Awaited)
  | [] => .ok (o, none)
  | 'v' :: rest => withBundle { o with verbosity := o.verbosity + 1 } rest
  | ['t'] => .ok (o, some .tags)
  | 't' :: '=' :: rest => (withTags o (String.ofList rest)).map fun o => (o, none)
  | 't' :: rest => (withTags o (String.ofList rest)).map fun o => (o, none)
  | 'h' :: _ => .error .helpWanted
  | c :: _ => .error (.unknown ("-" ++ String.singleton c))

/-- Takes over one argument. -/
def withArgument (o : Options) (argument : String) :
    Except UsageFault (Options × Option Awaited) :=
  match argument.toList with
  | '-' :: '-' :: _ =>
    match splitLong argument with
    | ("--tags", some value) => (withTags o value).map fun o => (o, none)
    | ("--tags", none) => .ok (o, some .tags)
    | ("--target", some value) => (withTarget o value).map fun o => (o, none)
    | ("--target", none) => .ok (o, some .target)
    | (_, some _) => .error (.unknown argument)
    | (name, none) => (withFlag o name).map fun o => (o, none)
  | '-' :: c :: rest => withBundle o (c :: rest)
  | _ => (withInput o argument).map fun o => (o, none)

/-- An argument that can be the value of an option in front of it. -/
def isValue (argument : String) : Bool :=
  argument == "-" || argument.toList.head? != some '-'

/-- Reads the arguments; `awaited` is the option whose value comes next. -/
def parseFrom (o : Options) (awaited : Option Awaited) : List String → Except UsageFault Options
  | [] =>
    match awaited with
    | none => .ok o
    | some .tags => .error (.missingValue "--tags")
    | some .target => .error (.missingValue "--target")
  | argument :: rest =>
    match awaited with
    | some .tags =>
      if isValue argument then do parseFrom (← withTags o argument) none rest
      else .error (.missingValue "--tags")
    | some .target =>
      if isValue argument then do parseFrom (← withTarget o argument) none rest
      else .error (.missingValue "--target")
    | none =>
      if argument == "--" then rest.foldlM withInput o
      else do
        let (o, awaited) ← withArgument o argument
        parseFrom o awaited rest

/-- **Reads the arguments.** -/
def parse (arguments : List String) : Except UsageFault Options :=
  parseFrom {} none arguments

/-! ### Running -/

/-- What the program leaves behind. -/
structure Answer where
  code : UInt8 := 0
  stdout : String := ""
  stderr : String := ""
  deriving DecidableEq, Repr, Inhabited

/-- The answer of a program that gives up. -/
def failed (message : String) : Answer :=
  { code := 1, stderr := message }

/-- The tags of a run: the built-in ones, and over them those of the file, if one is named. -/
def tagSet (o : Options) (file : String → FileText) : Except String TagSet :=
  match o.tags with
  | none => .ok TagSet.builtin
  | some path =>
    match file path with
    | .error fault =>
      .error ("Error loading tag set '" ++ path ++ "': Failed to read tag set file: "
        ++ fault.message ++ "\n")
    | .ok text =>
      match TagSet.ofToml? text with
      | none =>
        .error ("Error loading tag set '" ++ path ++ "': Failed to parse tag set TOML: "
          ++ "TOML parse error\n")
      | some tags => .ok (TagSet.builtin.merge tags)

/-- The source of a run and the name it goes by. -/
def source (o : Options) (file : String → FileText) (stdin : FileText) :
    Except String (String × String) :=
  match o.input with
  | some path =>
    match file path with
    | .error fault => .error ("Error reading file '" ++ path ++ "': " ++ fault.message ++ "\n")
    | .ok text => .ok (text, path)
  | none =>
    match stdin with
    | .error fault => .error ("Error reading from stdin: " ++ fault.message ++ "\n")
    | .ok text => .ok (text, "<stdin>")

/-- What the options say about rendering. -/
def Options.rendering (o : Options) (tags : TagSet) : RenderOptions where
  tags := tags
  target := o.target.getD .html
  mode := if o.static then .static else .dynamic
  policy := if o.strict then .strict else .lenient
  reader := { strictFences := o.strictFences }

/-- **Runs the program** on files and standard input.  The tag set is read before the source. -/
def run (o : Options) (file : String → FileText) (stdin : FileText) : Answer :=
  match tagSet o file with
  | .error message => failed message
  | .ok tags =>
    match source o file stdin with
    | .error message => failed message
    | .ok (text, name) =>
      match render (o.rendering tags) text with
      | .ok output => { stdout := output ++ "\n" }
      | .error (.malformed diagnostics) =>
        failed (String.join (diagnostics.map fun d => d.report text name))
      | .error fault => failed ("Error: " ++ fault.message ++ "\n")

/-- The answer to arguments that cannot be read. -/
def usage (fault : UsageFault) : Answer :=
  match fault with
  | .helpWanted => { stdout := fault.message ++ "\n" }
  | _ => { code := 2, stderr := fault.message ++ "\n" }

/-- The whole program. -/
def answer (arguments : List String) (file : String → FileText) (stdin : FileText) : Answer :=
  match parse arguments with
  | .error fault => usage fault
  | .ok o => run o file stdin

end TaggedText.CommandLine
