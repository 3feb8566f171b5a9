import TaggedText.CommandLine

/-!
# The program

Reads the files that the arguments name and standard input, and writes the answer.
-/

open TaggedText

/-- Why a reading failed. -/
def readingFault : IO.Error → ReadFault
  | .noFileOrDirectory .. => .missing
  | .permissionDenied .. => .denied
  | .userError reason => .other reason
  | fault => .other (toString fault)

/-- The text of a file, or why it cannot be read. -/
def readFileText (path : String) : IO FileText := do
  try
    return .ok (← IO.FS.readFile path)
  catch fault =>
    return .error (readingFault fault)

/-- All of standard input. -/
partial def readInput : IO String := do
  let stdin ← IO.getStdin
  let rec go (bytes : ByteArray) : IO ByteArray := do
    let more ← stdin.read 65536
    if more.isEmpty then return bytes else go (bytes ++ more)
  let bytes ← go ByteArray.empty
  match String.fromUTF8? bytes with
  | some text => return text
  | none => throw (IO.userError "stream did not contain valid UTF-8")

def main (arguments : List String) : IO UInt32 := do
  let named :=
    match CommandLine.parse arguments with
    | .ok o => o.tags.toList ++ o.input.toList
    | .error _ => []
  let files ← named.mapM fun path => do return (path, ← readFileText path)
  let wantsInput :=
    match CommandLine.parse arguments with
    | .ok o => o.input.isNone
    | .error _ => false
  let stdin ← if wantsInput then
      try pure (.ok (← readInput)) catch fault => pure (.error (readingFault fault))
    else pure (.ok "")
  let file := fun path => (files.lookup path).getD (.error .missing)
  let answer := CommandLine.answer arguments file stdin
  IO.print answer.stdout
  IO.eprint answer.stderr
  return answer.code.toUInt32
