/-!
# Directories of texts

A directory as a value: files by their places in it, and what a path from it leads to.  The command
line reads files and nothing else, so this is all that it has to know of the world around it.

A path is followed step by step (`Directory.follow`), and reading what it leads to gives the text of
a file or the reason why there is none (`ReadFault`).  Nothing is known of what lies outside, so a
path that leaves the directory leads nowhere.
-/

namespace TaggedText

/-- Why a file cannot be read. -/
inductive ReadFault where
  | missing
  | denied
  | notDirectory
  | isDirectory
  | other (reason : String)
  deriving DecidableEq, Repr

/-- The fault in the words of the system. -/
def ReadFault.message : ReadFault → String
  | missing => "No such file or directory (os error 2)"
  | denied => "Permission denied (os error 13)"
  | notDirectory => "Not a directory (os error 20)"
  | isDirectory => "Is a directory (os error 21)"
  | other reason => reason

/-- The text of a file, or why it cannot be read. -/
abbrev FileText := Except ReadFault String

/-- **A directory of texts.**  The place of a file is the names on the way to it, its own last. -/
structure Directory where
  files : List (List String × String)
  deriving Repr, Inhabited

namespace Directory

/-- The segments of a path. -/
def segments (path : String) : List String :=
  path.splitOn "/"

/-- The directory with some files, each under its path. -/
def ofFiles (files : List (String × String)) : Directory :=
  ⟨files.map fun (path, text) => (segments path, text)⟩

/-- The text of the file at a place. -/
def file? (d : Directory) (place : List String) : Option String :=
  d.files.lookup place

/-- There is a directory at a place: `d` itself, or one on the way to a file. -/
def holds (d : Directory) (place : List String) : Bool :=
  place.isEmpty || d.files.any fun file => place.isPrefixOf file.1 && place.length < file.1.length

/-- The place to which the segments of a path lead from `place`.  A point stays, two points go up. -/
def follow (d : Directory) (place : List String) : List String → Except ReadFault (List String)
  | [] => .ok place
  | segment :: rest =>
    let inner := place ++ [segment]
    if !d.holds place then .error .notDirectory
    else if segment == "" || segment == "." then follow d place rest
    else if segment == ".." then
      if place.isEmpty then .error .missing else follow d place.dropLast rest
    else if (d.file? inner).isSome || d.holds inner then follow d inner rest
    else .error .missing

/-- **The text of the file that a path leads to.** -/
def read (d : Directory) (path : String) : FileText :=
  match segments path with
  | "" :: _ => .error .missing
  | names =>
    match d.follow [] names with
    | .error fault => .error fault
    | .ok place =>
      match d.file? place with
      | some text => .ok text
      | none => .error .isDirectory

end Directory

end TaggedText
