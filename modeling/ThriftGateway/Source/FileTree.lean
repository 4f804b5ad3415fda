import ThriftGateway.Source.ByteName
import ThriftGateway.Source.Path
import ThriftGateway.Text.Quoted

/-!
# File trees

Files with their bytes, and what goes wrong when a path is opened.
-/

namespace ThriftGateway.Source

/-- The files there are, and the directory that relative paths begin at. -/
structure FileTree where
  working : Path
  files : List (Path × List UInt8)
  /-- Directories beside those that hold a file. -/
  directories : List Path := []
  /-- What stands for halves of characters in the written paths that are followed. -/
  halves : Text.StandIns := {}

/-- Why a path cannot be opened. -/
inductive FileError where
  | notFound (path : String)
  | isDirectory (path : String)
  | notDirectory (path : String)
  | nameTooLong (path : String)
  | nullCharacter
  /-- The path holds half of a character. -/
  | halfCharacter
  deriving DecidableEq, Repr

/-- The words for an error; `halves` are the stand-ins in its path. -/
def FileError.message (e : FileError) (halves : Text.StandIns := {}) : String :=
  match e with
  | notFound p => "[Errno 2] No such file or directory: " ++ Text.quoted p halves
  | isDirectory p => "[Errno 21] Is a directory: " ++ Text.quoted p halves
  | notDirectory p => "[Errno 20] Not a directory: " ++ Text.quoted p halves
  | nameTooLong p => "[Errno 36] File name too long: " ++ Text.quoted p halves
  | nullCharacter => "embedded null byte"
  | halfCharacter => "surrogates not allowed"

/-- The most bytes of a file name. -/
def maxNameBytes : Nat := 255

/-- The most bytes of a path. -/
def maxPathBytes : Nat := 4095

namespace FileTree

variable (t : FileTree)

/-- The bytes of the file at a path. -/
def file? (p : Path) : Option (List UInt8) := (t.files.find? fun f => f.1 = p).map (·.2)

/-- Whether a path is a directory: it holds a file, or is or holds a known directory such as the working one. -/
def isDirectory (p : Path) : Bool :=
  (t.files.any fun f => f.1.isBelow p) || (t.working :: t.directories).any fun d => p = d || d.isBelow p

/-- Whether there is a file or a directory at a path. -/
def contains (p : Path) : Bool := (t.file? p).isSome || t.isDirectory p

/-- Why the way from a directory, by these components, leads to no file; `text` is the path in messages. -/
def missingFrom (text : String) (directory : Path) : List String → FileError
  | [] => .isDirectory text
  | c :: cs =>
    if maxNameBytes < (nameBytes t.halves c).length then .nameTooLong text
    else
      match plainName? t.halves c with
      | none => .notFound text
      | some name =>
        let next : Path := ⟨directory.components ++ [name]⟩
        if t.isDirectory next then missingFrom text next cs
        else if (t.file? next).isSome then .notDirectory text
        else .notFound text

/-- Why there is no file at a path. -/
def missing (p : Path) : FileError :=
  if !isPassable p.text then .nullCharacter
  else if maxPathBytes < (nameBytes t.halves p.text).length then .nameTooLong p.text
  else t.missingFrom p.text .root p.components

/-- The bytes of the file at a path, or why it cannot be opened. -/
def read (p : Path) : Except FileError (List UInt8) :=
  match t.file? p with
  | some bytes => .ok bytes
  | none => .error (t.missing p)

/-- Whether a written path cannot be followed because of half a character.  The first name that no file can have
decides. -/
def stopsAtHalf (written : String) : Bool :=
  ((writtenComponents written).find? fun c => holdsStrayHalf t.halves c || !isPassable c).any
    (holdsStrayHalf t.halves)

/-- The path without halves that a path leads to.  One with halves has to lead to a file. -/
def plainPath (p : Path) : Except FileError Path :=
  if p.components.any (holdsHalf t.halves) then
    match (p.components.mapM (plainName? t.halves)).filter fun names => (t.file? ⟨names⟩).isSome with
    | some names => .ok ⟨names⟩
    | none => .error (t.missing p)
  else .ok p

/-- The tree with a file written. -/
def write (p : Path) (bytes : List UInt8) : FileTree :=
  if (t.file? p).isSome then { t with files := t.files.map fun f => if f.1 = p then (p, bytes) else f }
  else { t with files := t.files ++ [(p, bytes)] }

/-- Writes a file; a directory cannot be written, nor a file in a directory that is not there. -/
def writeFile (p : Path) (bytes : List UInt8) : Except FileError FileTree :=
  if (t.file? p).isSome then .ok (t.write p bytes)
  else
    match t.missing p with
    | .notFound text => if t.isDirectory p.parent then .ok (t.write p bytes) else .error (.notFound text)
    | e => .error e

/-- The files that are not there, or not the same, in an earlier tree. -/
def changedSince (earlier : FileTree) : List (Path × List UInt8) :=
  t.files.filter fun f => earlier.file? f.1 ≠ some f.2

end FileTree

end ThriftGateway.Source
