import ThriftGateway.Text.Blank

/-!
# Paths

A path is canonical: absolute, and without empty, `.` or `..` components.  A written path is what someone writes,
from wherever it leads: `Path.resolve` makes it canonical from a directory, and its stem is the name that an include
goes by.  Only a written path that holds the null character leads nowhere: what stands behind the name with that
character is kept as it is, so that the path keeps the character.
-/

namespace ThriftGateway.Source

/-- A canonical path, by its components from the root down. -/
structure Path where
  components : List String
  deriving DecidableEq, Repr, Inhabited

/-- The components of a written path that count: not empty and not `.`. -/
def writtenComponents (s : String) : List String :=
  ((Text.splitAt '/' s.toList).map String.ofList).filter fun c => c ≠ "" ∧ c ≠ "."

/-- Whether a file can have the name, or lie at the path: both are without the null character. -/
def isPassable (s : String) : Bool := !s.toList.contains (Char.ofNat 0)

/-- A written path that begins at the root. -/
def isAbsolute (s : String) : Bool := s.toList.head? = some '/'

/-- A path as written, without what does not count: what it begins with, and its components.  Two slashes at the
front, and no more, differ from one. -/
structure WrittenPath where
  front : String
  components : List String
  deriving DecidableEq, Repr, Inhabited

namespace WrittenPath

/-- The path that a text writes. -/
def ofText (s : String) : WrittenPath :=
  let slashes := (s.toList.takeWhile (· = '/')).length
  ⟨if slashes = 2 then "//" else if slashes = 0 then "" else "/", writtenComponents s⟩

/-- The path as a text; a dot if there is nothing to it. -/
def text (p : WrittenPath) : String :=
  let text := p.front ++ "/".intercalate p.components
  if text = "" then "." else text

/-- The last component, if there is one. -/
def name (p : WrittenPath) : String := p.components.getLast?.getD ""

end WrittenPath

/-- A written path without what does not count. -/
def tidied (s : String) : String := (WrittenPath.ofText s).text

namespace Path

/-- The root. -/
def root : Path := ⟨[]⟩

/-- The path with a slash before every component. -/
def text (p : Path) : String :=
  if p.components.isEmpty then "/" else String.join (p.components.map ("/" ++ ·))

/-- The path in writing. -/
def written (p : Path) : WrittenPath := ⟨"/", p.components⟩

/-- The directory that holds the path; the root holds itself. -/
def parent (p : Path) : Path := ⟨p.components.dropLast⟩

/-- The last component; empty for the root. -/
def name (p : Path) : String := p.components.getLast?.getD ""

/-- Follows one component; `..` leads to the parent, but not back from a name that nothing can have. -/
def step (p : Path) (component : String) : Path :=
  if component = ".." ∧ isPassable p.name then p.parent else ⟨p.components ++ [component]⟩

/-- The path that a written path leads to from a directory. -/
def resolve (base : Path) (written : String) : Path :=
  (writtenComponents written).foldl step (if isAbsolute written then root else base)

/-- The path of an include as written in a file. -/
def ofInclude (file : Path) (written : String) : Path := file.parent.resolve written

/-- Whether the path lies in the directory, at any depth. -/
def isBelow (p dir : Path) : Bool :=
  dir.components.length < p.components.length && dir.components.isPrefixOf p.components

end Path

/-- A file name without its last suffix.  A dot at either end begins no suffix. -/
def dropSuffix (name : String) : String :=
  let cs := name.toList
  let suffix := (cs.reverse.takeWhile (· ≠ '.')).length
  let i := cs.length - suffix - 1
  if cs.contains '.' ∧ 0 < i ∧ 0 < suffix then String.ofList (cs.take i) else name

/-- The last component of a written path without its suffix. -/
def WrittenPath.stem (p : WrittenPath) : String := dropSuffix p.name

/-- The name that an include goes by. -/
def stemOf (written : String) : String := (WrittenPath.ofText written).stem

end ThriftGateway.Source
