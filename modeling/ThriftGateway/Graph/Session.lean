import ThriftGateway.Graph.Default
import ThriftGateway.Graph.Expansion
import ThriftGateway.Graph.Name
import ThriftGateway.Graph.NameTable
import ThriftGateway.Idl.Nesting

/-!
# Sessions

A session holds what one schema is built from: the loaded documents, the nodes made so far, the names given out,
and what has been reported.  A node is made once for each declaration and direction.  A sealed session makes no
more nodes.
-/

namespace ThriftGateway.Graph

open Number (NumeralError)
open Source (FileTree Library LoadError Path WrittenPath)

/-- What a node is known by: a declaration and the direction that a struct is seen from. -/
structure NodeKey where
  file : WrittenPath
  name : String
  direction : Option Direction
  deriving DecidableEq, Repr

/-- The declarations inside of the struct of a node, with its file. -/
def Node.inside : Node → List (Path × Idl.Declaration)
  | .input _ file s | .output _ file s => s.inside.map (file, ·)
  | .enumeration .. | .foreign => []

/-- What a schema is built from. -/
structure Session where
  enumsAsInts : Bool
  naming : TypeNaming
  library : Library
  /-- The nodes in the order in which they were made; their numbers are their places. -/
  nodes : List (NodeKey × Node)
  names : NameTable
  isSealed : Bool
  log : List Notice

/-- Why a type cannot be compiled. -/
inductive CompileError where
  | expansion (error : ExpansionError)
  | numeral (error : NumeralError)
  | name (error : NameError)
  /-- A sealed session would have to make a node. -/
  | sealedSession (name : String) (file : WrittenPath)
  /-- The name is one of the types that every schema has. -/
  | reservedType (name : String)
  deriving DecidableEq, Repr

/-- Why the fields of a node cannot be told. -/
inductive FieldsError where
  | unresolved (typeName : String) (cause : CompileError)
  | name (error : NameError)
  deriving DecidableEq, Repr

/-- Work in a session, which keeps what was done before a failure. -/
abbrev Work (ε : Type) := ExceptT ε (StateM Session)

/-- The result of work that begins in a session, and the session that it leaves. -/
def Work.run {ε α : Type} (w : Work ε α) (s : Session) : Except ε α × Session := StateT.run (ExceptT.run w) s

/-- Work that compiles. -/
abbrev Compile := Work CompileError

namespace Session

/-- A session in which nothing has been done. -/
def fresh (enumsAsInts : Bool) (naming : TypeNaming) : Session :=
  { enumsAsInts, naming, library := .empty, nodes := [], names := .fresh, isSealed := false, log := [] }

variable (s : Session)

/-- The node with a number. -/
def node? (id : Nat) : Option Node := (s.nodes[id]?).map (·.2)

/-- The number of the node with a key. -/
def find? (key : NodeKey) : Option Nat := s.nodes.findIdx? (·.1 = key)

/-- All declarations that types can end at, with their files: those of the documents, and those inside of them and of
the structs that have nodes. -/
def declarations : List (Path × Idl.Declaration) :=
  (s.library.entries.flatMap fun e => e.2.declarations.flatMap fun d => (d :: d.inside).map (e.1, ·)) ++
    s.nodes.flatMap fun n => n.2.inside

/-- Reports something. -/
def report (n : Notice) : Session := { s with log := s.log ++ [n] }

/-- Gives out a type name. -/
def allocate (preferred : String) : String × Session :=
  let (given, names) := s.names.allocate preferred
  let s := { s with names }
  (given, if given = preferred then s else s.report (.nameTaken preferred given))

/-- Gives out the name of a type for a declaration. -/
def typeName (r : NameRequest) : String × Session := s.allocate (s.naming r)

/-- Forbids making nodes. -/
def close : Session := { s with isSealed := true }

/-- Loads files and everything they include. -/
def load (t : FileTree) (paths : List Path) : Session × Option LoadError :=
  let r := s.library.load t paths
  ({ s with library := r.library, log := s.log ++ r.notices }, r.error)

/-- The name of what is inside all lists of a type. -/
def nameOf : NamedType → String
  | .scalar scalar => scalar.name
  | .node id => ((s.node? id).map Node.name).getD ""

/-- The written form of a type. -/
def written (t : GraphType) : String := t.written s.nameOf

end Session

/-- Turns a result into work. -/
def Work.ofExcept {ε δ α : Type} (wrap : δ → ε) (r : Except δ α) : Work ε α :=
  match r with
  | .ok a => pure a
  | .error e => throw (wrap e)

/-- The node with a key, made if it is not there yet. -/
def nodeFor (key : NodeKey) (make : Compile Node) : Compile Nat := do
  let s ← get
  match s.find? key with
  | some id => return id
  | none => do
    if s.isSealed then throw (.sealedSession key.name key.file)
    let node ← make
    modifyGet fun s => (s.nodes.length, { s with nodes := s.nodes ++ [(key, node)] })

/-- Gives out the name of a type for a declaration. -/
def giveName (r : NameRequest) : Compile String := do
  let name ← modifyGet fun s => s.typeName r
  if isReservedType name then throw (.reservedType name)
  Work.ofExcept .name (checkName name)
  return name

end ThriftGateway.Graph
