import ThriftGateway.Source.Path

/-!
# Thrift documents

What a Thrift file says, before any include is loaded and any name is looked up.  Every node keeps the line it
begins on, counted from 1; 0 means that the line is not known.
-/

namespace ThriftGateway.Idl

/-- The kinds of nodes, as named in messages. -/
inductive Kind where
  | document | inclusion | cppInclusion | scope | constant | typedef | enumeration | member | struct | union
  | exception | service | function | field | base | list | set | map | void | named | int | double | text | bool
  | constList | constMap
  deriving DecidableEq, Repr, Inhabited

/-- The name of a kind in messages. -/
def Kind.name : Kind → String
  | document => "ThriftDocument"
  | inclusion => "IncludeDefinition"
  | cppInclusion => "CppIncludeDefinition"
  | scope => "NamespaceDefinition"
  | constant => "ConstDefinition"
  | typedef => "TypedefDefinition"
  | enumeration => "EnumDefinition"
  | member => "EnumMember"
  | struct => "StructDefinition"
  | union => "UnionDefinition"
  | exception => "ExceptionDefinition"
  | service => "ServiceDefinition"
  | function => "FunctionDefinition"
  | field => "FieldDefinition"
  | base => "BaseType"
  | list => "ListType"
  | set => "SetType"
  | map => "MapType"
  | void => "VoidType"
  | named => "Identifier"
  | int => "IntConstant"
  | double => "DoubleConstant"
  | text => "StringLiteral"
  | bool => "BooleanLiteral"
  | constList => "ConstList"
  | constMap => "ConstMap"

/-- The name of a kind, or of the lack of a node. -/
def Kind.nameOf : Option Kind → String
  | none => "NoneType"
  | some k => k.name

/-- An integer constant as written. -/
structure IntLiteral where
  line : Nat
  raw : String
  isHex : Bool
  deriving DecidableEq, Repr, Inhabited

/-- A constant as written. -/
inductive ConstValue where
  | int (literal : IntLiteral)
  | double (line : Nat) (raw : String)
  | text (line : Nat) (value : String)
  | bool (line : Nat) (value : Bool)
  | named (line : Nat) (reference : String)
  | list (line : Nat) (elements : List ConstValue)
  | map (line : Nat) (entries : List (ConstValue × ConstValue))
  /-- Something that is no constant. -/
  | other (kind : Kind)
  deriving Repr, Inhabited

/-- Whether a field has to be given. -/
inductive Requiredness where
  | required
  | optional
  deriving DecidableEq, Repr

/-- A member of an enumeration. -/
structure Member where
  line : Nat
  name : String
  initializer : Option IntLiteral
  description : Option String
  deriving DecidableEq, Repr

/-- The three kinds of declarations that consist of fields. -/
inductive StructForm where
  | struct
  | union
  | exception
  deriving DecidableEq, Repr

/-- An enumeration. -/
structure Enumeration where
  line : Nat
  name : String
  members : List Member
  description : Option String
  deriving DecidableEq, Repr

mutual
/-- A type as written, or something else at the place of a type. -/
inductive TypeExpr where
  | base (line : Nat) (name : String)
  | list (line : Nat) (element : TypeExpr)
  | set (line : Nat) (element : TypeExpr)
  | map (line : Nat) (key value : TypeExpr)
  | named (line : Nat) (reference : String)
  | void (line : Nat)
  /-- A field, which stands for its type. -/
  | field (f : Field)
  /-- A declaration, which stands for what it declares. -/
  | declared (d : Declaration)
  /-- Something that is no type, or nothing. -/
  | other (kind : Option Kind)
  deriving Repr

/-- A field of a struct, or an argument or exception of a function. -/
structure Field where
  line : Nat
  name : String
  id : Option Int
  requiredness : Option Requiredness
  type : TypeExpr
  default : Option ConstValue
  description : Option String
  deriving Repr

/-- A struct, union or exception. -/
structure Struct where
  form : StructForm
  line : Nat
  name : String
  fields : List Field
  description : Option String
  deriving Repr

/-- Another name for a type. -/
structure Typedef where
  line : Nat
  name : String
  target : TypeExpr
  description : Option String
  deriving Repr

/-- A declaration that a type can refer to. -/
inductive Declaration where
  | struct (s : Struct)
  | enumeration (e : Enumeration)
  | typedef (t : Typedef)
  deriving Repr
end

instance : Inhabited TypeExpr := ⟨.other none⟩

instance : Inhabited Field := ⟨⟨0, "", none, none, default, none, none⟩⟩

/-- A named constant. -/
structure Constant where
  line : Nat
  name : String
  type : TypeExpr
  value : Option ConstValue
  description : Option String
  deriving Repr

/-- A function of a service. -/
structure Function where
  line : Nat
  name : String
  result : TypeExpr
  arguments : List Field
  throws : List Field
  oneway : Bool
  description : Option String
  deriving Repr

/-- A service. -/
structure Service where
  line : Nat
  name : String
  parent : Option String
  functions : List Function
  description : Option String
  deriving Repr

/-- A statement of a document. -/
inductive Statement where
  | inclusion (line : Nat) (path : String)
  | cppInclusion (line : Nat) (path : String)
  | scope (line : Nat) (language name : String)
  | constant (c : Constant)
  | declaration (d : Declaration)
  | service (s : Service)
  deriving Repr

/-- A whole document. -/
structure Document where
  line : Nat
  body : List Statement
  /-- The file that the document has been read from; none for a text on its own. -/
  path : Option Source.Path := none
  deriving Repr

namespace StructForm

/-- The kind of a declaration of this form. -/
def kind : StructForm → Kind
  | struct => .struct
  | union => .union
  | exception => .exception

end StructForm

namespace Declaration

/-- The declared name. -/
def name : Declaration → String
  | struct s => s.name
  | enumeration e => e.name
  | typedef t => t.name

/-- The line that the declaration begins on. -/
def line : Declaration → Nat
  | struct s => s.line
  | enumeration e => e.line
  | typedef t => t.line

/-- The kind of the declaration. -/
def kind : Declaration → Kind
  | struct s => s.form.kind
  | enumeration _ => .enumeration
  | typedef _ => .typedef

end Declaration

/-- The kind of a statement. -/
def Statement.kind : Statement → Kind
  | inclusion .. => .inclusion
  | cppInclusion .. => .cppInclusion
  | scope .. => .scope
  | constant _ => .constant
  | declaration d => d.kind
  | service _ => .service

/-- The kind of a type. -/
def TypeExpr.kind : TypeExpr → Option Kind
  | base .. => some .base
  | list .. => some .list
  | set .. => some .set
  | map .. => some .map
  | named .. => some .named
  | void _ => some .void
  | field _ => some .field
  | declared d => some d.kind
  | other k => k

/-- The function of this name that comes first. -/
def Service.function? (s : Service) (name : String) : Option Function := s.functions.find? (·.name = name)

namespace Document

/-- The paths of the includes, as written, in order. -/
def includes (d : Document) : List String :=
  d.body.filterMap fun
    | .inclusion _ path => some path
    | _ => none

/-- The services, in order. -/
def services (d : Document) : List Service :=
  d.body.filterMap fun
    | .service s => some s
    | _ => none

/-- The type declarations, in order. -/
def declarations (d : Document) : List Declaration :=
  d.body.filterMap fun
    | .declaration e => some e
    | _ => none

/-- The type declarations of this name, in order. -/
def declarationsNamed (d : Document) (name : String) : List Declaration :=
  d.declarations.filter (·.name = name)

end Document

end ThriftGateway.Idl
