import ThriftGateway.Idl.Comment
import ThriftGateway.Idl.Document
import ThriftGateway.Idl.Rules
import ThriftGateway.Number.Integer

/-!
# Documents from parse trees

`Document.ofTree` reads a parse tree of the Thrift grammar as a document.  Separators and annotations are left
out, and the comments around a node become its description.
-/

namespace ThriftGateway.Idl

/-- A parse tree of the Thrift grammar. -/
abbrev Tree := Grammar.Tree Terminal Category

namespace Tree

/-- Where the tree stands in the text; nowhere if it has no tokens. -/
def extent? (t : Tree) : Option Extent :=
  match t.first?, t.last? with
  | some a, some b => some ⟨a.start, b.stop⟩
  | _, _ => none

/-- The line that the tree begins on; 0 if it has no tokens. -/
def line (t : Tree) : Nat := t.first?.elim 0 (·.start.line)

/-- The children of the list under category `list`, if the tree has one, that derive from `element`. -/
def listed (t : Tree) (list : Category) : List Tree :=
  ((t.child? list).elim [] fun l => l.elements list).filter fun
    | .leaf _ => false
    | .node c _ => c ≠ .separator

end Tree

/-- A literal without its quotes. -/
def unquote (text : String) : String := String.ofList (text.toList.drop 1).dropLast

/-! ### Types and constants -/

mutual
/-- The types that a tree consists of: one for a type, none for anything else. -/
def typesOf : Tree → List TypeExpr
  | .leaf _ => []
  | .node c ts =>
    let line := (Tree.line (.node c ts))
    match c with
    | .fieldType | .functionType => typesOfAll ts
    | .voidType => [.void line]
    | .named => [.named line ((Grammar.Tree.node c ts).leafText .identifier 0)]
    | .base => [.base line ((Grammar.Tree.node c ts).leafText .baseType 0)]
    | .listType => [.list line ((typesOfAll ts).headD (.other none))]
    | .setType => [.set line ((typesOfAll ts).headD (.other none))]
    | .mapType =>
      match typesOfAll ts with
      | [k, v] => [.map line k v]
      | _ => [.map line (.other none) (.other none)]
    | _ => []

/-- The types that several trees consist of. -/
def typesOfAll : List Tree → List TypeExpr
  | [] => []
  | t :: ts => typesOf t ++ typesOfAll ts
end

/-- The type that a tree stands for. -/
def typeOf (t : Option Tree) : TypeExpr := (t.elim [] typesOf).headD (.other none)

/-- The integer constant that a tree stands for. -/
def intOf (t : Tree) : IntLiteral :=
  match t.leaves with
  | token :: _ => ⟨t.line, token.text, token.kind = .hexConstant⟩
  | [] => ⟨t.line, "", false⟩

/-- Neighbours two by two. -/
def pairUp {α : Type} : List α → List (α × α)
  | a :: b :: rest => (a, b) :: pairUp rest
  | _ => []

mutual
/-- The constants that a tree consists of: one for a constant, two for an entry of a map, all of them for a
list category, none for anything else. -/
def valuesOf : Tree → List ConstValue
  | .leaf _ => []
  | .node c ts =>
    let tree : Tree := .node c ts
    match c with
    | .constValue | .constItems | .constEntries | .constEntry => valuesOfAll ts
    | .intConstant => [.int (intOf tree)]
    | .doubleConstant => [.double tree.line (tree.leafText .doubleConstant 0)]
    | .stringLiteral => [.text tree.line (unquote (tree.leafText .literal 0))]
    | .boolLiteral => [.bool tree.line (tree.leaves.any (·.kind = .kwTrue))]
    | .named => [.named tree.line (tree.leafText .identifier 0)]
    | .constList => [.list tree.line (valuesOfAll ts)]
    | .constMap => [.map tree.line (pairUp (valuesOfAll ts))]
    | _ => []

/-- The constants that several trees consist of. -/
def valuesOfAll : List Tree → List ConstValue
  | [] => []
  | t :: ts => valuesOf t ++ valuesOfAll ts
end

/-- The constant that a tree stands for. -/
def valueOf (t : Option Tree) : Option ConstValue := (t.elim [] valuesOf).head?

/-! ### Declarations -/

section

variable (x : CommentIndex)

/-- The description of the node that a tree stands for. -/
def descriptionOf (t : Tree) (withTrailing : Bool) : Option String :=
  t.extent?.bind fun e => x.describe e withTrailing

/-- The number of a field. -/
def fieldIdOf (t : Tree) : Option Int := Number.readInt? 10 (t.leafText .intConstant 0)

/-- The requiredness that a tree stands for. -/
def requirednessOf (t : Tree) : Requiredness :=
  if t.leaves.any (·.kind = .kwRequired) then .required else .optional

/-- A field. -/
def fieldOf (t : Tree) : Field where
  line := t.line
  name := t.leafText .identifier 0
  id := (t.child? .fieldId).bind fieldIdOf
  requiredness := (t.child? .requiredness).map requirednessOf
  type := typeOf (t.child? .fieldType)
  default := valueOf (t.child? .constValue)
  description := descriptionOf x t true

/-- The fields among the children of a tree. -/
def fieldsOf (t : Tree) : List Field := (t.listed .fields).map (fieldOf x)

/-- A member of an enumeration. -/
def memberOf (t : Tree) : Member where
  line := t.line
  name := t.leafText .identifier 0
  initializer := (t.child? .intConstant).map intOf
  description := descriptionOf x t true

/-- A struct, union or exception. -/
def structOf (form : StructForm) (t : Tree) : Struct where
  form := form
  line := t.line
  name := t.leafText .identifier 0
  fields := fieldsOf x t
  description := descriptionOf x t false

/-- An enumeration. -/
def enumerationOf (t : Tree) : Enumeration where
  line := t.line
  name := t.leafText .identifier 0
  members := (t.listed .members).map (memberOf x)
  description := descriptionOf x t false

/-- A typedef. -/
def typedefOf (t : Tree) : Typedef where
  line := t.line
  name := t.leafText .identifier 0
  target := typeOf (t.child? .fieldType)
  description := descriptionOf x t false

/-- A constant. -/
def constantOf (t : Tree) : Constant where
  line := t.line
  name := t.leafText .identifier 0
  type := typeOf (t.child? .fieldType)
  value := valueOf (t.child? .constValue)
  description := descriptionOf x t false

/-- A function. -/
def functionOf (t : Tree) : Function where
  line := t.line
  name := t.leafText .identifier 0
  result := typeOf (t.child? .functionType)
  arguments := fieldsOf x t
  throws := (t.child? .throws).elim [] (fieldsOf x)
  oneway := t.leaves.any (·.kind = .kwOneway)
  description := descriptionOf x t true

/-- A service. -/
def serviceOf (t : Tree) : Service where
  line := t.line
  name := t.leafText .identifier 0
  parent := if t.leaves.any (·.kind = .kwExtends) then some (t.leafText .identifier 1) else none
  functions := (t.listed .functions).map (functionOf x)
  description := descriptionOf x t false

/-- The statement that a definition stands for. -/
def definitionOf? (t : Tree) : Option Statement :=
  match t with
  | .node .constant _ => some (.constant (constantOf x t))
  | .node .typedef _ => some (.declaration (.typedef (typedefOf x t)))
  | .node .enumeration _ => some (.declaration (.enumeration (enumerationOf x t)))
  | .node .struct _ => some (.declaration (.struct (structOf x .struct t)))
  | .node .union _ => some (.declaration (.struct (structOf x .union t)))
  | .node .exception _ => some (.declaration (.struct (structOf x .exception t)))
  | .node .service _ => some (.service (serviceOf x t))
  | _ => none

/-- The statement that a tree stands for. -/
def statementOf? (t : Tree) : Option Statement :=
  match t with
  | .node .inclusion _ => some (.inclusion t.line (unquote (t.leafText .literal 0)))
  | .node .cppInclusion _ => some (.cppInclusion t.line (unquote (t.leafText .literal 0)))
  | .node .scope _ =>
    if t.leaves.any (·.kind = .star) then some (.scope t.line "*" (t.leafText .identifier 0))
    else some (.scope t.line (t.leafText .identifier 0) (t.leafText .identifier 1))
  | .node .definition [d] => definitionOf? x d
  | _ => none

/-- The document that a tree stands for. -/
def Document.ofTree (t : Tree) : Document where
  line := 1
  body := (t.listed .statements).filterMap (statementOf? x)

end

/-! ### Field numbers that are too long -/

mutual
/-- Whether every field number in the tree can be read. -/
def numbersReadable : Tree → Bool
  | .leaf _ => true
  | .node c ts => (c ≠ .fieldId || (fieldIdOf (.node c ts)).isSome) && numbersReadableAll ts

/-- Whether every field number in several trees can be read. -/
def numbersReadableAll : List Tree → Bool
  | [] => true
  | t :: ts => numbersReadable t && numbersReadableAll ts
end

end ThriftGateway.Idl
