import ThriftGateway.Idl.Document

/-!
# Declarations inside of declarations

A type can be a declaration itself, which then stands at its place.  No file is written so, but a type that is given on
its own may be.
-/

namespace ThriftGateway.Idl

mutual
/-- The declarations inside of a type, through lists and fields, with those inside of them. -/
def TypeExpr.inside : TypeExpr → List Declaration
  | .list _ element => element.inside
  | .field f => f.inside
  | .declared d => d :: d.inside
  | .base .. | .set .. | .map .. | .named .. | .void _ | .other _ => []

/-- The declarations inside of a field. -/
def Field.inside : Field → List Declaration
  | ⟨_, _, _, _, type, _, _⟩ => type.inside

/-- The declarations inside of fields. -/
def insideAll : List Field → List Declaration
  | [] => []
  | f :: fs => f.inside ++ insideAll fs

/-- The declarations inside of a struct. -/
def Struct.inside : Struct → List Declaration
  | ⟨_, _, _, fields, _⟩ => insideAll fields

/-- The declarations inside of a typedef. -/
def Typedef.inside : Typedef → List Declaration
  | ⟨_, _, target, _⟩ => target.inside

/-- The declarations inside of a declaration. -/
def Declaration.inside : Declaration → List Declaration
  | .struct s => s.inside
  | .enumeration _ => []
  | .typedef t => t.inside
end

end ThriftGateway.Idl
