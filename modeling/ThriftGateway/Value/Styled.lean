import ThriftGateway.Number.Styled
import ThriftGateway.Value.Display

/-!
# Values in styles

The text of a value in a style as it is written in a template.  An empty style gives the plain text of any value;
other styles are for texts and numbers, and a truth value is an integer in them.
-/

namespace ThriftGateway.Value

open Text (Style StyleFault)

/-- The text of a value in a style. -/
def styled (style : List Char) (v : Value) : Except StyleFault String :=
  if style.isEmpty then .ok v.nameText
  else
    match v with
    | .text s => (Style.layOutText style s.toList).map String.ofList
    | .int n => Number.styledInteger v.kindName style n
    | .bool b => Number.styledInteger v.kindName style (if b then 1 else 0)
    | .float d => d.styled style
    | v => .error (.noStyles v.kindName)

end ThriftGateway.Value
