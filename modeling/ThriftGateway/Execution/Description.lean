import ThriftGateway.Execution.Filling
import ThriftGateway.Request.Document
import ThriftGateway.Schema.Basic

/-!
# Descriptions of fields

What a function is told about the field that is asked for: `Inquiry.describe` gives a tuple whose parts are the
field's name, the places at which it is selected, its type and the type around it, the way to it from the root, and
what is the same for the whole operation.  A description is as deep as templates can look: of an argument it has the
name and not the value, of a variable only that it is defined, and of the schema its root types, all without the places
in memory that objects are shown with.
-/

namespace ThriftGateway.Execution

open Graph (GraphType NamedType OutputField Scalar)
open Request (Argument Directive Document Extent Fragment Operation SelectedField Selection Variable WrittenName)
open Schema (Definition TypeSystem)

/-- What is the same for all fields of an operation. -/
structure Setting where
  system : TypeSystem
  document : Document
  operation : Operation
  /-- The values of the variables. -/
  bindings : List (String × Value)
  context : Value

/-- A step from the root to a field. -/
inductive Waypoint where
  /-- A field of an object, by its key in the answer, with the name of the object's type. -/
  | key (name typeName : String)
  | index (n : Nat)
  deriving DecidableEq, Repr

/-- A field that is asked for. -/
structure Inquiry where
  setting : Setting
  /-- The way to the field, the last step first. -/
  trail : List Waypoint
  /-- The type of the object that the field is asked of. -/
  parent : NamedType
  field : OutputField
  /-- The field at all places at which it is selected. -/
  selected : List SelectedField

/-! ### Parts of requests -/

/-- The text of an extent. -/
def extentText (e : Extent) : String := toString e.start ++ ":" ++ toString e.stop

/-- A part of a request; `label` is how it calls its own kind. -/
def nodeFact (kind label : String) (e : Extent) (attributes : List (String × Fact)) : Fact :=
  let text := kind ++ " at " ++ extentText e
  let start : Fact := .value (.int e.start)
  let stop : Fact := .value (.int e.stop)
  let extent : Fact :=
    .thing "Location" (extentText e) ("<Location " ++ extentText e ++ ">") [("start", start), ("end", stop)]
  .thing kind text text (("kind", .ofText label) :: ("loc", extent) :: attributes)

/-- A name. -/
def nameFact (n : WrittenName) : Fact := nodeFact "NameNode" "name" n.extent [("value", .ofText n.text)]

/-- An argument. -/
def argumentFact (a : Argument) : Fact :=
  let name : WrittenName := ⟨⟨a.extent.start, a.extent.start + a.name.length⟩, a.name⟩
  nodeFact "ArgumentNode" "argument" a.extent [("name", nameFact name)]

/-- A directive. -/
def directiveFact (d : Directive) : Fact :=
  nodeFact "DirectiveNode" "directive" d.extent
    [("name", nameFact d.name), ("arguments", .tuple (d.arguments.map argumentFact))]

/-- Directives. -/
def directivesFact (directives : List Directive) : Fact := .tuple (directives.map directiveFact)

/-- The condition of a fragment. -/
def conditionFact (n : WrittenName) : Fact := nodeFact "NamedTypeNode" "named_type" n.extent [("name", nameFact n)]

/-- Braces with what they select. -/
def bracesFact (braces : Extent) (selections : List Fact) : Fact :=
  nodeFact "SelectionSetNode" "selection_set" braces [("selections", .tuple selections)]

mutual
/-- What is selected. -/
def selectionFact : Selection → Fact
  | .field extent alias? name arguments directives braces selections =>
    nodeFact "FieldNode" "field" extent
      [("alias", .ofOption (alias?.map nameFact)), ("name", nameFact name),
        ("arguments", .tuple (arguments.map argumentFact)), ("directives", directivesFact directives),
        ("selection_set", .ofOption (braces.map fun e => bracesFact e (selectionFacts selections)))]
  | .spread extent name directives =>
    nodeFact "FragmentSpreadNode" "fragment_spread" extent
      [("name", nameFact name), ("directives", directivesFact directives)]
  | .inline extent condition directives braces selections =>
    nodeFact "InlineFragmentNode" "inline_fragment" extent
      [("type_condition", .ofOption (condition.map conditionFact)), ("directives", directivesFact directives),
        ("selection_set", bracesFact braces (selectionFacts selections))]

/-- Several selections. -/
def selectionFacts : List Selection → List Fact
  | [] => []
  | x :: xs => selectionFact x :: selectionFacts xs
end

/-- A fragment. -/
def fragmentFact (f : Fragment) : Fact :=
  nodeFact "FragmentDefinitionNode" "fragment_definition" f.extent
    [("name", nameFact f.writtenName), ("type_condition", conditionFact f.condition),
      ("directives", directivesFact f.directives), ("selection_set", bracesFact f.braces (selectionFacts f.selections))]

/-- A variable with its type. -/
def variableFact (v : Variable) : Fact := nodeFact "VariableDefinitionNode" "variable_definition" v.extent []

/-- An operation. -/
def operationFact (op : Operation) : Fact :=
  nodeFact "OperationDefinitionNode" "operation_definition" op.extent
    [("operation", .word "OperationType" op.kind.word.toUpper op.kind.word), ("name", .ofOption (op.name.map nameFact)),
      ("variable_definitions", .tuple (op.parameters.map variableFact)), ("directives", directivesFact op.directives),
      ("selection_set", bracesFact op.braces (selectionFacts op.selections))]

/-! ### Types -/

/-- What the standard scalars and those beyond them are described as; nothing is said of floating point numbers. -/
def scalarDescription : Scalar → Option String
  | .int => some (Text.prose [
      "The `Int` scalar type represents non-fractional signed whole numeric values. Int can represent values",
      "between -(2^31) and 2^31 - 1."])
  | .float => none
  | .string => some (Text.prose [
      "The `String` scalar type represents textual data, represented as UTF-8 character sequences. The String type",
      "is most often used by GraphQL to represent free-form human-readable text."])
  | .boolean => some "The `Boolean` scalar type represents `true` or `false`."
  | .wide w => some w.description

/-- A type with a name. -/
def namedFact (kind name : String) (description : Option String) : Fact :=
  .thing kind name ("<" ++ kind ++ " " ++ Text.quoted name ++ ">")
    [("name", .ofText name), ("description", .ofOption (description.map .ofText))]

/-- What a type of the schema is. -/
def definitionFact : Definition → Fact
  | .scalar s => namedFact "GraphQLScalarType" s.name (scalarDescription s)
  | .object name description _ => namedFact "GraphQLObjectType" name description
  | .input name description _ => namedFact "GraphQLInputObjectType" name description
  | .enumeration name description _ => namedFact "GraphQLEnumType" name description

/-- The type of a name. -/
def namedTypeFact (s : TypeSystem) (t : NamedType) : Fact :=
  match t, s.definition? t with
  | _, some d => definitionFact d
  | .scalar scalar, none => definitionFact (.scalar scalar)
  | .node _, none => .nothing

/-- A type. -/
def typeFact (s : TypeSystem) : GraphType → Fact
  | .named t => namedTypeFact s t
  | .list element => around "GraphQLList" (.list element) (typeFact s element)
  | .nonNull inner => around "GraphQLNonNull" (.nonNull inner) (typeFact s inner)
where
  /-- A type around another one. -/
  around (kind : String) (t : GraphType) (inner : Fact) : Fact :=
    .thing kind (s.written t) ("<" ++ kind ++ " " ++ inner.shown ++ ">") [("of_type", inner)]

/-- The schema; only its root types are told. -/
def schemaFact (s : TypeSystem) : Fact :=
  .thing "GraphQLSchema" "<GraphQLSchema>" "<GraphQLSchema>"
    [("query_type", definitionFact s.rootDefinition), ("mutation_type", .nothing), ("subscription_type", .nothing),
      ("description", .nothing)]

/-! ### Fields -/

/-- The way to a field, the last step first. -/
def trailFact : List Waypoint → Fact
  | [] => .nothing
  | step :: before =>
    let (key, typeName) : Fact × Fact := match step with
      | .key name typeName => (.ofText name, .ofText typeName)
      | .index n => (.value (.int n), .nothing)
    .parts "Path" [("prev", trailFact before), ("key", key), ("typename", typeName)]

/-- The variables with what they were given, and their values. -/
def bindingsFact (op : Operation) (bindings : List (String × Value)) : Fact :=
  let source (v : Variable) : Option (String × Fact) := (bindings.lookup v.name).map fun x =>
    (v.name, .thing "VariableValueSource" "" "" [("value", .value x)])
  .parts "VariableValues"
    [("sources", .entries (op.parameters.filterMap source)), ("coerced", .value (Value.record bindings))]

/-- The kind of descriptions in messages. -/
def descriptionKind : String := "GraphQLResolveInfo"

/-- The description of a field.  There is no value at the root. -/
def Inquiry.describe (i : Inquiry) : List (String × Fact) :=
  let s := i.setting.system
  [("field_name", .ofText i.field.name), ("field_nodes", .list (i.selected.map fun x => selectionFact x.toSelection)),
    ("return_type", typeFact s i.field.type), ("parent_type", namedTypeFact s i.parent),
    ("path", trailFact i.trail), ("schema", schemaFact s),
    ("fragments", .entries (i.setting.document.fragments.map fun f => (f.name, fragmentFact f))),
    ("root_value", .nothing), ("operation", operationFact i.setting.operation),
    ("variable_values", bindingsFact i.setting.operation i.setting.bindings),
    ("context", .value i.setting.context), ("is_awaitable", .thing "function" "" "" [])]

/-- The description of a field as a single fact. -/
def Inquiry.fact (i : Inquiry) : Fact := .parts descriptionKind i.describe

end ThriftGateway.Execution
