import ThriftGateway.Execution.Completion

/-!
# Describing the schema

What the fields of the root that describe the schema give.  A description has parts (`Described`): the schema itself,
types, fields, arguments, members of enumerations and directives.  Each is asked for its fields like an object.
-/

namespace ThriftGateway.Execution

open Graph (EnumMember GraphType InputField OutputField)
open Request (Selection TypeNotation)
open Schema (Definition DirectiveDefinition TypeSystem)

/-- A part of the description of a schema. -/
inductive Described where
  | schema
  | type (t : TypeNotation)
  | field (f : OutputField)
  /-- An argument, or a field of an input object. -/
  | inputValue (f : InputField)
  | member (m : EnumMember)
  | directive (d : DirectiveDefinition)

/-- The name of the type that a part has. -/
def Described.typeName : Described → String
  | schema => "__Schema"
  | type _ => "__Type"
  | field _ => "__Field"
  | inputValue _ => "__InputValue"
  | member _ => "__EnumValue"
  | directive _ => "__Directive"

/-- What a field of a part gives. -/
inductive Told where
  | leaf (v : Value)
  | one (d : Described)
  | many (ds : List Described)

/-- Nothing. -/
def Told.nothing : Told := .leaf .null

/-- A text, if there is one. -/
def Told.text? (s : Option String) : Told := .leaf (s.elim .null .text)

/-- A type as it is written. -/
def notationOf (s : TypeSystem) : GraphType → TypeNotation
  | .named t => .named (s.nameOf t)
  | .list element => .list (notationOf s element)
  | .nonNull inner => .nonNull (notationOf s inner)

/-- What a type is described as. -/
def descriptionOf : Definition → Option String
  | .scalar x => scalarDescription x
  | .object _ description _ | .input _ description _ | .enumeration _ description _ => description

/-- The kind of a type. -/
def kindOf : Definition → String
  | .scalar _ => "SCALAR"
  | .object .. => "OBJECT"
  | .input .. => "INPUT_OBJECT"
  | .enumeration .. => "ENUM"

/-- What a field of a type with a name gives. -/
def tellDefinition (d : Definition) (name : String) : Told :=
  if name = "kind" then .leaf (.text (kindOf d))
  else if name = "name" then .leaf (.text d.name)
  else if name = "description" then .text? (descriptionOf d)
  else
    match d with
    | .scalar _ => .nothing
    | .object _ _ fields =>
      if name = "fields" then .many (fields.map .field) else if name = "interfaces" then .many [] else .nothing
    | .input _ _ fields =>
      if name = "inputFields" then .many (fields.map .inputValue)
      else if name = "isOneOf" then .leaf (.bool false)
      else .nothing
    | .enumeration _ _ members => if name = "enumValues" then .many (members.map .member) else .nothing

/-- What a field of a type gives. -/
def tellType (s : TypeSystem) (t : TypeNotation) (name : String) : Told :=
  match t with
  | .named n => (s.definitionNamed? n).elim .nothing (tellDefinition · name)
  | .list inner => tellWrapped "LIST" inner
  | .nonNull inner => tellWrapped "NON_NULL" inner
where
  /-- What a field of a type around another one gives. -/
  tellWrapped (kind : String) (inner : TypeNotation) : Told :=
    if name = "kind" then .leaf (.text kind) else if name = "ofType" then .one (.type inner) else .nothing

/-- What a field gives that all parts with names have.  Nothing is out of use. -/
def tellNamed (own : String) (description : Option String) (name : String) : Told :=
  if name = "name" then .leaf (.text own)
  else if name = "description" then .text? description
  else if name = "isDeprecated" then .leaf (.bool false)
  else .nothing

/-- What a field of a part gives. -/
def tell (s : TypeSystem) (d : Described) (name : String) : Except Schema.PrintError Told := do
  match d with
  | .schema =>
    return if name = "types" then .many (s.definitions.map fun x => .type (.named x.name))
      else if name = "queryType" then .one (.type (.named Schema.rootName))
      else if name = "directives" then .many (Schema.directiveDefinitions.map .directive)
      else .nothing
  | .type t => return tellType s t name
  | .field f =>
    return if name = "args" then .many (f.arguments.map .inputValue)
      else if name = "type" then .one (.type (notationOf s f.type))
      else tellNamed f.name f.description name
  | .inputValue f =>
    if name = "type" then return .one (.type (notationOf s f.type))
    else if name = "defaultValue" then
      match f.default with
      | none => return .nothing
      | some v => return .text? ((← Schema.defaultLiteral s f.type v).map Request.Literal.print)
    else return tellNamed f.name f.description name
  | .member m => return tellNamed m.name m.description name
  | .directive d =>
    return if name = "isRepeatable" then .leaf (.bool false)
      else if name = "locations" then .leaf (.list (d.locations.map .text))
      else if name = "args" then .many (d.arguments.map .inputValue)
      else tellNamed d.name d.description name

/-- Completes a part at the end of a trail; `fuel` bounds how deep selections are nested. -/
def completeDescribed (setting : Setting) : (fuel : Nat) → (trail : List Waypoint) → List Selection → Described →
    Completed
  | 0, _, _, _ => .ok .null
  | fuel + 1, trail, selections, d =>
    match setting.within d.typeName selections with
    | .error message => ⟨[], .error ⟨message, pathOf trail, .condition⟩⟩
    | .ok selected =>
      let (errors, r) := completeGroups
        (fun group f =>
          let trail := .key group.1 d.typeName :: trail
          let given := (group.2.head?.map Request.SelectedField.arguments).getD []
          match readArguments setting.system setting.bindings given f.arguments, tell setting.system d f.name with
          | .error message, _ => ⟨[], .error ⟨message, pathOf trail, .arguments⟩⟩
          | .ok _, .error e => ⟨[], .error ⟨e.message, pathOf trail, .default e⟩⟩
          | .ok _, .ok (.leaf v) => .ok v
          | .ok _, .ok (.one d) => completeDescribed setting fuel trail group.inner d
          | .ok _, .ok (.many ds) =>
            let (errors, r) := completeItems (.nonNull f.type)
              (fun n d => completeDescribed setting fuel (.index n :: trail) group.inner d) 0 ds
            ⟨errors, r.map .list⟩)
        d.typeName (((setting.system.definitionNamed? d.typeName).elim [] fun
          | .object _ _ fields => fields
          | _ => [])) (groupsOf selected)
      ⟨errors, r.map Value.record⟩

/-- The part that a field of the root gives, if there is one: the schema, or the type of a name. -/
def describedAt (s : TypeSystem) (name : String) (arguments : List (String × Value)) : Option Described :=
  if name = "__schema" then some .schema
  else
    match arguments.lookup "name" with
    | some (.text n) => (s.definitionNamed? n).map fun d => .type (.named d.name)
    | _ => none

end ThriftGateway.Execution
