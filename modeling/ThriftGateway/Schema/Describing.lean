import ThriftGateway.Schema.DefaultLiteral

/-!
# Types that describe schemas

Every schema can be asked for what it consists of.  The answers have types of their own, which requests can name beside
the types of the schema (`TypeSystem.described`), and so can the directives be that every schema has.
-/

namespace ThriftGateway.Schema

open Graph (EnumMember GraphType InputField NamedType OutputField)

/-! ### Directives -/

/-- A directive that every schema has.  It can stand once at a place. -/
structure DirectiveDefinition where
  name : String
  description : Option String
  /-- The names of the kinds of places. -/
  locations : List String
  arguments : List InputField
  deriving Repr

/-- The words for a kind of places. -/
def locationWords (location : String) : String := location.map fun c => if c = '_' then ' ' else c.toLower

/-- The kinds of places at which a condition can stand. -/
def selectionLocations : List String := ["FIELD", "FRAGMENT_SPREAD", "INLINE_FRAGMENT"]

/-- The argument of a condition: a truth value. -/
def conditionArgument (description : String) : InputField :=
  ⟨"if", .nonNull (.named (.scalar .boolean)), none, some description⟩

/-- What has it is selected if its argument is true. -/
def includeDirective : DirectiveDefinition where
  name := "include"
  description := some "Directs the executor to include this field or fragment only when the `if` argument is true."
  locations := selectionLocations
  arguments := [conditionArgument "Included when true."]

/-- What has it is selected unless its argument is true. -/
def skipDirective : DirectiveDefinition where
  name := "skip"
  description := some "Directs the executor to skip this field or fragment when the `if` argument is true."
  locations := selectionLocations
  arguments := [conditionArgument "Skipped when true."]

/-- All directives.  Those that only definitions of types can have are never in place in a request. -/
def directiveDefinitions : List DirectiveDefinition :=
  [includeDirective, skipDirective,
    ⟨"deprecated", some "Marks an element of a GraphQL schema as no longer supported.",
      ["FIELD_DEFINITION", "ARGUMENT_DEFINITION", "INPUT_FIELD_DEFINITION", "ENUM_VALUE"],
      [⟨"reason", .named (.scalar .string), some (.text "No longer supported"), none⟩]⟩,
    ⟨"specifiedBy", some "Exposes a URL that specifies the behavior of this scalar.", ["SCALAR"],
      [⟨"url", .nonNull (.named (.scalar .string)), none, some "The URL that specifies the behavior of this scalar."⟩]⟩,
    ⟨"oneOf", some "Indicates exactly one field must be supplied and this field must not be `null`.", ["INPUT_OBJECT"],
      []⟩]

/-! ### Types -/

/-- Members of an enumeration, numbered in order. -/
def numberedMembers (members : List (String × String)) : List EnumMember :=
  members.zipIdx.map fun m => ⟨m.1.1, m.2, some m.1.2⟩

/-- The kinds of types. -/
def typeKinds : List EnumMember := numberedMembers
  [("SCALAR", "Indicates this type is a scalar."),
    ("OBJECT", "Indicates this type is an object. `fields` and `interfaces` are valid fields."),
    ("INTERFACE",
      "Indicates this type is an interface. `fields`, `interfaces`, and `possibleTypes` are valid fields."),
    ("UNION", "Indicates this type is a union. `possibleTypes` is a valid field."),
    ("ENUM", "Indicates this type is an enum. `enumValues` is a valid field."),
    ("INPUT_OBJECT", "Indicates this type is an input object. `inputFields` is a valid field."),
    ("LIST", "Indicates this type is a list. `ofType` is a valid field."),
    ("NON_NULL", "Indicates this type is a non-null. `ofType` is a valid field.")]

/-- The kinds of places for directives. -/
def locationKinds : List EnumMember := numberedMembers
  (([("QUERY", "a query operation"), ("MUTATION", "a mutation operation"), ("SUBSCRIPTION", "a subscription operation"),
    ("FIELD", "a field"), ("FRAGMENT_DEFINITION", "a fragment definition"), ("FRAGMENT_SPREAD", "a fragment spread"),
    ("INLINE_FRAGMENT", "an inline fragment"), ("VARIABLE_DEFINITION", "a variable definition"),
    ("SCHEMA", "a schema definition"), ("SCALAR", "a scalar definition"), ("OBJECT", "an object type definition"),
    ("FIELD_DEFINITION", "a field definition"), ("ARGUMENT_DEFINITION", "an argument definition"),
    ("INTERFACE", "an interface definition"), ("UNION", "a union definition"), ("ENUM", "an enum definition"),
    ("ENUM_VALUE", "an enum value definition"), ("INPUT_OBJECT", "an input object type definition"),
    ("INPUT_FIELD_DEFINITION", "an input object field definition")] : List (String × String)).map
      fun l => (l.1, "Location adjacent to " ++ l.2 ++ "."))

section

-- the number of the first node that stands for such a type
variable (first : Nat)

/-- The type with a name; its node has the place of the name in the list of these names. -/
def describingType (name : String) : NamedType := .node (first + Graph.describingNames.idxOf name)

/-- A type that may be `null`. -/
def maybe (name : String) : GraphType := .named (describingType first name)

/-- A list of what is not `null`, which may be `null` itself. -/
def maybeAll (name : String) : GraphType := .list (.nonNull (maybe first name))

/-- A text that may lack. -/
def text? : GraphType := .named (.scalar .string)

/-- A truth value. -/
def flag : GraphType := .nonNull (.named (.scalar .boolean))

/-- A field without arguments and without a description. -/
def plainField (name : String) (type : GraphType) : OutputField := ⟨name, type, [], none⟩

/-- A field that can leave out what is not to be used any more. -/
def filteredField (name : String) (type : GraphType) : OutputField :=
  ⟨name, type, [⟨"includeDeprecated", .named (.scalar .boolean), some (.bool false), none⟩], none⟩

/-- The fields that say whether something is not to be used any more, and why. -/
def deprecationFields : List OutputField :=
  [plainField "isDeprecated" flag, plainField "deprecationReason" text?]

/-- The name and the description of something. -/
def namingFields : List OutputField := [plainField "name" (.nonNull text?), plainField "description" text?]

/-- The fields of a schema. -/
def schemaFields : List OutputField :=
  [plainField "description" text?,
    ⟨"types", .nonNull (maybeAll first "__Type"), [], some "A list of all types supported by this server."⟩,
    ⟨"queryType", .nonNull (maybe first "__Type"), [], some "The type that query operations will be rooted at."⟩,
    ⟨"mutationType", maybe first "__Type", [], some
      "If this server supports mutation, the type that mutation operations will be rooted at."⟩,
    ⟨"subscriptionType", maybe first "__Type", [], some
      "If this server support subscription, the type that subscription operations will be rooted at."⟩,
    ⟨"directives", .nonNull (maybeAll first "__Directive"), [], some
      "A list of all directives supported by this server."⟩]

/-- The fields of a type. -/
def typeFields : List OutputField :=
  [plainField "kind" (.nonNull (maybe first "__TypeKind")), plainField "name" text?, plainField "description" text?,
    plainField "specifiedByURL" text?, filteredField "fields" (maybeAll first "__Field"),
    plainField "interfaces" (maybeAll first "__Type"), plainField "possibleTypes" (maybeAll first "__Type"),
    filteredField "enumValues" (maybeAll first "__EnumValue"),
    filteredField "inputFields" (maybeAll first "__InputValue"), plainField "ofType" (maybe first "__Type"),
    plainField "isOneOf" (.named (.scalar .boolean))]

/-- The types that describe a schema. -/
def describingDefinitions : List Definition :=
  [.object "__Schema" (some (Text.prose [
        "A GraphQL Schema defines the capabilities of a GraphQL server. It exposes all available types and",
        "directives on the server, as well as the entry points for query, mutation, and subscription operations."]))
      (schemaFields first),
    .object "__Type" (some (Text.prose [
        "The fundamental unit of any GraphQL Schema is the type. There are many kinds of types in GraphQL as",
        "represented by the `__TypeKind` enum.\n\nDepending on the kind of a type, certain fields describe",
        "information about that type. Scalar types provide no information beyond a name, description and optional",
        "`specifiedByURL`, while Enum types provide their values. Object and Interface types provide the fields",
        "they describe. Abstract types, Union and Interface, provide the Object types possible at runtime. List",
        "and NonNull types compose other types."]))
      (typeFields first),
    .enumeration "__TypeKind" (some "An enum describing what kind of type a given `__Type` is.") typeKinds,
    .object "__Field" (some (Text.prose [
        "Object and Interface types are described by a list of Fields, each of which has a name, potentially a",
        "list of arguments, and a return type."]))
      (namingFields ++ [filteredField "args" (.nonNull (maybeAll first "__InputValue")),
        plainField "type" (.nonNull (maybe first "__Type"))] ++ deprecationFields),
    .object "__InputValue" (some (Text.prose [
        "Arguments provided to Fields or Directives and the input fields of an InputObject are represented as",
        "Input Values which describe their type and optionally a default value."]))
      (namingFields ++ [plainField "type" (.nonNull (maybe first "__Type")),
        ⟨"defaultValue", text?, [], some
            "A GraphQL-formatted string representing the default value for this input value."⟩] ++ deprecationFields),
    .object "__EnumValue" (some (Text.prose [
        "One possible value for a given Enum. Enum values are unique values, not a placeholder for a string or",
        "numeric value. However an Enum value is returned in a JSON response as a string."]))
      (namingFields ++ deprecationFields),
    .object "__Directive" (some (Text.prose [
        "A Directive provides a way to describe alternate runtime execution and type validation behavior in a",
        "GraphQL document.\n\nIn some cases, you need to provide options to alter GraphQL's execution behavior in",
        "ways field arguments will not suffice, such as conditionally including or skipping a field. Directives",
        "provide this by describing additional information to the executor."]))
      (namingFields ++ [plainField "isRepeatable" flag,
        plainField "locations" (.nonNull (maybeAll first "__DirectiveLocation")),
        filteredField "args" (.nonNull (maybeAll first "__InputValue"))]),
    .enumeration "__DirectiveLocation" (some (Text.prose [
        "A Directive can be adjacent to many parts of the GraphQL language, a __DirectiveLocation describes one",
        "such possible adjacencies."])) locationKinds]

/-- The types that every schema has, each with what refers to it. -/
def describingTypes : List (NamedType × Definition) :=
  [(.scalar .boolean, .scalar .boolean), (.scalar .string, .scalar .string)] ++
    (describingDefinitions first).map fun d => (describingType first d.name, d)

end

/-! ### Fields of the root -/

namespace TypeSystem

variable (s : TypeSystem)

/-- A number from which on no node is used. -/
def firstFree : Nat :=
  s.types.foldl (fun n e => match e.1 with
    | .node id => max n (id + 1)
    | .scalar _ => n) 0

/-- The types together with those that describe them, as far as they are not among them. -/
def described : TypeSystem :=
  { s with types := s.types ++ (describingTypes s.firstFree).filter fun e => s.types.all (·.1 ≠ e.1) }

/-- What refers to the type of a name. -/
def reference? (name : String) : Option NamedType := (s.types.find? (·.2.name = name)).map (·.1)

/-- The type of a name, which may be the root type. -/
def definitionNamed? (name : String) : Option Definition := s.definitions.find? (·.name = name)

/-- The field of the root that describes the schema, or a single type of it. -/
def describingField? (name : String) : Option OutputField :=
  if name = "__schema" then (s.reference? "__Schema").map fun t =>
    ⟨name, .nonNull (.named t), [], some "Access the current type schema of this server."⟩
  else if name = "__type" then (s.reference? "__Type").map fun t =>
    ⟨name, .named t, [⟨"name", .nonNull text?, none, none⟩], some "Request the type information of a single type."⟩
  else none

end TypeSystem

/-- The types that requests to a schema can name. -/
def Schema.known (s : Schema) : TypeSystem := s.system.described

end ThriftGateway.Schema
