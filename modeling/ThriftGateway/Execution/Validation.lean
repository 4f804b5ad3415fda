import ThriftGateway.Execution.Selecting

/-!
# Checking requests against a schema

What is wrong with a request before anything is run, in the order in which the operations and fragments stand, and last
which fragments are not used.  In an operation, it is said first which variables are not there and which are not used,
then what is wrong in the order in which the parts stand - variables, selected fields, arguments and their literals -
and last which variables are used where they do not fit.  A conflict of two fields inside of a fragment is told for the
fragment and for every selection that spreads it; if a fragment stands within itself, conflicts are not looked for.
-/

namespace ThriftGateway.Execution

open Graph (CoercionError GraphType InputField NamedType OutputField)
open Request (Argument Directive Document DocumentPart Fragment Literal Operation SelectedField Selection TypeNotation
  Variable WrittenName didYouMean fragment? suggestions)
open Schema (Definition TypeSystem)

/-- Something wrong with a request, and the error from within that is behind it. -/
structure RequestFault where
  message : String
  cause : Option CoercionError := none
  deriving Repr

/-- A fault that is only words. -/
def fault (message : String) : RequestFault := ⟨message, none⟩

/-- The field that tells the name of an object's type. -/
def typeNameField : String := "__typename"

/-- Where a selection stands: on the fields of a type, or on nothing known. -/
structure Parent where
  typeName : String
  fields : List OutputField
  deriving Repr

/-- The fields to select from the root. -/
def rootParent (s : TypeSystem) : Parent := ⟨Schema.rootName, s.root⟩

/-- The fields to select from a value of a type. -/
def parentOf? (s : TypeSystem) (t : GraphType) : Option Parent :=
  match s.definition? t.innermost with
  | some (.object name _ fields) => some ⟨name, fields⟩
  | _ => none

/-- The fields to select from objects of a type that is named. -/
def parentNamed? (s : TypeSystem) (name : String) : Option Parent :=
  match s.definitionNamed? name with
  | some (.object name _ fields) => some ⟨name, fields⟩
  | _ => none

/-- The field of a name. -/
def Parent.field? (p : Parent) (name : String) : Option OutputField := p.fields.find? (·.name = name)

/-! ### Types of variables -/

/-- What a name of a type in a request stands for. -/
inductive KnownType where
  /-- A type that a field or an argument can have. -/
  | placed (t : NamedType)
  /-- The root type, which no field and no argument has. -/
  | root
  deriving DecidableEq, Repr

/-- The type of a name. -/
def typeNamed? (s : TypeSystem) (name : String) : Option KnownType :=
  if name = Schema.rootName then some .root else (s.reference? name).map .placed

/-- The type of a field or an argument that a request writes, if it writes one. -/
def typeOf? (s : TypeSystem) : TypeNotation → Option GraphType
  | .named name =>
    match typeNamed? s name with
    | some (.placed t) => some (.named t)
    | _ => none
  | .list element => (typeOf? s element).map .list
  | .nonNull inner => (typeOf? s inner).map .nonNull

/-- Whether values of a type can be given. -/
def isInput (s : TypeSystem) (t : NamedType) : Bool :=
  match s.definition? t with
  | some (.object ..) => false
  | _ => true

/-- Whether values of a known type can be given. -/
def KnownType.isInput (s : TypeSystem) : KnownType → Bool
  | placed t => Execution.isInput s t
  | root => false

/-- A name that no type has. -/
def unknownType (s : TypeSystem) (name : String) : RequestFault :=
  fault ("Unknown type '" ++ name ++ "'." ++ didYouMean "" (suggestions name (s.definitions.map Definition.name)))

/-- What is wrong with the type of a variable. -/
def variableTypeFaults (s : TypeSystem) (v : Variable) : List RequestFault :=
  let name := v.type.innermost
  match typeNamed? s name with
  | some t =>
    if t.isInput s then []
    else [fault ("Variable '$" ++ v.name ++ "' cannot be non-input type '" ++ v.type.text ++ "'.")]
  | none => [unknownType s name]

/-! ### Literals -/

mutual
/-- Fields given twice in the objects of a literal. -/
def repeatedFields : Literal → List RequestFault
  | .list items => repeatedInItems items
  | .object fields => repeatedInFields [] fields
  | _ => []

/-- Fields given twice in the objects of several literals. -/
def repeatedInItems : List Literal → List RequestFault
  | [] => []
  | l :: ls => repeatedFields l ++ repeatedInItems ls

/-- Fields given twice in the objects of fields, and among them. -/
def repeatedInFields (seen : List String) : List (String × Literal) → List RequestFault
  | [] => []
  | (name, l) :: fs =>
    (if seen.contains name then [fault ("There can be only one input field named '" ++ name ++ "'.")] else []) ++
      repeatedFields l ++ repeatedInFields (name :: seen) fs
end

/-- A fault of a value as a fault of the request. -/
def InputFault.inRequest (f : InputFault) : RequestFault := ⟨f.message, f.cause⟩

/-- What is wrong with a literal at a place of a type, if the type is known. -/
def literalRequestFaults (s : TypeSystem) (t : Option GraphType) (l : Literal) : List RequestFault :=
  t.elim [] (fun t => (literalFaults s none t l).map InputFault.inRequest) ++ repeatedFields l

/-! ### Arguments and directives -/

/-- The name before which the second of two equal names stands, each such name once. -/
def repeatedNames (names : List String) : List String := names.eraseDups.filter fun n => 1 < names.count n

/-- Arguments that are given twice. -/
def repeatedArguments (given : List Argument) : List RequestFault :=
  (repeatedNames (given.map Argument.name)).map fun n =>
    fault ("There can be only one argument named '" ++ n ++ "'.")

/-- What is wrong with the literal of an argument, one of those that `known` lists if its name is among them. -/
def argumentFaults (s : TypeSystem) (known : List InputField) (a : Argument) : List RequestFault :=
  literalRequestFaults s ((known.find? (·.name = a.name)).map InputField.type) a.value

/-- An argument that there is not; `owner` are the words for what it is an argument of. -/
def unknownArgument (owner : String) (known : List InputField) (a : Argument) : List RequestFault :=
  if known.any (·.name = a.name) then []
  else
    let hint := didYouMean "" (suggestions a.name (known.map InputField.name))
    [fault ("Unknown argument '" ++ a.name ++ "' on " ++ owner ++ "." ++ hint)]

/-- Arguments that have to be given and are not; `owner` is the name of what they are arguments of. -/
def missingArguments (s : TypeSystem) (owner : String) (known : List InputField) (given : List Argument) :
    List RequestFault :=
  (known.filter fun d => isRequired d && !given.any fun a => a.name = d.name).map fun d =>
    fault ("Argument '" ++ owner ++ "(" ++ d.name ++ ":)' of type '" ++ s.written d.type ++
      "' is required, but it was not provided.")

/-- The directive of a name. -/
def directive? (name : String) : Option Schema.DirectiveDefinition :=
  Schema.directiveDefinitions.find? (·.name = name)

/-- The arguments that a directive can have. -/
def directiveArguments (d : Directive) : List InputField :=
  (directive? d.name.text).elim [] Schema.DirectiveDefinition.arguments

/-- What is wrong with a directive at a kind of places. -/
def directiveFaults (s : TypeSystem) (location : String) (d : Directive) : List RequestFault :=
  let shown := "'@" ++ d.name.text ++ "'"
  let known := directiveArguments d
  let misplaced : List RequestFault := match directive? d.name.text with
    | none => [fault ("Unknown directive " ++ shown ++ ".")]
    | some x =>
      if x.locations.contains location then []
      else [fault ("Directive " ++ shown ++ " may not be used on " ++ Schema.locationWords location ++ ".")]
  let unknown :=
    if (directive? d.name.text).isSome then d.arguments.flatMap (unknownArgument ("directive " ++ shown) known) else []
  misplaced ++ unknown ++ repeatedArguments d.arguments ++ d.arguments.flatMap (argumentFaults s known) ++
    missingArguments s ("@" ++ d.name.text) known d.arguments

/-- Directives that stand twice at a place. -/
def repeatedDirectives (directives : List Directive) : List RequestFault :=
  ((repeatedNames (directives.map fun d => d.name.text)).filter fun n => (directive? n).isSome).map fun n =>
    fault ("The directive '@" ++ n ++ "' can only be used once at this location.")

/-- What is wrong with the directives at a kind of places, each on its own. -/
def directivesFaults (s : TypeSystem) (location : String) (directives : List Directive) : List RequestFault :=
  directives.flatMap (directiveFaults s location)

/-! ### Fields -/

/-- Braces where there is nothing to select, or none where there have to be some. -/
def leafFaults (s : TypeSystem) (f : OutputField) (hasBraces : Bool) : List RequestFault :=
  let typeText := s.written f.type
  match parentOf? s f.type, hasBraces with
  | none, true =>
    [fault ("Field '" ++ f.name ++ "' must not have a selection since type '" ++ typeText ++ "' has no subfields.")]
  | some _, false =>
    [fault ("Field '" ++ f.name ++ "' of type '" ++ typeText ++ "' must have a selection of subfields." ++
      " Did you mean '" ++ f.name ++ " \x7b ... \x7d'?")]
  | _, _ => []

/-- The field of every object that tells its type. -/
def typeNameOf : OutputField := ⟨typeNameField, .nonNull (.named (.scalar .string)), [], none⟩

/-- The selected field of a parent.  The schema is described by fields of the root. -/
def selectedField? (s : TypeSystem) (p : Parent) (name : String) : Option OutputField :=
  if name = typeNameField then some typeNameOf
  else if p.typeName = Schema.rootName then (s.describingField? name).or (p.field? name)
  else p.field? name

/-! ### Selections that cannot be told apart -/

mutual
/-- A literal with the fields of its objects in the order of their names. -/
def sortedFields : Literal → Literal
  | .list items => .list (sortedItems items)
  | .object fields => .object ((sortedInFields fields).mergeSort fun a b => !Request.naturalLess b.1 a.1)
  | l => l

/-- Several literals with sorted fields. -/
def sortedItems : List Literal → List Literal
  | [] => []
  | l :: ls => sortedFields l :: sortedItems ls

/-- Fields with sorted fields inside. -/
def sortedInFields : List (String × Literal) → List (String × Literal)
  | [] => []
  | (name, l) :: fs => (name, sortedFields l) :: sortedInFields fs
end

/-- Whether two fields are given the same arguments.  Of equal names in the second, the last one counts. -/
def sameArguments (a b : List Argument) : Bool :=
  a.length = b.length && a.all fun x =>
    match b.reverse.find? fun y => y.name = x.name with
    | some y => (sortedFields x.value).print = (sortedFields y.value).print
    | none => false

/-- All pairs of an item and one behind it, in the order of the first and then of the second. -/
def pairsOf {α : Type} : List α → List (α × α)
  | [] => []
  | x :: xs => xs.map (fun y => (x, y)) ++ pairsOf xs

/-- The keys of fields, each once. -/
def keysOf (fields : List SelectedField) : List String := (fields.map SelectedField.key).eraseDups

/-- The words for the reasons of conflicts inside. -/
def subReasons (conflicts : List (String × String)) : String :=
  " and ".intercalate (conflicts.map fun c => "subfields '" ++ c.1 ++ "' conflict because " ++ c.2)

/-- Why two fields of one key do not go together, if they do not; `fuel` bounds the depth. -/
def conflictOf? (fragments : List Fragment) : (fuel : Nat) → SelectedField → SelectedField → Option String
  | 0, _, _ => none
  | fuel + 1, a, b =>
    if a.name ≠ b.name then some ("'" ++ a.name ++ "' and '" ++ b.name ++ "' are different fields")
    else if !sameArguments a.arguments b.arguments then some "they have differing arguments"
    else
      let insideA := gather fragments a.selections
      let insideB := gather fragments b.selections
      let inside := (keysOf insideA).flatMap fun key =>
        (insideA.filter (·.key = key)).flatMap fun x =>
          (insideB.filter (·.key = key)).filterMap fun y => (conflictOf? fragments fuel x y).map fun r => (key, r)
      if inside.isEmpty then none else some (subReasons inside)

/-- The most characters of a reason in a message. -/
def maxReasonLength : Nat := 1000

/-- A reason as messages give it: what is too long is cut off. -/
def shortened (reason : String) : String :=
  if reason.length ≤ maxReasonLength then reason
  else String.ofList (reason.toList.take maxReasonLength) ++ "..."

/-- Fields of one key that do not go together, as far down as `depth`. -/
def conflictFaults (fragments : List Fragment) (depth : Nat) (selections : List Selection) : List RequestFault :=
  let fields := gather fragments selections
  (keysOf fields).flatMap fun key =>
    (pairsOf (fields.filter (·.key = key))).filterMap fun (a, b) =>
      (conflictOf? fragments depth a b).map fun reason =>
        fault ("Fields '" ++ key ++ "' conflict because " ++ shortened reason ++
          ". Use different aliases on the fields to fetch both if this was intentional.")

/-! ### How deep a schema is described -/

/-- The fields of descriptions that lead from types to lists of types. -/
def listFields : List String := ["fields", "interfaces", "possibleTypes", "inputFields"]

/-- The most of these in one another, if they are in one another; `fuel` bounds the depth. -/
def listsWithin (fragments : List Fragment) : (fuel : Nat) → SelectedField → Nat
  | 0, _ => 0
  | fuel + 1, x =>
    (if listFields.contains x.name then 1 else 0) +
      ((gather fragments x.selections).map (listsWithin fragments fuel)).foldr max 0

/-- The most lists of types that may stand in one another in the description of a schema. -/
def maxListDepth : Nat := 2

/-- A description of the schema that goes too deep. -/
def listDepthFaults (fragments : List Fragment) (depth : Nat) (x : SelectedField) : List RequestFault :=
  if (x.name = "__schema" ∨ x.name = "__type") ∧ maxListDepth < listsWithin fragments depth x then
    [fault "Maximum introspection depth exceeded"]
  else []

/-! ### Selections -/

/-- The words in which a fragment is called by its name, if it has one. -/
def fragmentWords (name : Option String) : String := "Fragment" ++ name.elim "" fun n => " '" ++ n ++ "'"

/-- A fragment on something else than an object. -/
def conditionFaults (s : TypeSystem) (name : Option String) (condition : WrittenName) : List RequestFault :=
  if (typeNamed? s condition.text).isSome && (parentNamed? s condition.text).isNone then
    [fault (fragmentWords name ++ " cannot condition on non composite type '" ++ condition.text ++ "'.")]
  else []

/-- A fragment on objects of another type than those that it stands in. -/
def strangeFaults (s : TypeSystem) (parent : Option Parent) (name : Option String) (condition : WrittenName) :
    List RequestFault :=
  match parent, parentNamed? s condition.text with
  | some p, some q =>
    if p.typeName = q.typeName then []
    else
      [fault (fragmentWords name ++ " cannot be spread here as objects of type '" ++ p.typeName ++
        "' can never be of type '" ++ q.typeName ++ "'.")]
  | _, _ => []

/-- A condition on a type that there is not. -/
def unknownCondition (s : TypeSystem) (condition : WrittenName) : List RequestFault :=
  if (typeNamed? s condition.text).isSome then [] else [unknownType s condition.text]

/-- What is wrong with a field of a parent by itself, apart from what is selected from its value; `field` is the field
that is meant. -/
def fieldFaults (s : TypeSystem) (parent : Option Parent) (field : Option OutputField) (x : SelectedField) :
    List RequestFault :=
  let unknown : List RequestFault := match parent, field with
    | some p, none =>
      let hint := didYouMean "" (suggestions x.name (p.fields.map OutputField.name))
      [fault ("Cannot query field '" ++ x.name ++ "' on type '" ++ p.typeName ++ "'." ++ hint)]
    | _, _ => []
  field.elim [] (leafFaults s · x.braces.isSome) ++ unknown ++ repeatedDirectives x.directives ++
    repeatedArguments x.arguments

/-- What is wrong with the arguments of a field. -/
def givenFaults (s : TypeSystem) (parentName : String) (field : Option OutputField) (a : Argument) :
    List RequestFault :=
  field.elim [] (fun f => unknownArgument ("field '" ++ parentName ++ "." ++ f.name ++ "'") f.arguments a) ++
    argumentFaults s (field.elim [] OutputField.arguments) a

mutual
/-- What is wrong with what is selected from a parent, as far down as `depth`. -/
def selectionFaults (s : TypeSystem) (fragments : List Fragment) (depth : Nat) (parent : Option Parent) :
    Selection → List RequestFault
  | .field extent alias? written arguments directives braces selections =>
    let x : SelectedField := ⟨extent, alias?, written, arguments, directives, braces, selections⟩
    let field := parent.bind fun p => selectedField? s p x.name
    let parentName := parent.elim "" Parent.typeName
    fieldFaults s parent field x ++ listDepthFaults fragments depth x ++
      arguments.flatMap (givenFaults s parentName field) ++ directivesFaults s "FIELD" directives ++
      conflictFaults fragments depth selections ++
      selectionsFaults s fragments depth (field.bind fun f => parentOf? s f.type) selections ++
      field.elim [] fun f => missingArguments s (parentName ++ "." ++ f.name) f.arguments arguments
  | .spread _ name directives =>
    (match fragment? fragments name.text with
      | none => [fault ("Unknown fragment '" ++ name.text ++ "'.")]
      | some f => strangeFaults s parent (some name.text) f.condition) ++
      repeatedDirectives directives ++ directivesFaults s "FRAGMENT_SPREAD" directives
  | .inline _ condition directives _ selections =>
    condition.elim [] (fun c => conditionFaults s none c ++ strangeFaults s parent none c) ++
      repeatedDirectives directives ++ condition.elim [] (unknownCondition s) ++
      directivesFaults s "INLINE_FRAGMENT" directives ++ conflictFaults fragments depth selections ++
      selectionsFaults s fragments depth (condition.elim parent fun c => parentNamed? s c.text) selections

/-- What is wrong with several selections. -/
def selectionsFaults (s : TypeSystem) (fragments : List Fragment) (depth : Nat) (parent : Option Parent) :
    List Selection → List RequestFault
  | [] => []
  | x :: xs => selectionFaults s fragments depth parent x ++ selectionsFaults s fragments depth parent xs
end

/-! ### Uses of variables -/

/-- A use of a variable: its name, and the type and the default of the place if they are known. -/
structure Use where
  name : String
  type : Option GraphType
  hasDefault : Bool

mutual
/-- The uses of variables in a literal. -/
def literalUses (s : TypeSystem) (t : Option GraphType) (hasDefault : Bool) : Literal → List Use
  | .var name => [⟨name, t, hasDefault⟩]
  | .list items =>
    itemsUses s (t.bind fun
      | .nonNull (.list element) => some element
      | .list element => some element
      | _ => none) items
  | .object fields =>
    fieldsUses s (match t.bind fun t => s.definition? t.innermost with
      | some (.input _ _ fields) => fields
      | _ => []) fields
  | _ => []

/-- The uses of variables in items. -/
def itemsUses (s : TypeSystem) (t : Option GraphType) : List Literal → List Use
  | [] => []
  | l :: ls => literalUses s t false l ++ itemsUses s t ls

/-- The uses of variables in fields. -/
def fieldsUses (s : TypeSystem) (known : List InputField) : List (String × Literal) → List Use
  | [] => []
  | (name, l) :: fs =>
    let f := known.find? (·.name = name)
    literalUses s (f.map InputField.type) (f.any fun f => f.default.isSome) l ++ fieldsUses s known fs
end

/-- The uses of variables in arguments, those that `known` lists among them. -/
def argumentsUses (s : TypeSystem) (known : List InputField) (given : List Argument) : List Use :=
  given.flatMap fun a =>
    let d := known.find? (·.name = a.name)
    literalUses s (d.map InputField.type) (d.any fun d => d.default.isSome) a.value

/-- The uses of variables in directives. -/
def directivesUses (s : TypeSystem) (directives : List Directive) : List Use :=
  directives.flatMap fun d => argumentsUses s (directiveArguments d) d.arguments

mutual
/-- The uses of variables in a selection, those in fragments apart. -/
def selectionUses (s : TypeSystem) (parent : Option Parent) : Selection → List Use
  | .field _ _ name arguments directives _ selections =>
    let field := parent.bind fun p => selectedField? s p name.text
    argumentsUses s (field.elim [] OutputField.arguments) arguments ++ directivesUses s directives ++
      selectionsUses s (field.bind fun f => parentOf? s f.type) selections
  | .spread _ _ directives => directivesUses s directives
  | .inline _ condition directives _ selections =>
    directivesUses s directives ++ selectionsUses s (condition.elim parent fun c => parentNamed? s c.text) selections

/-- The uses of variables in several selections, those in fragments apart. -/
def selectionsUses (s : TypeSystem) (parent : Option Parent) : List Selection → List Use
  | [] => []
  | x :: xs => selectionUses s parent x ++ selectionsUses s parent xs
end

/-- Whether values of the first type are values of the second. -/
def isSubtype : GraphType → GraphType → Bool
  | .nonNull a, .nonNull b => isSubtype a b
  | .nonNull a, b => isSubtype a b
  | .list a, .list b => isSubtype a b
  | .named a, .named b => a = b
  | _, _ => false

/-- Whether a variable can be used at a place of a type. -/
def usable (variableType : GraphType) (default : Option Literal) (place : GraphType) (hasDefault : Bool) : Bool :=
  match place with
  | .nonNull inner =>
    if variableType.isNonNull then isSubtype variableType place
    else
      let neverNull := match default with
        | none => false
        | some .null => false
        | some _ => true
      (neverNull || hasDefault) && isSubtype variableType inner
  | place => isSubtype variableType place

/-- What an operation selects from: the root, for there is no other kind of operations that a schema has. -/
def operationParent? (s : TypeSystem) (op : Operation) : Option Parent :=
  if op.kind = .query then some (rootParent s) else none

/-- The uses of variables in a fragment, those in other fragments apart. -/
def fragmentUses (s : TypeSystem) (f : Fragment) : List Use :=
  directivesUses s f.directives ++ selectionsUses s (parentNamed? s f.condition.text) f.selections

/-- The fragments inside of an operation, however deep. -/
def fragmentsOf (fragments : List Fragment) (op : Operation) : List Fragment :=
  reached fragments (spreadsInAll op.selections)

/-- All uses of variables in an operation, those in fragments among them. -/
def usesOf (s : TypeSystem) (fragments : List Fragment) (op : Operation) : List Use :=
  directivesUses s op.directives ++ selectionsUses s (operationParent? s op) op.selections ++
    (fragmentsOf fragments op).flatMap (fragmentUses s)

/-- The name of an operation behind some words, as messages end. -/
def behind (op : Operation) (words : String) : String := op.name.elim "." fun n => words ++ n.text ++ "'."

/-- Variables that are given twice, used without being there, or never used. -/
def variableNameFaults (s : TypeSystem) (fragments : List Fragment) (op : Operation) : List RequestFault :=
  let uses := usesOf s fragments op
  let undefined := uses.filter fun u => !op.parameters.any fun v => v.name = u.name
  let unused := op.parameters.filter fun v => !uses.any fun u => u.name = v.name
  (repeatedNames (op.parameters.map Variable.name)).map (fun n =>
      fault ("There can be only one variable named '$" ++ n ++ "'.")) ++
    undefined.map (fun u =>
      fault ("Variable '$" ++ u.name ++ "' is not defined" ++ behind op " by operation '")) ++
    unused.map fun v => fault ("Variable '$" ++ v.name ++ "' is never used" ++ behind op " in operation '")

/-- Whether a variable does not fit a place of a type.  A type that is not known fits everywhere. -/
def isMisplaced (s : TypeSystem) (v : Variable) (place : GraphType) (hasDefault : Bool) : Bool :=
  match typeOf? s v.type with
  | some t => !usable t v.default place hasDefault
  | none => (typeNamed? s v.type.innermost).isSome

/-- Variables that are used where they do not fit. -/
def misplacedFaults (s : TypeSystem) (fragments : List Fragment) (op : Operation) : List RequestFault :=
  (usesOf s fragments op).filterMap fun u =>
    match op.parameters.reverse.find? (fun v => v.name = u.name), u.type with
    | some v, some place =>
      if isMisplaced s v place u.hasDefault then
        some (fault ("Variable '$" ++ u.name ++ "' of type '" ++ v.type.text ++
          "' used in position expecting type '" ++ s.written place ++ "'."))
      else none
    | _, _ => none

/-- What is wrong with a variable. -/
def variableFaultsOf (s : TypeSystem) (v : Variable) : List RequestFault :=
  variableTypeFaults s v ++ repeatedDirectives v.directives ++
    v.default.elim [] (literalRequestFaults s (typeOf? s v.type)) ++
    directivesFaults s "VARIABLE_DEFINITION" v.directives

/-! ### Fragments -/

/-- Whether a fragment stands within itself. -/
def isWithinItself (fragments : List Fragment) (f : Fragment) : Bool :=
  (reached fragments (spreadsInAll f.selections)).any (·.name = f.name)

/-- The fragments on a way from some names to one of them: `seen` are those that have been met before. -/
def wayTo (fragments : List Fragment) (target : String) : (depth : Nat) → (seen : List String) → List String →
    Option (List String)
  | 0, _, _ => none
  | depth + 1, seen, names => names.findSome? fun name =>
    if name = target then some []
    else if seen.contains name then none
    else
      match fragment? fragments name with
      | none => none
      | some f => (wayTo fragments target depth (name :: seen) (spreadsInAll f.selections)).map (name :: ·)

/-- A fragment that stands within itself, unless one before it has been found to stand within itself and within this
one. -/
def ringFaults (fragments before : List Fragment) (f : Fragment) : List RequestFault :=
  let inside := reached fragments (spreadsInAll f.selections)
  if isWithinItself fragments f && !before.any fun g => isWithinItself fragments g && inside.any (·.name = g.name) then
    let via := (wayTo fragments f.name (fragments.length + 1) [] (spreadsInAll f.selections)).getD []
    let names := if via.isEmpty then "" else " via " ++ ", ".intercalate (via.map fun n => "'" ++ n ++ "'")
    [fault ("Cannot spread fragment '" ++ f.name ++ "' within itself" ++ names ++ ".")]
  else []

/-! ### Requests -/

/-- How deep fields are looked into for conflicts: as deep as there can be fields, if no fragment stands within
itself. -/
def conflictDepth (d : Document) : Nat := if d.fragments.any (isWithinItself d.fragments) then 0 else d.size

/-- What is wrong with a fragment; `before` are the fragments before it. -/
def fragmentFaults (s : TypeSystem) (d : Document) (before : List Fragment) (f : Fragment) : List RequestFault :=
  conditionFaults s (some f.name) f.condition ++
    (if before.any (·.name = f.name) then [fault ("There can be only one fragment named '" ++ f.name ++ "'.")]
      else []) ++
    ringFaults d.fragments before f ++ repeatedDirectives f.directives ++ unknownCondition s f.condition ++
    directivesFaults s "FRAGMENT_DEFINITION" f.directives ++
    conflictFaults d.fragments (conflictDepth d) f.selections ++
    selectionsFaults s d.fragments (conflictDepth d) (parentNamed? s f.condition.text) f.selections

/-- What is wrong with the name of an operation, or with its lack; `before` are the operations before it. -/
def operationNameFaults (d : Document) (before : List Operation) (op : Operation) : List RequestFault :=
  match op.name with
  | some n =>
    if before.any fun o => o.name.any (·.text = n.text) then
      [fault ("There can be only one operation named '" ++ n.text ++ "'.")]
    else []
  | none =>
    if 1 < d.operations.length then [fault "This anonymous operation must be the only defined operation."] else []

/-- The name of the kind of places that an operation is. -/
def operationLocation (op : Operation) : String := op.kind.word.toUpper

/-- What is wrong with an operation; `before` are the operations before it. -/
def operationFaults (s : TypeSystem) (d : Document) (before : List Operation) (op : Operation) : List RequestFault :=
  operationNameFaults d before op ++ variableNameFaults s d.fragments op ++ repeatedDirectives op.directives ++
    op.parameters.flatMap (variableFaultsOf s) ++ directivesFaults s (operationLocation op) op.directives ++
    conflictFaults d.fragments (conflictDepth d) op.selections ++
    selectionsFaults s d.fragments (conflictDepth d) (operationParent? s op) op.selections ++
    misplacedFaults s d.fragments op

/-- What is wrong with a part of a request; `before` are the parts before it. -/
def partFaults (s : TypeSystem) (d : Document) (before : List DocumentPart) : DocumentPart → List RequestFault
  | .operation op => operationFaults s d (Document.operations { d with parts := before }) op
  | .fragment f => fragmentFaults s d (Document.fragments { d with parts := before }) f

/-- What is wrong with parts of a request; `before` are the parts before them. -/
def partsFaults (s : TypeSystem) (d : Document) (before : List DocumentPart) : List DocumentPart → List RequestFault
  | [] => []
  | x :: xs => partFaults s d before x ++ partsFaults s d (before ++ [x]) xs

/-- Fragments that no operation uses. -/
def unusedFaults (d : Document) : List RequestFault :=
  (d.fragments.filter fun f => !d.operations.any fun op => (fragmentsOf d.fragments op).any (·.name = f.name)).map
    fun f => fault ("Fragment '" ++ f.name ++ "' is never used.")

/-- All that is wrong with a request. -/
def requestFaults (s : TypeSystem) (d : Document) : List RequestFault :=
  partsFaults s d [] d.parts ++ unusedFaults d

/-- The most faults that are reported. -/
def maxFaults : Nat := 100

/-- The faults that are reported: where there are too many, that is said instead of the rest. -/
def reportedFaults (faults : List RequestFault) : List RequestFault :=
  if faults.length ≤ maxFaults then faults
  else faults.take maxFaults ++ [fault "Too many validation errors, error limit reached. Validation aborted."]

end ThriftGateway.Execution
