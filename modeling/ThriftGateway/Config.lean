import ThriftGateway.Service.Callable
import ThriftGateway.Value.Item
import ThriftGateway.Value.Order

/-!
# Configurations

Which services to offer, where their files are, and how to offer them.  A configuration is read from a value by
`Config.ofValue` and written as one by `Config.toValue`.  Most settings are kept as they are given, whatever they
are: what they mean is decided where they are used.
-/

namespace ThriftGateway

open Service (Hooks)

/-- One service to offer. -/
structure ServiceConfig where
  file : Value
  consul : Value
  servers : List Value
  /-- The names of the functions to offer, each once, in the given order, with the hooks of each function. -/
  methods : List (Value × Hooks)

/-- Settings for a schema. -/
structure Config where
  idlPath : Value := .text "."
  strict : Value := .bool true
  convertEnumToInt : Value := .bool false
  /-- Services by the names that callers know them by. -/
  services : List (Value × ServiceConfig) := []
  addGenerationComment : Value := .bool true

/-- Why a value is no configuration, or a configuration cannot be written. -/
inductive ConfigError where
  /-- Entries are asked of a value that is no map. -/
  | notMap (v : Value)
  | notIterable (v : Value)
  /-- The value cannot be the key of a map. -/
  | notKey (v : Value)
  /-- The method names have no order. -/
  | noOrder
  deriving Repr

namespace Value

/-- What a value consists of: the items of a collection, the characters of a text, the keys of a map. -/
def items? : Value → Option (List Value)
  | list xs | tuple xs | set _ xs => some xs
  | map entries => some (entries.map (·.1))
  | text s => some (s.toList.map fun c => text c.toString)
  | _ => none

/-- Whether a value counts as true: all but zeros and what is empty. -/
def isTrue : Value → Bool
  | null => false
  | undefined => false
  | bool b => b
  | int n => n ≠ 0
  | float d => !d.isZero
  | text s => !s.isEmpty
  | list xs | tuple xs | set _ xs => !xs.isEmpty
  | map es => !es.isEmpty
  | thing .. => true

/-- The items of a value. -/
def items (v : Value) : Except ConfigError (List Value) :=
  match v.items? with
  | some xs => .ok xs
  | none => .error (.notIterable v)

end Value

/-- The items as keys of a map: each once, where it comes first. -/
def distinctKeys : List Value → List Value → Except ConfigError (List Value)
  | keys, [] => .ok keys
  | keys, x :: xs =>
    match x.unkeyable? with
    | some part => .error (.notKey part)
    | none => distinctKeys (if keys.any (Value.same · x) then keys else keys ++ [x]) xs

/-- The setting of a name, or a default. -/
def settingOf (entries : List (Value × Value)) (name : String) (default : Value) : Value :=
  (Value.lookup? entries (.text name)).getD default

/-- The service that a value describes.  A value cannot say which hooks there are. -/
def ServiceConfig.ofValue : Value → Except ConfigError ServiceConfig
  | .map entries => do
    let methods ← distinctKeys [] (← (settingOf entries "methods" (.list [])).items)
    let servers ← (settingOf entries "servers" (.list [])).items
    return { file := settingOf entries "file" (.text ""), consul := settingOf entries "consul" (.text ""),
             servers, methods := methods.map (·, {}) }
  | v => .error (.notMap v)

/-- The services that a map from names describes. -/
def servicesOf : List (Value × Value) → Except ConfigError (List (Value × ServiceConfig))
  | [] => .ok []
  | (name, v) :: rest => do
    let service ← ServiceConfig.ofValue v
    return (name, service) :: (← servicesOf rest)

/-- The configuration that a value describes. -/
def Config.ofValue : Value → Except ConfigError Config
  | .map entries => do
    let services ← match Value.lookup? entries (.text "services") with
      | none => pure []
      | some (.map es) => servicesOf es
      | some v => throw (.notMap v)
    let d : Config := {}
    return { idlPath := settingOf entries "idl_path" d.idlPath
             strict := settingOf entries "strict" d.strict
             convertEnumToInt := settingOf entries "convert_enum_to_int" d.convertEnumToInt
             services
             addGenerationComment := settingOf entries "add_generation_comment" d.addGenerationComment }
  | v => .error (.notMap v)

/-- A service as a value, its methods in order. -/
def ServiceConfig.toValue (s : ServiceConfig) : Except ConfigError Value := do
  let some methods := Value.sort? (s.methods.map Prod.fst) | throw .noOrder
  return Value.record [("file", s.file), ("consul", s.consul), ("servers", .list s.servers),
    ("methods", .list methods)]

/-- Services as entries. -/
def serviceEntries : List (Value × ServiceConfig) → Except ConfigError (List (Value × Value))
  | [] => .ok []
  | (name, s) :: rest => do
    let v ← s.toValue
    return (name, v) :: (← serviceEntries rest)

/-- A configuration as a value. -/
def Config.toValue (c : Config) : Except ConfigError Value := do
  return Value.record [("idl_path", c.idlPath), ("strict", c.strict),
    ("convert_enum_to_int", c.convertEnumToInt), ("services", Value.ofEntries (← serviceEntries c.services)),
    ("add_generation_comment", c.addGenerationComment)]

/-- The words for an error. -/
def ConfigError.message : ConfigError → String
  | notMap v => "'" ++ v.kindName ++ "' object has no attribute 'get'"
  | notIterable v => "'" ++ v.kindName ++ "' object is not iterable"
  | notKey v => "unhashable type: '" ++ v.kindName ++ "'"
  | noOrder => "the method names have no order"

end ThriftGateway
