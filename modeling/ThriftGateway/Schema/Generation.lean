import ThriftGateway.Config
import ThriftGateway.Schema.Assembly

/-!
# Generating the schema of a configuration

Every service of the configuration is loaded with all that its file includes, and the first service of the file is
offered.  `generate` works in a session of its own.
-/

namespace ThriftGateway.Schema

open Graph (QueryNaming Session TypeNaming)
open Source (FileTree LoadError Path)

/-- Where a service can be reached. -/
structure Routing where
  name : Value
  file : Path
  consul : Value
  servers : List Value
  deriving Repr

/-- Why no schema can be generated. -/
inductive GenerationError where
  /-- The directory of the configuration is no text. -/
  | directoryNotText (v : Value)
  /-- The file of a service is no text. -/
  | fileNotText (v : Value)
  | load (error : LoadError)
  | noService (file : Path)
  | assembly (error : AssemblyError)
  deriving Repr

/-- The file of a service. -/
def servicePath (t : FileTree) (directory file : Value) : Except GenerationError Path :=
  match directory, file with
  | .text d, .text f =>
    if t.stopsAtHalf f then .error (.load (.file .halfCharacter))
    else (t.plainPath ((t.working.resolve d).resolve f)).mapError fun e => .load (.file e)
  | .text _, f => .error (.fileNotText f)
  | d, _ => .error (.directoryNotText d)

/-- What preparing the services of a configuration has given. -/
structure Prepared where
  offers : List Offer := []
  routing : List Routing := []

/-- The notices for methods that a service does not have. -/
def missingMethods (name : Value) (service : Idl.Service) (methods : List Value) : List Notice :=
  (methods.filter fun m => !service.functions.any fun f => Value.same (.text f.name) m).map fun m =>
    .noSuchFunction name.nameText m.nameText

/-- Loads a service and offers it. -/
def prepareService (t : FileTree) (c : Config) (p : Prepared) (name : Value) (s : ServiceConfig) :
    Graph.Work GenerationError Prepared := do
  let file ← Graph.Work.ofExcept id (servicePath t c.idlPath s.file)
  let failure ← modifyGet fun session =>
    let r := session.load t [file]
    (r.2, r.1)
  if let some e := failure then throw (.load e)
  let library := (← get).library
  let some service := (library.document? file).bind fun d => d.services.head? | throw (.noService file)
  modify fun session => { session with log := session.log ++ missingMethods name service (s.methods.map Prod.fst) }
  return { offers := p.offers ++ [⟨name, file, service, c.strict.isTrue, s.methods⟩]
           routing := p.routing ++ [⟨name, file, s.consul, s.servers⟩] }

/-- Loads services and offers them, in order. -/
def prepareServices (t : FileTree) (c : Config) :
    Prepared → List (Value × ServiceConfig) → Graph.Work GenerationError Prepared
  | p, [] => return p
  | p, (name, s) :: rest => do prepareServices t c (← prepareService t c p name s) rest

/-- What generating has given. -/
structure Generated where
  /-- Where the services can be reached; empty if not all of them could be prepared. -/
  routing : List Routing
  outcome : Except GenerationError Schema
  log : List Notice

/-- Generates the schema of a configuration.  `hasClient` says whether there is a way to call services. -/
def generate (t : FileTree) (c : Config) (types : TypeNaming) (queries : QueryNaming) (hasClient : Bool) :
    Generated :=
  let session := Session.fresh c.convertEnumToInt.isTrue types
  match (prepareServices t c {} c.services).run session with
  | (.error e, session) => ⟨[], .error e, session.log⟩
  | (.ok p, session) =>
    let session := if hasClient then session else session.report .noClient
    match (assemble queries p.offers).run session with
    | (.error e, session) => ⟨p.routing, .error (.assembly e), session.log⟩
    | (.ok schema, session) =>
      let session := session.report (.built p.offers.length session.library.entries.length)
      ⟨p.routing, .ok schema, session.log⟩

end ThriftGateway.Schema
