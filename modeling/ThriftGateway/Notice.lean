import ThriftGateway.Source.Path

/-!
# Notices

What the library reports while it works, apart from its results.
-/

namespace ThriftGateway

open Source (Path)

/-- How much a notice matters. -/
inductive Severity where
  | debug
  | info
  | warning
  deriving DecidableEq, Repr

/-- Something worth reporting. -/
inductive Notice where
  /-- A file has been read and parsed. -/
  | parsed (file : Path)
  /-- A file is not read again. -/
  | skipped (file : Path)
  /-- A type gets another name than the preferred one. -/
  | nameTaken (preferred given : String)
  /-- A function is not offered. -/
  | notListed (service function : String)
  /-- A function takes over a query name. -/
  | duplicateQuery (query service function : String)
  /-- A method to offer is no function of the service. -/
  | noSuchFunction (service method : String)
  /-- There is no way to call services. -/
  | noClient
  /-- The schema is complete. -/
  | built (services documents : Nat)
  deriving DecidableEq, Repr

namespace Notice

/-- How much the notice matters. -/
def severity : Notice → Severity
  | parsed _ | noClient | built .. => .info
  | skipped _ | nameTaken .. | notListed .. => .debug
  | duplicateQuery .. | noSuchFunction .. => .warning

/-- The part of the program that reports it. -/
def reporter : Notice → String
  | parsed _ | skipped _ => "thrift_to_graphql.compiler.loader"
  | nameTaken .. => "thrift_to_graphql.compiler.session"
  | notListed .. | duplicateQuery .. => "thrift_to_graphql.compiler.assembler"
  | noSuchFunction .. | noClient | built .. => "thrift_to_graphql.generator"

/-- The text of the notice. -/
def message : Notice → String
  | parsed file => "Parsed " ++ file.text
  | skipped file => "Skipping " ++ file.text ++ ", already loaded"
  | nameTaken preferred given => s!"Type name {preferred} is taken, using {given}"
  | notListed service function => s!"Skipping {service}.{function}, not listed in methods"
  | duplicateQuery query service function =>
    s!"Duplicate query name {query}, {service}.{function} replaces it"
  | noSuchFunction service method => s!"Service {service} has no function {method} listed in methods"
  | noClient => "No RPC client factory, resolvers will fail when called"
  | built services documents => s!"Built schema for {services} service(s), {documents} document(s) loaded"

/-- The notice as a line: its severity, its reporter and its text. -/
def line (n : Notice) : String :=
  let word := match n.severity with
    | .debug => "DEBUG"
    | .info => "INFO"
    | .warning => "WARNING"
  word ++ " " ++ n.reporter ++ ": " ++ n.message

end Notice

end ThriftGateway
