import ThriftGateway.Source.Library

/-!
# References

A type refers to a declaration by its name, if both are in the same file, or by the stem of an included file, a
dot and a name.  `Library.resolve` finds the declaration that a reference means in a file, or says why there is
not exactly one.
-/

namespace ThriftGateway.Source

open Idl (Declaration Document)

/-- Why a reference means nothing. -/
inductive Reason where
  | noInclude (stem : String)
  | ambiguousInclude (stem : String)
  | notLoaded (fileName : String)
  | noDeclaration (name fileName : String)
  | declaredTwice (name fileName : String)
  /-- The declaration is a typedef that leads back to itself. -/
  | typedefCycle
  deriving DecidableEq, Repr

/-- The words for a reason. -/
def Reason.text : Reason → String
  | noInclude stem => s!"no include named '{stem}'"
  | ambiguousInclude stem => s!"ambiguous include name '{stem}'"
  | notLoaded fileName => s!"{fileName} is not loaded"
  | noDeclaration name fileName => s!"no declaration named '{name}' in {fileName}"
  | declaredTwice name fileName => s!"'{name}' is declared more than once in {fileName}"
  | typedefCycle => "typedef cycle"

/-- A reference that cannot be resolved, with the file it is blamed on. -/
inductive ReferenceError where
  /-- The reference has more than one dot. -/
  | malformed (reference : String) (file : Path)
  | unresolved (reference : String) (file : Path) (reason : Reason)
  /-- The include that is meant leads nowhere. -/
  | impassable
  deriving DecidableEq, Repr

/-- What a reference means: a declaration and the file that it is in. -/
structure Resolved where
  file : Path
  declaration : Declaration
  deriving Repr

namespace Library

variable (l : Library)

/-- The only declaration of a name in a file.  A fault of the name is blamed on the file `context`. -/
def resolveIn (reference name : String) (file context : Path) : Except ReferenceError Resolved :=
  match l.document? file with
  | none => .error (.unresolved reference file (.notLoaded file.name))
  | some d =>
    match d.declarationsNamed name with
    | [] => .error (.unresolved reference context (.noDeclaration name file.name))
    | [declaration] => .ok ⟨file, declaration⟩
    | _ => .error (.unresolved reference context (.declaredTwice name file.name))

/-- The included file that a stem means in a file. -/
def resolveStem (reference stem : String) (context : Path) : Except ReferenceError Path :=
  match l.document? context with
  | none => .error (.unresolved reference context (.notLoaded context.name))
  | some d =>
    match d.includes.filter fun i => stemOf i = stem with
    | [] => .error (.unresolved reference context (.noInclude stem))
    | [written] =>
      let file := context.ofInclude written
      if isPassable file.text then .ok file else .error .impassable
    | _ => .error (.unresolved reference context (.ambiguousInclude stem))

/-- The declaration that a reference means in a file. -/
def resolve (reference : String) (context : Path) : Except ReferenceError Resolved :=
  match (Text.splitAt '.' reference.toList).map String.ofList with
  | [_] => l.resolveIn reference reference context context
  | [stem, name] =>
    match l.resolveStem reference stem context with
    | .error e => .error e
    | .ok file => l.resolveIn reference name file context
  | _ => .error (.malformed reference context)

end Library

end ThriftGateway.Source
