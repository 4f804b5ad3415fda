import ThriftGateway.Proofs.Graph.Compile
import ThriftGateway.Proofs.Schema.Checking
import ThriftGateway.Proofs.Schema.Printing

/-!
# Defaults of generated schemas

The defaults of a generated schema fit the innermost scalars of their types, but they need not be legal: lists below
the outermost one are not compared with the type, and neither integers at `Int64` nor infinite numbers at `Float` are
refused.  `defaults_of_generate` says exactly which defaults are legal, and exactly when the schema can be printed.
-/

namespace ThriftGateway.Schema

open Graph (GraphType InputField Legal NamedType SameNesting InRange Session Work fitsNamed isListValue leaves)
open Idl (Document Field)
open Source (FileTree Path)

/-- Legal defaults can be printed if integers at `Float` are floating point numbers exactly. -/
private theorem printable_of_legal {s : Schema} (hs : IsAssembled s) {t : GraphType} {v : Value} (hl : Legal t v)
    (hf : t.innermost = .scalar .float → ∀ n, .int n ∈ leaves v → IsExact n) : Printable s t v := by
  induction t generalizing v with
  | nonNull t ih => exact ih hl hf
  | list t ih =>
    cases v with
    | list items =>
      intro v hv
      exact ih (hl v hv) fun ht n hn => hf ht n (Graph.mem_leaves_list.2 ⟨v, hv, hn⟩)
    | _ => cases hl
  | named n =>
    show WritableLeaf (s.definition? n) v
    have hl : Graph.LegalLeaf n v := hl
    cases n with
    | node id => cases hl
    | scalar x =>
      cases hd : s.definition? (.scalar x) with
      | none => simp [WritableLeaf]
      | some d =>
        rw [hs.definition?_scalar hd]
        cases x with
        | float =>
          cases v with
          | int m => exact hf rfl m (by rw [Graph.leaves_of_not_list rfl]; simp)
          | float d => exact hl
          | _ => cases hl
        | wide w => cases w <;> cases v <;> exact hl
        | _ => cases v <;> exact hl

/-- In a generated schema, a default of an argument or an input field is a list exactly if its type is one, and all its
leaves fit what is inside the type.  It is legal exactly if its nesting is that of the type and its leaves are in range.
The schema is printed exactly if all defaults can be printed, so it is printed if all are legal and integers at `Float`
are exact. -/
theorem defaults_of_generate {t : FileTree} {c : Config} {types : Graph.TypeNaming}
    {queries : Graph.QueryNaming} {hasClient : Bool} {s : Schema}
    (h : (generate t c types queries hasClient).outcome = .ok s) :
    (∀ f ∈ s.inputs, ∀ v, f.default = some v →
      isListValue v = f.type.isList ∧ (∀ x ∈ leaves v, fitsNamed f.type.innermost x = true) ∧
      (Legal f.type v ↔ SameNesting f.type v ∧ ∀ x ∈ leaves v, InRange f.type.innermost x)) ∧
    ((∃ text, s.print = .ok text) ↔ ∀ f ∈ s.inputs, ∀ v, f.default = some v → Printable s f.type v) ∧
    ∀ f ∈ s.inputs, ∀ v, f.default = some v → Legal f.type v →
      (f.type.innermost = .scalar .float → ∀ n, .int n ∈ leaves v → IsExact n) → Printable s f.type v := by
  have hs := isAssembled_of_generate h
  refine ⟨fun f hf v hv => ?_, ?_, fun f _ v _ hl hexact => printable_of_legal hs hl hexact⟩
  · have hc := hs.sound f hf v hv
    exact ⟨hc.isList, hc.fits, hc.legal_iff⟩
  · show Succeeds s.print ↔ _
    rw [print_succeeds_iff]
    refine forall₂_congr fun f hf => forall₂_congr fun v hv => ?_
    exact defaultLiteral_succeeds_iff hs (hs.sound f hf v hv).fits

/-! ### A default out of range -/

/-- A service whose function has an `i64` argument with a default of 2⁶³. -/
def overflowing : FileTree where
  working := ⟨["idl"]⟩
  files := [(⟨["idl", "s.thrift"]⟩, Text.encode "service S { i32 f(1: i64 x = 9223372036854775808) }")]

/-- A configuration that offers the function. -/
def overflowingConfig : Config := { services := [(.text "svc", ⟨.text "s.thrift", .text "", [], [(.text "f", {})]⟩)] }

namespace overflowing

/-- The file. -/
def file : Path := ⟨["idl", "s.thrift"]⟩

/-- The argument of the function. -/
def argument : Field := ⟨1, "x", some 1, none, .base 1 "i64", some (.int ⟨1, "9223372036854775808", false⟩), none⟩

/-- The function. -/
def function : Idl.Function := ⟨1, "f", .base 1 "i32", [argument], [], false, none⟩

/-- The service. -/
def service : Idl.Service := ⟨1, "S", none, [function], none⟩

/-- What the file declares. -/
def parsed : Document := ⟨1, [.service service], some file⟩

/-- The offer of the service. -/
def offer : Offer := ⟨.text "svc", file, service, true, [(.text "f", {})]⟩

/-- The session once the file has been read, with some reports. -/
def session (log : List Notice) : Session :=
  { Session.fresh false Graph.declaredName with library := ⟨[(file, parsed)]⟩, log := .parsed file :: log }

variable {log : List Notice}

/-- The argument of the function, with its default. -/
def carried : InputField := ⟨"x", .named (.scalar (.wide .int64)), some (.int 9223372036854775808), none⟩

/-- A schema with one root field, whose argument has the default. -/
def schema : Schema where
  root := [⟨⟨"S_f", .named (.scalar .int), [carried], none⟩, ⟨.text "svc", function, offer.hooks "f"⟩⟩]
  types := [.int, .wide .int64].map fun x => (.scalar x, .scalar x)

/-- Whether a file declares the function. -/
def declaresGiven : Document → Bool
  | ⟨1, [.service ⟨1, "S", none, [⟨1, "f", .base 1 "i32", [⟨1, "x", some 1, none, .base 1 "i64",
      some (.int ⟨1, "9223372036854775808", false⟩), none⟩], [], false, none⟩], none⟩],
      some ⟨["idl", "s.thrift"]⟩⟩ => true
  | _ => false

private theorem parsed_eq : overflowing.document file = .ok parsed := by
  obtain ⟨d, hd, hview⟩ := Source.exists_document_of_any (t := overflowing) (p := file) declaresGiven
    (by decide +kernel)
  unfold declaresGiven at hview
  split at hview
  · exact hd
  · cases hview

private theorem servicePath_eq : servicePath overflowing overflowingConfig.idlPath (.text "s.thrift") = .ok file := by
  rfl

/-- The function is offered, the names of the schema are legal, and the default is read. -/
private theorem names_fine : (offer.offers function = true ∧ missingMethods (.text "svc") service [.text "f"] = []) ∧
    Graph.IsLegalName "S_f" ∧ Graph.IsLegalName "x" ∧
    Graph.integerOfLiteral ⟨1, "9223372036854775808", false⟩ = .ok 9223372036854775808 := by
  decide +kernel

private theorem run_argument :
    Work.run (Graph.compileInputField file argument) (session log) = (.ok carried, session log) := by
  have htype : Graph.expandType (session log).library [] file (.field argument) = .ok ⟨[], .scalar (.wide .int64)⟩ := by
    rw [Graph.expandType_field, argument, Graph.expandType_base rfl]
    rfl
  have hdefault : Graph.defaultFor argument.default (.named (.scalar (.wide .int64))) = .ok carried.default := by
    unfold Graph.defaultFor Graph.constantValue
    dsimp only [argument]
    rw [names_fine.2.2.2]
    rfl
  unfold Graph.compileInputField Graph.compileField
  rw [Work.run_bind_of_ok (Graph.run_compileType_of_scalar htype)]
  show Work.run (Work.ofExcept _ (Graph.defaultFor argument.default (.named (.scalar (.wide .int64)))) >>= _) _ = _
  rw [hdefault]
  rfl

private theorem run_function : Work.run (Graph.compileFunction file function) (session log) =
    (.ok ⟨"f", .named (.scalar .int), [carried], none⟩, session log) := by
  have hresult : Graph.expandType (session log).library [] file (.base 1 "i32") = .ok ⟨[], .scalar .int⟩ :=
    Graph.expandType_base rfl
  have harguments : Work.run (Graph.compileInputFields file [argument]) (session log) =
      (.ok [carried], session log) := by
    unfold Graph.compileInputFields
    rw [Work.run_bind_of_ok run_argument]
    rfl
  unfold Graph.compileFunction
  rw [show function.result = .base 1 "i32" from rfl, Work.run_bind_of_ok (Graph.run_compileType_of_scalar hresult)]
  show Work.run (Graph.compileInputFields file [argument] >>= _) (session log) = _
  rw [Work.run_bind_of_ok harguments]
  show Work.run (Work.ofExcept _ (Graph.checkAll Graph.checkName ["x"]) >>= _) (session log) = _
  rw [Graph.checkAll_eq_ok.2 (List.forall_mem_singleton.2 names_fine.2.2.1.isName)]
  rfl

private theorem run_rootFields : Work.run (rootFields Graph.joinedName [offer]) (session log) =
    (.ok schema.root, session log) := by
  have hadd : Work.run (addRootField Graph.joinedName offer [] function) (session log) =
      (.ok schema.root, session log) := by
    unfold addRootField
    rw [names_fine.1.1]
    show Work.run (Graph.compileFunction file function >>= _) (session log) = _
    rw [Work.run_bind_of_ok run_function]
    rfl
  show Work.run (addRootField Graph.joinedName offer [] function >>= _) (session log) = _
  rw [Work.run_bind_of_ok hadd]
  rfl

private theorem run_assemble :
    Work.run (assemble Graph.joinedName [offer]) (session log) = (.ok schema, (session log).close) := by
  have htypes : Work.run (collectTypes (typeBound (session log)) [] [.scalar .int, .scalar (.wide .int64)])
      (session log) = (.ok schema.types, session log) := by
    obtain ⟨fuel, hfuel⟩ : ∃ fuel, typeBound (session log) = fuel + 1 + 1 := ⟨_, rfl⟩
    rw [hfuel, collectTypes_of_scalar (by decide), collectTypes_of_scalar (by decide), collectTypes_nil]
    rfl
  have hlegal : ∀ r ∈ schema.root, r.IsLegal :=
    List.forall_mem_singleton.2 ⟨names_fine.2.1, List.forall_mem_singleton.2 names_fine.2.2.1⟩
  refine run_assemble_of_ok run_rootFields ?_ htypes (isValid_of_scalars (List.cons_ne_nil _ _) hlegal (by decide))
  exact Graph.checkAll_eq_ok.2 (List.forall_mem_singleton.2 names_fine.2.1.isName)

private theorem generate_eq :
    (generate overflowing overflowingConfig Graph.declaredName Graph.joinedName false).outcome = .ok schema :=
  generate_of_service rfl servicePath_eq parsed_eq rfl rfl (congrArg (· ++ _) names_fine.1.2) run_assemble

private theorem carried_mem_inputs : carried ∈ schema.inputs := by
  simp [schema, Schema.inputs, Schema.definitions, TypeSystem.definitions, TypeSystem.rootDefinition, Schema.system,
    Definition.inputs]

end overflowing

/-- The schema is generated with a default that is not legal, and cannot be printed. -/
theorem defaults_of_generate_overflowing :
    ∃ s, (generate overflowing overflowingConfig Graph.declaredName Graph.joinedName false).outcome = .ok s ∧
      (∃ f ∈ s.inputs, ∃ v, f.default = some v ∧ ¬Legal f.type v) ∧ ¬∃ text, s.print = .ok text := by
  obtain ⟨hlegal, hprint, -⟩ := defaults_of_generate overflowing.generate_eq
  have hrange : ¬(-0x8000000000000000 ≤ (9223372036854775808 : Int) ∧
      (9223372036854775808 : Int) ≤ 0x7fffffffffffffff) := by omega
  refine ⟨_, overflowing.generate_eq, ⟨overflowing.carried, overflowing.carried_mem_inputs, _, rfl, fun hl => ?_⟩,
    fun htext => ?_⟩
  · have hin := ((hlegal _ overflowing.carried_mem_inputs _ rfl).2.2.1 hl).2 (.int 9223372036854775808)
      (by rw [Graph.leaves_of_not_list rfl]; simp)
    exact hrange hin
  · exact hrange (hprint.1 htext _ overflowing.carried_mem_inputs _ rfl)

end ThriftGateway.Schema
