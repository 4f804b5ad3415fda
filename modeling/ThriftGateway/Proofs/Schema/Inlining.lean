import ThriftGateway.Proofs.Graph.Inlining
import ThriftGateway.Proofs.Schema.Checking
import ThriftGateway.Proofs.Schema.Likeness
import ThriftGateway.Proofs.Schema.Printing

/-!
# Schemas with typedefs inlined

Replacing references to typedefs by what they name does not change what assembling comes to (`assemble_inlined`): the
types of the schema are the same, with their names, defaults and descriptions, and so is its text; or the error is.
-/

namespace ThriftGateway.Schema

open Graph (Agree FunctionAlike Inlined Inlines Likeness QueryNaming Session TypeNaming Work)
open Source (Library Path)

/-- The same offer with typedefs inlined in the functions of the service. -/
def Offer.Inlines (l : Library) (o o' : Offer) : Prop :=
  ∃ functions, List.Forall₂ (FunctionAlike (Inlined l o.file)) o.service.functions functions ∧
    o' = { o with service := { o.service with functions } }

/-- The likeness of a library to one with typedefs inlined, whatever is reported. -/
private def inlining {l l' : Library} (h : Inlines l l') : Likeness where
  first := l
  second := l'
  isLenient := False
  types := Inlined l
  logs _ _ := True
  logs_append _ h := h
  expand ht := Graph.expandType_inlined h ht nofun ⟨List.Subset.refl [], nofun⟩

/-- Schemas with the same types, root fields that call functions of the same services and names with the same hooks, and
the same text. -/
structure Schema.SaysSame (x x' : Schema) : Prop where
  types : x'.types = x.types
  root : List.Forall₂ (fun r r' => r'.field = r.field ∧ r'.binding.service = r.binding.service ∧
    r'.binding.function.name = r.binding.function.name ∧ r'.binding.hooks = r.binding.hooks) x.root x'.root
  print : x'.print = x.print

/-- For all documents that have been loaded and all services: where references to typedefs of the same file, each
declared once and not leading back to itself, are replaced by what the typedefs name, assembling comes to a schema that
says the same, or to the same error. -/
theorem assemble_inlined {l l' : Library} (h : Inlines l l') {offers offers' : List Offer}
    (ho : List.Forall₂ (Offer.Inlines l) offers offers') (queries : QueryNaming) (enumsAsInts : Bool)
    (types : TypeNaming) (log log' : List Notice) :
    Agree False Schema.SaysSame
      (Work.run (assemble queries offers) { Session.fresh enumsAsInts types with library := l, log }).1
      (Work.run (assemble queries offers') { Session.fresh enumsAsInts types with library := l', log := log' }).1 := by
  have hoffers : List.Forall₂ (OfferAlike (inlining h)) offers offers' := by
    refine ho.imp fun o o' ho => ?_
    obtain ⟨functions, hfunctions, rfl⟩ := ho
    exact ⟨rfl, rfl, rfl, hfunctions, rfl, rfl, rfl⟩
  have hsessions : (inlining h).Sessions { Session.fresh enumsAsInts types with library := l, log }
      { Session.fresh enumsAsInts types with library := l', log := log' } :=
    ⟨rfl, rfl, rfl, rfl, rfl, rfl, .nil, trivial⟩
  have houtcome := assemble_follows queries hoffers _ _ hsessions
  generalize Work.run (assemble queries offers) _ = r at houtcome ⊢
  generalize Work.run (assemble queries offers') _ = r' at houtcome ⊢
  cases houtcome with
  | error e => exact .error e
  | excused hp => exact hp.elim
  | ok hschema =>
    refine .ok ⟨hschema.types, hschema.root.imp fun x x' hx => ?_, hschema.sameTypes.print_eq⟩
    obtain ⟨_, _, ⟨_, _, _, -, -, -, rfl⟩, rfl⟩ := hx
    exact ⟨rfl, rfl, rfl, rfl⟩

namespace aliased

/-- The file that declares the typedef. -/
def file : Path := ⟨["idl", "a.thrift"]⟩

/-- What the typedef names. -/
def target : Idl.TypeExpr := .list 1 (.base 1 "i64")

/-- A reference to the typedef. -/
def reference : Idl.TypeExpr := .named 1 "T"

/-- The typedef. -/
def typedef : Idl.Typedef := ⟨1, "T", target, none⟩

/-- A struct with the type in a field with a default and inside of a list. -/
def struct (t : Idl.TypeExpr) : Idl.Struct where
  form := .struct
  line := 1
  name := "S"
  fields := [⟨1, "a", some 1, some .required, t, some (.list 1 [.int ⟨1, "1", false⟩]), none⟩,
    ⟨1, "b", some 2, none, .list 1 t, none, none⟩]
  description := none

/-- A function that takes a value of the type and gives one. -/
def function (t : Idl.TypeExpr) : Idl.Function where
  line := 1
  name := "f"
  result := t
  arguments := [⟨1, "x", some 1, none, t, none, none⟩]
  throws := []
  oneway := false
  description := none

/-- The service of the function. -/
def service (t : Idl.TypeExpr) : Idl.Service := ⟨1, "V", none, [function t], none⟩

/-- The library in which the type is used. -/
def library (t : Idl.TypeExpr) : Library where
  entries := [(file,
    ⟨1, [.declaration (.typedef typedef), .declaration (.struct (struct t)), .service (service t)], none⟩)]

/-- The offer of the service. -/
def offer (t : Idl.TypeExpr) : Offer := ⟨.text "v", file, service t, false, []⟩

/-- The reference may be replaced. -/
private theorem inlined_reference : Inlined (library reference) file reference target := by
  have hresolve : (library reference).resolve "T" file = .ok ⟨file, .typedef typedef⟩ := by
    refine Library.resolve_of_plain (by decide) (d := ⟨1, [.declaration (.typedef typedef),
      .declaration (.struct (struct reference)), .service (service reference)], none⟩) rfl ?_
    simp [Idl.Document.declarationsNamed, Idl.Document.declarations, Idl.Declaration.name, typedef, struct]
  refine .inline hresolve (fun hpasses => ?_) (.list (.base 1 "i64"))
  cases hpasses with
  | list h => cases h

private theorem functionAlike :
    FunctionAlike (Inlined (library reference) file) (function reference) (function target) :=
  ⟨target, _, [], inlined_reference, .cons ⟨target, inlined_reference, rfl⟩ .nil, .nil, rfl⟩

private theorem inlines : Inlines (library reference) (library target) := by
  have hstruct : Graph.StructAlike (Inlined (library reference) file) (struct reference) (struct target) :=
    ⟨_, .cons ⟨target, inlined_reference, rfl⟩ (.cons ⟨.list 1 target, .list inlined_reference, rfl⟩ .nil), rfl⟩
  have htypedef : Graph.DeclarationAlike (Inlined (library reference) file) (.typedef typedef) (.typedef typedef) :=
    .typedef (d := typedef) (.list (.base 1 "i64"))
  have hservice : Graph.StatementAlike (Inlined (library reference) file) (.service (service reference))
      (.service (service target)) := .service (s := service reference) (.cons functionAlike .nil)
  exact .cons ⟨rfl, _, .cons (.declaration htypedef) (.cons (.declaration (.struct hstruct)) (.cons hservice .nil)),
    rfl⟩ .nil

/-- The session in which the typedef is inlined. -/
def session : Session := { Session.fresh false Graph.declaredName with library := library target }

/-- A list of wide integers. -/
def wideList : Graph.GraphType := .list (.named (.scalar (.wide .int64)))

/-- The argument of the function. -/
def argument : Graph.InputField := ⟨"x", wideList, none, none⟩

/-- The schema of the function. -/
def schema : Schema where
  root := [⟨⟨"V_f", wideList, [argument], none⟩, ⟨.text "v", function target, {}⟩⟩]
  types := [(.scalar (.wide .int64), .scalar (.wide .int64))]

/-- The names of the schema are legal. -/
private theorem names_fine : Graph.IsLegalName "V_f" ∧ Graph.IsLegalName "x" := by decide

private theorem expand_target : Graph.expandType session.library [] file target =
    .ok ⟨[.list], .scalar (.wide .int64)⟩ := by
  rw [target, Graph.expandType_list, Graph.expandType_base rfl]
  rfl

private theorem run_function : Work.run (Graph.compileFunction file (function target)) session =
    (.ok ⟨"f", wideList, [argument], none⟩, session) := by
  have hfield : Graph.expandType session.library [] file (.field ⟨1, "x", some 1, none, target, none, none⟩) =
      .ok ⟨[.list], .scalar (.wide .int64)⟩ := by
    rw [Graph.expandType_field, expand_target]
    rfl
  have hargument : Work.run (Graph.compileInputField file ⟨1, "x", some 1, none, target, none, none⟩) session =
      (.ok argument, session) := by
    unfold Graph.compileInputField Graph.compileField
    rw [Work.run_bind_of_ok (Graph.run_compileType_of_scalar hfield)]
    rfl
  have harguments : Work.run (Graph.compileInputFields file (function target).arguments) session =
      (.ok [argument], session) := by
    show Work.run (Graph.compileInputField file ⟨1, "x", some 1, none, target, none, none⟩ >>= _) session = _
    rw [Work.run_bind_of_ok hargument]
    rfl
  unfold Graph.compileFunction
  rw [show (function target).result = target from rfl,
    Work.run_bind_of_ok (Graph.run_compileType_of_scalar expand_target), Work.run_bind_of_ok harguments]
  show Work.run (Work.ofExcept _ (Graph.checkAll Graph.checkName ["x"]) >>= _) session = _
  rw [Graph.checkAll_eq_ok.2 (List.forall_mem_singleton.2 names_fine.2.isName)]
  rfl

private theorem run_assemble : Work.run (assemble Graph.joinedName [offer target]) session =
    (.ok schema, session.close) := by
  have hroot : Work.run (rootFields Graph.joinedName [offer target]) session = (.ok schema.root, session) := by
    show Work.run ((Graph.compileFunction file (function target) >>= _) >>= _) session = _
    rw [Work.run_bind, Work.run_bind_of_ok run_function]
    rfl
  refine run_assemble_of_scalar hroot (List.cons_ne_nil _ _) ?_ ?_
  · exact List.forall_mem_singleton.2 ⟨names_fine.1, List.forall_mem_singleton.2 names_fine.2⟩
  · exact List.forall_mem_cons.2 ⟨rfl, List.forall_mem_singleton.2 rfl⟩

private theorem succeeds_print : Succeeds schema.print := by
  decide

end aliased

/-- The typedef of a list is inlined in a field, in the element of a list, in an argument and in a result.  Both
services have a schema, and what it says is the same. -/
theorem assemble_inlined_aliased :
    Inlines (aliased.library aliased.reference) (aliased.library aliased.target) ∧
      List.Forall₂ (Offer.Inlines (aliased.library aliased.reference)) [aliased.offer aliased.reference]
        [aliased.offer aliased.target] ∧
      Agree False Schema.SaysSame
        (Work.run (assemble Graph.joinedName [aliased.offer aliased.reference])
          { Session.fresh false Graph.declaredName with library := aliased.library aliased.reference }).1
        (Work.run (assemble Graph.joinedName [aliased.offer aliased.target])
          { Session.fresh false Graph.declaredName with library := aliased.library aliased.target }).1 ∧
      (Work.run (assemble Graph.joinedName [aliased.offer aliased.target])
        { Session.fresh false Graph.declaredName with library := aliased.library aliased.target }).1 =
          .ok aliased.schema ∧
      ∃ x, (Work.run (assemble Graph.joinedName [aliased.offer aliased.reference])
        { Session.fresh false Graph.declaredName with library := aliased.library aliased.reference }).1 = .ok x ∧
          x.SaysSame aliased.schema ∧ ∃ printed, x.print = .ok printed := by
  have hoffer : List.Forall₂ (Offer.Inlines (aliased.library aliased.reference)) [aliased.offer aliased.reference]
      [aliased.offer aliased.target] := .cons ⟨_, .cons aliased.functionAlike .nil, rfl⟩ .nil
  have hagree := assemble_inlined aliased.inlines hoffer Graph.joinedName false Graph.declaredName [] []
  have hsecond := congrArg Prod.fst aliased.run_assemble
  obtain ⟨x, hx, hsame⟩ := hagree.exists_of_eq_ok hsecond
  obtain ⟨printed, hprinted⟩ := aliased.succeeds_print
  exact ⟨aliased.inlines, hoffer, hagree, hsecond, x, hx, hsame, printed, hsame.print.symm.trans hprinted⟩

end ThriftGateway.Schema
