import ThriftGateway.Proofs.Graph.Unaided
import ThriftGateway.Proofs.Schema.Collecting
import ThriftGateway.Proofs.Source.Plain

/-!
# Assembling ends

Assembling without any bound (`assembleUnaided`) ends in every session with what assembling gives, whatever structs,
typedefs and includes lead back to themselves; and it makes at most two nodes for each struct and one for each
enumeration (`ends_with_few_nodes`).
-/

namespace ThriftGateway.Schema

open Graph (FieldsError Makes Moves NamedType Node NodeKey OutputField QueryNaming Session Settles Unaided Work
  compileUnaided declaredBy isEnumeration isStruct nodeFieldsUnaided sidedKeys unbounded)
open Graph.Unaided (ofWork ofWork_adapt ofWork_bind ofWork_pure run_ofWork_bind_of_error run_ofWork_bind_of_ok)
open Idl (Declaration Function TypeExpr)
open Source (FileTree Library Path)

/-! ### Assembling without a bound -/

/-- What is referred to, with its fields compiled in the session. -/
noncomputable def defineUnaided (t : NamedType) : Unaided FieldsError (Option Definition) := do
  match t with
  | .scalar s => return some (.scalar s)
  | .node id =>
    match (← get).node? id with
    | none => return none
    | some (.enumeration name members description) => return some (.enumeration name description members)
    | some node => return definitionOf node (← nodeFieldsUnaided node)

/-- Types that have been met, pending ones, and the session in which they are collected. -/
abbrev Collected := List (NamedType × Definition) × List NamedType × Session

/-- One round of adding the pending types and all that they refer to, each where it is first met; `collect` goes on
with what is pending then. -/
noncomputable def collectRound
    (collect : Collected → Option (Except FieldsError (List (NamedType × Definition)) × Session)) :
    Collected → Option (Except FieldsError (List (NamedType × Definition)) × Session)
  | (met, [], s) => some (.ok met, s)
  | (met, t :: pending, s) =>
    if met.any (·.1 = t) then collect (met, pending, s)
    else
      match (defineUnaided t).run s with
      | none => none
      | some (.error e, s') => some (.error e, s')
      | some (.ok none, s') => collect (met, pending, s')
      | some (.ok (some d), s') => collect (met ++ [(t, d)], d.references ++ pending, s')

/-- Adds the pending types and all that they refer to, each where it is first met. -/
noncomputable def collectUnaided (met : List (NamedType × Definition)) (pending : List NamedType) :
    Unaided FieldsError (List (NamedType × Definition)) :=
  ExceptT.mk fun s => unbounded collectRound (met, pending, s)

/-- Adds the root field for a function.  One of the same name is replaced. -/
noncomputable def addRootFieldUnaided (naming : QueryNaming) (o : Offer) (fields : List RootField) (f : Function) :
    Unaided Graph.CompileError (List RootField) := do
  if !o.offers f then
    ofWork (modify fun s => s.report (.notListed o.name.nameText f.name))
    return fields
  let query := naming o.service.name f.name
  if fields.any (·.field.name = query) then
    ofWork (modify fun s => s.report (.duplicateQuery query o.name.nameText f.name))
  let field ← Graph.compileFunctionUnaided o.file f
  return Graph.upsert (·.field.name) ⟨{ field with name := query }, ⟨o.name, f, o.hooks f.name⟩⟩ fields

/-- Adds the root fields for functions. -/
noncomputable def addRootFieldsUnaided (naming : QueryNaming) : List (Offer × Function) → List RootField →
    Unaided Graph.CompileError (List RootField)
  | [], fields => return fields
  | (o, f) :: rest, fields => do addRootFieldsUnaided naming rest (← addRootFieldUnaided naming o fields f)

/-- Assembles the schema of the offered services and seals the session. -/
noncomputable def assembleUnaided (naming : QueryNaming) (offers : List Offer) : Unaided AssemblyError Schema := do
  let root ← ExceptT.adapt AssemblyError.compile (addRootFieldsUnaided naming (offeredFunctions offers) [])
  ofWork (Work.ofExcept .name (Graph.checkAll Graph.checkName (root.map (·.field.name))))
  let types ← ExceptT.adapt AssemblyError.ofFields (collectUnaided [] (outputReferences (root.map RootField.field)))
  ofWork do
    let schema : Schema := ⟨root, types⟩
    if let some name := firstRepeated [] (schema.definitions.map Definition.name ++ Graph.describingNames) then
      throw (.repeatedType name)
    Work.ofExcept .name (Graph.checkAll Graph.checkMemberName schema.memberNames)
    let faults := schema.faults
    if !faults.isEmpty then throw (.invalid faults)
    modify Session.close
    return schema

private theorem defineUnaided_eq (t : NamedType) : defineUnaided t = ofWork (define t) := by
  cases t with
  | scalar x => rfl
  | node id =>
    unfold defineUnaided define
    rw [ofWork_bind]
    refine congrArg (ofWork get >>= ·) (funext fun s => ?_)
    cases s.node? id with
    | none => rfl
    | some node =>
      cases node with
      | enumeration name members description => rfl
      | input | output | foreign =>
        show (nodeFieldsUnaided _ >>= _) = ofWork (Graph.nodeFields _ >>= _)
        rw [Graph.nodeFieldsUnaided_eq, ofWork_bind]
        rfl

/-- Collecting comes to the result that it has by the rules. -/
private theorem Collects.settles {s : Session} {met : List (NamedType × Definition)} {pending : List NamedType}
    {r : Except FieldsError (List (NamedType × Definition)) × Session} (h : Collects s met pending r) :
    Settles collectRound (met, pending, s) r := by
  have hrun : ∀ t (s : Session), (defineUnaided t).run s = some (Work.run (define t) s) := by
    intro t s
    rw [defineUnaided_eq]
    rfl
  induction h with
  | done => exact .of_step fun collect => rfl
  | again hmet h ih => exact ih.of_call fun collect hcollect => by rw [collectRound, if_pos hmet, hcollect]
  | failed hmet hd => exact .of_step fun collect => by rw [collectRound, if_neg (by simp [hmet]), hrun, hd]
  | missing hmet hd h ih =>
    exact ih.of_call fun collect hcollect => by rw [collectRound, if_neg (by simp [hmet]), hrun, hd]; exact hcollect
  | found hmet hd h ih =>
    exact ih.of_call fun collect hcollect => by rw [collectRound, if_neg (by simp [hmet]), hrun, hd]; exact hcollect

/-- Where collecting has a result by the rules, collecting without a bound has it. -/
private theorem collectUnaided_of_collects {s : Session} {met : List (NamedType × Definition)}
    {pending : List NamedType}
    {r : Except FieldsError (List (NamedType × Definition)) × Session} (h : Collects s met pending r) :
    (collectUnaided met pending).run s = some r :=
  Graph.unbounded_of_settles h.settles

private theorem collectUnaided_eq (references : List NamedType) :
    collectUnaided [] references = ofWork (do collectTypes (typeBound (← get)) [] references) :=
  funext fun s => collectUnaided_of_collects (collects_of_typeBound s references)

private theorem addRootFieldUnaided_eq (naming : QueryNaming) (o : Offer) (fields : List RootField) (f : Function) :
    addRootFieldUnaided naming o fields f = ofWork (addRootField naming o fields f) := by
  unfold addRootFieldUnaided addRootField
  split
  · rw [ofWork_bind]
    rfl
  · dsimp only
    split
    · simp only [Graph.compileFunctionUnaided_eq, ofWork_bind, ofWork_pure]
    · simp only [Graph.compileFunctionUnaided_eq, ofWork_bind, ofWork_pure]

private theorem addRootFieldsUnaided_eq (naming : QueryNaming) (fs : List (Offer × Function))
    (fields : List RootField) : addRootFieldsUnaided naming fs fields = ofWork (addRootFields naming fs fields) := by
  induction fs generalizing fields with
  | nil => rfl
  | cons f fs ih =>
    unfold addRootFieldsUnaided addRootFields
    simp only [ih, addRootFieldUnaided_eq, ofWork_bind]

private theorem assembleUnaided_eq (naming : QueryNaming) (offers : List Offer) :
    assembleUnaided naming offers = ofWork (assemble naming offers) := by
  unfold assembleUnaided assemble rootFields
  rw [addRootFieldsUnaided_eq, ofWork_bind, ← ofWork_adapt]
  refine congrArg (ofWork _ >>= ·) (funext fun root => ?_)
  rw [ofWork_bind]
  refine congrArg (ofWork _ >>= ·) (funext fun _ => ?_)
  rw [collectUnaided_eq, ← ofWork_adapt, ← ofWork_bind]
  rfl

/-! ### How many nodes are made -/

section

variable {all : List (Path × Declaration)}

private theorem assemble_makes (naming : QueryNaming) {offers : List Offer}
    (h : ∀ x ∈ offeredFunctions offers, ∀ d ∈ declaredBy x.2, (x.1.file, d) ∈ all) :
    Makes all (assemble naming offers) := by
  unfold assemble
  have hroot : Makes all (addRootFields naming (offeredFunctions offers) []) :=
    Moves.addRootFields (fun _ _ _ => .of_nodes_eq rfl rfl)
      (fun x hx => Graph.compileFunction_makes x.1.file (h x hx)) []
  refine Moves.bind (Moves.adapt _ hroot) fun root => ?_
  refine (Moves.ofExcept _ _).bind fun _ => Makes.look fun s _ => ?_
  refine Moves.bind (Moves.adapt _ (Moves.collectTypes define_makes _ _ _)) fun types => ?_
  dsimp only
  split
  · exact Moves.throw_bind _ _
  · refine (Moves.ofExcept _ _).bind fun _ => ?_
    split
    · exact Moves.throw_bind _ _
    · exact Makes.close.bind fun _ => Moves.pure _

end

/-- All declarations that assembling can meet: those of the session, and those inside of the functions of offers. -/
def declaredFor (s : Session) (offers : List Offer) : List (Path × Declaration) :=
  s.declarations ++ (offeredFunctions offers).flatMap fun x => (declaredBy x.2).map (x.1.file, ·)

private theorem within_declaredFor (s : Session) (offers : List Offer) : s.Within (declaredFor s offers) where
  closed := by
    rintro ⟨file, x⟩ he d hd
    rcases List.mem_append.1 he with he | he
    · exact List.mem_append_left _ (s.within_declarations.closed _ he d hd)
    · refine List.mem_append_right _ ?_
      obtain ⟨y, hy, he⟩ := List.mem_flatMap.1 he
      obtain ⟨x', hx, ⟨⟩⟩ := List.mem_map.1 he
      refine List.mem_flatMap.2 ⟨y, hy, List.mem_map.2 ⟨d, ?_, rfl⟩⟩
      rcases List.mem_append.1 hx with hx | hx
      · exact List.mem_append_left _ (y.2.result.inside_trans x hx d hd)
      · exact List.mem_append_right _ (Idl.insideAll_trans y.2.arguments x hx d hd)
  documents e he d hd := List.mem_append_left _ (s.within_declarations.documents e he d hd)
  nodes n hn e he := List.mem_append_left _ (s.within_declarations.nodes n hn e he)

/-! ### Documents of files -/

/-- In a session that has loaded files, types end at the declarations of the files, and nothing is declared inside of
functions. -/
private theorem declarations_of_load (t : FileTree) (paths : List Path) (enumsAsInts : Bool)
    (types : Graph.TypeNaming) : let s := ((Session.fresh enumsAsInts types).load t paths).1
    s.declarations = (s.library.entries.flatMap fun e => e.2.declarations.map (e.1, ·)) ∧
      ∀ e ∈ s.library.entries, ∀ service ∈ e.2.services, ∀ f ∈ service.functions, declaredBy f = [] := by
  intro s
  have hplain : s.library.IsPlain := Source.isPlain_loadPending Source.empty_isPlain
  constructor
  · have hnodes : s.nodes = [] := rfl
    rw [Session.declarations, hnodes, List.flatMap_nil, List.append_nil]
    refine List.flatMap_congr fun e he => ?_
    have hinside : ∀ d ∈ e.2.declarations, (d :: d.inside).map (e.1, ·) = [(e.1, d)] := by
      intro d hd
      rw [Idl.Declaration.inside_eq_nil ((hplain e he).declaration hd)]
      rfl
    rw [List.flatMap_congr hinside, ← List.map_eq_flatMap]
  · intro e he service hservice f hf
    obtain ⟨hresult, harguments⟩ := (hplain e he).function hservice hf
    rw [declaredBy, hresult.inside_eq_nil, Idl.insideAll_eq_nil harguments]
    rfl

/-- Requests for types and functions, readings of fields and assembling end when they are done without any bound, in
every session and with what they give, be it an error.  Assembling makes at most two nodes for each struct and one for
each enumeration, and where files have been loaded and functions come from them, these are the ones that the files
declare. -/
theorem ends_with_few_nodes :
    (∀ direction file t (s : Session), (compileUnaided direction file t).run s =
      some (Work.run (Graph.compileType direction file t) s)) ∧
    (∀ file f (s : Session), (Graph.compileFunctionUnaided file f).run s =
      some (Work.run (Graph.compileFunction file f) s)) ∧
    (∀ node (s : Session), (nodeFieldsUnaided node).run s = some (Work.run (Graph.nodeFields node) s)) ∧
    (∀ queries offers (s : Session), (assembleUnaided queries offers).run s =
        some (Work.run (assemble queries offers) s) ∧
      ∃ added, (Work.run (assemble queries offers) s).2.nodes = s.nodes ++ added ∧
        (added.map Prod.fst).Nodup ∧ (∀ n ∈ added, ∃ e ∈ declaredFor s offers, n.1 ∈ sidedKeys e) ∧
        added.length ≤ 2 * (declaredFor s offers).countP (isStruct ·.2) +
          (declaredFor s offers).countP (isEnumeration ·.2)) ∧
    (∀ t paths enumsAsInts types,
      let s := ((Session.fresh enumsAsInts types).load t paths).1
      s.declarations = (s.library.entries.flatMap fun e => e.2.declarations.map (e.1, ·)) ∧
        ∀ e ∈ s.library.entries, ∀ service ∈ e.2.services, ∀ f ∈ service.functions, declaredBy f = []) := by
  refine ⟨fun direction file t s => ?_, fun file f s => ?_, fun node s => ?_, fun queries offers s => ⟨?_, ?_⟩,
    declarations_of_load⟩
  · rw [Graph.compileUnaided_eq]
    rfl
  · rw [Graph.compileFunctionUnaided_eq]
    rfl
  · rw [Graph.nodeFieldsUnaided_eq]
    rfl
  · rw [assembleUnaided_eq]
    rfl
  · have hfunctions : ∀ x ∈ offeredFunctions offers, ∀ d ∈ declaredBy x.2, (x.1.file, d) ∈ declaredFor s offers :=
      fun x hx d hd => List.mem_append_right _ (List.mem_flatMap.2 ⟨x, hx, List.mem_map.2 ⟨d, hd, rfl⟩⟩)
    obtain ⟨-, added, hadded, hnodup, -, hof⟩ := assemble_makes queries hfunctions s (within_declaredFor s offers)
    exact ⟨added, hadded, hnodup, fun n hn => List.mem_flatMap.1 (hof n hn).1,
      Graph.length_le_of_sidedKeys hnodup fun n hn => (hof n hn).1⟩

end ThriftGateway.Schema
