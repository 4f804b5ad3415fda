import Mathlib.Logic.Relation
import ThriftGateway.Failure
import ThriftGateway.Proofs.Schema.Collecting
import ThriftGateway.Proofs.Schema.Moving

/-!
# Which failure assembling raises

The library raises its own failures, and others as general exceptions.  While the fields of a type are resolved, what is
raised gets wrapped in an exception that names the type; assembling unwraps a failure of the library
(`raised_ofFields`).  One wrapping is all there ever is, as resolving the fields of a type resolves those of no other
one.

`FirstFailure` says by rules what the first failure is, when the functions are compiled in order and then the fields of
the types are resolved as the types are collected, depth first.  Assembling raises a failure of the library exactly if
this is the first failure, and whatever it raises, no failure of the library is among the causes and the session is not
sealed (`raises_own_iff_first`).
-/

namespace ThriftGateway

open Graph (CompileError FieldsError Moves NamedType QueryNaming Session Work)
open Idl (Function TypeExpr)
open Relation (ReflTransGen)
open Source (FileTree Library Path)

/-! ### Causes -/

namespace Graph.CompileError

/-- Compiling raises nothing that has a cause. -/
private theorem causes_raised (e : CompileError) : e.raised.causes = [] := by
  unfold CompileError.raised
  split <;> rfl

end Graph.CompileError

namespace Schema

/-- Assembling raises what resolving fields raises, unwrapped. -/
theorem raised_ofFields (e : FieldsError) : (AssemblyError.ofFields e).raised = e.raised.unwrapped := by
  cases e with
  | name e => rfl
  | unresolved typeName cause =>
    cases cause with
    | expansion x =>
      cases x with
      | reference r => cases r <;> rfl
      | unsupported kind file => rfl
    | numeral | name | sealedSession | reservedType => rfl

/-- Once it is unwrapped, what resolving the fields of a type raises has no failure of the library among its causes. -/
private theorem ne_own_of_mem_causes (e : FieldsError) : ∀ x ∈ e.raised.unwrapped.causes, ∀ f, x ≠ .own f := by
  cases e with
  | name e => exact fun x hx => (List.not_mem_nil hx).elim
  | unresolved typeName cause =>
    have hcauses := cause.causes_raised
    intro x hx f
    unfold FieldsError.raised Raised.unwrapped at hx
    split at hx
    · cases hx
    · rename_i hraised
      rw [Raised.causes, hcauses, List.mem_singleton] at hx
      rintro rfl
      -- a failure of the library is wrapped in a type error, and so has been unwrapped
      refine hraised (Graph.unresolvedFields typeName cause) f ?_
      show Raised.wrapping _ _ _ = _
      rw [← hx]
      rfl

/-! ### The first failure -/

/-- Types that have been met, and pending ones, in a session. -/
abbrev Walk := Session × List (NamedType × Definition) × List NamedType

/-- One step of collecting types depth first: a type that has been met is passed over, and so is a node that is nothing;
any other type is met, and the types that it refers to come before what was pending. -/
inductive WalkStep : Walk → Walk → Prop
  | again {s met t pending} (hmet : met.any (·.1 = t) = true) : WalkStep (s, met, t :: pending) (s, met, pending)
  | missing {s s' met t pending} (hmet : met.any (·.1 = t) = false) (hd : Work.run (define t) s = (.ok none, s')) :
      WalkStep (s, met, t :: pending) (s', met, pending)
  | found {s s' met t d pending} (hmet : met.any (·.1 = t) = false) (hd : Work.run (define t) s = (.ok (some d), s')) :
      WalkStep (s, met, t :: pending) (s', met ++ [(t, d)], d.references ++ pending)

/-- Resolving the fields of a type fails: those of a struct seen as an argument, or as a result. -/
inductive FieldsFail (s : Session) : NamedType → CompileError → Session → Prop
  | input {id name file struct cause s'} (hn : s.node? id = some (.input name file struct))
      (h : Work.run (Graph.structInputFields file struct) s = (.error cause, s')) : FieldsFail s (.node id) cause s'
  | output {id name file struct cause s'} (hn : s.node? id = some (.output name file struct))
      (h : Work.run (Graph.structOutputFields file struct) s = (.error cause, s')) : FieldsFail s (.node id) cause s'

/-- The session in which a function is compiled: that its root field replaces another one has been reported. -/
def announced (naming : QueryNaming) (o : Offer) (fields : List RootField) (f : Function) (s : Session) : Session :=
  let query := naming o.service.name f.name
  if fields.any (·.field.name = query) then s.report (.duplicateQuery query o.name.nameText f.name) else s

/-- The first failure of the offered functions, compiled in order, and then of the types, whose fields are resolved as
the types are collected from those that the root fields refer to; and the session that it leaves. -/
inductive FirstFailure (naming : QueryNaming) (offers : List Offer) (s : Session) : CompileError → Session → Prop
  | function {before o f after fields s₁ cause s'} (hsplit : offeredFunctions offers = before ++ (o, f) :: after)
      (hbefore : Work.run (addRootFields naming before []) s = (.ok fields, s₁)) (ho : o.offers f = true)
      (hf : Work.run (Graph.compileFunction o.file f) (announced naming o fields f s₁) = (.error cause, s')) :
      FirstFailure naming offers s cause s'
  | fields {root s₁ s₂ met t pending cause s'} (hroot : Work.run (rootFields naming offers) s = (.ok root, s₁))
      (hnames : Graph.checkAll Graph.checkName (root.map (·.field.name)) = .ok ())
      (hwalk : ReflTransGen WalkStep (s₁, [], outputReferences (root.map RootField.field)) (s₂, met, t :: pending))
      (hnew : met.any (·.1 = t) = false) (ht : FieldsFail s₂ t cause s') : FirstFailure naming offers s cause s'

/-! ### Functions -/

private theorem run_addRootField_eq_error {naming : QueryNaming} {o : Offer} {fields : List RootField} {f : Function}
    {s s' : Session} {e : CompileError} :
    Work.run (addRootField naming o fields f) s = (.error e, s') ↔
      o.offers f = true ∧
        Work.run (Graph.compileFunction o.file f) (announced naming o fields f s) = (.error e, s') := by
  have hadd : ∀ query (s : Session), Work.run (do
      let field ← Graph.compileFunction o.file f
      return Graph.upsert (·.field.name) ⟨{ field with name := query }, ⟨o.name, f, o.hooks f.name⟩⟩ fields) s =
        (.error e, s') ↔
        Work.run (Graph.compileFunction o.file f) s = (.error e, s') := by
    intro query s
    rw [Work.run_bind_eq_error]
    exact or_iff_left (by rintro ⟨_, _, -, ⟨⟩⟩)
  unfold addRootField announced
  split
  · rename_i ho
    refine iff_of_false (fun h => ?_) fun h => by simp [h.1] at ho
    obtain h | ⟨_, _, -, h⟩ := Work.run_bind_eq_error.1 h <;> cases h
  · rename_i ho
    rw [and_iff_right (by simpa using ho)]
    dsimp only
    split
    · exact hadd _ (s.report _)
    · exact hadd _ s

/-- Adding root fields fails if adding one of them does after those before it have been added. -/
private theorem run_addRootFields_eq_error {naming : QueryNaming} {fs : List (Offer × Function)}
    {fields : List RootField} {s s' : Session} {e : CompileError} :
    Work.run (addRootFields naming fs fields) s = (.error e, s') ↔
      ∃ before x after fields₁ s₁, fs = before ++ x :: after ∧
        Work.run (addRootFields naming before fields) s = (.ok fields₁, s₁) ∧
        Work.run (addRootField naming x.1 fields₁ x.2) s₁ = (.error e, s') := by
  induction fs generalizing fields s with
  | nil =>
    refine iff_of_false (by rintro ⟨⟩) ?_
    rintro ⟨before, x, after, -, -, h, -⟩
    exact absurd h (by simp)
  | cons y fs ih =>
    rw [addRootFields, Work.run_bind_eq_error]
    constructor
    · rintro (h | ⟨fields₁, s₁, hy, h⟩)
      · exact ⟨[], y, fs, fields, s, rfl, rfl, h⟩
      · obtain ⟨before, x, after, fields₂, s₂, rfl, hbefore, hx⟩ := ih.1 h
        refine ⟨y :: before, x, after, fields₂, s₂, rfl, ?_, hx⟩
        rw [addRootFields, Work.run_bind_of_ok hy]
        exact hbefore
    · rintro ⟨before, x, after, fields₂, s₂, hsplit, hbefore, hx⟩
      cases before with
      | nil =>
        obtain ⟨rfl, rfl⟩ := List.cons.inj hsplit
        cases hbefore
        exact .inl hx
      | cons z before =>
        obtain ⟨rfl, rfl⟩ := List.cons.inj hsplit
        rw [addRootFields] at hbefore
        obtain ⟨fields₁, s₁, hz, hbefore⟩ := Work.run_bind_eq_ok.1 hbefore
        exact .inr ⟨fields₁, s₁, hz, ih.2 ⟨before, x, after, fields₂, s₂, rfl, hbefore, hx⟩⟩

/-! ### Types -/

/-- Fields that are resolved and have their names checked fail to be resolved where resolving them fails. -/
private theorem run_withinFields_eq_unresolved {α β : Type} {w : Graph.Compile α}
    {check : α → Except Graph.NameError Unit}
    {k : α → β} {name typeName : String} {s s' : Session} {cause : CompileError} :
    Work.run (do
      let a ← Graph.withinFields name w
      Work.ofExcept FieldsError.name (check a)
      return k a) s = (.error (.unresolved typeName cause), s') ↔
        name = typeName ∧ Work.run w s = (.error cause, s') := by
  rw [Work.run_bind_eq_error, Graph.withinFields, Work.run_adapt_eq_error]
  constructor
  · rintro (⟨e, he, ⟨⟩⟩ | ⟨a, s₁, -, h⟩)
    · exact ⟨rfl, he⟩
    · obtain h | ⟨_, _, -, ⟨⟩⟩ := Work.run_bind_eq_error.1 h
      obtain ⟨⟨_, -, ⟨⟩⟩, -⟩ := Work.run_ofExcept_eq_error.1 h
  · rintro ⟨rfl, h⟩
    exact .inl ⟨cause, h, rfl⟩

private theorem run_describe_eq_error {node : Graph.Node} {s s' : Session} {e : FieldsError} :
    Work.run (do return definitionOf node (← Graph.nodeFields node)) s = (.error e, s') ↔
      Work.run (Graph.nodeFields node) s = (.error e, s') := by
  rw [Work.run_bind_eq_error]
  exact or_iff_left (by rintro ⟨_, _, -, ⟨⟩⟩)

/-- Telling what a type is fails because of its fields, if these cannot be resolved. -/
private theorem run_define_eq_unresolved {t : NamedType} {s s' : Session} {cause : CompileError} :
    (∃ typeName, Work.run (define t) s = (.error (.unresolved typeName cause), s')) ↔ FieldsFail s t cause s' := by
  cases t with
  | scalar x => exact iff_of_false (by rintro ⟨_, ⟨⟩⟩) nofun
  | node id =>
    unfold define
    rw [Work.run_bind_of_ok (Work.run_get s)]
    cases hn : s.node? id with
    | none =>
      refine iff_of_false (by rintro ⟨_, ⟨⟩⟩) ?_
      rintro (⟨hn', -⟩ | ⟨hn', -⟩) <;> rw [hn] at hn' <;> cases hn'
    | some node =>
      cases node with
      | enumeration | foreign =>
        refine iff_of_false (by rintro ⟨_, ⟨⟩⟩) ?_
        rintro (⟨hn', -⟩ | ⟨hn', -⟩) <;> rw [hn] at hn' <;> cases hn'
      | input name file struct =>
        constructor
        · rintro ⟨typeName, h⟩
          exact .input hn (run_withinFields_eq_unresolved.1 (run_describe_eq_error.1 h)).2
        · rintro (⟨hn', h⟩ | ⟨hn', h⟩) <;> rw [hn] at hn' <;> cases hn'
          exact ⟨name, run_describe_eq_error.2 (run_withinFields_eq_unresolved.2 ⟨rfl, h⟩)⟩
      | output name file struct =>
        constructor
        · rintro ⟨typeName, h⟩
          exact .output hn (run_withinFields_eq_unresolved.1 (run_describe_eq_error.1 h)).2
        · rintro (⟨hn', h⟩ | ⟨hn', h⟩) <;> rw [hn] at hn' <;> cases hn'
          exact ⟨name, run_describe_eq_error.2 (run_withinFields_eq_unresolved.2 ⟨rfl, h⟩)⟩

private theorem Collects.det {s : Session} {met : List (NamedType × Definition)} {pending : List NamedType}
    {r r' : Except FieldsError (List (NamedType × Definition)) × Session} (h : Collects s met pending r)
    (h' : Collects s met pending r') : r = r' := by
  induction h with
  | done => cases h'; rfl
  | again hmet _ ih =>
    cases h' with
    | again _ h' => exact ih h'
    | failed hnew | missing hnew | found hnew => rw [hmet] at hnew; cases hnew
  | failed hmet hd =>
    cases h' with
    | again hmet' => rw [hmet] at hmet'; cases hmet'
    | failed _ hd' => rw [hd] at hd'; cases hd'; rfl
    | missing _ hd' | found _ hd' => rw [hd] at hd'; cases hd'
  | missing hmet hd _ ih =>
    cases h' with
    | again hmet' => rw [hmet] at hmet'; cases hmet'
    | failed _ hd' | found _ hd' => rw [hd] at hd'; cases hd'
    | missing _ hd' h' => rw [hd] at hd'; cases hd'; exact ih h'
  | found hmet hd _ ih =>
    cases h' with
    | again hmet' => rw [hmet] at hmet'; cases hmet'
    | failed _ hd' | missing _ hd' => rw [hd] at hd'; cases hd'
    | found _ hd' h' => rw [hd] at hd'; cases hd'; exact ih h'

/-- Collecting fails at the type that the walk comes to. -/
private theorem collects_error_iff {s s' : Session} {met : List (NamedType × Definition)} {pending : List NamedType}
    {e : FieldsError} :
    Collects s met pending (.error e, s') ↔ ∃ s₁ met₁ t rest,
      ReflTransGen WalkStep (s, met, pending) (s₁, met₁, t :: rest) ∧ met₁.any (·.1 = t) = false ∧
        Work.run (define t) s₁ = (.error e, s') := by
  constructor
  · intro h
    generalize hr : (Except.error e, s') = r at h
    induction h with
    | done => cases hr
    | again hmet _ ih =>
      obtain ⟨s₁, met₁, t, rest, hwalk, h⟩ := ih hr
      exact ⟨s₁, met₁, t, rest, .head (.again hmet) hwalk, h⟩
    | failed hmet hd =>
      cases hr
      exact ⟨_, _, _, _, .refl, hmet, hd⟩
    | missing hmet hd _ ih =>
      obtain ⟨s₁, met₁, t, rest, hwalk, h⟩ := ih hr
      exact ⟨s₁, met₁, t, rest, .head (.missing hmet hd) hwalk, h⟩
    | found hmet hd _ ih =>
      obtain ⟨s₁, met₁, t, rest, hwalk, h⟩ := ih hr
      exact ⟨s₁, met₁, t, rest, .head (.found hmet hd) hwalk, h⟩
  · rintro ⟨s₁, met₁, t, rest, hwalk, hnew, hd⟩
    generalize hx : (s, met, pending) = x at hwalk
    induction hwalk using ReflTransGen.head_induction_on generalizing s met pending with
    | refl =>
      cases hx
      exact .failed hnew hd
    | head hstep _ ih =>
      cases hx
      cases hstep with
      | again hmet => exact .again hmet (ih rfl)
      | missing hmet hd' => exact .missing hmet hd' (ih rfl)
      | found hmet hd' => exact .found hmet hd' (ih rfl)

private theorem run_collectTypes_eq_error {s s' : Session} {references : List NamedType} {e : FieldsError} :
    Work.run (collectTypes (typeBound s) [] references) s = (.error e, s') ↔ ∃ s₁ met t rest,
      ReflTransGen WalkStep (s, [], references) (s₁, met, t :: rest) ∧ met.any (·.1 = t) = false ∧
        Work.run (define t) s₁ = (.error e, s') := by
  rw [← collects_error_iff]
  have h := collects_of_typeBound s references
  exact ⟨fun hr => hr ▸ h, h.det⟩

/-! ### Assembling -/

/-- What is wrong with a schema whose types are known. -/
inductive AssemblyError.IsFault : AssemblyError → Prop
  | name {e} : IsFault (.name e)
  | repeatedType {n} : IsFault (.repeatedType n)
  | invalid {faults} : IsFault (.invalid faults)

private theorem AssemblyError.IsFault.causes_raised {e : AssemblyError} (h : e.IsFault) :
    e.raised.causes = [] ∧ ∀ f, e.raised ≠ .own f := by
  cases h <;> exact ⟨rfl, nofun⟩

variable {naming : QueryNaming} {offers : List Offer} {s s' : Session} {e : AssemblyError}

/-- Assembling fails while functions are compiled, while the fields of types are resolved, or when the schema is
checked. -/
private theorem cases_of_run_assemble (h : Work.run (assemble naming offers) s = (.error e, s')) :
    (∃ cause, Work.run (rootFields naming offers) s = (.error cause, s') ∧ e = .compile cause) ∨
    ∃ root s₁, Work.run (rootFields naming offers) s = (.ok root, s₁) ∧
      (Graph.checkAll Graph.checkName (root.map (·.field.name)) = .ok () ∧ (∃ cause, e = .ofFields cause ∧
        Work.run (collectTypes (typeBound s₁) [] (outputReferences (root.map RootField.field))) s₁ =
          (.error cause, s')) ∨
      e.IsFault ∧ (s' = s₁ ∨ s' =
        (Work.run (collectTypes (typeBound s₁) [] (outputReferences (root.map RootField.field))) s₁).2)) := by
  obtain h₁ | ⟨root, s₁, hroot, h₁⟩ := Work.run_bind_eq_error.1 h
  · obtain ⟨cause, hcause, rfl⟩ := Work.run_adapt_eq_error.1 h₁
    exact .inl ⟨cause, hcause, rfl⟩
  · refine .inr ⟨root, s₁, Work.run_adapt_eq_ok.1 hroot, ?_⟩
    obtain h₂ | ⟨_, s₂, hnames, h₂⟩ := Work.run_bind_eq_error.1 h₁
    · obtain ⟨⟨_, -, rfl⟩, rfl⟩ := Work.run_ofExcept_eq_error.1 h₂
      exact .inr ⟨.name, .inl rfl⟩
    · obtain ⟨hchecked, hs⟩ := Work.run_ofExcept_eq_ok.1 hnames
      subst hs
      dsimp only at h₂
      rw [Work.run_bind_of_ok (Work.run_get s₂)] at h₂
      obtain h₃ | ⟨types, s₃, htypes, h₃⟩ := Work.run_bind_eq_error.1 h₂
      · obtain ⟨cause, hcause, rfl⟩ := Work.run_adapt_eq_error.1 h₃
        exact .inl ⟨hchecked, cause, rfl, hcause⟩
      · -- the types are known, and the checks leave the session as it is
        rw [Work.run_adapt_eq_ok] at htypes
        rw [htypes]
        refine .inr ?_
        split at h₃
        · cases h₃
          exact ⟨.repeatedType, .inr rfl⟩
        · obtain h₄ | ⟨_, s₄, hmembers, h₄⟩ := Work.run_bind_eq_error.1 h₃
          · obtain ⟨⟨_, -, rfl⟩, rfl⟩ := Work.run_ofExcept_eq_error.1 h₄
            exact ⟨.name, .inr rfl⟩
          · obtain ⟨-, hs⟩ := Work.run_ofExcept_eq_ok.1 hmembers
            subst hs
            split at h₄
            · cases h₄
              exact ⟨.invalid, .inr rfl⟩
            · cases h₄

/-- Where assembling has its first failure, it fails there. -/
private theorem run_assemble_of_firstFailure {cause : CompileError} (h : FirstFailure naming offers s cause s') :
    Work.run (assemble naming offers) s = (.error (.compile cause), s') ∨
      ∃ typeName, Work.run (assemble naming offers) s = (.error (.ofFields (.unresolved typeName cause)), s') := by
  cases h with
  | function hsplit hbefore ho hf =>
    refine .inl (Work.run_bind_eq_error.2 (.inl (Work.run_adapt_eq_error.2 ⟨cause, ?_, rfl⟩)))
    exact run_addRootFields_eq_error.2 ⟨_, _, _, _, _, hsplit, hbefore, run_addRootField_eq_error.2 ⟨ho, hf⟩⟩
  | @fields root s₁ s₂ met t pending _ _ hroot hnames hwalk hnew ht =>
    obtain ⟨typeName, hd⟩ := run_define_eq_unresolved.2 ht
    have hcollect := run_collectTypes_eq_error.2 ⟨s₂, met, t, pending, hwalk, hnew, hd⟩
    refine .inr ⟨typeName, Work.run_bind_eq_error.2 (.inr ⟨root, s₁, Work.run_adapt_eq_ok.2 hroot, ?_⟩)⟩
    rw [hnames, Work.run_bind_of_ok (Work.run_ofExcept_ok s₁)]
    dsimp only
    rw [Work.run_bind_of_ok (Work.run_get s₁)]
    exact Work.run_bind_eq_error.2 (.inl (Work.run_adapt_eq_error.2 ⟨_, hcollect, rfl⟩))

/-- Whether a session makes nodes has stayed as it was. -/
def SameSealing (s s' : Session) : Prop := s'.isSealed = s.isSealed

instance : Graph.IsMove SameSealing where
  refl _ := rfl
  trans h h' := Eq.trans h' h

private theorem compileType_sameSealing (direction : Option Graph.Direction) (file : Path) (t : TypeExpr) :
    Moves SameSealing (Graph.compileType direction file t) :=
  .compileType_of_blind (fun _ _ _ _ => rfl) direction file t

private theorem rootFields_sameSealing (naming : QueryNaming) (offers : List Offer) :
    Moves SameSealing (rootFields naming offers) :=
  Moves.addRootFields (fun _ _ => rfl) (fun _ _ => .compileFunction (compileType_sameSealing _ _ _)
    fun _ _ => compileType_sameSealing _ _ _) []

private theorem collectTypes_sameSealing (fuel : Nat) (met : List (NamedType × Definition)) (pending : List NamedType) :
    Moves SameSealing (collectTypes fuel met pending) :=
  Moves.collectTypes (fun _ => Moves.define fun s _ _ _ => Moves.nodeFields
    (fun _ _ _ _ _ _ => compileType_sameSealing _ _ _) s) fuel met pending

/-- Assembling that fails does not seal the session. -/
private theorem isSealed_of_run_assemble (h : Work.run (assemble naming offers) s = (.error e, s')) :
    s'.isSealed = s.isSealed := by
  have hroot := rootFields_sameSealing naming offers s
  obtain ⟨cause, hcause, -⟩ | ⟨root, s₁, hok, h⟩ := cases_of_run_assemble h
  · rwa [hcause] at hroot
  · rw [hok] at hroot
    have hcollect := collectTypes_sameSealing (typeBound s₁) [] (outputReferences (root.map RootField.field)) s₁
    obtain ⟨-, cause, -, hcause⟩ | ⟨-, rfl | rfl⟩ := h
    · rw [hcause] at hcollect
      exact hcollect.trans hroot
    · exact hroot
    · exact hcollect.trans hroot

/-- A failure of the library that is raised while types are collected has been raised while the fields of one were
resolved. -/
private theorem exists_cause_of_raised {x : FieldsError} {f : Failure} (h : x.raised.unwrapped = .own f) :
    ∃ typeName cause, x = .unresolved typeName cause ∧ cause.raised = .own f := by
  cases x with
  | name e => cases h
  | unresolved typeName cause =>
    refine ⟨typeName, cause, rfl, ?_⟩
    unfold FieldsError.raised Raised.unwrapped at h
    split at h
    · rename_i hraised
      cases h
      exact (Raised.wrapping.inj hraised).2.2
    · cases h

/-- Assembling raises a failure of the library exactly if that is the first failure, when the functions are compiled in
order and then the fields of the types are resolved in the order of collecting.  When assembling fails, the session is
sealed only if it was before, and no failure of the library is among the causes of what is raised. -/
theorem raises_own_iff_first (naming : QueryNaming) (offers : List Offer) (s : Session) :
    (∀ f s', (∃ e, Work.run (assemble naming offers) s = (.error e, s') ∧ e.raised = .own f) ↔
      ∃ cause, FirstFailure naming offers s cause s' ∧ cause.raised = .own f) ∧
    ∀ e s', Work.run (assemble naming offers) s = (.error e, s') →
      s'.isSealed = s.isSealed ∧ ∀ x ∈ e.raised.causes, ∀ f, x ≠ .own f := by
  refine ⟨fun f s' => ⟨?_, ?_⟩, fun e s' h => ⟨isSealed_of_run_assemble h, ?_⟩⟩
  · rintro ⟨e, h, he⟩
    obtain ⟨cause, hcause, rfl⟩ | ⟨root, s₁, hroot, ⟨hnames, x, rfl, hx⟩ | ⟨hfault, -⟩⟩ := cases_of_run_assemble h
    · obtain ⟨before, ⟨o, g⟩, after, fields, s₁, hsplit, hbefore, hadd⟩ := run_addRootFields_eq_error.1 hcause
      obtain ⟨ho, hg⟩ := run_addRootField_eq_error.1 hadd
      exact ⟨cause, .function hsplit hbefore ho hg, he⟩
    · rw [raised_ofFields] at he
      obtain ⟨typeName, cause, rfl, hown⟩ := exists_cause_of_raised he
      obtain ⟨s₂, met, t, pending, hwalk, hnew, hd⟩ := run_collectTypes_eq_error.1 hx
      exact ⟨cause, .fields hroot hnames hwalk hnew (run_define_eq_unresolved.1 ⟨typeName, hd⟩), hown⟩
    · exact absurd he (hfault.causes_raised.2 f)
  · rintro ⟨cause, hfirst, hown⟩
    obtain h | ⟨typeName, h⟩ := run_assemble_of_firstFailure hfirst
    · exact ⟨_, h, hown⟩
    · refine ⟨_, h, ?_⟩
      rw [raised_ofFields, FieldsError.raised, hown]
      rfl
  · obtain ⟨cause, -, rfl⟩ | ⟨root, s₁, -, ⟨-, x, rfl, -⟩ | ⟨hfault, -⟩⟩ := cases_of_run_assemble h
    · intro x hx
      rw [AssemblyError.raised, cause.causes_raised] at hx
      exact (List.not_mem_nil hx).elim
    · rw [raised_ofFields]
      exact ne_own_of_mem_causes x
    · intro x hx
      rw [hfault.causes_raised.1] at hx
      exact (List.not_mem_nil hx).elim

/-- A function that gives a struct, which holds a list of a typedef that leads back to itself. -/
def knotted : FileTree where
  working := ⟨["idl"]⟩
  files := [(⟨["idl", "a.thrift"]⟩, Text.encode "service X { S f() } struct S { list<T> a } typedef T T")]

/-- Whether a document declares these. -/
private def declaresKnotted (d : Idl.Document) : Bool :=
  match d.services, d.declarationsNamed "S", d.declarationsNamed "T" with
  | [⟨_, "X", _, [⟨_, "f", .named _ "S", [], _, _, _⟩], _⟩],
    [.struct ⟨_, _, "S", [⟨_, _, _, _, .list _ (.named _ "T"), _, _⟩], _⟩], [.typedef ⟨_, "T", .named _ "T", _⟩] => true
  | _, _, _ => false

/-- What the file declares. -/
private theorem exists_knotted : ∃ (d : Idl.Document) (service : Idl.Service) (f : Function) (struct : Idl.Struct)
    (field : Idl.Field) (typedef : Idl.Typedef) (i j k l : Nat), knotted.document ⟨["idl", "a.thrift"]⟩ = .ok d ∧
      d.services = [service] ∧ service.functions = [f] ∧ f.result = .named i "S" ∧ f.arguments = [] ∧
      d.declarationsNamed "S" = [.struct struct] ∧ struct.name = "S" ∧ struct.fields = [field] ∧
      field.type = .list j (.named k "T") ∧ d.declarationsNamed "T" = [.typedef typedef] ∧ typedef.name = "T" ∧
      typedef.target = .named l "T" := by
  obtain ⟨d, hd, hview⟩ := Source.exists_document_of_any (t := knotted) (p := ⟨["idl", "a.thrift"]⟩) declaresKnotted
    (by decide +kernel)
  unfold declaresKnotted at hview
  split at hview
  · rename_i hservices hS hT
    exact ⟨d, _, _, _, _, _, _, _, _, _, hd, hservices, rfl, rfl, rfl, hS, rfl, rfl, rfl, hT, rfl, rfl⟩
  · cases hview

section Knotted

variable {l : Library} {a : Path} {f : Function} {struct : Idl.Struct} {field : Idl.Field} {typedef : Idl.Typedef}
  {i j k : Nat}

/-- The function is compiled, and the struct gets a node. -/
private theorem run_compileFunction_knotted (hS : l.resolve "S" a = .ok ⟨a, .struct struct⟩)
    (hstruct : struct.name = "S") (hresult : f.result = .named i "S") (harguments : f.arguments = []) :
    let s : Session := { Session.fresh false Graph.declaredName with library := l }
    Work.run (Graph.compileFunction a f) s = (.ok ⟨f.name, .named (.node 0), [], f.description⟩,
      { s with
        names := ⟨"S" :: Graph.reservedNames, []⟩
        nodes := [(⟨a.written, "S", some .output⟩, .output "S" a struct)] }) := by
  intro s
  let named : Session := { s with names := ⟨"S" :: Graph.reservedNames, []⟩ }
  have hname : Work.run (Graph.giveName ⟨a.written, struct.name, false, false⟩) s = (.ok "S", named) := by
    have hfree : Graph.NameTable.fresh.isUsed "S" = false := by decide +kernel
    have hgeneral : Graph.isReservedType "S" = false := by decide +kernel
    have hlegal : Graph.checkName "S" = .ok () := by decide +kernel
    rw [hstruct]
    exact Graph.run_giveName_of_free hfree hgeneral hlegal
  have hmake : Work.run (Graph.makeStruct (some .output) a struct) s = (.ok (.output "S" a struct), named) :=
    Work.run_bind_of_ok hname
  have hexpand : Graph.expandType s.library [] a (.named i "S") = .ok (.bare (.struct a struct)) :=
    (Graph.expandType_of_resolve hS).trans Graph.expandType_struct
  have htype := Graph.run_compileType_of_nodeFor hexpand (Graph.run_nodeFor_of_make rfl rfl hmake)
  unfold Graph.compileFunction
  rw [hresult, Work.run_bind_of_ok htype, harguments, hstruct]
  rfl

/-- A list of a typedef that leads back to itself stands for nothing. -/
private theorem expandType_knotted (hT : l.resolve "T" a = .ok ⟨a, .typedef typedef⟩) (htypedef : typedef.name = "T")
    (htarget : typedef.target = .named k "T") :
    Graph.expandType l [] a (.list i (.named j "T")) = .error (.reference (.unresolved "T" a .typedefCycle)) := by
  have hbusy : [(a, typedef.name)].contains (a, typedef.name) = true := by simp
  rw [Graph.expandType_list, Graph.expandType_of_resolve hT, Graph.expandType_typedef rfl, htarget,
    Graph.expandType_of_resolve hT, Graph.expandType_cycle hbusy, htypedef]
  rfl

/-- The fields of a struct are not told if the type of the first one stands for nothing. -/
private theorem run_structOutputFields_knotted {s : Session} {e : Graph.ExpansionError}
    (hfields : struct.fields = [field]) (h : Graph.expandType s.library [] a (.field field) = .error e) :
    Work.run (Graph.structOutputFields a struct) s = (.error (.expansion e), s) := by
  have hfirst : Work.run (Graph.compileOutputField a field) s = (.error (.expansion e), s) :=
    Work.run_bind_eq_error.2 (.inl (Graph.run_compileType_of_error h))
  have hall : Work.run (Graph.compileOutputFields a [field]) s = (.error (.expansion e), s) :=
    Work.run_bind_eq_error.2 (.inl hfirst)
  unfold Graph.structOutputFields
  rw [hfields]
  exact Work.run_bind_eq_error.2 (.inl hall)

/-- The only function of a service gives the only root field. -/
private theorem run_rootFields_knotted {service : Idl.Service} {s s' : Session} {root : Graph.OutputField}
    (hfunctions : service.functions = [f]) (hroot : Work.run (Graph.compileFunction a f) s = (.ok root, s')) :
    Work.run (rootFields (fun _ _ => "f") [⟨.text "x", a, service, false, []⟩]) s =
      (.ok [⟨{ root with name := "f" }, ⟨.text "x", f, {}⟩⟩], s') := by
  have hadd : Work.run (addRootField (fun _ _ => "f") ⟨.text "x", a, service, false, []⟩ [] f) s =
      (.ok [⟨{ root with name := "f" }, ⟨.text "x", f, {}⟩⟩], s') := by
    show Work.run (Graph.compileFunction a f >>= _) s = _
    rw [Work.run_bind_of_ok hroot]
    rfl
  unfold rootFields offeredFunctions
  rw [List.flatMap_singleton, hfunctions, List.map_singleton, addRootFields, Work.run_bind_of_ok hadd]
  rfl

end Knotted

/-- The function is compiled, but the field of the struct is not resolved: the failure of the typedef is raised, and the
session stays open. -/
theorem raises_own_iff_first_knotted :
    ∃ (d : Idl.Document) (service : Idl.Service) (s' : Session) (e : AssemblyError),
      knotted.document ⟨["idl", "a.thrift"]⟩ = .ok d ∧ d.services = [service] ∧
      Work.run (assemble (fun _ _ => "f") [⟨.text "x", ⟨["idl", "a.thrift"]⟩, service, false, []⟩])
        { Session.fresh false Graph.declaredName with library := ⟨[(⟨["idl", "a.thrift"]⟩, d)]⟩ } = (.error e, s') ∧
      e.raised = .own (.unresolvedIdentifier "T" "/idl/a.thrift" "typedef cycle") ∧ s'.isSealed = false := by
  obtain ⟨d, service, f, struct, field, typedef, i, j, k, l, hd, hservices, hfunctions, hresult, harguments, hS,
    hstruct, hfields, hfield, hT, htypedef, htarget⟩ := exists_knotted
  let a : Path := ⟨["idl", "a.thrift"]⟩
  let s : Session := { Session.fresh false Graph.declaredName with library := ⟨[(a, d)]⟩ }
  have hdocument : s.library.document? a = some d := rfl
  have hcompile := run_compileFunction_knotted (Library.resolve_of_plain (by decide) hdocument hS) hstruct hresult
    harguments
  set s₁ : Session := { s with
    names := ⟨"S" :: Graph.reservedNames, []⟩, nodes := [(⟨a.written, "S", some .output⟩, .output "S" a struct)] }
  have hcycle : Work.run (Graph.structOutputFields a struct) s₁ =
      (.error (.expansion (.reference (.unresolved "T" a .typedefCycle))), s₁) := by
    refine run_structOutputFields_knotted hfields ?_
    rw [Graph.expandType_field, hfield,
      expandType_knotted (Library.resolve_of_plain (by decide) hdocument hT) htypedef htarget]
    rfl
  have hnames : Graph.checkAll Graph.checkName ["f"] = .ok () := by decide +kernel
  have hfirst : FirstFailure (fun _ _ => "f") [⟨.text "x", a, service, false, []⟩] s
      (.expansion (.reference (.unresolved "T" a .typedefCycle))) s₁ :=
    .fields (run_rootFields_knotted hfunctions hcompile) hnames .refl rfl (.output rfl hcycle)
  obtain ⟨howns, hrest⟩ := raises_own_iff_first (fun _ _ => "f") [⟨.text "x", a, service, false, []⟩] s
  obtain ⟨e, he, hraised⟩ := (howns (.unresolvedIdentifier "T" "/idl/a.thrift" "typedef cycle") s₁).2
    ⟨_, hfirst, by decide +kernel⟩
  exact ⟨d, service, s₁, e, hd, hservices, he, hraised, (hrest e s₁ he).1⟩

end Schema

end ThriftGateway
