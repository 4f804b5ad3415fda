import ThriftGateway.Proofs.Graph.Cycles
import ThriftGateway.Proofs.Graph.Naming

/-!
# What a request leaves that fails

A request for a type can fail on the way to a struct or an enumeration, because the session is sealed, because of the
value of a member, or because of the name.  All but the last leave everything as it was.  The name is given out before
it is checked, so a name that no type can have stays in use (`LeavesBehind.spent`); nothing else is left behind
(`Compiler.leaves_of_error`).  Asking for a node leaves what making the node leaves (`run_nodeFor_eq_error`).
-/

namespace ThriftGateway.Graph

open Idl (TypeExpr)
open Source (Path)

/-- No type can have the name, and this is the error that says so. -/
inductive RefusesName (name : String) : CompileError → Prop
  | reserved (hreserved : isReservedType name = true) : RefusesName name (.reservedType name)
  | illegal {e : NameError} (hfree : isReservedType name = false) (hcheck : checkName name = .error e) :
      RefusesName name (.name e)

/-- What a failure leaves of a session: all as it was, or a name is given out that no type can have. -/
inductive LeavesBehind (e : CompileError) (s : Session) : Session → Prop
  | untouched (hother : ∀ name, ¬ RefusesName name e) : LeavesBehind e s s
  | spent (r : NameRequest) (hopen : s.isSealed = false) (hname : RefusesName (s.typeName r).1 e) :
      LeavesBehind e s (s.typeName r).2

variable {s s' : Session} {e : CompileError}

/-! ### Names -/

/-- A name is always given out; if no type can have it, that is found out too late. -/
private theorem run_giveName_eq_error {r : NameRequest} :
    Work.run (giveName r) s = (.error e, s') ↔ RefusesName (s.typeName r).1 e ∧ s' = (s.typeName r).2 := by
  unfold giveName
  rw [Work.run_bind_of_ok (Work.run_modifyGet _ s)]
  dsimp only
  cases hreserved : isReservedType (s.typeName r).1 with
  | true =>
    rw [if_pos rfl]
    constructor
    · intro h
      cases h
      exact ⟨.reserved hreserved, rfl⟩
    · rintro ⟨hname, rfl⟩
      cases hname with
      | reserved => rfl
      | illegal hfree => exact absurd (hreserved.symm.trans hfree) (by decide)
  | false =>
    rw [if_neg Bool.false_ne_true]
    cases hcheck : checkName (s.typeName r).1 with
    | error x =>
      constructor
      · intro h
        cases h
        exact ⟨.illegal hreserved hcheck, rfl⟩
      · rintro ⟨hname, rfl⟩
        cases hname with
        | reserved h => exact absurd (hreserved.symm.trans h) (by decide)
        | illegal hfree h =>
          rw [hcheck] at h
          cases h
          rfl
    | ok u =>
      constructor
      · intro h
        cases h
      · rintro ⟨hname, -⟩
        cases hname with
        | reserved h => exact absurd (hreserved.symm.trans h) (by decide)
        | illegal hfree h =>
          rw [hcheck] at h
          cases h

/-- If the preferred name is legal and the reserved names are in use, no type is refused its name. -/
private theorem not_isLegalName_of_refusesName {r : NameRequest} (hs : s.Distinct)
    (h : RefusesName (s.typeName r).1 e) : ¬ IsLegalName (s.naming r) := by
  intro hlegal
  obtain ⟨name, names, log, hrun, -⟩ := run_giveName_of_isLegalName hs hlegal
  rw [run_giveName_eq_error.2 ⟨h, rfl⟩] at hrun
  cases hrun

/-- A name that is given out is in use from then on. -/
private theorem used_typeName (s : Session) (r : NameRequest) :
    (s.typeName r).2.names.used = (s.typeName r).1 :: s.names.used := by
  unfold Session.typeName
  obtain ⟨log, hlog⟩ := allocate_eq s (s.naming r)
  rw [hlog]
  exact s.names.used_allocate _

private theorem typeName_ne (s : Session) (r : NameRequest) : (s.typeName r).2 ≠ s := by
  intro h
  have hused := used_typeName s r
  rw [h] at hused
  exact List.cons_ne_self _ _ hused.symm

/-- A name is all that giving it out adds, beside a report. -/
private theorem typeName_eq (s : Session) (r : NameRequest) :
    ∃ log, (s.typeName r).2 = { s with names := (s.names.allocate (s.naming r)).2, log } := by
  unfold Session.typeName
  obtain ⟨log, hlog⟩ := allocate_eq s (s.naming r)
  exact ⟨log, by rw [hlog]⟩

/-! ### Nodes -/

/-- In a session that is not sealed, the work leaves nothing but a name when it fails. -/
def Refuses {α : Type} (w : Compile α) : Prop :=
  ∀ s s' e, s.isSealed = false → Work.run w s = (.error e, s') → LeavesBehind e s s'

namespace Refuses

private theorem giveName (r : NameRequest) : Refuses (giveName r) := by
  intro s s' e hopen h
  obtain ⟨hname, rfl⟩ := run_giveName_eq_error.1 h
  exact .spent r hopen hname

private theorem map {α β : Type} {w : Compile α} (hw : Refuses w) (f : α → β) :
    Refuses (w >>= fun a => pure (f a)) := by
  intro s s' e hopen h
  rcases Work.run_bind_eq_error.1 h with h | ⟨a, s₁, -, h⟩
  · exact hw s s' e hopen h
  · cases h

/-- Work that begins with a result whose failure is not about a name. -/
private theorem after {α β η : Type} {wrap : η → CompileError} (hwrap : ∀ x name, ¬ RefusesName name (wrap x))
    (r : Except η α) {k : α → Compile β} (hk : ∀ a, Refuses (k a)) : Refuses (Work.ofExcept wrap r >>= k) := by
  cases r with
  | ok a => exact hk a
  | error x =>
    intro s s' e hopen h
    cases h
    exact .untouched (hwrap x)

private theorem makeStruct (direction : Option Direction) (file : Path) (struct : Idl.Struct) :
    Refuses (makeStruct direction file struct) := by
  unfold Graph.makeStruct
  split
  · exact (giveName _).map _
  · exact (giveName _).map _

/-- The values of the members are looked at before a name is given out. -/
private theorem makeEnumeration (file : Path) (d : Idl.Enumeration) : Refuses (makeEnumeration file d) := by
  refine after (fun x name h => by cases h) _ fun members => ?_
  exact (giveName _).map fun name => Node.enumeration name (collect EnumMember.name members) d.description

end Refuses

/-- Asking for a node fails if there is none and the session is sealed, or if making it fails; the session is left as it
was, or as making the node leaves it. -/
theorem run_nodeFor_eq_error {key : NodeKey} {make : Compile Node} :
    Work.run (nodeFor key make) s = (.error e, s') ↔
      s.find? key = none ∧
        (s.isSealed = true ∧ e = .sealedSession key.name key.file ∧ s' = s ∨
          s.isSealed = false ∧ Work.run make s = (.error e, s')) := by
  cases hfind : s.find? key with
  | some id =>
    rw [run_nodeFor_of_find? hfind]
    simp
  | none =>
    cases hsealed : s.isSealed with
    | true =>
      rw [run_nodeFor_of_sealed hfind hsealed]
      simp [eq_comm]
    | false =>
      cases hmake : Work.run make s with
      | mk r s₁ =>
        cases r with
        | error x =>
          rw [run_nodeFor_of_error hfind hsealed hmake]
          simp
        | ok node =>
          rw [run_nodeFor_of_make hfind hsealed hmake]
          simp

private theorem leaves_nodeFor {key : NodeKey} {make : Compile Node} (hmake : Refuses make)
    (h : Work.run (nodeFor key make) s = (.error e, s')) : LeavesBehind e s s' := by
  obtain ⟨-, ⟨-, rfl, rfl⟩ | ⟨hopen, h⟩⟩ := run_nodeFor_eq_error.1 h
  · exact .untouched fun name h => by cases h
  · exact hmake s s' e hopen h

/-! ### Requests -/

private theorem leaves_compileCore {direction : Option Direction} {core : Core}
    (h : Work.run (compileCore direction core) s = (.error e, s')) : LeavesBehind e s s' := by
  cases core with
  | scalar x => cases h
  | struct file struct =>
    rcases Work.run_bind_eq_error.1 h with h | ⟨id, s₁, -, h⟩
    · exact leaves_nodeFor (Refuses.makeStruct direction file struct) h
    · cases h
  | enumeration file d =>
    unfold compileCore at h
    rw [Work.run_bind_of_ok (Work.run_get s)] at h
    split at h
    · cases h
    · rcases Work.run_bind_eq_error.1 h with h | ⟨id, s₁, -, h⟩
      · exact leaves_nodeFor (Refuses.makeEnumeration file d) h
      · cases h

private theorem leaves_compileExpansion {direction : Option Direction} {x : Except ExpansionError Expansion}
    (h : Work.run (compileExpansion direction x) s = (.error e, s')) : LeavesBehind e s s' := by
  cases x with
  | error x =>
    rw [run_compileExpansion_error] at h
    cases h
    exact .untouched fun name h => by cases h
  | ok x =>
    rw [run_compileExpansion_ok] at h
    cases hcore : Work.run (compileCore direction x.core) s with
    | mk r s₁ =>
      rw [hcore] at h
      cases r with
      | ok n => cases h
      | error x =>
        cases h
        exact leaves_compileCore hcore

/-- A request that fails stops expanding what it was expanding, and leaves the session as it was unless a name was given
out that no type can have; then the error is about that name, and nothing but the name is left behind.  Asking for a
node that fails leaves the session as it was, or as making the node has left it. -/
theorem Compiler.leaves_of_error {c c' : Compiler} {direction : Option Direction} {file : Path} {t : TypeExpr}
    (h : c.compile direction file t = (.error e, c')) :
    c'.expanding = c.expanding ∧
      ((∀ name, ¬ RefusesName name e) ∧ c' = c ∨
        ∃ r, RefusesName (c.session.typeName r).1 e ∧ c.session.isSealed = false ∧
          c'.session = (c.session.typeName r).2 ∧ c' ≠ c ∧ c'.session.nodes = c.session.nodes ∧
          (c.session.Distinct → ¬ IsLegalName (c.session.naming r))) ∧
      ∀ (key : NodeKey) (make : Compile Node) (s s' : Session) (e : CompileError),
        Work.run (nodeFor key make) s = (.error e, s') ↔
          s.find? key = none ∧
            (s.isSealed = true ∧ e = .sealedSession key.name key.file ∧ s' = s ∨
              s.isSealed = false ∧ Work.run make s = (.error e, s')) := by
  rw [compile_eq] at h
  unfold work at h
  obtain ⟨hresult, rfl⟩ := Prod.mk.inj h
  refine ⟨rfl, ?_, fun key make s s' e => run_nodeFor_eq_error⟩
  generalize hw : compileExpansion direction (expandType c.session.library c.expanding file t) = w at hresult ⊢
  have hleft : LeavesBehind e c.session (Work.run w c.session).2 := by
    subst hw
    exact leaves_compileExpansion (Prod.ext hresult rfl)
  generalize (Work.run w c.session).2 = s' at hleft ⊢
  cases hleft with
  | untouched hother => exact .inl ⟨hother, rfl⟩
  | spent r hopen hname =>
    refine .inr ⟨r, hname, hopen, rfl, fun hsame => ?_, ?_, fun hd => not_isLegalName_of_refusesName hd hname⟩
    · exact typeName_ne c.session r (congrArg Compiler.session hsame)
    · obtain ⟨log, hlog⟩ := typeName_eq c.session r
      rw [hlog]

/-- A struct with a name that is kept for describing the graph. -/
def describing : Idl.Struct := { form := .struct, line := 1, name := "__Type", fields := [], description := none }

/-- A request for the struct as a result. -/
def askDescribing (c : Compiler) : Except CompileError GraphType × Compiler :=
  c.compile (some .output) ⟨["a.thrift"]⟩ (.declared (.struct describing))

private theorem askDescribing_eq (c : Compiler) :
    askDescribing c = c.work (compileExpansion (some .output) (.ok (.bare (.struct ⟨["a.thrift"]⟩ describing)))) := by
  rw [askDescribing, Compiler.compile_eq, expandType]

/-- The first request for such a struct fails, as its name is kept.  The second one succeeds: the name is in use now, so
the struct gets another. -/
theorem not_leaves_untouched :
    let c := Compiler.new (.fresh false declaredName)
    (askDescribing c).1 = .error (.reservedType "__Type") ∧
      (askDescribing c).2.session.names.used = "__Type" :: c.session.names.used ∧
      (askDescribing (askDescribing c).2).1 = .ok (.named (.node 0)) ∧
      (askDescribing (askDescribing c).2).2.session.nodeNames = ["__Type1"] := by
  intro c
  rw [askDescribing_eq, askDescribing_eq]
  decide +kernel

/-- That first request leaves nothing behind but the name. -/
theorem leaves_of_error_describing :
    let c := Compiler.new (.fresh false declaredName)
    askDescribing c = (.error (.reservedType "__Type"), (askDescribing c).2) ∧
      (askDescribing c).2.expanding = [] ∧ (askDescribing c).2 ≠ c ∧ (askDescribing c).2.session.nodes = [] := by
  intro c
  have hfails : askDescribing c = (.error (.reservedType "__Type"), (askDescribing c).2) :=
    Prod.ext (by rw [askDescribing_eq]; decide +kernel) rfl
  obtain ⟨hexpanding, hleft, -⟩ := Compiler.leaves_of_error hfails
  refine ⟨hfails, hexpanding, ?_⟩
  obtain ⟨hother, -⟩ | ⟨r, -, -, -, hne, hnodes, -⟩ := hleft
  · exact absurd (.reserved (by decide)) (hother "__Type")
  · exact ⟨hne, hnodes⟩

end ThriftGateway.Graph
