import ThriftGateway.Proofs.Graph.Moving
import ThriftGateway.Proofs.Schema.Carried

/-!
# Gathering types moves a session as its parts do

Gathering the fields of a root is compiling functions, and collecting types is telling what each of them is.  So a
relation of sessions to later ones holds across either if it holds across each of its parts and across reports
(`Moves.addRootFields`, `Moves.collectTypes`).
-/

namespace ThriftGateway.Schema

open Graph (FieldsError IsMove Moves NamedType QueryNaming Session Work)
open Idl (Function)

namespace Moves

variable {R : Session → Session → Prop} [IsMove R]

theorem define {t : NamedType} (h : ∀ (s : Session) id node, s.node? id = some node →
    R s (Work.run (Graph.nodeFields node) s).2) : Moves R (define t) := by
  cases t with
  | scalar x => exact .pure _
  | node id =>
    intro s
    unfold Schema.define
    rw [Work.run_bind_of_ok (Work.run_get s)]
    cases hn : s.node? id with
    | none => exact IsMove.refl s
    | some node =>
      cases node with
      | enumeration => exact IsMove.refl s
      | input | output | foreign =>
        dsimp only
        rw [Work.run_bind_pure]
        exact h s id _ hn

theorem collectTypes (h : ∀ t, Moves R (Schema.define t)) (fuel : Nat) (met : List (NamedType × Definition))
    (pending : List NamedType) : Moves R (Schema.collectTypes fuel met pending) := by
  induction fuel, met, pending using collectTypes.induct with
  | case1 fuel met =>
    rw [collectTypes_nil]
    exact .pure _
  | case2 fuel met t pending h ih =>
    rw [collectTypes_of_met h]
    exact ih
  | case3 met t pending h =>
    rw [collectTypes_zero h]
    exact .pure _
  | case4 met t pending hnew fuel ihNone ihSome =>
    rw [collectTypes_succ hnew]
    refine (h t).bind fun d => ?_
    cases d with
    | none => exact ihNone
    | some d => exact ihSome d

variable (hreport : ∀ (s : Session) n, R s (s.report n))

include hreport

theorem addRootField {naming : QueryNaming} {o : Offer} {fields : List RootField} {f : Function}
    (hf : Moves R (Graph.compileFunction o.file f)) : Moves R (addRootField naming o fields f) := by
  have hadd : ∀ query, Moves R (do
      let field ← Graph.compileFunction o.file f
      return Graph.upsert (·.field.name) ⟨{ field with name := query }, ⟨o.name, f, o.hooks f.name⟩⟩ fields) :=
    fun query => hf.bind fun _ => .pure _
  unfold Schema.addRootField
  split
  · exact .bind (fun s => hreport s _) fun _ => .pure _
  · dsimp only
    split
    · exact .bind (fun s => hreport s _) fun _ => hadd _
    · exact hadd _

theorem addRootFields {naming : QueryNaming} {fs : List (Offer × Function)}
    (hf : ∀ x ∈ fs, Moves R (Graph.compileFunction x.1.file x.2)) (fields : List RootField) :
    Moves R (addRootFields naming fs fields) := by
  induction fs generalizing fields with
  | nil => exact .pure _
  | cons x fs ih =>
    rw [List.forall_mem_cons] at hf
    exact (addRootField hreport hf.1).bind fun fields' => ih hf.2 fields'

end Moves

end ThriftGateway.Schema
