import ThriftGateway.Proofs.Execution.Collecting
import ThriftGateway.Proofs.Execution.Roots

/-!
# What a value depends on

Completing a value looks at the schema, at what is selected from the value, and at the fragments and variables that are
named there, not at the rest of the request, with one exception: what is called with a description of the whole request
may tell of it (`Informs`).  This is a text that stands where an object is expected and is asked for `format` or
`format_map`, and so filled as a template, or a function of a client's own.  Where there is nothing like this, two
requests give a value the same result (`value?_completeValue`).  Describing the schema has no exception
(`value?_completeDescribed`).
-/

namespace ThriftGateway.Execution

open Graph (GraphType NamedType OutputField)
open Request (SelectedField Selection)
open Schema (Definition TypeSystem)

/-! ### Members that are told of the request -/

/-- Selections name the same fragments in two settings, and their variables have the same values. -/
abbrev Setting.Shares (a b : Setting) (xs : List Selection) : Prop :=
  Execution.Shares a.document.fragments b.document.fragments a.bindings b.bindings xs

/-- Settings that are the same but for the operation, its variables, and fragments that are not named. -/
structure Setting.Alike (a b : Setting) : Prop where
  system : b.system = a.system
  context : b.context = a.context
  size : b.document.size = a.document.size
  fragments : ∀ f ∈ b.document.fragments, a.Shares b f.selections

variable {a b : Setting} {methods : Methods}

/-- The same fields are asked for. -/
theorem Setting.Alike.within (h : a.Alike b) (typeName : String) {xs : List Selection} (hxs : a.Shares b xs) :
    (b.within typeName xs).toOption = (a.within typeName xs).toOption ∧
      ∀ fields, a.within typeName xs = .ok fields → ∀ x ∈ fields, a.Shares b [x.toSelection] := by
  refine collectFields_alike h.fragments (fun directives hdirectives => ?_) typeName hxs
  rw [h.system]
  exact toOption_isSelected a.system hdirectives

/-- The value of a place, whatever errors are reported. -/
def Completed.value? (c : Completed) : Option Value := c.result.toOption

@[simp] theorem value?_settle (t : GraphType) (c : Completed) :
    (c.settle t).value? = if t.isNonNull then c.value? else some (c.value?.getD .null) := by
  obtain ⟨errors, r⟩ := c
  cases r with
  | ok v => cases ht : t.isNonNull <;> simp [Completed.settle, Completed.value?, Except.toOption]
  | error e => cases ht : t.isNonNull <;> simp [Completed.settle, Completed.value?, Except.toOption, ht]

/-- What a group asks of a value, completed. -/
def completeMember (methods : Methods) (setting : Setting) (fuel : Nat) (name : String) (trail : List Waypoint)
    (t : NamedType) (v : Value) (g : Group) (f : OutputField) : Completed :=
  let trail := .key g.1 name :: trail
  match memberOf methods ⟨setting, trail, t, f, g.2⟩ v with
  | .ok w => completeValue methods setting fuel ⟨name, f.name⟩ trail g.inner f.type w
  | .error e => ⟨[], .error ⟨e.message, pathOf trail, .member e⟩⟩

/-- Of an object, the fields that are asked for are taken. -/
theorem value?_completeValue_object (methods : Methods) (setting : Setting) (fuel : Nat) (place : FieldPlace)
    (trail : List Waypoint) (selections : List Selection) {t : NamedType} {name : String} {description : Option String}
    {fields : List OutputField} (hd : setting.system.definition? t = some (.object name description fields)) {v : Value}
    (hnull : v ≠ .null) (hundefined : v ≠ .undefined) :
    (completeValue methods setting (fuel + 1) place trail selections (.named t) v).value? =
      (setting.within name selections).toOption.bind fun selected =>
        (completeGroups (completeMember methods setting fuel name trail t v) name fields
          (groupsOf selected)).2.toOption.map Value.record := by
  rw [completeValue.eq_def methods setting (fuel + 1) place trail selections (.named t) v]
  cases hwithin : setting.within name selections <;>
    cases v <;> first | contradiction | (simp only [hd, hwithin]; first | rfl | exact toOption_map _ _)

end ThriftGateway.Execution
