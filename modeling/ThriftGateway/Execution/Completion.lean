import ThriftGateway.Execution.Member
import ThriftGateway.Execution.Selecting
import ThriftGateway.Service.Schedule

/-!
# Completing values

What a field's value becomes in the answer: leaf types write it, lists are completed item by item, and of objects
the selected fields are taken.  An error at a place that may be `null` makes it `null` and is reported; at a place
that forbids `null` it goes on to the place around it.
-/

namespace ThriftGateway.Execution

open Graph (CoercionError GraphType OutputField)
open Request (SelectedField Selection)
open Schema (Definition)

/-- What is behind an error of an execution. -/
inductive Origin where
  | call (error : Service.CallError)
  | coercion (error : CoercionError)
  | member (error : MemberError)
  /-- A place that forbids `null` has no value. -/
  | nullForbidden
  /-- A list is expected. -/
  | notList
  /-- The arguments of a field cannot be read. -/
  | arguments
  /-- It cannot be decided what is selected. -/
  | condition
  /-- The default of an argument that is described cannot be written. -/
  | default (error : Schema.PrintError)
  deriving Repr

/-- An error of an execution, with its path in the answer. -/
structure FieldError where
  message : String
  path : List PathStep
  origin : Origin
  deriving Repr

/-- The step of an answer's path that a step from the root is. -/
def Waypoint.step : Waypoint → PathStep
  | .key name _ => .key name
  | .index n => .index n

/-- The path in the answer of a way from the root, the last step of which comes first. -/
def pathOf (trail : List Waypoint) : List PathStep := trail.reverse.map Waypoint.step

/-- What completing gives: the errors reported on the way, in order, and the value or the error that goes on. -/
structure Completed where
  errors : List FieldError
  result : Except FieldError Value

/-- A value without errors. -/
def Completed.ok (v : Value) : Completed := ⟨[], .ok v⟩

/-- A place of a type: an error ends here unless the place forbids `null`. -/
def Completed.settle (t : GraphType) (c : Completed) : Completed :=
  match c.result with
  | .ok _ => c
  | .error e => if t.isNonNull then c else ⟨c.errors ++ [e], .ok .null⟩

/-- The fields to ask objects of a type for. -/
def Setting.within (setting : Setting) (typeName : String) (selections : List Selection) :
    Except String (List SelectedField) :=
  collectFields (isSelected setting.system setting.bindings) typeName setting.document.fragments selections

/-- Fields of one key, with the key. -/
abbrev Group := String × List SelectedField

/-- What is selected from the value of a group's field. -/
def Group.inner (g : Group) : List Selection := g.2.flatMap SelectedField.selections

/-- Adds a field to the group of its key. -/
def addToGroups (x : SelectedField) : List Group → List Group
  | [] => [(x.key, [x])]
  | (key, xs) :: groups => if key = x.key then (key, xs ++ [x]) :: groups else (key, xs) :: addToGroups x groups

/-- Fields by their keys, in the order in which the keys come first. -/
def groupsOf (fields : List SelectedField) : List Group := fields.foldl (fun gs x => addToGroups x gs) []

/-- The field that is being completed. -/
structure FieldPlace where
  parentName : String
  name : String

/-- The name of a field with its type. -/
def FieldPlace.text (f : FieldPlace) : String := f.parentName ++ "." ++ f.name

/-- What a leaf type writes. -/
def writeLeaf (d : Option Definition) (v : Value) : Except CoercionError Value :=
  match d with
  | some (.scalar s) => s.write v
  | some (.enumeration name _ members) => Graph.writeMember name members v
  | _ => .ok v

/-- Completes the items of a list, each where it stands. -/
def completeItems {α : Type} (t : GraphType) (complete : Nat → α → Completed) : (n : Nat) → List α →
    List FieldError × Except FieldError (List Value)
  | _, [] => ([], .ok [])
  | n, v :: vs =>
    let c := (complete n v).settle t
    match c.result with
    | .error e => (c.errors, .error e)
    | .ok w =>
      let (errors, rest) := completeItems t complete (n + 1) vs
      (c.errors ++ errors, rest.map (w :: ·))

/-- Completes the fields of an object, one after another.  `complete` is given a group and the field. -/
def completeGroups (complete : Group → OutputField → Completed) (typeName : String) (fields : List OutputField) :
    List Group → List FieldError × Except FieldError (List (String × Value))
  | [] => ([], .ok [])
  | (key, selected) :: groups =>
    let name := (selected.head?.map SelectedField.name).getD key
    let rest (v : Option Value) (before : List FieldError) :=
      let (errors, r) := completeGroups complete typeName fields groups
      (before ++ errors, r.map fun vs => match v with
        | some v => (key, v) :: vs
        | none => vs)
    if name = "__typename" then rest (some (.text typeName)) []
    else
      match fields.find? (·.name = name) with
      | none => rest none []
      | some f =>
        let c := (complete (key, selected) f).settle f.type
        match c.result with
        | .error e => (c.errors, .error e)
        | .ok v => rest (some v) c.errors

/-- Completes a value of a type at the end of a trail, from which `selections` are selected if it is an object; `fuel`
bounds how deep selections are nested. -/
def completeValue (methods : Methods) (setting : Setting) (fuel : Nat) (place : FieldPlace) (trail : List Waypoint)
    (selections : List Selection) (t : GraphType) (v : Value) : Completed :=
  let error (message : String) (origin : Origin) : FieldError := ⟨message, pathOf trail, origin⟩
  match t with
  | .nonNull inner =>
    let c := completeValue methods setting fuel place trail selections inner v
    match c.result with
    | .ok .null =>
      ⟨c.errors, .error (error ("Cannot return null for non-nullable field " ++ place.text ++ ".") .nullForbidden)⟩
    | _ => c
  | .list element =>
    match v with
    | .null => .ok .null
    | .undefined => .ok .null
    | v =>
      match Schema.listItems? v with
      | none =>
        ⟨[], .error (error ("Expected Iterable, but did not find one for field '" ++ place.text ++ "'.") .notList)⟩
      | some items =>
        let (errors, r) := completeItems element
          (fun n item => completeValue methods setting fuel place (.index n :: trail) selections element item) 0 items
        ⟨errors, r.map .list⟩
  | .named t =>
    match v with
    | .null => .ok .null
    | .undefined => .ok .null
    | v =>
      match setting.system.definition? t, fuel with
      | some (.object name _ fields), fuel + 1 =>
        match setting.within name selections with
        | .error message => ⟨[], .error (error message .condition)⟩
        | .ok selected =>
          let (errors, r) := completeGroups
            (fun group f =>
              let trail := .key group.1 name :: trail
              match memberOf methods ⟨setting, trail, t, f, group.2⟩ v with
              | .ok value => completeValue methods setting fuel ⟨name, f.name⟩ trail group.inner f.type value
              | .error e => ⟨[], .error ⟨e.message, pathOf trail, .member e⟩⟩)
            name fields (groupsOf selected)
          ⟨errors, r.map Value.record⟩
      | some (.object ..), 0 => .ok .null
      | d, _ =>
        match writeLeaf d v with
        | .ok w => .ok w
        | .error e => ⟨[], .error (error e.message (.coercion e))⟩
  termination_by (fuel, t)

end ThriftGateway.Execution
