import ThriftGateway.Proofs.Graph.Outline

/-!
# Types that match

Types, fields and answers of two sessions match if they are the same up to the numbers of nodes, where nodes are
matched by their keys (`Session.Twins`).  What is told of the same expressions, fields and functions in two sessions
with one library matches (`Session.TellsType.matches`, `Session.TellsFields.matches`), with the same defaults, since no
value fits a node.
-/

namespace ThriftGateway.Graph

open Idl (Field Function TypeExpr)
open Source (Library Path)

variable {α : Type}

/-! ### What matches -/

/-- The same scalars, or the nodes with the same key in each of the sessions. -/
inductive Session.Twins (s s' : Session) : NamedType → NamedType → Prop
  | scalar (x : Scalar) : Twins s s' (.scalar x) (.scalar x)
  | node {key : NodeKey} {id id' : Nat} : s.find? key = some id → s'.find? key = some id' →
      Twins s s' (.node id) (.node id')

section Matching

variable (R : NamedType → NamedType → Prop)

/-- Types with the same lists and marks around what is inside. -/
inductive TypesMatch : GraphType → GraphType → Prop
  | named {t t' : NamedType} : R t t' → TypesMatch (.named t) (.named t')
  | list {g g' : GraphType} : TypesMatch g g' → TypesMatch (.list g) (.list g')
  | nonNull {g g' : GraphType} : TypesMatch g g' → TypesMatch (.nonNull g) (.nonNull g')

/-- Arguments, or fields of input objects, whose types match and that are the same else. -/
structure InputsMatch (x x' : InputField) : Prop where
  name : x'.name = x.name
  type : TypesMatch R x.type x'.type
  default : x'.default = x.default
  description : x'.description = x.description

/-- Fields of objects whose types and arguments match and that are the same else. -/
structure OutputsMatch (x x' : OutputField) : Prop where
  name : x'.name = x.name
  type : TypesMatch R x.type x'.type
  arguments : List.Forall₂ (InputsMatch R) x.arguments x'.arguments
  description : x'.description = x.description

/-- Fields of nodes that match, in their order. -/
inductive FieldsMatch : Fields → Fields → Prop
  | input {xs xs' : List InputField} : List.Forall₂ (InputsMatch R) xs xs' → FieldsMatch (.input xs) (.input xs')
  | output {xs xs' : List OutputField} : List.Forall₂ (OutputsMatch R) xs xs' → FieldsMatch (.output xs) (.output xs')
  | none : FieldsMatch .none .none

/-- Answers that match. -/
inductive RepliesMatch : Reply → Reply → Prop
  | type {g g' : GraphType} : TypesMatch R g g' → RepliesMatch (.type g) (.type g')
  | function {x x' : OutputField} : OutputsMatch R x x' → RepliesMatch (.function x) (.function x')
  | fields {xs xs' : Fields} : FieldsMatch R xs xs' → RepliesMatch (.fields xs) (.fields xs')

end Matching

/-- Nodes that differ in their names only: they are of the same kind and for the same struct, or have the same members
and description. -/
inductive Node.Resembles : Node → Node → Prop
  | input {name name' : String} {file : Path} {struct : Idl.Struct} :
      Resembles (.input name file struct) (.input name' file struct)
  | output {name name' : String} {file : Path} {struct : Idl.Struct} :
      Resembles (.output name file struct) (.output name' file struct)
  | enumeration {name name' : String} {members : List EnumMember} {description : Option String} :
      Resembles (.enumeration name members description) (.enumeration name' members description)

/-! ### Types that are told of in two sessions -/

section Telling

variable {l : Library} {s s' : Session} {d : Direction} {file : Path}

private theorem Session.Finds.twins (hints : s'.enumsAsInts = s.enumsAsInts) {core : Core} {t t' : NamedType}
    (h : s.Finds d core t) (h' : s'.Finds d core t') : s.Twins s' t t' := by
  cases h with
  | scalar x =>
    cases h'
    exact .scalar x
  | struct hid =>
    cases h' with
    | struct hid' => exact .node hid hid'
  | integer h =>
    cases h' with
    | integer => exact .scalar .int
    | enumeration h' => rw [hints, h] at h'; cases h'
  | enumeration h hid =>
    cases h' with
    | integer h' => rw [hints, h] at h'; cases h'
    | enumeration _ hid' => exact .node hid hid'

private theorem typesMatch_wrapped {R : NamedType → NamedType → Prop} {t t' : NamedType} (h : R t t')
    (ws : List Wrapping) : TypesMatch R (wrapped ws t) (wrapped ws t') := by
  induction ws with
  | nil => exact .named h
  | cons w ws ih =>
    cases w with
    | list => exact .list ih
    | nonNull => exact .nonNull ih

theorem TypesMatch.innermost {R : NamedType → NamedType → Prop} {g g' : GraphType} (h : TypesMatch R g g') :
    R g.innermost g'.innermost := by
  induction h with
  | named h => exact h
  | list _ ih => exact ih
  | nonNull _ ih => exact ih

private theorem TypesMatch.isList_eq {R : NamedType → NamedType → Prop} {g g' : GraphType} (h : TypesMatch R g g') :
    g'.isList = g.isList := by
  cases h with
  | named => rfl
  | list => rfl
  | nonNull h => cases h <;> rfl

/-- No value fits a node, so it does not matter which node there is. -/
private theorem Session.Twins.fits_eq {t t' : NamedType} (h : s.Twins s' t t') : fits t' = fits t := by
  cases h with
  | scalar x => rfl
  | @node key id id' =>
    funext v
    rw [Bool.eq_iff_iff, fits_iff, fits_iff]
    exact forall₂_congr fun x _ => by simp [fitsNamed]

private theorem TypesMatch.defaultFor_eq {g g' : GraphType} (h : TypesMatch (s.Twins s') g g')
    (c : Option Idl.ConstValue) : defaultFor c g' = defaultFor c g := by
  unfold defaultFor
  rw [h.isList_eq, h.innermost.fits_eq]

variable (hints : s'.enumsAsInts = s.enumsAsInts)
include hints

theorem Session.TellsType.matches {t : TypeExpr} {g g' : GraphType} (h : s.TellsType l d file t g)
    (h' : s'.TellsType l d file t g') : TypesMatch (s.Twins s') g g' := by
  obtain ⟨e, x, he, rfl, hx⟩ := h
  obtain ⟨e', x', he', rfl, hx'⟩ := h'
  obtain rfl := Except.ok.inj (he.symm.trans he')
  exact typesMatch_wrapped (hx.twins hints hx') e.around

theorem Session.TellsInput.matches {f : Field} {x x' : InputField} (h : s.TellsInput l file f x)
    (h' : s'.TellsInput l file f x') : InputsMatch (s.Twins s') x x' := by
  have htype := h.type.matches hints h'.type
  refine ⟨h'.name.trans h.name.symm, htype, ?_, h'.description.trans h.description.symm⟩
  exact Except.ok.inj (h'.default.symm.trans ((htype.defaultFor_eq f.default).trans h.default))

theorem Session.TellsOutput.matches {f : Field} {x x' : OutputField} (h : s.TellsOutput l file f x)
    (h' : s'.TellsOutput l file f x') : OutputsMatch (s.Twins s') x x' where
  name := h'.name.trans h.name.symm
  type := h.type.matches hints h'.type
  arguments := by
    rw [h.arguments, h'.arguments]
    exact .nil
  description := h'.description.trans h.description.symm

omit hints in
theorem forall₂_of_forall₂ {β : Type} {R : Field → α → Prop} {R' : Field → β → Prop} {S : α → β → Prop}
    (h : ∀ f x x', R f x → R' f x' → S x x') {fs : List Field} {xs : List α} {xs' : List β}
    (hxs : List.Forall₂ R fs xs) (hxs' : List.Forall₂ R' fs xs') : List.Forall₂ S xs xs' := by
  induction hxs generalizing xs' with
  | nil =>
    cases hxs'
    exact .nil
  | cons hx _ ih =>
    cases hxs' with
    | cons hx' hxs' => exact .cons (h _ _ _ hx hx') (ih hxs')

omit hints in
theorem Gathers.matches {R R' : Field → α → Prop} {S : α → α → Prop} {nameOf : α → String}
    (h : ∀ f x x', R f x → R' f x' → S x x') (hname : ∀ x x', S x x' → nameOf x' = nameOf x) {fs : List Field}
    {xs xs' : List α} (hxs : Gathers R nameOf fs xs) (hxs' : Gathers R' nameOf fs xs') : List.Forall₂ S xs xs' := by
  obtain ⟨all, hall, rfl⟩ := hxs
  obtain ⟨all', hall', rfl⟩ := hxs'
  exact forall₂_collect hname (forall₂_of_forall₂ h hall hall')

omit hints in
theorem GathersStruct.matches {R R' : Field → α → Prop} {S : α → α → Prop} {nameOf : α → String} {placeholder : α}
    (h : ∀ f x x', R f x → R' f x' → S x x') (hname : ∀ x x', S x x' → nameOf x' = nameOf x)
    (hplaceholder : S placeholder placeholder) {fs : List Field} {xs xs' : List α}
    (hxs : GathersStruct R nameOf placeholder fs xs) (hxs' : GathersStruct R' nameOf placeholder fs xs') :
    List.Forall₂ S xs xs' := by
  cases hxs with
  | none hnil =>
    cases hxs' with
    | none => exact .cons hplaceholder .nil
    | fields hne => exact absurd hnil hne
  | fields hne hxs =>
    cases hxs' with
    | none hnil => exact absurd hnil hne
    | fields _ hxs' => exact hxs.matches h hname hxs'

theorem Session.TellsFunction.matches {f : Function} {x x' : OutputField} (h : s.TellsFunction l file f x)
    (h' : s'.TellsFunction l file f x') : OutputsMatch (s.Twins s') x x' where
  name := h'.name.trans h.name.symm
  type := h.type.matches hints h'.type
  arguments := h.arguments.matches (fun _ _ _ hx hx' => hx.matches hints hx') (fun _ _ hx => hx.name) h'.arguments
  description := h'.description.trans h.description.symm

theorem Session.TellsFields.matches {node node' : Node} (hnode : node.Resembles node') {fields fields' : Fields}
    (h : s.TellsFields l node fields) (h' : s'.TellsFields l node' fields') :
    FieldsMatch (s.Twins s') fields fields' := by
  have hboolean : TypesMatch (s.Twins s') (.named (.scalar .boolean)) (.named (.scalar .boolean)) := .named (.scalar _)
  cases hnode with
  | input =>
    cases fields with
    | output | none => cases h
    | input xs =>
      cases fields' with
      | output | none => cases h'
      | input xs' =>
        exact .input (GathersStruct.matches (fun _ _ _ hx hx' => hx.matches hints hx') (fun _ _ hx => hx.name)
          ⟨rfl, hboolean, rfl, rfl⟩ h h')
  | output =>
    cases fields with
    | input | none => cases h
    | output xs =>
      cases fields' with
      | input | none => cases h'
      | output xs' =>
        exact .output (GathersStruct.matches (fun _ _ _ hx hx' => hx.matches hints hx') (fun _ _ hx => hx.name)
          ⟨rfl, hboolean, .nil, rfl⟩ h h')
  | enumeration =>
    cases fields with
    | input | output => cases h
    | none =>
      cases fields' with
      | input | output => cases h'
      | none => exact .none

end Telling

end ThriftGateway.Graph
