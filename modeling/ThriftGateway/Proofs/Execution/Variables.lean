import ThriftGateway.Execution.Response

/-!
# Variables in requests

What is read from a literal depends on the variables in it and on no others (`readLiteral_congr`), and so do the
arguments of a field (`toOption_readArguments`) and the conditions of a selection (`toOption_isSelected`).  The
variables in a selection are those that count as used by it, whatever its place (`map_name_selectionsUses`).
-/

namespace ThriftGateway.Execution

open Graph (GraphType InputField)
open Request (Argument Directive Literal Selection)
open Schema (Definition TypeSystem)

/-! ### The variables of a literal -/

mutual
/-- The variables in a literal. -/
def variablesOf : Literal → List String
  | .var name => [name]
  | .list items => variablesOfItems items
  | .object fields => variablesOfFields fields
  | _ => []

/-- The variables in items. -/
def variablesOfItems : List Literal → List String
  | [] => []
  | l :: ls => variablesOf l ++ variablesOfItems ls

/-- The variables in fields. -/
def variablesOfFields : List (String × Literal) → List String
  | [] => []
  | (_, l) :: fs => variablesOf l ++ variablesOfFields fs
end

mutual
/-- What counts as used by a literal are its variables. -/
private theorem map_name_literalUses (s : TypeSystem) (t : Option GraphType) (hasDefault : Bool) (l : Literal) :
    (literalUses s t hasDefault l).map Use.name = variablesOf l := by
  cases l with
  | list items =>
    rw [literalUses, variablesOf]
    exact map_name_itemsUses s _ items
  | object fields =>
    rw [literalUses, variablesOf]
    exact map_name_fieldsUses s _ fields
  | _ => rfl

private theorem map_name_itemsUses (s : TypeSystem) (t : Option GraphType) (ls : List Literal) :
    (itemsUses s t ls).map Use.name = variablesOfItems ls := by
  cases ls with
  | nil => rfl
  | cons l ls =>
    rw [itemsUses, variablesOfItems, List.map_append, map_name_literalUses s t false l, map_name_itemsUses s t ls]

private theorem map_name_fieldsUses (s : TypeSystem) (known : List InputField) (fs : List (String × Literal)) :
    (fieldsUses s known fs).map Use.name = variablesOfFields fs := by
  cases fs with
  | nil => rfl
  | cons f fs =>
    obtain ⟨name, l⟩ := f
    rw [fieldsUses, variablesOfFields, List.map_append, map_name_literalUses, map_name_fieldsUses s known fs]
end

/-! ### The variables of selections -/

/-- The variables in arguments. -/
def argumentsVariables (given : List Argument) : List String := given.flatMap fun a => variablesOf a.value

/-- The variables in directives. -/
def directivesVariables (directives : List Directive) : List String :=
  directives.flatMap fun d => argumentsVariables d.arguments

mutual
/-- The variables in a selection, those in fragments apart. -/
def selectionVariables : Selection → List String
  | .field _ _ _ arguments directives _ selections =>
    argumentsVariables arguments ++ directivesVariables directives ++ selectionsVariables selections
  | .spread _ _ directives => directivesVariables directives
  | .inline _ _ directives _ selections => directivesVariables directives ++ selectionsVariables selections

/-- The variables in several selections, those in fragments apart. -/
def selectionsVariables : List Selection → List String
  | [] => []
  | x :: xs => selectionVariables x ++ selectionsVariables xs
end

private theorem map_name_argumentsUses (s : TypeSystem) (known : List InputField) (given : List Argument) :
    (argumentsUses s known given).map Use.name = argumentsVariables given := by
  unfold argumentsUses argumentsVariables
  rw [List.map_flatMap]
  simp only [map_name_literalUses]

private theorem map_name_directivesUses (s : TypeSystem) (directives : List Directive) :
    (directivesUses s directives).map Use.name = directivesVariables directives := by
  unfold directivesUses directivesVariables
  rw [List.map_flatMap]
  simp only [map_name_argumentsUses]

mutual
/-- What counts as used by a selection are its variables. -/
private theorem map_name_selectionUses (s : TypeSystem) (parent : Option Parent) (x : Selection) :
    (selectionUses s parent x).map Use.name = selectionVariables x := by
  cases x with
  | field =>
    rw [selectionUses, selectionVariables, List.map_append, List.map_append, map_name_argumentsUses,
      map_name_directivesUses, map_name_selectionsUses s _]
  | spread =>
    rw [selectionUses, selectionVariables]
    exact map_name_directivesUses s _
  | inline =>
    rw [selectionUses, selectionVariables, List.map_append, map_name_directivesUses, map_name_selectionsUses s _]

theorem map_name_selectionsUses (s : TypeSystem) (parent : Option Parent) (xs : List Selection) :
    (selectionsUses s parent xs).map Use.name = selectionsVariables xs := by
  cases xs with
  | nil => rfl
  | cons x xs =>
    rw [selectionsUses, selectionsVariables, List.map_append, map_name_selectionUses, map_name_selectionsUses s _ xs]
end

theorem selectionsVariables_eq (xs : List Selection) : selectionsVariables xs = xs.flatMap selectionVariables := by
  induction xs with
  | nil => rfl
  | cons x xs ih => rw [selectionsVariables, ih, List.flatMap_cons]

private theorem variablesOf_subset_of_mem_items {l : Literal} {ls : List Literal} (h : l ∈ ls) :
    variablesOf l ⊆ variablesOfItems ls := by
  induction ls with
  | nil => cases h
  | cons l' ls ih =>
    rw [variablesOfItems]
    rcases List.mem_cons.1 h with rfl | h
    · exact List.subset_append_left _ _
    · exact List.Subset.trans (ih h) (List.subset_append_right _ _)

private theorem variablesOf_subset_of_mem_fields {name : String} {l : Literal} {fs : List (String × Literal)}
    (h : (name, l) ∈ fs) : variablesOf l ⊆ variablesOfFields fs := by
  induction fs with
  | nil => cases h
  | cons f fs ih =>
    rw [variablesOfFields.eq_def]
    rcases List.mem_cons.1 h with rfl | h
    · exact List.subset_append_left _ _
    · exact List.Subset.trans (ih h) (List.subset_append_right _ _)

/-! ### Values of variables -/

/-- Variables have the same values. -/
def AgreeOn (names : List String) (a b : List (String × Value)) : Prop := ∀ n ∈ names, b.lookup n = a.lookup n

variable {s : TypeSystem} {a b : List (String × Value)}

theorem AgreeOn.mono {names names' : List String} (h : AgreeOn names a b) (hsub : names' ⊆ names) :
    AgreeOn names' a b := fun n hn => h n (hsub hn)

mutual
private theorem toValue_congr (l : Literal) (h : AgreeOn (variablesOf l) a b) : l.toValue b = l.toValue a := by
  cases l with
  | var name => rw [Literal.toValue, Literal.toValue, h name (by simp [variablesOf])]
  | list items => rw [Literal.toValue, Literal.toValue, toValues_congr items h]
  | object fields => rw [Literal.toValue, Literal.toValue, toEntries_congr fields h]
  | _ => rfl

private theorem toValues_congr (ls : List Literal) (h : AgreeOn (variablesOfItems ls) a b) :
    Literal.toValues b ls = Literal.toValues a ls := by
  cases ls with
  | nil => rfl
  | cons l ls =>
    rw [variablesOfItems] at h
    rw [Literal.toValues, Literal.toValues, toValue_congr l (h.mono (List.subset_append_left _ _)),
      toValues_congr ls (h.mono (List.subset_append_right _ _))]

private theorem toEntries_congr (fs : List (String × Literal)) (h : AgreeOn (variablesOfFields fs) a b) :
    Literal.toEntries b fs = Literal.toEntries a fs := by
  cases fs with
  | nil => rfl
  | cons f fs =>
    obtain ⟨name, l⟩ := f
    rw [variablesOfFields] at h
    rw [Literal.toEntries, Literal.toEntries, toValue_congr l (h.mono (List.subset_append_left _ _)),
      toEntries_congr fs (h.mono (List.subset_append_right _ _))]
end

private theorem variableValue?_congr {name : String} (h : AgreeOn [name] a b) :
    variableValue? b name = variableValue? a name := by
  rw [variableValue?, variableValue?, h name List.mem_cons_self]

private theorem isLacking_congr {name : String} (h : AgreeOn [name] a b) : isLacking b name = isLacking a name := by
  rw [isLacking, isLacking, variableValue?_congr h]

theorem toOption_map {ε α β : Type} (r : Except ε α) (f : α → β) : (r.map f).toOption = r.toOption.map f := by
  cases r <;> rfl

private theorem readLeafLiteral_congr (d : Option Definition) (l : Literal) (h : AgreeOn (variablesOf l) a b) :
    readLeafLiteral d l b = readLeafLiteral d l a := by
  unfold readLeafLiteral
  split
  · rename_i x
    cases x with
    | wide w =>
      cases w with
      | int64 => rfl
      | _ =>
        unfold readScalarLiteral Graph.WideScalar.inputLiteral
        cases l <;> simp only [toValue_congr _ h]
    | _ => cases l <;> rfl
  · rfl
  · rfl

/-! ### Reading literals -/

private theorem mapM_congr {ε α β : Type} {f g : α → Except ε β} {xs : List α} (h : ∀ x ∈ xs, f x = g x) :
    xs.mapM f = xs.mapM g := by
  induction xs with
  | nil => rfl
  | cons x xs ih =>
    rw [List.forall_mem_cons] at h
    rw [List.mapM_cons, List.mapM_cons, h.1, ih h.2]

private theorem readLiteralAt_var (s : TypeSystem) (b : List (String × Value)) (fuel : Nat) (t : GraphType)
    (name : String) : readLiteralAt s b fuel t (.var name) =
      if t.isNonNull && isLacking b name then .error .wrong else (variableValue? b name).elim (.error .wrong) .ok := by
  rw [readLiteralAt.eq_def]

private theorem readLiteralAt_null (s : TypeSystem) (b : List (String × Value)) (fuel : Nat) (t : GraphType) :
    readLiteralAt s b fuel t .null = if t.isNonNull then .error .wrong else .ok .null := by
  rw [readLiteralAt.eq_def]
  cases t <;> rfl

section

variable {fuel : Nat} {l : Literal} (hvar : ∀ name, l ≠ .var name) (hnull : l ≠ .null)

include hvar hnull

private theorem readLiteralAt_nonNull (t : GraphType) :
    readLiteralAt s b fuel (.nonNull t) l = readLiteralAt s b fuel t l := by
  rw [readLiteralAt.eq_def s b fuel (.nonNull t) l]
  cases l <;> first | rfl | exact absurd rfl (hvar _) | exact absurd rfl hnull

private theorem readLiteralAt_single (hlist : ∀ items, l ≠ .list items) (t : GraphType) :
    readLiteralAt s b fuel (.list t) l = (readLiteralAt s b fuel t l).map fun v => .list [v] := by
  rw [readLiteralAt.eq_def s b fuel (.list t) l]
  cases l <;> first | rfl | exact absurd rfl (hvar _) | exact absurd rfl hnull | exact absurd rfl (hlist _)

private theorem readLiteralAt_leaf {t : Graph.NamedType}
    (hd : ∀ name description fields, s.definition? t ≠ some (.input name description fields)) :
    readLiteralAt s b fuel (.named t) l = (readLeafLiteral (s.definition? t) l b).mapError fun _ => .wrong := by
  rw [readLiteralAt.eq_def s b fuel (.named t) l]
  cases hdefinition : s.definition? t with
  | none => cases l <;> first | exact absurd rfl (hvar _) | exact absurd rfl hnull | simp only [hdefinition]
  | some d =>
    cases d with
    | input => exact absurd hdefinition (hd _ _ _)
    | scalar | object | enumeration =>
      cases l <;> first | exact absurd rfl (hvar _) | exact absurd rfl hnull | simp only [hdefinition]

end

/-- Fields are read alike if the same is given for them and it is read alike. -/
private theorem readFields_congr {α : Type} {given given' : String → Option α}
    {read read' : GraphType → α → Except Misfit Value} {fields : List InputField}
    (hgiven : ∀ name, given' name = given name)
    (hread : ∀ f ∈ fields, ∀ x, given f.name = some x → read' f.type x = read f.type x) :
    readFields given' read' fields = readFields given read fields := by
  induction fields with
  | nil => rfl
  | cons f fs ih =>
    have hrest := ih fun f hf => hread f (List.mem_cons_of_mem _ hf)
    rw [readFields, readFields, hgiven, hrest]
    cases hx : given f.name with
    | none => rfl
    | some x =>
      dsimp only
      rw [hread f List.mem_cons_self x hx]

private theorem mem_of_lookup {α : Type} {entries : List (String × α)} {name : String} {x : α}
    (h : entries.lookup name = some x) : (name, x) ∈ entries := by
  obtain ⟨before, behind, rfl, -⟩ := List.lookup_eq_some_iff.1 h
  simp

private theorem givenLiteral?_congr {fields : List (String × Literal)} (h : AgreeOn (variablesOfFields fields) a b)
    (name : String) : givenLiteral? b fields name = givenLiteral? a fields name := by
  unfold givenLiteral?
  cases hl : fields.reverse.lookup name with
  | none => rfl
  | some l =>
    cases l with
    | var v =>
      have hmem : (name, Literal.var v) ∈ fields := List.mem_reverse.1 (mem_of_lookup hl)
      have hv : AgreeOn [v] a b := h.mono (variablesOf_subset_of_mem_fields hmem)
      dsimp only
      rw [variableValue?_congr hv]
    | _ => rfl

private theorem mem_of_givenLiteral? {fields : List (String × Literal)} {name : String} {l : Literal}
    (h : givenLiteral? b fields name = some l) : (name, l) ∈ fields := by
  have hlookup : fields.reverse.lookup name = some l := by
    unfold givenLiteral? at h
    split at h
    · rename_i v hv
      split at h
      · cases h
      · cases h
        exact hv
    · exact h
  exact List.mem_reverse.1 (mem_of_lookup hlookup)

/-- What is read from a literal depends on its variables alone. -/
private theorem readLiteralAt_congr (s : TypeSystem) (fuel : Nat) (t : GraphType) (l : Literal)
    (h : AgreeOn (variablesOf l) a b) : readLiteralAt s b fuel t l = readLiteralAt s a fuel t l := by
  by_cases hvar : ∃ name, l = .var name
  · obtain ⟨name, rfl⟩ := hvar
    rw [readLiteralAt_var, readLiteralAt_var, isLacking_congr h, variableValue?_congr h]
  by_cases hnull : l = .null
  · rw [hnull, readLiteralAt_null, readLiteralAt_null]
  have hvar : ∀ name, l ≠ .var name := fun name hl => hvar ⟨name, hl⟩
  cases t with
  | nonNull t =>
    rw [readLiteralAt_nonNull hvar hnull, readLiteralAt_nonNull hvar hnull, readLiteralAt_congr s fuel t l h]
  | list t =>
    by_cases hlist : ∃ items, l = .list items
    · obtain ⟨items, rfl⟩ := hlist
      rw [readLiteralAt.eq_def s b, readLiteralAt.eq_def s a]
      cases fuel with
      | zero => rfl
      | succ fuel =>
        have hitems : ∀ item ∈ items, readLiteralAt s b fuel t item = readLiteralAt s a fuel t item := fun item hmem =>
          readLiteralAt_congr s fuel t item (h.mono (variablesOf_subset_of_mem_items hmem))
        dsimp only
        refine congrArg (Except.map Value.list) (mapM_congr fun item hmem => ?_)
        rw [hitems item hmem]
        generalize readLiteralAt s a fuel t item = r
        cases item with
        | var name =>
          have hname : AgreeOn [name] a b := h.mono (variablesOf_subset_of_mem_items hmem)
          cases r with
          | error e =>
            dsimp only
            rw [isLacking_congr hname]
          | ok v => rfl
        | _ => cases r <;> rfl
    · have hlist : ∀ items, l ≠ .list items := fun items hl => hlist ⟨items, hl⟩
      rw [readLiteralAt_single hvar hnull hlist, readLiteralAt_single hvar hnull hlist,
        readLiteralAt_congr s fuel t l h]
  | named t =>
    by_cases hinput : ∃ name description fields, s.definition? t = some (.input name description fields)
    · obtain ⟨name, description, fields, hd⟩ := hinput
      rw [readLiteralAt.eq_def s b, readLiteralAt.eq_def s a]
      cases l with
      | var name => exact absurd rfl (hvar name)
      | null => exact absurd rfl hnull
      | object literals =>
        simp only [hd]
        cases fuel with
        | zero => rfl
        | succ fuel =>
          have hfields : readFields (givenLiteral? b literals) (readLiteralAt s b fuel) fields =
              readFields (givenLiteral? a literals) (readLiteralAt s a fuel) fields := by
            refine readFields_congr (givenLiteral?_congr h) fun f _ x hx => ?_
            exact readLiteralAt_congr s fuel f.type x
              (h.mono (variablesOf_subset_of_mem_fields (mem_of_givenLiteral? hx)))
          dsimp only
          rw [hfields]
      | _ => simp only [hd]
    · have hd : ∀ name description fields, s.definition? t ≠ some (.input name description fields) :=
        fun name description fields hd => hinput ⟨name, description, fields, hd⟩
      rw [readLiteralAt_leaf hvar hnull hd, readLiteralAt_leaf hvar hnull hd, readLeafLiteral_congr _ _ h]
  termination_by (fuel, t)

theorem readLiteral_congr (s : TypeSystem) (t : GraphType) (l : Literal) (h : AgreeOn (variablesOf l) a b) :
    readLiteral s b t l = readLiteral s a t l := by
  rw [readLiteral, readLiteral, readLiteralAt_congr s _ t l h]

/-! ### Arguments -/

/-- A variable stands there and has no value. -/
def isUnset (bindings : List (String × Value)) : Literal → Bool
  | .var v => (variableValue? bindings v).isNone
  | _ => false

private theorem isUnset_congr {l : Literal} (h : AgreeOn (variablesOf l) a b) : isUnset b l = isUnset a l := by
  cases l with
  | var v => exact congrArg Option.isNone (variableValue?_congr h)
  | _ => rfl

/-- What is read for an argument, apart from the words for what is wrong. -/
private theorem toOption_readArgument_eq (s : TypeSystem) (given : List Argument) (d : InputField)
    (b : List (String × Value)) : (readArgument s b given d).toOption =
      ((given.find? fun x => x.name = d.name).map Argument.value).elim (if isRequired d then none else some d.default)
        fun l => if isUnset b l && (d.default.isSome || !d.type.isNonNull) then some d.default
          else (readLiteral s b d.type l).map some := by
  unfold readArgument
  dsimp only
  split
  · rename_i hl
    rw [hl, Option.elim_none]
    split <;> rfl
  · rename_i l hl
    rw [hl, Option.elim_some]
    show (if (isUnset b l && (d.default.isSome || !d.type.isNonNull)) = true then .ok d.default
      else _ : Except String (Option Value)).toOption = _
    split
    · rfl
    · cases readLiteral s b d.type l with
      | some v => rfl
      | none =>
        dsimp only
        split <;> rfl

private theorem toOption_readArgument (s : TypeSystem) {given : List Argument} (d : InputField)
    (h : ∀ x ∈ given, AgreeOn (variablesOf x.value) a b) :
    (readArgument s b given d).toOption = (readArgument s a given d).toOption := by
  rw [toOption_readArgument_eq, toOption_readArgument_eq]
  cases hx : given.find? fun x => x.name = d.name with
  | none => rfl
  | some x =>
    have hagree : AgreeOn (variablesOf x.value) a b := h x (List.mem_of_find?_eq_some hx)
    rw [Option.map_some, Option.elim_some, Option.elim_some, isUnset_congr hagree, readLiteral_congr s d.type _ hagree]

/-- What is read for arguments depends on their variables alone. -/
theorem toOption_readArguments (s : TypeSystem) {given : List Argument} (ds : List InputField)
    (h : ∀ x ∈ given, AgreeOn (variablesOf x.value) a b) :
    (readArguments s b given ds).toOption = (readArguments s a given ds).toOption := by
  -- an argument decides whether all can be read, and what stands first
  have hcons : ∀ (b : List (String × Value)) (d : InputField) (ds : List InputField),
      (readArguments s b given (d :: ds)).toOption = (readArgument s b given d).toOption.bind fun v =>
        (readArguments s b given ds).toOption.map fun rest => v.elim rest fun v => (d.name, v) :: rest := by
    intro b d ds
    rw [readArguments]
    cases readArgument s b given d with
    | error e => rfl
    | ok v => cases v <;> cases readArguments s b given ds <;> rfl
  induction ds with
  | nil => rfl
  | cons d ds ih => rw [hcons, hcons, ih, toOption_readArgument s d h]

/-! ### Conditions -/

private theorem toOption_readCondition (s : TypeSystem) (d : Schema.DirectiveDefinition) {directives : List Directive}
    (h : AgreeOn (directivesVariables directives) a b) :
    (readCondition s b d directives).toOption = (readCondition s a d directives).toOption := by
  unfold readCondition
  cases hx : directives.find? fun x => x.name.text = d.name with
  | none => rfl
  | some x =>
    have hmem : x ∈ directives := List.mem_of_find?_eq_some hx
    have harguments := toOption_readArguments s d.arguments fun y hy =>
      h.mono fun n hn => List.mem_flatMap.2 ⟨x, hmem, List.mem_flatMap.2 ⟨y, hy, hn⟩⟩
    dsimp only
    rw [toOption_map, toOption_map, harguments]

/-- Whether something is selected depends on the variables in its directives alone. -/
theorem toOption_isSelected (s : TypeSystem) {directives : List Directive}
    (h : AgreeOn (directivesVariables directives) a b) :
    (isSelected s b directives).toOption = (isSelected s a directives).toOption := by
  have heq : ∀ b, (isSelected s b directives).toOption =
      (readCondition s b Schema.skipDirective directives).toOption.bind fun skip =>
        if skip = some true then some false
        else (readCondition s b Schema.includeDirective directives).toOption.map (· ≠ some false) := by
    intro b
    unfold isSelected
    cases readCondition s b Schema.skipDirective directives with
    | error e => rfl
    | ok skip =>
      by_cases hskip : skip = some true
      · subst hskip
        rfl
      · simp only [Except.toOption, Option.bind_some, if_neg hskip]
        cases readCondition s b Schema.includeDirective directives <;> simp [bind, Except.bind, hskip, pure,
          Except.pure]
  rw [heq, heq, toOption_readCondition s _ h, toOption_readCondition s _ h]

end ThriftGateway.Execution
