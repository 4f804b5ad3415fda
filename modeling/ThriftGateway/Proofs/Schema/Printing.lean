import ThriftGateway.Proofs.Schema.Carried
import ThriftGateway.Schema.Printer

/-!
# Which schemas can be printed

A schema is printed unless a type refuses to write a part of one of its defaults (`print_succeeds_iff`).  Where a list
is expected, another value stands for itself; what then meets a leaf type has to be no list, in range, finite, and for
an integer at `Float`, exact (`Printable`).
-/

namespace ThriftGateway.Schema

open Graph (GraphType InputField IsCarried NamedType OutputField Scalar fitsNamed isListValue leaves)
open Number (Double)
open Request (Literal)

/-! ### Results that are no errors -/

variable {ε α β : Type}

/-- A result is there. -/
def Succeeds (r : Except ε α) : Prop := ∃ a, r = .ok a

@[simp] theorem succeeds_ok (a : α) : Succeeds (.ok a : Except ε α) := ⟨a, rfl⟩

@[simp] theorem succeeds_pure (a : α) : Succeeds (pure a : Except ε α) := ⟨a, rfl⟩

@[simp] theorem not_succeeds_error (e : ε) : ¬Succeeds (.error e : Except ε α) := by
  rintro ⟨a, ha⟩
  cases ha

instance (r : Except ε α) : Decidable (Succeeds r) :=
  match r with
  | .ok a => .isTrue (succeeds_ok a)
  | .error e => .isFalse (not_succeeds_error e)

/-- A step that always has a result does not matter. -/
private theorem succeeds_bind {r : Except ε α} {f : α → Except ε β} (hf : ∀ a, Succeeds (f a)) :
    Succeeds (r >>= f) ↔ Succeeds r := by
  cases r with
  | error e => simp [bind, Except.bind]
  | ok a => simpa [bind, Except.bind] using hf a

/-- Two steps have a result if both have, where the second does not depend on the first. -/
private theorem succeeds_bind_and {r : Except ε α} {f : α → Except ε β} {p : Prop} (hf : ∀ a, Succeeds (f a) ↔ p) :
    Succeeds (r >>= f) ↔ Succeeds r ∧ p := by
  cases r with
  | error e => simp [bind, Except.bind]
  | ok a => simpa [bind, Except.bind] using hf a

/-! ### Leaves -/

/-- An integer that a floating point number is equal to. -/
def IsExact (n : Int) : Prop := (Double.ofInt n).isFinite = true ∧ (Double.ofInt n).integer? = some n

/-- A leaf that its type writes and that has a literal. -/
def WritableLeaf : Option Definition → Value → Prop
  | some (.scalar .int), .int n => -0x80000000 ≤ n ∧ n ≤ 0x7fffffff
  | some (.scalar (.wide .int64)), .int n => -0x8000000000000000 ≤ n ∧ n ≤ 0x7fffffffffffffff
  | some (.scalar .float), .int n => IsExact n
  | some (.scalar .float), .float d => d.isFinite = true
  | some (.scalar .string), .text _ => True
  | some (.scalar .boolean), .bool _ => True
  | some (.scalar _), _ | some (.enumeration ..), _ => False
  -- the value of an input object has no literal and is left out
  | some (.object ..), _ | some (.input ..), _ | none, _ => True

/-- No scalar has a literal for a list. -/
private theorem not_succeeds_leafLiteral_list (x : Scalar) (items : List Value) :
    ¬Succeeds (leafLiteral (some (.scalar x)) (.list items)) := by
  cases x with
  | wide w =>
    cases w with
    | int64 => exact not_succeeds_error _
    | map => exact not_succeeds_error _
    | set =>
      cases hitems : Graph.plainItems items with
      | error e => simp [leafLiteral, Scalar.write, Graph.WideScalar.output, Graph.isCollection, Graph.plain, hitems,
          bind, Except.bind, Except.mapError]
      | ok items => simp [leafLiteral, Scalar.write, Graph.WideScalar.output, Graph.isCollection, Graph.plain, hitems,
          bind, Except.bind, pure, Except.pure, literalOf?, Except.mapError]
  | _ => exact not_succeeds_error _

/-- No member of an enumeration stands for a list. -/
private theorem not_succeeds_leafLiteral_member (name : String) (description : Option String)
    (members : List Graph.EnumMember) (items : List Value) :
    ¬Succeeds (leafLiteral (some (.enumeration name description members)) (.list items)) := by
  have hnone : Graph.memberOf? members (.list items) = none := by
    unfold Graph.memberOf?
    rw [List.find?_eq_none]
    intro m _
    simp [Value.same, Value.sameNumber, Value.integer?]
  unfold leafLiteral
  simp [Graph.writeMember, hnone]

/-- Only a list can fit a node: an empty one, at some depth. -/
private theorem exists_items {id : Nat} {v : Value} (hv : ∀ x ∈ leaves v, fitsNamed (.node id) x = true) :
    ∃ items, v = .list items := by
  cases v with
  | list items => exact ⟨items, rfl⟩
  | _ =>
    have := hv _ (by rw [Graph.leaves_of_not_list rfl]; exact List.mem_singleton_self _)
    cases this

/-- An integer at `Int64` is written if it is in range. -/
private theorem int64_succeeds_iff (n : Int) :
    Succeeds (leafLiteral (some (.scalar (.wide .int64))) (.int n)) ↔
      -0x8000000000000000 ≤ n ∧ n ≤ 0x7fffffffffffffff := by
  have hrange : Graph.inInt64Range n = true ↔ -0x8000000000000000 ≤ n ∧ n ≤ 0x7fffffffffffffff := by
    rw [Graph.inInt64Range, Bool.and_eq_true, decide_eq_true_iff, decide_eq_true_iff]
    exact Iff.rfl
  have hof : Graph.int64Of (.int n) =
      if Graph.inInt64Range n = true then .ok n else .error (.outOfRange (.int n)) := rfl
  rw [← hrange]
  unfold leafLiteral Scalar.write Graph.WideScalar.output
  by_cases h : Graph.inInt64Range n = true
  · rw [hof, if_pos h]
    exact iff_of_true (succeeds_ok _) h
  · rw [hof, if_neg h]
    exact iff_of_false (not_succeeds_error _) h

/-- An integer at `Float` is written if it is a floating point number exactly. -/
private theorem float_int_succeeds_iff (n : Int) :
    Succeeds (leafLiteral (some (.scalar .float)) (.int n)) ↔ IsExact n := by
  unfold leafLiteral Scalar.write Graph.writeFloat Graph.exactFloat IsExact
  by_cases hf : (Double.ofInt n).isFinite = true
  · by_cases hn : (Double.ofInt n).integer? = some n
    · simp [hf, hn, literalOf?]
    · simp [hf, hn]
  · simp [hf]

/-- A leaf that fits a scalar is refused only for its range. -/
private theorem leafLiteral_scalar_succeeds_iff {x : Scalar} {v : Value} (hl : isListValue v = false)
    (hv : fitsNamed (.scalar x) v = true) :
    Succeeds (leafLiteral (some (.scalar x)) v) ↔ WritableLeaf (some (.scalar x)) v := by
  cases x with
  | int =>
    cases v with
    | int n =>
      have hn : Graph.inIntRange n = true := hv
      refine iff_of_true ?_ (Graph.inIntRange_iff.1 hn)
      simp [leafLiteral, Scalar.write, Graph.writeInt, Graph.asInt, hn, literalOf?]
    | _ => cases hv
  | float =>
    cases v with
    | int n => exact float_int_succeeds_iff n
    | float d =>
      unfold leafLiteral Scalar.write Graph.writeFloat
      by_cases hd : d.isFinite = true
      · simp [hd, literalOf?, WritableLeaf]
      · simp [hd, WritableLeaf]
    | _ => cases hv
  | string =>
    cases v with
    | text s => exact iff_of_true (succeeds_ok _) trivial
    | _ => cases hv
  | boolean =>
    cases v with
    | bool b => exact iff_of_true (succeeds_ok _) trivial
    | _ => cases hv
  | wide w =>
    cases w with
    | int64 =>
      cases v with
      | int n => exact int64_succeeds_iff n
      | _ => cases hv
    | map => cases v <;> cases hv
    | set => cases v <;> cases hv

/-- A leaf that fits is refused if it is a list, or for its range. -/
private theorem leafLiteral_succeeds_iff {n : NamedType} {d : Option Definition} {v : Value}
    (hv : ∀ x ∈ leaves v, fitsNamed n x = true) (hd : ∀ x e, n = .scalar x → d = some e → e = .scalar x) :
    Succeeds (leafLiteral d v) ↔ WritableLeaf d v := by
  cases d with
  | none => simp [leafLiteral, WritableLeaf]
  | some d =>
    cases d with
    | object name description fields => simp [leafLiteral, WritableLeaf]
    | input name description fields => simp [leafLiteral, WritableLeaf]
    | enumeration name description members =>
      cases n with
      | scalar x => cases hd x _ rfl rfl
      | node id =>
        obtain ⟨items, rfl⟩ := exists_items hv
        exact iff_of_false (not_succeeds_leafLiteral_member _ _ _ _) fun h => h
    | scalar x =>
      by_cases hl : isListValue v = true
      · obtain ⟨items, rfl⟩ : ∃ items, v = .list items := by
          cases v with
          | list items => exact ⟨items, rfl⟩
          | _ => cases hl
        refine iff_of_false (not_succeeds_leafLiteral_list x items) ?_
        cases x <;> simp [WritableLeaf]
      · have hl : isListValue v = false := by simpa using hl
        cases n with
        | node id =>
          obtain ⟨items, rfl⟩ := exists_items hv
          cases hl
        | scalar y =>
          cases hd y _ rfl rfl
          exact leafLiteral_scalar_succeeds_iff hl (hv v (by rw [Graph.leaves_of_not_list hl]; simp))

/-! ### Defaults -/

/-- A default that can be printed. -/
def Printable (s : Schema) : GraphType → Value → Prop
  | .nonNull t, v => Printable s t v
  | .list t, .list items => ∀ v ∈ items, Printable s t v
  | .list t, v => Printable s t v
  | .named n, v => WritableLeaf (s.definition? n) v

private theorem literalsFor_succeeds_iff {literal : Value → Except PrintError (Option Literal)} {vs : List Value} :
    Succeeds (literalsFor literal vs) ↔ ∀ v ∈ vs, Succeeds (literal v) := by
  induction vs with
  | nil => simp [literalsFor]
  | cons v vs ih =>
    rw [literalsFor, succeeds_bind_and (p := Succeeds (literalsFor literal vs)), ih]
    · simp
    · exact fun l => succeeds_bind fun ls => succeeds_pure _

/-- What has fitting leaves is a list, a truth value, a number or a text. -/
private theorem kind_of_leaves {n : NamedType} {v : Value} (hv : ∀ x ∈ leaves v, fitsNamed n x = true) :
    (∃ items, v = .list items) ∨ (∃ b, v = .bool b) ∨ (∃ m, v = .int m) ∨ (∃ d, v = .float d) ∨ ∃ s, v = .text s := by
  by_cases hl : isListValue v = true
  · cases v with
    | list items => exact Or.inl ⟨items, rfl⟩
    | _ => cases hl
  · have hl : isListValue v = false := by simpa using hl
    exact Or.inr (Graph.kind_of_fitsNamed (hv v (by rw [Graph.leaves_of_not_list hl]; simp)))

/-- A default with fitting leaves has a literal exactly if it can be printed.  The induction is on the type. -/
theorem defaultLiteral_succeeds_iff {s : Schema} (hs : IsAssembled s) {t : GraphType} {v : Value}
    (hv : ∀ x ∈ leaves v, fitsNamed t.innermost x = true) : Succeeds (defaultLiteral s.system t v) ↔
    Printable s t v := by
  induction t generalizing v with
  | nonNull t ih =>
    rw [defaultLiteral, succeeds_bind fun _ => succeeds_pure _]
    exact ih hv
  | list t ih =>
    rcases kind_of_leaves hv with ⟨items, rfl⟩ | ⟨b, rfl⟩ | ⟨m, rfl⟩ | ⟨d, rfl⟩ | ⟨x, rfl⟩
    · show Succeeds (literalsFor (defaultLiteral s.system t) items >>= _) ↔ ∀ v ∈ items, Printable s t v
      rw [succeeds_bind fun _ => succeeds_pure _, literalsFor_succeeds_iff]
      refine forall₂_congr fun v hm => ih fun x hx => hv x ?_
      exact Graph.mem_leaves_list.2 ⟨v, hm, hx⟩
    · exact ih hv
    · exact ih hv
    · exact ih hv
    · exact ih hv
  | named n =>
    have hd : defaultLiteral s.system (.named n) v = leafLiteral (s.definition? n) v := by
      rcases kind_of_leaves hv with ⟨items, rfl⟩ | ⟨b, rfl⟩ | ⟨m, rfl⟩ | ⟨d, rfl⟩ | ⟨x, rfl⟩ <;> rfl
    rw [hd]
    refine leafLiteral_succeeds_iff hv fun x e hn he => ?_
    subst hn
    exact hs.definition?_scalar he

/-! ### Types -/

/-- An argument or input field that can be printed. -/
def IsPrintable (s : Schema) (f : InputField) : Prop :=
  ∀ v, f.default = some v → Succeeds (defaultLiteral s.system f.type v)

private theorem printInputValue_succeeds_iff {s : Schema} {f : InputField} :
    Succeeds (printInputValue s.system f) ↔ IsPrintable s f := by
  unfold printInputValue IsPrintable
  dsimp only
  cases hd : f.default with
  | none => simp
  | some v =>
    rw [succeeds_bind fun _ => succeeds_pure _]
    simp

private theorem printInputValues_succeeds_iff {s : Schema} {fs : List InputField} :
    Succeeds (printInputValues s.system fs) ↔ ∀ f ∈ fs, IsPrintable s f := by
  induction fs with
  | nil => simp [printInputValues]
  | cons f fs ih =>
    rw [printInputValues, succeeds_bind_and (p := Succeeds (printInputValues s.system fs)), ih,
      printInputValue_succeeds_iff]
    · simp
    · exact fun p => succeeds_bind fun ps => succeeds_pure _

private theorem printArguments_succeeds_iff {s : Schema} {fs : List InputField} :
    Succeeds (printArguments s.system fs) ↔ ∀ f ∈ fs, IsPrintable s f := by
  unfold printArguments
  by_cases he : fs.isEmpty = true
  · rw [if_pos he, List.isEmpty_iff.1 he]
    simp
  · rw [if_neg he]
    dsimp only
    rw [succeeds_bind, printInputValues_succeeds_iff]
    intro printed
    split <;> exact succeeds_pure _

private theorem printFields_succeeds_iff {s : Schema} {fs : List OutputField} :
    Succeeds (printFields s.system fs) ↔ ∀ f ∈ fs.flatMap OutputField.arguments, IsPrintable s f := by
  induction fs with
  | nil => simp [printFields]
  | cons f fs ih =>
    rw [printFields, succeeds_bind_and (p := Succeeds (printFields s.system fs)), ih, printArguments_succeeds_iff,
      List.flatMap_cons, List.forall_mem_append]
    exact fun p => succeeds_bind fun ps => succeeds_pure _

private theorem printDefinition_succeeds_iff {s : Schema} {d : Definition} :
    Succeeds (printDefinition s.system d) ↔ ∀ f ∈ d.inputs, IsPrintable s f := by
  cases d with
  | scalar x => cases x <;> simp [printDefinition, Definition.inputs]
  | object name description fields =>
    rw [printDefinition, succeeds_bind fun _ => succeeds_pure _, printFields_succeeds_iff, Definition.inputs]
  | input name description fields =>
    rw [printDefinition, succeeds_bind fun _ => succeeds_pure _, printInputValues_succeeds_iff, Definition.inputs]
  | enumeration name description members => simp [printDefinition, Definition.inputs]

private theorem printDefinitions_succeeds_iff {s : Schema} {ds : List Definition} :
    Succeeds (printDefinitions s.system ds) ↔ ∀ f ∈ ds.flatMap Definition.inputs, IsPrintable s f := by
  induction ds with
  | nil => simp [printDefinitions]
  | cons d ds ih =>
    rw [printDefinitions, succeeds_bind_and (p := Succeeds (printDefinitions s.system ds)), ih,
      printDefinition_succeeds_iff, List.flatMap_cons, List.forall_mem_append]
    exact fun p => succeeds_bind fun ps => succeeds_pure _

/-- The types that every schema has take no values. -/
private theorem flatMap_inputs_filter (ds : List Definition) :
    (ds.filter (!·.isStandard)).flatMap Definition.inputs = ds.flatMap Definition.inputs := by
  induction ds with
  | nil => rfl
  | cons d ds ih =>
    rw [List.filter_cons, List.flatMap_cons]
    split
    · rw [List.flatMap_cons, ih]
    · rename_i hd
      have hnone : d.inputs = [] := by
        cases d with
        | scalar x => rfl
        | _ => exact absurd rfl hd
      rw [hnone, List.nil_append, ih]

/-- A schema is printed exactly if all its defaults have literals. -/
theorem print_succeeds_iff {s : Schema} : Succeeds s.print ↔ ∀ f ∈ s.inputs, IsPrintable s f := by
  rw [Schema.inputs, ← flatMap_inputs_filter, ← printDefinitions_succeeds_iff]
  unfold Schema.print
  exact succeeds_bind fun _ => succeeds_pure _

end ThriftGateway.Schema
