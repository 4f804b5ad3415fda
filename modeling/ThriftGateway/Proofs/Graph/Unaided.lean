import ThriftGateway.Proofs.Graph.Compile

/-!
# Compiling without a bound

The recursion of compiling as it is, without the reason why it ends: `expandUnaided` follows lists, fields, references
and typedefs for as many rounds as it takes, and is nothing where no number of rounds is enough.  One always is
(`expandUnaided_eq`), so every request for a type and every reading of fields ends with what compiling gives
(`compileUnaided_eq`, `nodeFieldsUnaided_eq`).
-/

namespace ThriftGateway.Graph

open Idl (Declaration Field Function TypeExpr)
open Source (Library Path)

/-- Work in a session that may never end; then it has no result. -/
abbrev Unaided (ε : Type) := ExceptT ε (StateT Session Option)

variable {ε δ α β : Type}

namespace Unaided

/-- The result of work that begins in a session, and the session that it leaves, if it ends. -/
def run (w : Unaided ε α) (s : Session) : Option (Except ε α × Session) := StateT.run (ExceptT.run w) s

/-- Work that ends. -/
def ofWork (w : Work ε α) : Unaided ε α := ExceptT.mk fun s => some (Work.run w s)

theorem ofWork_pure (a : α) : (ofWork (pure a) : Unaided ε α) = pure a := rfl

theorem ofWork_bind (w : Work ε α) (k : α → Work ε β) : ofWork (w >>= k) = ofWork w >>= fun a => ofWork (k a) := by
  funext s
  show some (Work.run (w >>= k) s) = (ExceptT.run (ofWork w >>= fun a => ofWork (k a))).run s
  rw [Work.run_bind, ExceptT.run_bind, StateT.run_bind]
  show _ = (some (Work.run w s)).bind _
  rw [Option.bind_some]
  generalize Work.run w s = r
  obtain ⟨r, s'⟩ := r
  cases r <;> rfl

/-- After work that succeeds comes what follows. -/
theorem run_ofWork_bind_of_ok {w : Work ε α} {k : α → Unaided ε β} {s s' : Session} {a : α}
    (h : Work.run w s = (.ok a, s')) : (ofWork w >>= k).run s = (k a).run s' := by
  show (ExceptT.run (ofWork w >>= k)).run s = _
  rw [ExceptT.run_bind, StateT.run_bind]
  show (some (Work.run w s)).bind _ = _
  rw [h]
  rfl

/-- Work that fails is the end. -/
theorem run_ofWork_bind_of_error {w : Work ε α} {k : α → Unaided ε β} {s s' : Session} {e : ε}
    (h : Work.run w s = (.error e, s')) : (ofWork w >>= k).run s = some (.error e, s') := by
  show (ExceptT.run (ofWork w >>= k)).run s = _
  rw [ExceptT.run_bind, StateT.run_bind]
  show (some (Work.run w s)).bind _ = _
  rw [h]
  rfl

theorem ofWork_adapt (f : δ → ε) (w : Work δ α) : ofWork (ExceptT.adapt f w) = ExceptT.adapt f (ofWork w) := rfl

end Unaided

open Unaided (ofWork ofWork_bind ofWork_pure ofWork_adapt)

/-! ### Recursion without a bound -/

/-- What a recursion has given after so many rounds; nothing where it has not ended by then. -/
def rounds (step : (α → Option β) → α → Option β) : Nat → α → Option β
  | 0 => fun _ => none
  | n + 1 => step (rounds step n)

/-- A result that a recursion has after some number of rounds, and keeps however long it goes on. -/
def Settles (step : (α → Option β) → α → Option β) (x : α) (r : β) : Prop := ∃ n, ∀ m ≥ n, rounds step m x = some r

open Classical in
/-- What a recursion gives if it has all the rounds that it takes; nothing where no number of rounds is enough. -/
noncomputable def unbounded (step : (α → Option β) → α → Option β) (x : α) : Option β :=
  if h : ∃ r, Settles step x r then some h.choose else none

section

variable {step : (α → Option β) → α → Option β} {x y : α} {r : β}

theorem unbounded_of_settles (h : Settles step x r) : unbounded step x = some r := by
  have hr : ∃ r, Settles step x r := ⟨r, h⟩
  obtain ⟨n, hn⟩ := h
  obtain ⟨m, hm⟩ := hr.choose_spec
  have heq := hn (max n m) (Nat.le_max_left n m)
  rw [hm (max n m) (Nat.le_max_right n m)] at heq
  rw [unbounded, dif_pos hr, heq]

/-- A result that needs no recursion. -/
theorem Settles.of_step (h : ∀ recur, step recur x = some r) : Settles step x r := by
  refine ⟨1, fun m hm => ?_⟩
  obtain ⟨m, rfl⟩ := Nat.exists_eq_succ_of_ne_zero (Nat.one_le_iff_ne_zero.1 hm)
  exact h _

/-- A result that follows from that of one recursive call. -/
theorem Settles.of_call {r' : β} (hy : Settles step y r') (h : ∀ recur, recur y = some r' → step recur x = some r) :
    Settles step x r := by
  obtain ⟨n, hn⟩ := hy
  refine ⟨n + 1, fun m hm => ?_⟩
  obtain ⟨m, rfl⟩ := Nat.exists_eq_succ_of_ne_zero (Nat.ne_of_gt (Nat.lt_of_lt_of_le n.succ_pos hm))
  exact h _ (hn m (Nat.le_of_succ_le_succ hm))

end

/-! ### Types -/

/-- A type expression in a file that is followed while some typedefs are being expanded. -/
abbrev Followed := List (Path × String) × Path × TypeExpr

/-- One round of following a type expression; `follow` goes on from what it leads to. -/
def expandRound (l : Library) (follow : Followed → ExceptT ExpansionError Option Expansion) :
    Followed → ExceptT ExpansionError Option Expansion
  | (_, file, .base _ name) =>
    match Scalar.ofBase? name with
    | some s => return .bare (.scalar s)
    | none => throw (.unsupported (some .base) file)
  | (busy, file, .list _ element) => do return (← follow (busy, file, element)).within .list
  | (_, _, .map ..) => return .bare (.scalar (.wide .map))
  | (_, _, .set ..) => return .bare (.scalar (.wide .set))
  | (busy, file, .field f) => do return (← follow (busy, file, f.type)).inField f
  | (_, file, .declared (.struct s)) => return .bare (.struct file s)
  | (_, file, .declared (.enumeration e)) => return .bare (.enumeration file e)
  | (busy, file, .declared (.typedef d)) =>
    if busy.contains (file, d.name) then throw (.reference (.unresolved d.name file .typedefCycle))
    else follow ((file, d.name) :: busy, file, d.target)
  | (busy, file, .named _ reference) =>
    match l.resolve reference file with
    | .error e => throw (.reference e)
    | .ok r => follow (busy, r.file, .declared r.declaration)
  | (_, file, .void _) => throw (.unsupported (some .void) file)
  | (_, file, .other kind) => throw (.unsupported kind file)

/-- What a type expression in a file stands for, while some typedefs are being expanded. -/
noncomputable def expandUnaided (l : Library) (busy : List (Path × String)) (file : Path) (t : TypeExpr) :
    ExceptT ExpansionError Option Expansion :=
  unbounded (expandRound l) (busy, file, t)

/-- Following a type expression comes to what the type expression stands for. -/
private theorem settles_expandType (l : Library) (busy : List (Path × String)) (file : Path) (t : TypeExpr) :
    Settles (expandRound l) (busy, file, t) (expandType l busy file t) := by
  induction busy, file, t using expansion_induction l with
  | base busy file line name =>
    refine .of_step fun follow => ?_
    rw [expandRound, expandType]
    cases Scalar.ofBase? name <;> rfl
  | list busy file line element ih =>
    refine ih.of_call fun follow hfollow => ?_
    rw [expandRound, expandType_list, hfollow]
    cases expandType l busy file element <;> rfl
  | map | set => exact .of_step fun follow => by rw [expandRound, expandType]; rfl
  | field busy file f ih =>
    refine ih.of_call fun follow hfollow => ?_
    rw [expandRound, expandType_field, hfollow]
    cases expandType l busy file f.type <;> rfl
  | struct => exact .of_step fun follow => by rw [expandRound, expandType_struct]; rfl
  | enumeration => exact .of_step fun follow => by rw [expandRound, expandType_enumeration]; rfl
  | cycle busy file d hb => exact .of_step fun follow => by rw [expandRound, expandType_cycle hb, if_pos hb]; rfl
  | typedef busy file d hb ih =>
    refine ih.of_call fun follow hfollow => ?_
    rw [expandRound, expandType_typedef hb, if_neg (by simpa using hb), hfollow]
  | unresolved busy file line reference e hr =>
    exact .of_step fun follow => by rw [expandRound, expandType_of_unresolved hr, hr]; rfl
  | named busy file line reference r hr ih =>
    refine ih.of_call fun follow hfollow => ?_
    rw [expandRound, expandType_of_resolve hr, hr, ← hfollow]
  | void | other => exact .of_step fun follow => by rw [expandRound, expandType]; rfl

/-- Following a type expression has an end, and it is what the type expression stands for. -/
theorem expandUnaided_eq (l : Library) (busy : List (Path × String)) (file : Path) (t : TypeExpr) :
    expandUnaided l busy file t = ExceptT.mk (some (expandType l busy file t)) :=
  unbounded_of_settles (settles_expandType l busy file t)

/-- Compiles a type expression of a file. -/
noncomputable def compileUnaided (direction : Option Direction) (file : Path)
    (t : TypeExpr) : Unaided CompileError GraphType := do
  let e ← (expandUnaided (← get).library [] file t).run
  ofWork (compileExpansion direction e)

theorem compileUnaided_eq (direction : Option Direction) (file : Path) (t : TypeExpr) :
    compileUnaided direction file t = ofWork (compileType direction file t) := by
  have hexpand : ∀ s : Session, (expandUnaided s.library [] file t).run = some (expandType s.library [] file t) := by
    intro s
    rw [expandUnaided_eq]
    rfl
  unfold compileUnaided compileType
  simp only [hexpand]
  rw [ofWork_bind]
  rfl

/-! ### Fields and functions -/

/-- Compiles a field that takes a value. -/
noncomputable def compileInputUnaided (file : Path) (f : Field) : Unaided CompileError InputField := do
  let type ← compileUnaided (some .input) file (.field f)
  let default ← ofWork (Work.ofExcept .numeral (defaultFor f.default type))
  return ⟨f.name, type, default, f.description⟩

/-- Compiles a field that gives a value. -/
noncomputable def compileOutputUnaided (file : Path) (f : Field) : Unaided CompileError OutputField := do
  return ⟨f.name, ← compileUnaided (some .output) file (.field f), [], f.description⟩

/-- Does the work for one item after another. -/
def eachUnaided (work : α → Unaided ε β) : List α → Unaided ε (List β)
  | [] => return []
  | x :: xs => do
    let y ← work x
    return y :: (← eachUnaided work xs)

/-- Compiles a function: its result, then its arguments. -/
noncomputable def compileFunctionUnaided (file : Path) (f : Function) : Unaided CompileError OutputField := do
  let type ← compileUnaided (some .output) file f.result
  let arguments := collect InputField.name (← eachUnaided (compileInputUnaided file) f.arguments)
  ofWork (Work.ofExcept .name (checkAll checkName (arguments.map InputField.name)))
  return ⟨f.name, type, arguments, f.description⟩

/-- The fields of a struct seen as an argument. -/
noncomputable def structInputFieldsUnaided (file : Path) (s : Idl.Struct) : Unaided CompileError (List InputField) := do
  if s.fields.isEmpty then
    return [⟨placeholderName, .named (.scalar .boolean), none, some placeholderDescription⟩]
  return collect InputField.name (← eachUnaided (compileInputUnaided file) s.fields)

/-- The fields of a struct seen as a result. -/
noncomputable def structOutputFieldsUnaided (file : Path) (s : Idl.Struct) : Unaided CompileError
    (List OutputField) := do
  if s.fields.isEmpty then
    return [⟨placeholderName, .named (.scalar .boolean), [], some placeholderDescription⟩]
  return collect OutputField.name (← eachUnaided (compileOutputUnaided file) s.fields)

/-- The fields of a node, compiled in the session. -/
noncomputable def nodeFieldsUnaided : Node → Unaided FieldsError Fields
  | .input name file s => do
    let fields ← ExceptT.adapt (FieldsError.unresolved name) (structInputFieldsUnaided file s)
    ofWork (Work.ofExcept .name (checkAll checkName (fields.map InputField.name)))
    return .input fields
  | .output name file s => do
    let fields ← ExceptT.adapt (FieldsError.unresolved name) (structOutputFieldsUnaided file s)
    ofWork (Work.ofExcept .name (checkAll checkName (fields.map OutputField.name)))
    return .output fields
  | .enumeration _ members _ => do
    ofWork (Work.ofExcept .name (checkAll checkMemberName (members.map EnumMember.name)))
    return .none
  | .foreign => return .none

private theorem compileInputUnaided_eq (file : Path) (f : Field) :
    compileInputUnaided file f = ofWork (compileInputField file f) := by
  unfold compileInputUnaided compileInputField compileField
  simp only [compileUnaided_eq, ofWork_bind, ofWork_pure]

private theorem compileOutputUnaided_eq (file : Path) (f : Field) :
    compileOutputUnaided file f = ofWork (compileOutputField file f) := by
  unfold compileOutputUnaided compileOutputField compileField
  simp only [compileUnaided_eq, ofWork_bind, ofWork_pure]

private theorem eachInputUnaided_eq (file : Path) (fs : List Field) :
    eachUnaided (compileInputUnaided file) fs = ofWork (compileInputFields file fs) := by
  induction fs with
  | nil => rfl
  | cons f fs ih =>
    unfold eachUnaided compileInputFields
    simp only [ih, compileInputUnaided_eq, ofWork_bind, ofWork_pure]

private theorem eachOutputUnaided_eq (file : Path) (fs : List Field) :
    eachUnaided (compileOutputUnaided file) fs = ofWork (compileOutputFields file fs) := by
  induction fs with
  | nil => rfl
  | cons f fs ih =>
    unfold eachUnaided compileOutputFields
    simp only [ih, compileOutputUnaided_eq, ofWork_bind, ofWork_pure]

theorem compileFunctionUnaided_eq (file : Path) (f : Function) :
    compileFunctionUnaided file f = ofWork (compileFunction file f) := by
  unfold compileFunctionUnaided compileFunction
  simp only [compileUnaided_eq, eachInputUnaided_eq, ofWork_bind, ofWork_pure]

private theorem structInputFieldsUnaided_eq (file : Path) (s : Idl.Struct) :
    structInputFieldsUnaided file s = ofWork (structInputFields file s) := by
  unfold structInputFieldsUnaided structInputFields
  split
  · rfl
  · simp only [eachInputUnaided_eq, ofWork_bind, ofWork_pure]

private theorem structOutputFieldsUnaided_eq (file : Path) (s : Idl.Struct) :
    structOutputFieldsUnaided file s = ofWork (structOutputFields file s) := by
  unfold structOutputFieldsUnaided structOutputFields
  split
  · rfl
  · simp only [eachOutputUnaided_eq, ofWork_bind, ofWork_pure]

theorem nodeFieldsUnaided_eq (node : Node) : nodeFieldsUnaided node = ofWork (nodeFields node) := by
  cases node with
  | input name file s =>
    unfold nodeFieldsUnaided nodeFields withinFields
    simp only [structInputFieldsUnaided_eq, ofWork_bind, ofWork_adapt, ofWork_pure]
  | output name file s =>
    unfold nodeFieldsUnaided nodeFields withinFields
    simp only [structOutputFieldsUnaided_eq, ofWork_bind, ofWork_adapt, ofWork_pure]
  | enumeration name members description =>
    unfold nodeFieldsUnaided nodeFields
    simp only [ofWork_bind, ofWork_pure]
  | foreign => rfl

end ThriftGateway.Graph
