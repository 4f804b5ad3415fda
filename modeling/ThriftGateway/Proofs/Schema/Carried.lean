import ThriftGateway.Proofs.Graph.Collecting
import ThriftGateway.Proofs.Graph.Default
import ThriftGateway.Proofs.Graph.Work
import ThriftGateway.Schema.Generation

/-!
# Defaults that a schema carries

Every argument and every field of an input object in a generated schema comes from a field of a file, so its default
has been checked against its type (`isAssembled_of_generate`, `IsAssembled.sound`).
-/

namespace ThriftGateway.Graph

open Idl (Field Function)
open Source (Path)

/-- The default of an argument or an input field has been checked against its type. -/
def InputField.IsSound (f : InputField) : Prop := ∀ v, f.default = some v → IsCarried f.type v

/-! ### Compiling -/

private theorem compileInputField_sound (file : Path) (f : Field) :
    Gives (compileInputField file f) InputField.IsSound := by
  unfold compileInputField
  refine Gives.after fun type => (Gives.ofExcept fun default h => h).bind fun default h => Gives.pure fun v hv => ?_
  obtain rfl : default = some v := hv
  exact isCarried_of_defaultFor h

private theorem compileInputFields_sound (file : Path) (fs : List Field) :
    Gives (compileInputFields file fs) fun xs => ∀ f ∈ xs, f.IsSound := by
  induction fs with
  | nil => exact Gives.pure (by simp)
  | cons f fs ih =>
    unfold compileInputFields
    refine (compileInputField_sound file f).bind fun x hx => ih.bind fun xs hxs => Gives.pure ?_
    intro y hy
    rcases List.mem_cons.1 hy with rfl | hy
    · exact hx
    · exact hxs y hy

private theorem compileFunction_sound (file : Path) (f : Function) :
    Gives (compileFunction file f) fun x => ∀ a ∈ x.arguments, a.IsSound := by
  unfold compileFunction
  refine Gives.after fun type => (compileInputFields_sound file _).bind fun xs hxs => Gives.after fun _ => Gives.pure ?_
  exact fun a ha => hxs a (mem_of_mem_collect ha)

theorem compileOutputFields_arguments (file : Path) (fs : List Field) :
    Gives (compileOutputFields file fs) fun xs => ∀ x ∈ xs, x.arguments = [] := by
  induction fs with
  | nil => exact Gives.pure (by simp)
  | cons f fs ih =>
    unfold compileOutputFields
    refine Gives.bind (P := fun x : OutputField => x.arguments = []) ?_ fun x hx => ih.bind fun xs hxs => Gives.pure ?_
    · unfold compileOutputField
      exact Gives.after fun _ => Gives.pure rfl
    · intro y hy
      rcases List.mem_cons.1 hy with rfl | hy
      · exact hx
      · exact hxs y hy

/-- The fields that take a value among the fields of a node. -/
def Fields.inputs : Fields → List InputField
  | .input fields => fields
  | .output fields => fields.flatMap OutputField.arguments
  | .none => []

private theorem structInputFields_sound (file : Path) (s : Idl.Struct) :
    Gives (structInputFields file s) fun xs => ∀ f ∈ xs, f.IsSound := by
  unfold structInputFields
  split
  · refine Gives.pure fun f hf v hv => ?_
    obtain rfl := List.mem_singleton.1 hf
    cases hv
  · refine (compileInputFields_sound file _).bind fun xs hxs => Gives.pure fun f hf => ?_
    exact hxs f (mem_of_mem_collect hf)

theorem structOutputFields_arguments (file : Path) (s : Idl.Struct) :
    Gives (structOutputFields file s) fun xs => ∀ x ∈ xs, x.arguments = [] := by
  unfold structOutputFields
  split
  · exact Gives.pure (by simp)
  · refine (compileOutputFields_arguments file _).bind fun xs hxs => Gives.pure fun x hx => ?_
    exact hxs x (mem_of_mem_collect hx)

private theorem nodeFields_sound (n : Node) : Gives (nodeFields n) fun fields => ∀ f ∈ fields.inputs, f.IsSound := by
  cases n with
  | input name file s =>
    exact (Gives.adapt _ (structInputFields_sound file s)).bind fun xs hxs => Gives.after fun _ => Gives.pure hxs
  | output name file s =>
    refine (Gives.adapt _ (structOutputFields_arguments file s)).bind fun xs hxs =>
      Gives.after fun _ => Gives.pure fun f hf => ?_
    obtain ⟨x, hx, hf⟩ := List.mem_flatMap.1 hf
    rw [hxs x hx] at hf
    cases hf
  | enumeration name members description => exact Gives.after fun _ => Gives.pure (by simp [Fields.inputs])
  | foreign => exact Gives.pure (by simp [Fields.inputs])

end ThriftGateway.Graph

namespace ThriftGateway.Schema

open Graph (Fields Gives InputField NamedType Node OutputField Scalar Session Work)

/-- The fields of a type that take a value, and the arguments of its fields. -/
def Definition.inputs : Definition → List InputField
  | .object _ _ fields => fields.flatMap OutputField.arguments
  | .input _ _ fields => fields
  | .scalar _ | .enumeration .. => []

/-- All arguments and input fields of a schema. -/
def Schema.inputs (s : Schema) : List InputField := s.definitions.flatMap Definition.inputs

/-- What is collected for a type: defaults have been checked, and a scalar is itself. -/
structure IsCollected (t : NamedType) (d : Definition) : Prop where
  sound : ∀ f ∈ d.inputs, f.IsSound
  scalar : ∀ s, t = .scalar s → d = .scalar s

private theorem sound_of_definitionOf {n : Node} {fields : Fields} {d : Definition} (h : definitionOf n fields = some d)
    (hs : ∀ f ∈ fields.inputs, f.IsSound) : ∀ f ∈ d.inputs, f.IsSound := by
  unfold definitionOf at h
  split at h
  · cases h
    exact hs
  · cases h
    exact hs
  · cases h
    simp [Definition.inputs]
  · cases h

private theorem define_collected (t : NamedType) : Gives (define t) fun d => ∀ x, d = some x → IsCollected t x := by
  unfold define
  cases t with
  | scalar s =>
    refine Gives.pure fun x hx => ?_
    cases hx
    exact ⟨by simp [Definition.inputs], fun s' hs => by cases hs; rfl⟩
  | node id =>
    refine Gives.after fun s => ?_
    split
    · exact Gives.pure fun x hx => by cases hx
    · refine Gives.pure fun x hx => ?_
      cases hx
      exact ⟨by simp [Definition.inputs], fun s hs => by cases hs⟩
    · refine (Graph.nodeFields_sound _).bind fun fields hf => Gives.pure fun x hx => ?_
      exact ⟨sound_of_definitionOf hx hf, fun s hs => by cases hs⟩

section Collecting

variable {fuel : Nat} {met : List (NamedType × Definition)} {t : NamedType} {pending : List NamedType}

theorem collectTypes_nil : collectTypes fuel met [] = pure met := by
  unfold collectTypes
  rfl

theorem collectTypes_of_met (h : (met.any (·.1 = t)) = true) :
    collectTypes fuel met (t :: pending) = collectTypes fuel met pending := by
  rw [collectTypes.eq_def]
  exact if_pos h

theorem collectTypes_zero (h : ¬(met.any (·.1 = t)) = true) : collectTypes 0 met (t :: pending) = pure met := by
  rw [collectTypes, if_neg h]

/-- A type that has not been met is defined, and what it refers to comes before what was pending. -/
theorem collectTypes_succ (h : ¬(met.any (·.1 = t)) = true) :
    collectTypes (fuel + 1) met (t :: pending) = (do
      match ← define t with
      | none => collectTypes (fuel + 1) met pending
      | some d => collectTypes fuel (met ++ [(t, d)]) (d.references ++ pending)) := by
  rw [collectTypes.eq_def]
  exact if_neg h

/-- Collecting adds what is collected for each type that is met. -/
private theorem collectTypes_collected (hmet : ∀ e ∈ met, IsCollected e.1 e.2) :
    Gives (collectTypes fuel met pending) fun types => ∀ e ∈ types, IsCollected e.1 e.2 := by
  induction fuel, met, pending using collectTypes.induct with
  | case1 fuel met =>
    rw [collectTypes_nil]
    exact Gives.pure hmet
  | case2 fuel met t pending h ih =>
    rw [collectTypes_of_met h]
    exact ih hmet
  | case3 met t pending h =>
    rw [collectTypes_zero h]
    exact Gives.pure hmet
  | case4 met t pending h fuel ihNone ihSome =>
    rw [collectTypes_succ h]
    refine (define_collected t).bind fun d hd => ?_
    cases d with
    | none => exact ihNone hmet
    | some d =>
      refine ihSome d fun e he => ?_
      rcases List.mem_append.1 he with he | he
      · exact hmet e he
      · obtain rfl := List.mem_singleton.1 he
        exact hd d rfl

end Collecting

/-! ### Assembling -/

private theorem addRootField_sound (naming : Graph.QueryNaming) (o : Offer) {fields : List RootField} (f : Idl.Function)
    (hfields : ∀ r ∈ fields, ∀ a ∈ r.field.arguments, a.IsSound) :
    Gives (addRootField naming o fields f) fun rs => ∀ r ∈ rs, ∀ a ∈ r.field.arguments, a.IsSound := by
  have hadd : ∀ query, Gives (do
      let field ← Graph.compileFunction o.file f
      return Graph.upsert (·.field.name) ⟨{ field with name := query }, ⟨o.name, f, o.hooks f.name⟩⟩ fields)
      fun rs => ∀ r ∈ rs, ∀ a ∈ r.field.arguments, a.IsSound := by
    intro query
    refine (Graph.compileFunction_sound o.file f).bind fun field hf => Gives.pure fun r hr => ?_
    rcases Graph.mem_of_mem_upsert hr with rfl | hr
    · exact hf
    · exact hfields r hr
  unfold addRootField
  split
  · exact Gives.after fun _ => Gives.pure hfields
  · dsimp only
    split
    · exact Gives.after fun _ => hadd _
    · exact hadd _

private theorem addRootFields_sound (naming : Graph.QueryNaming) (fs : List (Offer × Idl.Function))
    {fields : List RootField} (hfields : ∀ r ∈ fields, ∀ a ∈ r.field.arguments, a.IsSound) :
    Gives (addRootFields naming fs fields) fun rs => ∀ r ∈ rs, ∀ a ∈ r.field.arguments, a.IsSound := by
  induction fs generalizing fields with
  | nil => exact Gives.pure hfields
  | cons f fs ih => exact (addRootField_sound naming f.1 f.2 hfields).bind fun rs hrs => ih hrs

/-- What is known of a schema by the way in which it has been put together. -/
structure IsAssembled (s : Schema) : Prop where
  root : ∀ r ∈ s.root, ∀ a ∈ r.field.arguments, a.IsSound
  types : ∀ e ∈ s.types, IsCollected e.1 e.2

private theorem assemble_assembled (naming : Graph.QueryNaming) (offers : List Offer) :
    Gives (assemble naming offers) IsAssembled := by
  unfold assemble
  refine (Gives.adapt _ (addRootFields_sound naming (offeredFunctions offers) (by simp))).bind fun root hroot => ?_
  refine Gives.after fun _ => Gives.after fun s => ?_
  refine (Gives.adapt _ (collectTypes_collected (by simp))).bind fun types htypes => ?_
  have hschema : IsAssembled ⟨root, types⟩ := ⟨hroot, htypes⟩
  dsimp only
  split
  · exact (Gives.throw _).bind (P := fun _ => False) fun _ h => h.elim
  · refine Gives.after fun _ => ?_
    split
    · exact (Gives.throw _).bind (P := fun _ => False) fun _ h => h.elim
    · exact Gives.after fun _ => Gives.pure hschema

/-- Generating succeeds if the services can be prepared and the schema assembled. -/
theorem generate_eq_ok {t : Source.FileTree} {c : Config} {types : Graph.TypeNaming} {queries : Graph.QueryNaming}
    {hasClient : Bool} {s : Schema} :
    (generate t c types queries hasClient).outcome = .ok s ↔
      ∃ p session session', Work.run (prepareServices t c {} c.services)
          (Session.fresh c.convertEnumToInt.isTrue types) = (.ok p, session) ∧
        Work.run (assemble queries p.offers) (if hasClient then session else session.report .noClient) =
          (.ok s, session') := by
  unfold generate
  dsimp only
  generalize Work.run (prepareServices t c {} c.services) (Session.fresh c.convertEnumToInt.isTrue types) = r
  obtain ⟨r, session⟩ := r
  cases r with
  | error e => simp
  | ok p =>
    dsimp only
    generalize hr : Work.run (assemble queries p.offers) (if hasClient then session else session.report .noClient) = r
    obtain ⟨r, session'⟩ := r
    cases r with
    | error e => simp [hr]
    | ok s' => simp [hr]

/-- A generated schema has been assembled. -/
theorem isAssembled_of_generate {t : Source.FileTree} {c : Config} {types : Graph.TypeNaming}
    {queries : Graph.QueryNaming} {hasClient : Bool} {s : Schema}
    (h : (generate t c types queries hasClient).outcome = .ok s) : IsAssembled s := by
  obtain ⟨p, session, session', -, ha⟩ := generate_eq_ok.1 h
  exact assemble_assembled queries p.offers _ _ _ ha

/-- The defaults in an assembled schema have been checked. -/
theorem IsAssembled.sound {s : Schema} (h : IsAssembled s) : ∀ f ∈ s.inputs, f.IsSound := by
  intro f hf
  obtain ⟨d, hd, hf⟩ := List.mem_flatMap.1 hf
  rcases List.mem_cons.1 hd with rfl | hd
  · obtain ⟨x, hx, hf⟩ := List.mem_flatMap.1 hf
    obtain ⟨r, hr, rfl⟩ := List.mem_map.1 hx
    exact h.root r hr f hf
  · obtain ⟨e, he, rfl⟩ := List.mem_map.1 hd
    exact (h.types e he).sound f hf

/-- What a scalar means in an assembled schema, if anything, is the scalar. -/
theorem IsAssembled.definition?_scalar {s : Schema} (h : IsAssembled s) {x : Scalar} {d : Definition}
    (hd : s.definition? (.scalar x) = some d) : d = .scalar x := by
  unfold Schema.definition? TypeSystem.definition? Schema.system at hd
  rw [Option.map_eq_some_iff] at hd
  obtain ⟨e, he, rfl⟩ := hd
  have ht : e.1 = .scalar x := by simpa using List.find?_some he
  exact (h.types e (List.mem_of_find?_eq_some he)).scalar x ht

end ThriftGateway.Schema
