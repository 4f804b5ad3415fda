import ThriftGateway.Proofs.Graph.Likeness
import ThriftGateway.Proofs.Schema.Assembling
import ThriftGateway.Proofs.Schema.Collecting
import ThriftGateway.Schema.Printer

/-!
# Schemas of libraries that compile alike

Where two libraries are alike, assembling with the second follows assembling with the first (`assemble_follows`): it
gives a schema with the same types, or fails with the same error.  Checking and printing a schema depend on the fields
of its root and on its types only (`faults_eq`, `print_eq`).
-/

namespace ThriftGateway.Schema

open Graph (FieldsError FunctionAlike Likeness NamedType QueryNaming Session Work compileFunction functionAlike_eq)
open Source (Path)

/-! ### Schemas with the same types -/

/-- Schemas whose root fields differ in the functions that they call only. -/
structure Schema.SameTypes (x x' : Schema) : Prop where
  root : x'.root.map RootField.field = x.root.map RootField.field
  types : x'.types = x.types

namespace Schema.SameTypes

variable {x x' : Schema}

private theorem system_eq (h : x.SameTypes x') : x'.system = x.system := by
  unfold Schema.system
  rw [h.root, h.types]

private theorem definitions_eq (h : x.SameTypes x') : x'.definitions = x.definitions := by
  unfold Schema.definitions
  rw [h.system_eq]

private theorem memberNames_eq (h : x.SameTypes x') : x'.memberNames = x.memberNames := by
  unfold Schema.memberNames
  rw [h.definitions_eq]

/-- What is wrong with a schema depends on its types only. -/
theorem faults_eq (h : x.SameTypes x') : x'.faults = x.faults := by
  unfold Schema.faults
  rw [h.definitions_eq, h.types, h.system_eq]

/-- How a schema is printed depends on its types only. -/
theorem print_eq (h : x.SameTypes x') : x'.print = x.print := by
  unfold Schema.print Schema.printRoot Schema.ownDefinitions
  rw [h.definitions_eq, h.system_eq]

end Schema.SameTypes

/-! ### Root fields -/

/-- Root fields that differ in the function that they call only, and there in types. -/
def RootAlike (L : Likeness) (x x' : RootField) : Prop :=
  ∃ file function, FunctionAlike (L.types file) x.binding.function function ∧
    x' = { x with binding := { x.binding with function } }

/-- Offers of services whose functions differ in types only; which of them are offered is the same. -/
structure OfferAlike (L : Likeness) (o o' : Offer) : Prop where
  name : o'.name = o.name
  file : o'.file = o.file
  service : o'.service.name = o.service.name
  functions : List.Forall₂ (FunctionAlike (L.types o.file)) o.service.functions o'.service.functions
  strict : o'.strict = o.strict
  lists : o'.lists = o.lists
  hooks : o'.hooks = o.hooks

variable {L : Likeness} {s s' : Session}

theorem functionsAlike_refl (hL : L.types = fun _ => Eq) (file : Path) (fs : List Idl.Function) :
    List.Forall₂ (FunctionAlike (L.types file)) fs fs :=
  List.forall₂_same.2 fun f _ => by rw [hL, functionAlike_eq]

private theorem map_field_eq {xs xs' : List RootField} (h : List.Forall₂ (RootAlike L) xs xs') :
    xs'.map RootField.field = xs.map RootField.field := by
  induction h with
  | nil => rfl
  | cons hx _ ih =>
    obtain ⟨_, _, -, rfl⟩ := hx
    rw [List.map_cons, List.map_cons, ih]

private theorem upsert_alike {x x' : RootField} (hx : RootAlike L x x') {xs xs' : List RootField}
    (h : List.Forall₂ (RootAlike L) xs xs') :
    List.Forall₂ (RootAlike L) (Graph.upsert (·.field.name) x xs) (Graph.upsert (·.field.name) x' xs') := by
  refine Graph.forall₂_upsert ?_ hx h
  rintro y _ ⟨_, _, -, rfl⟩
  rfl

private theorem addRootField_follows (naming : QueryNaming) {o o' : Offer} (ho : OfferAlike L o o')
    {f f' : Idl.Function}
    (hf : FunctionAlike (L.types o.file) f f') {xs xs' : List RootField} (h : List.Forall₂ (RootAlike L) xs xs') :
    L.Follows (List.Forall₂ (RootAlike L)) (addRootField naming o xs f) (addRootField naming o' xs' f') := by
  have hcompile := Likeness.compileFunction_follows hf
  have hname : f'.name = f.name := by
    obtain ⟨_, _, _, -, -, -, rfl⟩ := hf
    rfl
  have hany : ∀ query, xs'.any (·.field.name = query) = xs.any (·.field.name = query) := by
    intro query
    have := congrArg (List.any · (·.name = query)) (map_field_eq h)
    rwa [List.any_map, List.any_map] at this
  have hadd : L.Follows (List.Forall₂ (RootAlike L))
      (compileFunction o.file f >>= fun field => pure (Graph.upsert (·.field.name)
        ⟨{ field with name := naming o.service.name f.name }, ⟨o.name, f, o.hooks f.name⟩⟩ xs))
      (compileFunction o.file f' >>= fun field => pure (Graph.upsert (·.field.name)
        ⟨{ field with name := naming o.service.name f.name }, ⟨o.name, f', o.hooks f.name⟩⟩ xs')) :=
    hcompile.bind_eq fun field => .pure (upsert_alike ⟨o.file, f', hf, rfl⟩ h)
  unfold addRootField Offer.offers
  rw [ho.name, ho.file, ho.service, ho.strict, ho.lists, ho.hooks, hname]
  dsimp only
  rw [hany]
  split
  · exact (Likeness.report_follows _).bind_eq fun _ => .pure h
  · split
    · exact (Likeness.report_follows _).bind_eq fun _ => hadd
    · exact hadd

private theorem addRootFields_follows (naming : QueryNaming) {ps ps' : List (Offer × Idl.Function)}
    (hps : List.Forall₂ (fun p p' => OfferAlike L p.1 p'.1 ∧ FunctionAlike (L.types p.1.file) p.2 p'.2) ps ps')
    {xs xs' : List RootField} (h : List.Forall₂ (RootAlike L) xs xs') :
    L.Follows (List.Forall₂ (RootAlike L)) (addRootFields naming ps xs) (addRootFields naming ps' xs') := by
  induction hps generalizing xs xs' with
  | nil => exact .pure h
  | cons hp _ ih => exact (addRootField_follows naming hp.1 hp.2 h).bind fun _ _ h => ih h

private theorem rootFields_follows (naming : QueryNaming) {os os' : List Offer}
    (h : List.Forall₂ (OfferAlike L) os os') :
    L.Follows (List.Forall₂ (RootAlike L)) (rootFields naming os) (rootFields naming os') := by
  refine addRootFields_follows naming ?_ .nil
  induction h with
  | nil => exact .nil
  | cons ho _ ih =>
    refine List.rel_append ?_ ih
    rw [List.forall₂_map_left_iff, List.forall₂_map_right_iff]
    exact ho.functions.imp fun _ _ hf => ⟨ho, hf⟩

/-! ### Collecting -/

private theorem define_follows (t : NamedType) : L.Follows Eq (define t) (define t) := by
  cases t with
  | scalar x => exact .pure rfl
  | node id =>
    refine Likeness.Follows.look fun s s' hs => ?_
    obtain ⟨hn, hn'⟩ | ⟨n, n', hn, hn', h⟩ := hs.node? id
    · rw [hn, hn']
      exact .pure rfl
    · have hfields := Likeness.nodeFields_follows h
      rw [hn, hn']
      cases h with
      | input h | output h =>
        refine hfields.bind_eq fun fields => .pure ?_
        obtain ⟨_, -, rfl⟩ := h
        cases fields <;> rfl
      | enumeration => exact .pure rfl
      | foreign => exact hfields.bind_eq fun fields => .pure rfl

/-- What collecting comes to with the one library, it comes to with the other: type after type is the same. -/
private theorem outcome_of_collects {met : List (NamedType × Definition)} {pending : List NamedType}
    {r r' : Except FieldsError (List (NamedType × Definition)) × Session} (h : Collects s met pending r)
    (hs : L.Sessions s s') (h' : Collects s' met pending r') : L.Outcome Eq r r' := by
  induction h generalizing s' with
  | done =>
    cases h'
    exact .ok rfl hs
  | again hmet _ ih =>
    cases h' with
    | again _ h' => exact ih hs h'
    | failed hnew | missing hnew | found hnew => exact absurd (hmet.symm.trans hnew) (by decide)
  | @failed s s₁ met t pending e hnew hd =>
    have ht := define_follows t s s' hs
    rw [hd] at ht
    cases h' with
    | again hmet => exact absurd (hmet.symm.trans hnew) (by decide)
    | failed _ hd' =>
      rw [hd'] at ht
      cases ht with
      | error _ hs => exact .error _ hs
      | excused hp => exact .excused hp
    | missing _ hd' | found _ hd' =>
      rw [hd'] at ht
      cases ht with
      | excused hp => exact .excused hp
  | @missing s s₁ met t pending r hnew hd _ ih =>
    have ht := define_follows t s s' hs
    rw [hd] at ht
    cases h' with
    | again hmet => exact absurd (hmet.symm.trans hnew) (by decide)
    | failed _ hd' =>
      rw [hd'] at ht
      cases ht
    | missing _ hd' h' =>
      rw [hd'] at ht
      cases ht with
      | ok _ hs => exact ih hs h'
    | found _ hd' =>
      rw [hd'] at ht
      cases ht with
      | ok heq => cases heq
  | @found s s₁ met t d pending r hnew hd _ ih =>
    have ht := define_follows t s s' hs
    rw [hd] at ht
    cases h' with
    | again hmet => exact absurd (hmet.symm.trans hnew) (by decide)
    | failed _ hd' =>
      rw [hd'] at ht
      cases ht
    | missing _ hd' =>
      rw [hd'] at ht
      cases ht with
      | ok heq => cases heq
    | found _ hd' h' =>
      rw [hd'] at ht
      cases ht with
      | ok heq hs =>
        cases heq
        exact ih hs h'

/-! ### Assembling -/

/-- Schemas with the same types whose root fields differ in the types of the functions that they call only. -/
structure SchemaAlike (L : Likeness) (x x' : Schema) : Prop where
  root : List.Forall₂ (RootAlike L) x.root x'.root
  types : x'.types = x.types

theorem SchemaAlike.sameTypes {x x' : Schema} (h : SchemaAlike L x x') : x.SameTypes x' :=
  ⟨map_field_eq h.root, h.types⟩

/-- With the same types, schemas that are alike are the same. -/
theorem schemaAlike_eq (hL : L.types = fun _ => Eq) {x x' : Schema} (h : SchemaAlike L x x') : x' = x := by
  have hroots : RootAlike L = Eq := by
    funext y y'
    refine propext ⟨?_, ?_⟩
    · rintro ⟨file, function, hf, rfl⟩
      rw [hL, functionAlike_eq] at hf
      rw [← hf]
    · rintro rfl
      exact ⟨default, y.binding.function, by rw [hL, functionAlike_eq], rfl⟩
  obtain ⟨root, types⟩ := x'
  obtain ⟨hroot, rfl⟩ := h
  rw [hroots, List.forall₂_eq_eq_eq] at hroot
  obtain rfl : x.root = root := hroot
  rfl

/-- Offers that are alike make schemas that are alike, or the same error. -/
theorem assemble_follows (naming : QueryNaming) {os os' : List Offer} (h : List.Forall₂ (OfferAlike L) os os') :
    L.Follows (SchemaAlike L) (assemble naming os) (assemble naming os') := by
  refine ((rootFields_follows naming h).adapt _).bind fun root root' hroot => ?_
  have hfields := map_field_eq hroot
  have hnames : root'.map (·.field.name) = root.map (·.field.name) := by
    have := congrArg (List.map (·.name)) hfields
    rwa [List.map_map, List.map_map] at this
  rw [hnames]
  refine (Likeness.Follows.result _ _).bind_eq fun _ => ?_
  dsimp only
  rw [hfields]
  intro s s' hs
  have hcollect := outcome_of_collects (collects_of_typeBound s (outputReferences (root.map RootField.field))) hs
    (collects_of_typeBound s' _)
  rw [Work.run_bind_of_ok (Work.run_get s), Work.run_bind_of_ok (Work.run_get s')]
  refine (hcollect.adapt _).bind ?_
  rintro types _ rfl
  have hschema : SchemaAlike L ⟨root, types⟩ ⟨root', types⟩ := ⟨hroot, rfl⟩
  have hsame := hschema.sameTypes
  rw [hsame.definitions_eq, hsame.memberNames_eq, hsame.faults_eq]
  split
  · exact (Likeness.Follows.throw (R := fun _ _ => False) _).bind nofun
  · refine (Likeness.Follows.result _ _).bind_eq fun _ => ?_
    split
    · exact (Likeness.Follows.throw (R := fun _ _ => False) _).bind nofun
    · exact Likeness.close_follows.bind_eq fun _ => .pure hschema

end ThriftGateway.Schema
