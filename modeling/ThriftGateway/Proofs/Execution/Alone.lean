import ThriftGateway.Proofs.Execution.Faultless

/-!
# Parts of requests

Fields that an operation selects from the root, with the variables and the fragments that they use, are a request of
their own (`only`).  If nothing is wrong with the whole, nothing is wrong with the part (`requestFaults_only`), and the
variables that the part uses have the values that they have in the whole (`readVariables_only`).
-/

namespace ThriftGateway.Execution

open Request (Document DocumentPart Fragment Operation SelectedField Selection Variable fragment?)
open Schema (TypeSystem)

/-- An operation cut down to some fields, with the variables that these use. -/
def cut (s : TypeSystem) (d : Document) (op : Operation) (fields : List SelectedField) : Operation :=
  let part := { op with selections := fields.map SelectedField.toSelection }
  { part with parameters := op.parameters.filter fun v => (usesOf s d.fragments part).any fun u => u.name = v.name }

/-- The request for some fields only, with the fragments inside of them.  Every part stands where it stands in the
whole, as if all else were blank. -/
def only (s : TypeSystem) (d : Document) (op : Operation) (fields : List SelectedField) : Document :=
  let part := cut s d op fields
  let inside := fragmentsOf d.fragments part
  { d with parts := .operation part :: (d.fragments.filter fun f => inside.any (·.name = f.name)).map .fragment }

/-! ### Fragments inside -/

theorem Reaches.mono {pool : List Fragment} {names names' : List String} {f : Fragment} (h : Reaches pool names f)
    (hsub : names ⊆ names') : Reaches pool names' f := by
  induction h with
  | named hname hf => exact .named (hsub hname) hf
  | inside _ hname hg ih => exact .inside ih hname hg

theorem Reaches.trans {pool : List Fragment} {names : List String} {f g : Fragment} (hf : Reaches pool names f)
    (h : Reaches pool (spreadsInAll f.selections) g) : Reaches pool names g := by
  induction h with
  | named hname hg => exact .inside hf hname hg
  | inside _ hname hg ih => exact .inside ih hname hg

/-- Names lead to the same fragments in two lists if they, and the names on the way, stand for the same. -/
private theorem reaches_congr {A B : List Fragment} {names : List String}
    (hnames : ∀ n ∈ names, fragment? B n = fragment? A n)
    (hinside : ∀ f, Reaches A names f → SpreadsAlike A B f.selections) (f : Fragment) :
    Reaches B names f ↔ Reaches A names f := by
  constructor
  · intro h
    induction h with
    | named hname hf => exact .named hname (hnames _ hname ▸ hf)
    | inside _ hname hg ih => exact .inside ih hname (hinside _ ih _ hname ▸ hg)
  · intro h
    induction h with
    | named hname hf => exact .named hname ((hnames _ hname).trans hf)
    | inside hf hname hg ih => exact .inside ih hname ((hinside _ hf _ hname).trans hg)

private theorem mem_fragmentsOf {fragments : List Fragment} {op : Operation} {f : Fragment} :
    f ∈ fragmentsOf fragments op ↔ Reaches fragments (spreadsInAll op.selections) f := mem_reached

/-! ### Selections from the root -/

private theorem parentNamed?_rootName (s : TypeSystem) : parentNamed? s Schema.rootName = some (rootParent s) := by
  have hroot : s.definitionNamed? Schema.rootName = some s.rootDefinition := by
    simp [Schema.TypeSystem.definitionNamed?, Schema.TypeSystem.definitions, Schema.TypeSystem.rootDefinition,
      Schema.Definition.name]
  rw [parentNamed?, hroot]
  rfl

/-- Selections stand somewhere in an operation where fields are selected from the root, and nothing is wrong with
them. -/
structure StandsAtRoot (s : TypeSystem) (d : Document) (op : Operation) (xs : List Selection) : Prop where
  faultless : selectionsFaults s d.fragments (conflictDepth d) (some (rootParent s)) xs = []
  uses : selectionsUses s (some (rootParent s)) xs ⊆ usesOf s d.fragments op
  inside : ∀ f, Reaches d.fragments (spreadsInAll xs) f → f ∈ fragmentsOf d.fragments op

variable {s : TypeSystem} {d : Document} {op : Operation}

theorem StandsAtRoot.of_subset {xs ys : List Selection} (h : StandsAtRoot s d op ys) (hsub : xs ⊆ ys) :
    StandsAtRoot s d op xs := by
  obtain ⟨hfaultless, huses, hinside⟩ := h
  rw [selectionsFaults_eq, List.flatMap_eq_nil_iff] at hfaultless
  rw [selectionsUses_eq] at huses
  rw [spreadsInAll_eq] at hinside
  refine ⟨?_, ?_, fun f hf => hinside f (hf.mono ?_)⟩
  · rw [selectionsFaults_eq, List.flatMap_eq_nil_iff]
    exact fun x hx => hfaultless x (hsub hx)
  · rw [selectionsUses_eq]
    exact List.Subset.trans (flatMap_subset_flatMap _ hsub) huses
  · rw [spreadsInAll_eq]
    exact flatMap_subset_flatMap _ hsub

theorem StandsAtRoot.flatMap {α : Type} {xs : List α} {f : α → Selection} (h : ∀ x ∈ xs, StandsAtRoot s d op [f x]) :
    StandsAtRoot s d op (xs.map f) := by
  refine ⟨?_, ?_, fun g hg => ?_⟩
  · rw [selectionsFaults_eq, List.flatMap_eq_nil_iff]
    intro y hy
    obtain ⟨x, hx, rfl⟩ := List.mem_map.1 hy
    simpa [selectionsFaults_eq] using (h x hx).faultless
  · rw [selectionsUses_eq]
    intro u hu
    obtain ⟨y, hy, hu⟩ := List.mem_flatMap.1 hu
    obtain ⟨x, hx, rfl⟩ := List.mem_map.1 hy
    exact (h x hx).uses (by simpa [selectionsUses_eq] using hu)
  · induction hg with
    | named hname hf =>
      rw [spreadsInAll_eq, List.mem_flatMap] at hname
      obtain ⟨y, hy, hname⟩ := hname
      obtain ⟨x, hx, rfl⟩ := List.mem_map.1 hy
      exact (h x hx).inside _ (.named (by simpa [spreadsInAll_eq] using hname) hf)
    | inside _ hname hg ih => exact mem_fragmentsOf.2 (.inside (mem_fragmentsOf.1 ih) hname hg)

/-- Fields that are offered where fields are selected from the root stand there themselves. -/
private theorem StandsAtRoot.of_offers (hd : IsFaultless s d) {xs : List Selection} {x : SelectedField}
    (h : Offers d.fragments Schema.rootName xs x) (hxs : StandsAtRoot s d op xs) :
    StandsAtRoot s d op [x.toSelection] := by
  induction h with
  | field h => exact hxs.of_subset (by simpa using h)
  | @inline xs ys x extent braces condition directives hmem hcondition h ih =>
    obtain ⟨hfaultless, huses, hinside⟩ := hxs.of_subset (List.cons_subset.2 ⟨hmem, List.nil_subset _⟩)
    have hparent : (condition.elim (some (rootParent s)) fun c => parentNamed? s c.text) = some (rootParent s) := by
      cases condition with
      | none => rfl
      | some c => rw [Option.elim_some, of_decide_eq_true hcondition, parentNamed?_rootName]
    refine ih ⟨?_, ?_, ?_⟩
    · simp only [selectionsFaults, selectionFaults, List.append_eq_nil_iff, hparent] at hfaultless
      exact hfaultless.1.2
    · simp only [selectionsUses, selectionUses, hparent, List.append_nil] at huses
      exact List.Subset.trans (List.subset_append_right _ _) huses
    · simpa only [spreadsInAll, spreadsIn, List.append_nil] using hinside
  | @spread xs x extent name directives f hmem hf hcondition h ih =>
    have hspread := hxs.of_subset (List.cons_subset.2 ⟨hmem, List.nil_subset _⟩)
    have hreached : Reaches d.fragments (spreadsInAll [.spread extent name directives]) f :=
      .named (by simp [spreadsInAll, spreadsIn, name_of_fragment? hf]) (name_of_fragment? hf ▸ hf)
    have hinside : f ∈ fragmentsOf d.fragments op := hspread.inside f hreached
    have hparent : parentNamed? s f.condition.text = some (rootParent s) := by rw [hcondition, parentNamed?_rootName]
    refine ih ⟨?_, ?_, fun g hg => hspread.inside g (hreached.trans hg)⟩
    · obtain ⟨before, hfaults⟩ := hd.fragments f (mem_of_fragment? hf)
      simp only [fragmentFaults, List.append_eq_nil_iff, hparent] at hfaults
      exact hfaults.2
    · intro u hu
      refine List.mem_append_right _ (List.mem_flatMap.2 ⟨f, hinside, List.mem_append_right _ ?_⟩)
      rwa [hparent]

/-- Fields that an operation of a request selects from the root, where nothing is wrong with the request. -/
structure SelectsFromRoot (s : TypeSystem) (d : Document) (op : Operation) (fields : List SelectedField) : Prop where
  faultless : IsFaultless s d
  operation : op ∈ d.operations
  kind : op.kind = .query
  offers : ∀ x ∈ fields, Offers d.fragments Schema.rootName op.selections x
  sublist : fields.Sublist (gather d.fragments op.selections)

variable {fields : List SelectedField}

theorem SelectsFromRoot.sublist_of (h : SelectsFromRoot s d op fields) {xs : List SelectedField}
    (hsub : xs.Sublist fields) : SelectsFromRoot s d op xs :=
  ⟨h.faultless, h.operation, h.kind, fun x hx => h.offers x (hsub.subset hx), hsub.trans h.sublist⟩

/-- What is wrong with an operation, part by part. -/
theorem SelectsFromRoot.standsAtRoot (h : SelectsFromRoot s d op fields) :
    StandsAtRoot s d op (cut s d op fields).selections := by
  have hop : StandsAtRoot s d op op.selections := by
    obtain ⟨before, hfaults⟩ := h.faultless.operations op h.operation
    have hparent : operationParent? s op = some (rootParent s) := if_pos h.kind
    refine ⟨?_, ?_, fun f hf => mem_fragmentsOf.2 hf⟩
    · simp only [operationFaults, List.append_eq_nil_iff, hparent] at hfaults
      exact hfaults.1.2
    · intro u hu
      refine List.mem_append_left _ (List.mem_append_right _ ?_)
      rwa [hparent]
  exact .flatMap fun x hx => .of_offers h.faultless (h.offers x hx) hop

/-! ### Fragments of a part -/

private theorem operations_cons (size : Nat) (op : Operation) (fs : List Fragment) :
    Document.operations ⟨size, .operation op :: fs.map .fragment⟩ = [op] := by
  have hnone : Document.operations ⟨size, fs.map .fragment⟩ = [] := by
    rw [Document.operations, List.filterMap_map]
    exact List.filterMap_eq_nil_iff.2 fun f _ => rfl
  exact congrArg (op :: ·) hnone

private theorem fragments_cons (size : Nat) (op : Operation) (fs : List Fragment) :
    Document.fragments ⟨size, .operation op :: fs.map .fragment⟩ = fs := by
  rw [Document.fragments, List.filterMap_cons_none rfl, List.filterMap_map]
  exact List.filterMap_some

private theorem operations_only : (only s d op fields).operations = [cut s d op fields] := operations_cons _ _ _

private theorem fragments_only : (only s d op fields).fragments =
    d.fragments.filter fun f => (fragmentsOf d.fragments (cut s d op fields)).any (·.name = f.name) :=
  fragments_cons _ _ _

/-- A name on the way from the fields stands for the same fragment as in the whole. -/
private theorem fragment?_only {n : String}
    (hn : ∀ f, fragment? d.fragments n = some f → f ∈ fragmentsOf d.fragments (cut s d op fields)) :
    fragment? (only s d op fields).fragments n = fragment? d.fragments n := by
  rw [fragments_only, fragment?, fragment?, List.find?_filter]
  cases hf : d.fragments.find? fun f => decide (f.name = n) with
  | none =>
    rw [List.find?_eq_none] at hf ⊢
    simp_all
  | some f =>
    have hinside := hn f hf
    have hname : f.name = n := name_of_fragment? hf
    rw [← hf]
    congr 1
    funext g
    by_cases hg : g.name = n
    · have hany : ((fragmentsOf d.fragments (cut s d op fields)).any fun f => decide (f.name = n)) = true :=
        List.any_eq_true.2 ⟨f, hinside, decide_eq_true hname⟩
      simp only [hany, hg, decide_true, and_self]
    · simp only [hg, decide_false, Bool.false_eq_true, and_false]

theorem spreadsAlike_cut :
    SpreadsAlike d.fragments (only s d op fields).fragments (cut s d op fields).selections :=
  fun _ hn => fragment?_only fun _ hf =>
    mem_fragmentsOf.2 (.named (name_of_fragment? hf ▸ hn) (name_of_fragment? hf ▸ hf))

private theorem spreadsAlike_inside {f : Fragment} (h : f ∈ fragmentsOf d.fragments (cut s d op fields)) :
    SpreadsAlike d.fragments (only s d op fields).fragments f.selections :=
  fun _ hn => fragment?_only fun _ hg =>
    mem_fragmentsOf.2 (.inside (mem_fragmentsOf.1 h) (name_of_fragment? hg ▸ hn) (name_of_fragment? hg ▸ hg))

/-- The fragments of the part are those inside of its fields. -/
theorem mem_fragments_only (hd : IsFaultless s d) {f : Fragment} :
    f ∈ (only s d op fields).fragments ↔ f ∈ fragmentsOf d.fragments (cut s d op fields) := by
  rw [fragments_only, List.mem_filter]
  constructor
  · rintro ⟨hf, hany⟩
    obtain ⟨g, hg, hname⟩ := List.any_eq_true.1 hany
    have hmem : g ∈ d.fragments := mem_of_fragment? (mem_fragmentsOf.1 hg).fragment?
    exact List.inj_on_of_nodup_map hd.distinct hmem hf (of_decide_eq_true hname) ▸ hg
  · intro hf
    exact ⟨mem_of_fragment? (mem_fragmentsOf.1 hf).fragment?, List.any_eq_true.2 ⟨f, hf, decide_eq_true rfl⟩⟩

theorem closed_only (hd : IsFaultless s d) {f : Fragment} (hf : f ∈ (only s d op fields).fragments) :
    SpreadsAlike d.fragments (only s d op fields).fragments f.selections :=
  spreadsAlike_inside ((mem_fragments_only hd).1 hf)

/-- In the part, the same fragments stand inside of the fields. -/
private theorem mem_fragmentsOf_only {f : Fragment} :
    f ∈ fragmentsOf (only s d op fields).fragments (cut s d op fields) ↔
      f ∈ fragmentsOf d.fragments (cut s d op fields) := by
  rw [mem_fragmentsOf, mem_fragmentsOf]
  exact reaches_congr spreadsAlike_cut (fun g hg => spreadsAlike_inside (mem_fragmentsOf.2 hg)) f

/-- No fragment of the part stands within itself. -/
private theorem isWithinItself_only (hd : IsFaultless s d) {f : Fragment} (hf : f ∈ (only s d op fields).fragments) :
    isWithinItself (only s d op fields).fragments f = false := by
  have hinside := (mem_fragments_only hd).1 hf
  have hring := hd.rings f (mem_of_fragment? (mem_fragmentsOf.1 hinside).fragment?)
  have hsame : ∀ g, Reaches (only s d op fields).fragments (spreadsInAll f.selections) g ↔
      Reaches d.fragments (spreadsInAll f.selections) g :=
    reaches_congr (spreadsAlike_inside hinside) fun g hg =>
      spreadsAlike_inside (mem_fragmentsOf.2 ((mem_fragmentsOf.1 hinside).trans hg))
  unfold isWithinItself at hring ⊢
  rw [List.any_eq_false] at hring ⊢
  exact fun g hg => hring g (mem_reached.2 ((hsame g).1 (mem_reached.1 hg)))

private theorem conflictDepth_only (hd : IsFaultless s d) : conflictDepth (only s d op fields) = conflictDepth d := by
  rw [hd.conflictDepth_eq, conflictDepth, if_neg]
  · rfl
  · rw [Bool.not_eq_true, List.any_eq_false]
    intro f hf
    rw [isWithinItself_only hd hf]
    simp

/-! ### Conflicts -/

private theorem conflictFaults_eq_nil {fragments : List Fragment} {depth : Nat} {xs : List Selection} :
    conflictFaults fragments depth xs = [] ↔ ∀ key ∈ keysOf (gather fragments xs),
      ∀ p ∈ pairsOf ((gather fragments xs).filter (·.key = key)), conflictOf? fragments depth p.1 p.2 = none := by
  simp only [conflictFaults, List.flatMap_eq_nil_iff, List.filterMap_eq_nil_iff, Option.map_eq_none_iff]

private theorem pairsOf_subset {α : Type} {xs ys : List α} (h : xs.Sublist ys) : pairsOf xs ⊆ pairsOf ys := by
  induction h with
  | slnil => exact List.Subset.refl _
  | cons y _ ih => exact List.Subset.trans ih (List.subset_append_right _ _)
  | cons_cons x hsub ih =>
    exact List.append_subset.2 ⟨List.Subset.trans (List.map_subset _ hsub.subset) (List.subset_append_left _ _),
      List.Subset.trans ih (List.subset_append_right _ _)⟩

theorem mem_keysOf {xs : List SelectedField} {key : String} : key ∈ keysOf xs ↔ ∃ x ∈ xs, x.key = key := by
  rw [keysOf, List.mem_eraseDups, List.mem_map]

/-- Fields among which there are no conflicts have none if some are left out. -/
private theorem conflictFaults_toSelection {fragments : List Fragment} {depth : Nat} {xs : List Selection}
    (h : conflictFaults fragments depth xs = []) (hsub : fields.Sublist (gather fragments xs)) :
    conflictFaults fragments depth (fields.map SelectedField.toSelection) = [] := by
  rw [conflictFaults_eq_nil] at h ⊢
  rw [gather_toSelection]
  intro key hkey p hp
  obtain ⟨x, hx, hname⟩ := mem_keysOf.1 hkey
  exact h key (mem_keysOf.2 ⟨x, hsub.subset hx, hname⟩) p (pairsOf_subset (hsub.filter _) hp)

/-! ### Variables -/

private theorem repeatedNames_eq_nil {names : List String} : repeatedNames names = [] ↔ names.Nodup := by
  simp only [repeatedNames, List.filter_eq_nil_iff, decide_eq_true_eq, Nat.not_lt, List.nodup_iff_count_le_one,
    List.mem_eraseDups]
  refine ⟨fun h n => ?_, fun h n _ => h n⟩
  by_cases hn : n ∈ names
  · exact h n hn
  · rw [List.count_eq_zero_of_not_mem hn]
    exact Nat.zero_le 1

private theorem variableNameFaults_eq_nil {fragments : List Fragment} :
    variableNameFaults s fragments op = [] ↔ (op.parameters.map Variable.name).Nodup ∧
      (∀ u ∈ usesOf s fragments op, ∃ v ∈ op.parameters, v.name = u.name) ∧
      ∀ v ∈ op.parameters, ∃ u ∈ usesOf s fragments op, u.name = v.name := by
  simp [variableNameFaults, repeatedNames_eq_nil]

/-- The part uses the same variables as in the whole. -/
private theorem mem_usesOf_only {u : Use} :
    u ∈ usesOf s (only s d op fields).fragments (cut s d op fields) ↔ u ∈ usesOf s d.fragments (cut s d op fields) := by
  simp only [usesOf, List.mem_append, List.mem_flatMap, mem_fragmentsOf_only]

private theorem mem_parameters_cut {v : Variable} :
    v ∈ (cut s d op fields).parameters ↔
      v ∈ op.parameters ∧ ∃ u ∈ usesOf s d.fragments (cut s d op fields), u.name = v.name := by
  show v ∈ op.parameters.filter _ ↔ _
  rw [List.mem_filter, List.any_eq_true]
  simp only [decide_eq_true_eq]
  rfl

/-- The part uses variables that the whole uses. -/
private theorem SelectsFromRoot.usesOf_cut_subset (h : SelectsFromRoot s d op fields) :
    usesOf s d.fragments (cut s d op fields) ⊆ usesOf s d.fragments op := by
  obtain ⟨-, huses, hinside⟩ := h.standsAtRoot
  have hparent : operationParent? s (cut s d op fields) = some (rootParent s) := if_pos h.kind
  intro u hu
  rw [usesOf, hparent] at hu
  rcases List.mem_append.1 hu with hu | hu
  · rcases List.mem_append.1 hu with hu | hu
    · exact List.mem_append_left _ (List.mem_append_left _ hu)
    · exact huses hu
  · obtain ⟨f, hf, hu⟩ := List.mem_flatMap.1 hu
    exact List.mem_append_right _ (List.mem_flatMap.2 ⟨f, hinside f (mem_fragmentsOf.1 hf), hu⟩)

private theorem SelectsFromRoot.variableNameFaults_only (h : SelectsFromRoot s d op fields)
    (hnames : variableNameFaults s d.fragments op = []) :
    variableNameFaults s (only s d op fields).fragments (cut s d op fields) = [] := by
  rw [variableNameFaults_eq_nil] at hnames ⊢
  obtain ⟨hnodup, hdefined, -⟩ := hnames
  refine ⟨hnodup.sublist (List.filter_sublist.map _), fun u hu => ?_, fun v hv => ?_⟩
  · rw [mem_usesOf_only] at hu
    obtain ⟨v, hv, hname⟩ := hdefined u (h.usesOf_cut_subset hu)
    exact ⟨v, mem_parameters_cut.2 ⟨hv, u, hu, hname.symm⟩, hname⟩
  · obtain ⟨-, u, hu, hname⟩ := mem_parameters_cut.1 hv
    exact ⟨u, mem_usesOf_only.2 hu, hname⟩

/-- A variable that the part uses is the same in the whole. -/
private theorem find?_parameters_cut {u : Use} (hu : u ∈ usesOf s d.fragments (cut s d op fields)) :
    (cut s d op fields).parameters.reverse.find? (fun v => v.name = u.name) =
      op.parameters.reverse.find? fun v => v.name = u.name := by
  show (op.parameters.filter _).reverse.find? _ = _
  rw [← List.filter_reverse, List.find?_filter]
  congr 1
  funext v
  refine decide_eq_decide.2 ⟨fun h => of_decide_eq_true h.2, fun hv => ⟨?_, decide_eq_true hv⟩⟩
  exact List.any_eq_true.2 ⟨u, hu, decide_eq_true hv.symm⟩

private theorem SelectsFromRoot.misplacedFaults_only (h : SelectsFromRoot s d op fields)
    (hmisplaced : misplacedFaults s d.fragments op = []) :
    misplacedFaults s (only s d op fields).fragments (cut s d op fields) = [] := by
  rw [misplacedFaults, List.filterMap_eq_nil_iff] at hmisplaced ⊢
  intro u hu
  rw [mem_usesOf_only] at hu
  rw [find?_parameters_cut hu]
  exact hmisplaced u (h.usesOf_cut_subset hu)

/-! ### The whole part -/

/-- Nothing is wrong with the operation of the part. -/
private theorem SelectsFromRoot.operationFaults_only (h : SelectsFromRoot s d op fields) :
    operationFaults s (only s d op fields) [] (cut s d op fields) = [] := by
  obtain ⟨before, hfaults⟩ := h.faultless.operations op h.operation
  simp only [operationFaults, List.append_eq_nil_iff] at hfaults ⊢
  obtain ⟨⟨⟨⟨⟨⟨⟨-, hnames⟩, hrepeated⟩, hvariables⟩, hdirectives⟩, hconflicts⟩, -⟩, hmisplaced⟩ := hfaults
  have hparent : operationParent? s (cut s d op fields) = some (rootParent s) := if_pos h.kind
  have hclosed : ∀ f ∈ (only s d op fields).fragments, _ := fun f => closed_only h.faultless
  refine ⟨⟨⟨⟨⟨⟨⟨?_, h.variableNameFaults_only hnames⟩, hrepeated⟩, ?_⟩, hdirectives⟩, ?_⟩, ?_⟩,
    h.misplacedFaults_only hmisplaced⟩
  · unfold operationNameFaults
    rw [operations_only]
    split <;> simp
  · rw [List.flatMap_eq_nil_iff] at hvariables ⊢
    exact fun v hv => hvariables v (mem_parameters_cut.1 hv).1
  · rw [conflictDepth_only h.faultless, conflictFaults_congr hclosed _ spreadsAlike_cut]
    exact conflictFaults_toSelection hconflicts h.sublist
  · rw [conflictDepth_only h.faultless, hparent, selectionsFaults_congr hclosed s _ _ _ spreadsAlike_cut]
    exact h.standsAtRoot.faultless

/-- Nothing is wrong with a fragment of the part, where it has a name of its own. -/
private theorem fragmentFaults_only (hd : IsFaultless s d) {f : Fragment} (hf : f ∈ (only s d op fields).fragments)
    {before : List Fragment} (hnew : ∀ g ∈ before, g.name ≠ f.name) :
    fragmentFaults s (only s d op fields) before f = [] := by
  have hmem : f ∈ d.fragments := mem_of_fragment? (mem_fragmentsOf.1 ((mem_fragments_only hd).1 hf)).fragment?
  have hclosed : ∀ f ∈ (only s d op fields).fragments, _ := fun f => closed_only hd
  obtain ⟨before', hfaults⟩ := hd.fragments f hmem
  simp only [fragmentFaults, List.append_eq_nil_iff] at hfaults ⊢
  obtain ⟨⟨⟨⟨⟨⟨⟨hcondition, -⟩, -⟩, hrepeated⟩, hunknown⟩, hdirectives⟩, hconflicts⟩, hselections⟩ := hfaults
  refine ⟨⟨⟨⟨⟨⟨⟨hcondition, ?_⟩, ?_⟩, hrepeated⟩, hunknown⟩, hdirectives⟩, ?_⟩, ?_⟩
  · rw [if_neg]
    rw [List.any_eq_true]
    rintro ⟨g, hg, hname⟩
    exact hnew g hg (of_decide_eq_true hname)
  · simp [ringFaults, isWithinItself_only hd hf]
  · rwa [conflictDepth_only hd, conflictFaults_congr hclosed _ (closed_only hd hf)]
  · rwa [conflictDepth_only hd, selectionsFaults_congr hclosed s _ _ _ (closed_only hd hf)]

/-- Nothing is wrong with fragments if nothing is wrong with each of them behind those before it. -/
private theorem partsFaults_fragments {d : Document} {op : Operation} {fs : List Fragment} (before : List Fragment)
    (h : ∀ pre f post, fs = pre ++ f :: post → fragmentFaults s d (before ++ pre) f = []) :
    partsFaults s d (.operation op :: before.map .fragment) (fs.map .fragment) = [] := by
  induction fs generalizing before with
  | nil => rfl
  | cons f fs ih =>
    have hbefore : Document.fragments { d with parts := .operation op :: before.map .fragment } = before :=
      fragments_cons _ _ _
    have hf := h [] f fs rfl
    rw [List.append_nil] at hf
    rw [List.map_cons, partsFaults, partFaults, hbefore, hf, List.nil_append]
    have hrest := ih (before ++ [f]) fun pre g post hg => by
      rw [List.append_assoc, List.singleton_append]
      exact h (f :: pre) g post (by rw [hg, List.cons_append])
    simpa using hrest

/-- If nothing is wrong with a request, nothing is wrong with the part for some of its fields. -/
theorem SelectsFromRoot.requestFaults_only (h : SelectsFromRoot s d op fields) :
    requestFaults s (only s d op fields) = [] := by
  have hparts : (only s d op fields).parts =
      .operation (cut s d op fields) :: (only s d op fields).fragments.map .fragment := by
    rw [fragments_only]
    rfl
  have hdistinct : ((only s d op fields).fragments.map Fragment.name).Nodup := by
    rw [fragments_only]
    exact h.faultless.distinct.sublist (List.filter_sublist.map _)
  rw [requestFaults, List.append_eq_nil_iff]
  constructor
  · rw [hparts, partsFaults, List.append_eq_nil_iff]
    refine ⟨h.operationFaults_only, partsFaults_fragments [] fun pre f post hf => ?_⟩
    rw [List.nil_append]
    refine fragmentFaults_only h.faultless (by rw [hf]; simp) fun g hg hname => ?_
    rw [hf, List.map_append, List.map_cons, List.nodup_append] at hdistinct
    exact hdistinct.2.2 _ (List.mem_map.2 ⟨g, hg, rfl⟩) _ List.mem_cons_self hname
  · -- every fragment of the part is inside of its fields
    rw [unusedFaults, List.map_eq_nil_iff, List.filter_eq_nil_iff]
    intro f hf
    rw [mem_fragments_only h.faultless] at hf
    simp only [operations_only, List.any_cons, List.any_nil, Bool.or_false, Bool.not_eq_true', Bool.not_eq_false]
    exact List.any_eq_true.2 ⟨f, mem_fragmentsOf_only.2 hf, decide_eq_true rfl⟩

/-- The operation of the part is the one to be run. -/
theorem chosenOperation_only {name : Option String} (h : chosenOperation d name = .ok op) :
    chosenOperation (only s d op fields) name = .ok (cut s d op fields) := by
  unfold chosenOperation at h ⊢
  rw [operations_only]
  cases name with
  | none => rfl
  | some name =>
    dsimp only at h ⊢
    split at h
    · rename_i op' hop
      cases h
      have hname : op.name.any (·.text = name) = true := by simpa using List.find?_some hop
      have hcut : (cut s d op fields).name = op.name := rfl
      rw [List.find?_cons_of_pos (by rw [hcut, hname])]
    · cases h

/-! ### Values of variables -/

theorem variableReport_eq_nil {room : Nat} {findings : List (String × Finding)}
    (h : variableReport room findings = .ok []) : findings = [] := by
  unfold variableReport at h
  split at h
  · rfl
  · cases h
  · cases h
  · cases h
  · rename_i room name f findings
    cases hrest : variableReport room findings <;> simp [hrest, bind, Except.bind, pure, Except.pure] at h

/-- The value that a variable has, if it has one. -/
def valueOf? (s : TypeSystem) (given : List (String × Value)) (v : Variable) : Option (String × Value) :=
  (readVariable s given v).toOption.join.map (v.name, ·)

/-- What is found wrong with a variable. -/
def findingsOf (s : TypeSystem) (given : List (String × Value)) (v : Variable) : List (String × Finding) :=
  match readVariable s given v with
  | .ok _ => []
  | .error fs => fs.map (v.name, ·)

/-- Variables are read one by one. -/
private theorem readVariables_eq (s : TypeSystem) (given : List (String × Value)) (vs : List Variable) :
    readVariables s given vs = (vs.filterMap (valueOf? s given), vs.flatMap (findingsOf s given)) := by
  induction vs with
  | nil => rfl
  | cons v vs ih =>
    rw [readVariables, ih, List.filterMap_cons, List.flatMap_cons, valueOf?, findingsOf]
    cases readVariable s given v with
    | error fs => rfl
    | ok x => cases x <;> rfl

private theorem lookup_filterMap_filter {given : List (String × Value)} {p : Variable → Bool} {name : String}
    {vs : List Variable} (h : ∀ v ∈ vs, v.name = name → p v = true) :
    ((vs.filter p).filterMap (valueOf? s given)).lookup name = (vs.filterMap (valueOf? s given)).lookup name := by
  induction vs with
  | nil => rfl
  | cons v vs ih =>
    have hvs := ih fun v hv => h v (List.mem_cons_of_mem _ hv)
    by_cases hp : p v = true
    · rw [List.filter_cons_of_pos hp, List.filterMap_cons, List.filterMap_cons]
      cases valueOf? s given v with
      | none => exact hvs
      | some x => rw [List.lookup_cons, List.lookup_cons, hvs]
    · have hname : v.name ≠ name := fun hname => hp (h v List.mem_cons_self hname)
      rw [List.filter_cons_of_neg hp, hvs, List.filterMap_cons, valueOf?]
      cases (readVariable s given v).toOption.join with
      | none => rfl
      | some x => rw [Option.map_some, List.lookup_cons, beq_false_of_ne (Ne.symm hname)]

/-- Where the variables of the whole can be read, those of the part can, and have the same values. -/
theorem readVariables_only {given : List (String × Value)} (h : (readVariables s given op.parameters).2 = []) :
    (readVariables s given (cut s d op fields).parameters).2 = [] ∧
      AgreeOn ((usesOf s d.fragments (cut s d op fields)).map Use.name) (readVariables s given op.parameters).1
        (readVariables s given (cut s d op fields).parameters).1 := by
  rw [readVariables_eq] at h ⊢
  rw [readVariables_eq]
  refine ⟨?_, fun name hname => ?_⟩
  · rw [List.flatMap_eq_nil_iff] at h ⊢
    exact fun v hv => h v (mem_parameters_cut.1 hv).1
  · obtain ⟨u, hu, rfl⟩ := List.mem_map.1 hname
    exact lookup_filterMap_filter fun v _ hv => List.any_eq_true.2 ⟨u, hu, decide_eq_true hv.symm⟩

end ThriftGateway.Execution
