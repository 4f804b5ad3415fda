import ThriftGateway.Proofs.Execution.Variables

/-!
# What selections come to

The fields that selections come to depend on the fragments that are named in them and on the variables in their
directives, not on the rest of a request (`gather_congr`, `toOption_collectFields`).  They are fields of the selections
themselves or of fragments inside that are on the same type (`Offers`), in the order in which all fields stand
(`collects_collectFields`).  The fragments that names lead to are those that the names, or fragments on the way, name
(`mem_reached`).
-/

namespace ThriftGateway.Execution

open Request (Directive Fragment SelectedField Selection fragment?)

/-! ### Fragments by their names -/

section

variable {pool : List Fragment} {f : Fragment} {name : String}

theorem name_of_fragment? (h : fragment? pool name = some f) : f.name = name := by
  simpa using List.find?_some h

theorem mem_of_fragment? (h : fragment? pool name = some f) : f ∈ pool := List.mem_of_find?_eq_some h

private theorem fragment?_without (f : Fragment) (pool : List Fragment) (name : String) :
    fragment? (without f pool) name = if name = f.name then none else fragment? pool name := by
  unfold fragment? without
  rw [List.find?_filter]
  split
  · rename_i hname
    rw [List.find?_eq_none]
    rintro g - hg
    simp_all
  · rename_i hname
    congr 1
    funext g
    by_cases hg : g.name = name <;> simp_all

private theorem length_without_lt (h : fragment? pool name = some f) : (without f pool).length < pool.length :=
  List.length_filter_lt_length_iff_exists.2 ⟨f, mem_of_fragment? h, by simp⟩

end

/-! ### Selections that name the same fragments -/

/-- The names of fragments in selections stand for the same ones in both lists. -/
def SpreadsAlike (fragments fragments' : List Fragment) (selections : List Selection) : Prop :=
  ∀ n ∈ spreadsInAll selections, fragment? fragments' n = fragment? fragments n

/-- What is left of two lists of fragments: names that stand for the same there stand for the same here. -/
structure Parallel (fragments fragments' pool pool' : List Fragment) : Prop where
  subset : pool' ⊆ fragments'
  same : ∀ n, fragment? fragments' n = fragment? fragments n → fragment? pool' n = fragment? pool n

section

variable {A B pool pool' : List Fragment} {x : Selection} {xs : List Selection}

private theorem Parallel.refl (A B : List Fragment) : Parallel A B A B := ⟨List.Subset.refl _, fun _ h => h⟩

private theorem Parallel.without (h : Parallel A B pool pool') (f : Fragment) :
    Parallel A B (without f pool) (without f pool') where
  subset := fun _ hg => h.subset (List.mem_filter.1 hg).1
  same := fun n hn => by rw [fragment?_without, fragment?_without, h.same n hn]

theorem SpreadsAlike.mono {ys : List Selection} (h : SpreadsAlike A B ys) (hsub : spreadsInAll xs ⊆ spreadsInAll ys) :
    SpreadsAlike A B xs := fun n hn => h n (hsub hn)

theorem spreadsInAll_eq (xs : List Selection) : spreadsInAll xs = xs.flatMap spreadsIn := by
  induction xs with
  | nil => rfl
  | cons x xs ih => rw [spreadsInAll, ih, List.flatMap_cons]

/-! ### All fields of selections -/

section

variable {g g' : String → List SelectedField}

mutual
private theorem gatherSelection_congr (x : Selection) (h : ∀ n ∈ spreadsIn x, g' n = g n) :
    gatherSelection g' x = gatherSelection g x := by
  cases x with
  | field => rfl
  | spread _ name => exact h name.text List.mem_cons_self
  | inline _ _ _ _ selections => exact gatherSelections_congr selections h

private theorem gatherSelections_congr (xs : List Selection) (h : ∀ n ∈ spreadsInAll xs, g' n = g n) :
    gatherSelections g' xs = gatherSelections g xs := by
  cases xs with
  | nil => rfl
  | cons x xs =>
    rw [spreadsInAll] at h
    rw [gatherSelections, gatherSelections, gatherSelection_congr x fun n hn => h n (List.mem_append_left _ hn),
      gatherSelections_congr xs fun n hn => h n (List.mem_append_right _ hn)]
end

end

/-- A name that stands for the same fragment in two lists has the same fields in them. -/
private theorem gatherFragment_congr (hclosed : ∀ f ∈ B, SpreadsAlike A B f.selections) {m n : Nat}
    (hpools : Parallel A B pool pool') (hm : pool.length ≤ m) (hn : pool'.length ≤ n) {name : String}
    (h : fragment? B name = fragment? A name) : gatherFragment n pool' name = gatherFragment m pool name := by
  -- the pools get smaller with every fragment
  induction m generalizing n pool pool' name with
  | zero =>
    obtain rfl := List.eq_nil_of_length_eq_zero (Nat.le_zero.1 hm)
    have hnone : fragment? pool' name = none := hpools.same name h
    cases n with
    | zero => rfl
    | succ n => simp only [gatherFragment, hnone]
  | succ m ih =>
    have hsame := hpools.same name h
    cases n with
    | zero =>
      obtain rfl := List.eq_nil_of_length_eq_zero (Nat.le_zero.1 hn)
      have hnone : fragment? pool name = none := hsame.symm
      simp only [gatherFragment, hnone]
    | succ n =>
      rw [gatherFragment, gatherFragment, hsame]
      cases hf : fragment? pool name with
      | none => rfl
      | some f =>
        rw [hf] at hsame
        have hmem : f ∈ B := hpools.subset (mem_of_fragment? hsame)
        have hlt := length_without_lt hf
        have hlt' := length_without_lt hsame
        exact gatherSelections_congr _ fun k hk =>
          ih (hpools.without f) (by omega) (by omega) (hclosed f hmem k hk)

/-- Selections have the same fields under two lists of fragments in which their names stand for the same. -/
theorem gather_congr (hclosed : ∀ f ∈ B, SpreadsAlike A B f.selections) (h : SpreadsAlike A B xs) :
    gather B xs = gather A xs :=
  gatherSelections_congr xs fun n hn =>
    gatherFragment_congr hclosed (Parallel.refl A B) (Nat.le_refl _) (Nat.le_refl _) (h n hn)

section

variable {g : String → List SelectedField} {y : SelectedField}

mutual
private theorem mem_gatherSelection (x : Selection) (h : y ∈ gatherSelection g x) :
    spreadsInAll y.selections ⊆ spreadsIn x ∨ ∃ n, y ∈ g n := by
  cases x with
  | field =>
    obtain rfl := List.mem_singleton.1 h
    exact .inl (List.Subset.refl _)
  | spread _ name => exact .inr ⟨name.text, h⟩
  | inline _ _ _ _ selections => exact mem_gatherSelections selections h

private theorem mem_gatherSelections (xs : List Selection) (h : y ∈ gatherSelections g xs) :
    spreadsInAll y.selections ⊆ spreadsInAll xs ∨ ∃ n, y ∈ g n := by
  cases xs with
  | nil => cases h
  | cons x xs =>
    rw [gatherSelections] at h
    rw [spreadsInAll]
    rcases List.mem_append.1 h with h | h
    · exact (mem_gatherSelection x h).imp_left (List.subset_append_of_subset_left _)
    · exact (mem_gatherSelections xs h).imp_left (List.subset_append_of_subset_right _)
end

private theorem mem_gatherFragment {depth : Nat} {name : String} (h : y ∈ gatherFragment depth pool name) :
    ∃ f ∈ pool, spreadsInAll y.selections ⊆ spreadsInAll f.selections := by
  induction depth generalizing pool name with
  | zero => cases h
  | succ depth ih =>
    rw [gatherFragment] at h
    cases hf : fragment? pool name with
    | none =>
      rw [hf] at h
      cases h
    | some f =>
      rw [hf] at h
      obtain hsub | ⟨n, hn⟩ := mem_gatherSelections f.selections h
      · exact ⟨f, mem_of_fragment? hf, hsub⟩
      · obtain ⟨f', hf', hsub⟩ := ih hn
        exact ⟨f', (List.mem_filter.1 hf').1, hsub⟩

/-- What a gathered field names stands in the selections or in a fragment. -/
theorem spreadsIn_of_mem_gather {fragments : List Fragment} (h : y ∈ gather fragments xs) :
    spreadsInAll y.selections ⊆ spreadsInAll xs ∨
      ∃ f ∈ fragments, spreadsInAll y.selections ⊆ spreadsInAll f.selections :=
  (mem_gatherSelections xs h).imp_right fun ⟨_, hn⟩ => mem_gatherFragment hn

end

/-- Fields by themselves are all that they come to. -/
theorem gather_toSelection (fragments : List Fragment) (fields : List SelectedField) :
    gather fragments (fields.map SelectedField.toSelection) = fields := by
  unfold gather
  induction fields with
  | nil => rfl
  | cons x xs ih =>
    rw [List.map_cons, gatherSelections, ih]
    rfl

end

/-! ### Selections that come to the same -/

/-- Selections name the same fragments in two lists, and their variables have the same values. -/
structure Shares (A B : List Fragment) (a b : List (String × Value)) (xs : List Selection) : Prop where
  spreads : SpreadsAlike A B xs
  agrees : AgreeOn (selectionsVariables xs) a b

/-- That selections come to the same in both ways, or to nothing that can be decided; no more than `m` and `n` fragments
are left. -/
inductive CollectedAlike (A B : List Fragment) (a b : List (String × Value)) (m n : Nat) : Collected → Collected → Prop
  | ok {fields : List SelectedField} {pool pool' : List Fragment}
      (hfields : ∀ x ∈ fields, Shares A B a b [x.toSelection]) (hpools : Parallel A B pool pool')
      (hm : pool.length ≤ m) (hn : pool'.length ≤ n) :
      CollectedAlike A B a b m n (.ok (fields, pool)) (.ok (fields, pool'))
  | error (message message' : String) : CollectedAlike A B a b m n (.error message) (.error message')

section

variable {A B : List Fragment} {a b : List (String × Value)}

theorem Shares.mono {xs ys : List Selection} (h : Shares A B a b ys) (hspreads : spreadsInAll xs ⊆ spreadsInAll ys)
    (hvariables : selectionsVariables xs ⊆ selectionsVariables ys) : Shares A B a b xs :=
  ⟨h.spreads.mono hspreads, h.agrees.mono hvariables⟩

theorem flatMap_subset_flatMap {α β : Type} (f : α → List β) {xs ys : List α} (h : xs ⊆ ys) :
    xs.flatMap f ⊆ ys.flatMap f := by
  intro y hy
  obtain ⟨x, hx, hy⟩ := List.mem_flatMap.1 hy
  exact List.mem_flatMap.2 ⟨x, h hx, hy⟩

theorem Shares.of_subset {xs ys : List Selection} (h : Shares A B a b ys) (hsub : xs ⊆ ys) : Shares A B a b xs := by
  refine h.mono ?_ ?_
  · rw [spreadsInAll_eq, spreadsInAll_eq]
    exact flatMap_subset_flatMap _ hsub
  · rw [selectionsVariables_eq, selectionsVariables_eq]
    exact flatMap_subset_flatMap _ hsub

theorem Shares.flatMap {α : Type} {xs : List α} {f : α → List Selection} (h : ∀ x ∈ xs, Shares A B a b (f x)) :
    Shares A B a b (xs.flatMap f) := by
  constructor
  · intro n hn
    rw [spreadsInAll_eq, List.flatMap_assoc, List.mem_flatMap] at hn
    obtain ⟨x, hx, hn⟩ := hn
    exact (h x hx).spreads n (by rwa [spreadsInAll_eq])
  · intro n hn
    rw [selectionsVariables_eq, List.flatMap_assoc, List.mem_flatMap] at hn
    obtain ⟨x, hx, hn⟩ := hn
    exact (h x hx).agrees n (by rwa [selectionsVariables_eq])

/-- What is selected from the value of a field. -/
theorem Shares.inner {x : SelectedField} (h : Shares A B a b [x.toSelection]) : Shares A B a b x.selections := by
  refine h.mono ?_ ?_
  · rw [spreadsInAll_eq [x.toSelection], List.flatMap_singleton]
    exact List.Subset.refl _
  · rw [selectionsVariables_eq [x.toSelection], List.flatMap_singleton]
    exact List.subset_append_right _ _

/-- The arguments of a field. -/
theorem Shares.arguments {x : SelectedField} (h : Shares A B a b [x.toSelection]) :
    ∀ y ∈ x.arguments, AgreeOn (variablesOf y.value) a b := by
  intro y hy
  refine h.agrees.mono fun n hn => ?_
  rw [selectionsVariables_eq, List.flatMap_singleton]
  exact List.mem_append_left _ (List.mem_append_left _ (List.mem_flatMap.2 ⟨y, hy, hn⟩))

/-- The same is chosen by directives whose variables have the same values. -/
def ChoosesAlike (a b : List (String × Value)) (chooses chooses' : List Directive → Except String Bool) : Prop :=
  ∀ directives, AgreeOn (directivesVariables directives) a b →
    (chooses' directives).toOption = (chooses directives).toOption

/-- The insides of fragments come to the same, where fewer than `m` and `n` fragments are left. -/
def EntersAlike (A B : List Fragment) (a b : List (String × Value)) (m n : Nat)
    (enter enter' : List Fragment → List Selection → Collected) : Prop :=
  ∀ pool pool' xs, Parallel A B pool pool' → pool.length < m → pool'.length < n → Shares A B a b xs →
    CollectedAlike A B a b pool.length pool'.length (enter pool xs) (enter' pool' xs)

section

variable {chooses chooses' : List Directive → Except String Bool} {typeName : String}
  {enter enter' : List Fragment → List Selection → Collected} {m n : Nat}

private theorem ChoosesAlike.cases (hchooses : ChoosesAlike a b chooses chooses') {directives : List Directive}
    (h : AgreeOn (directivesVariables directives) a b) :
    (∃ message message', chooses directives = .error message ∧ chooses' directives = .error message') ∨
      ∃ r, chooses directives = .ok r ∧ chooses' directives = .ok r := by
  have hsame := hchooses directives h
  cases hr : chooses directives with
  | error message =>
    cases hr' : chooses' directives with
    | error message' => exact .inl ⟨message, message', rfl, rfl⟩
    | ok r' => simp [hr, hr', Except.toOption] at hsame
  | ok r =>
    cases hr' : chooses' directives with
    | error message' => simp [hr, hr', Except.toOption] at hsame
    | ok r' =>
      obtain rfl : r' = r := by simpa [hr, hr', Except.toOption] using hsame
      exact .inr ⟨r', rfl, rfl⟩

private theorem CollectedAlike.nothing {pool pool' : List Fragment} (hpools : Parallel A B pool pool')
    (hm : pool.length ≤ m) (hn : pool'.length ≤ n) : CollectedAlike A B a b m n (.ok ([], pool)) (.ok ([], pool')) :=
  .ok nofun hpools hm hn

private theorem CollectedAlike.mono {m' n' : Nat} {r r' : Collected} (h : CollectedAlike A B a b m n r r')
    (hm : m ≤ m') (hn : n ≤ n') : CollectedAlike A B a b m' n' r r' := by
  cases h with
  | ok hfields hpools hm' hn' => exact .ok hfields hpools (Nat.le_trans hm' hm) (Nat.le_trans hn' hn)
  | error => exact .error _ _

private theorem collectField_alike (hchooses : ChoosesAlike a b chooses chooses') {x : SelectedField}
    {pool pool' : List Fragment} (hpools : Parallel A B pool pool') (hx : Shares A B a b [x.toSelection]) :
    CollectedAlike A B a b pool.length pool'.length (collectSelection chooses typeName enter pool x.toSelection)
      (collectSelection chooses' typeName enter' pool' x.toSelection) := by
  have hdirectives : AgreeOn (directivesVariables x.directives) a b := by
    refine hx.agrees.mono fun n hn => ?_
    rw [selectionsVariables_eq, List.flatMap_singleton]
    exact List.mem_append_left _ (List.mem_append_right _ hn)
  rw [SelectedField.toSelection, collectSelection, collectSelection]
  obtain ⟨message, message', hr, hr'⟩ | ⟨r, hr, hr'⟩ := hchooses.cases hdirectives
  · rw [hr, hr']
    exact .error message message'
  · rw [hr, hr']
    cases r with
    | false => exact .nothing hpools (Nat.le_refl _) (Nat.le_refl _)
    | true => exact .ok (List.forall_mem_singleton.2 hx) hpools (Nat.le_refl _) (Nat.le_refl _)

/-- A spread is that of the same fragment in both pools, which is left out of both. -/
private theorem collectSpread_alike (hclosed : ∀ f ∈ B, Shares A B a b f.selections)
    (hchooses : ChoosesAlike a b chooses chooses') (henter : EntersAlike A B a b m n enter enter')
    {extent : Request.Extent} {name : Request.WrittenName} {directives : List Directive} {pool pool' : List Fragment}
    (hpools : Parallel A B pool pool') (hm : pool.length ≤ m) (hn : pool'.length ≤ n)
    (hx : Shares A B a b [.spread extent name directives]) :
    CollectedAlike A B a b pool.length pool'.length
      (collectSelection chooses typeName enter pool (.spread extent name directives))
      (collectSelection chooses' typeName enter' pool' (.spread extent name directives)) := by
  have hnothing := CollectedAlike.nothing (a := a) (b := b) hpools (Nat.le_refl _) (Nat.le_refl _)
  have hdirectives := hx.agrees
  rw [selectionsVariables_eq, List.flatMap_singleton] at hdirectives
  have hname : fragment? pool' name.text = fragment? pool name.text :=
    hpools.same _ (hx.spreads _ (by simp [spreadsInAll, spreadsIn]))
  rw [collectSelection, collectSelection, hname]
  cases hf : fragment? pool name.text with
  | none => exact hnothing
  | some f =>
    have hlt := length_without_lt hf
    have hlt' := length_without_lt (hname.trans hf)
    obtain ⟨message, message', hr, hr'⟩ | ⟨r, hr, hr'⟩ := hchooses.cases hdirectives
    · simp only [hr, hr']
      exact .error message message'
    · simp only [hr, hr']
      cases r with
      | false => exact hnothing
      | true =>
        show CollectedAlike A B a b _ _ (if f.condition.text = typeName then _ else _) (if _ then _ else _)
        split
        · have hmem : f ∈ B := hpools.subset (mem_of_fragment? (hname.trans hf))
          have hinside := henter _ _ _ (hpools.without f) (by omega) (by omega) (hclosed f hmem)
          exact hinside.mono (Nat.le_of_lt hlt) (Nat.le_of_lt hlt')
        · exact .nothing (hpools.without f) (Nat.le_of_lt hlt) (Nat.le_of_lt hlt')

mutual
private theorem collectSelection_alike (hclosed : ∀ f ∈ B, Shares A B a b f.selections)
    (hchooses : ChoosesAlike a b chooses chooses') (henter : EntersAlike A B a b m n enter enter') (x : Selection)
    {pool pool' : List Fragment} (hpools : Parallel A B pool pool') (hm : pool.length ≤ m) (hn : pool'.length ≤ n)
    (hx : Shares A B a b [x]) :
    CollectedAlike A B a b pool.length pool'.length (collectSelection chooses typeName enter pool x)
      (collectSelection chooses' typeName enter' pool' x) := by
  cases x with
  | field extent alias? name arguments directives braces selections =>
    exact collectField_alike (x := ⟨extent, alias?, name, arguments, directives, braces, selections⟩) hchooses hpools hx
  | spread extent name directives => exact collectSpread_alike hclosed hchooses henter hpools hm hn hx
  | inline extent condition directives braces selections =>
    have hdirectives : AgreeOn (directivesVariables directives) a b := by
      refine hx.agrees.mono ?_
      rw [selectionsVariables_eq, List.flatMap_singleton]
      exact List.subset_append_left _ _
    have hinside : Shares A B a b selections := by
      refine hx.mono ?_ ?_
      · rw [spreadsInAll_eq [_], List.flatMap_singleton]
        exact List.Subset.refl _
      · rw [selectionsVariables_eq [_], List.flatMap_singleton]
        exact List.subset_append_right _ _
    rw [collectSelection, collectSelection]
    obtain ⟨message, message', hr, hr'⟩ | ⟨r, hr, hr'⟩ := hchooses.cases hdirectives
    · rw [hr, hr']
      exact .error message message'
    · rw [hr, hr']
      show CollectedAlike A B a b _ _ (if (r && condition.all (·.text = typeName)) = true then _ else _)
        (if _ then _ else _)
      split
      · exact collectSelections_alike hclosed hchooses henter selections hpools hm hn hinside
      · exact .nothing hpools (Nat.le_refl _) (Nat.le_refl _)

private theorem collectSelections_alike (hclosed : ∀ f ∈ B, Shares A B a b f.selections)
    (hchooses : ChoosesAlike a b chooses chooses') (henter : EntersAlike A B a b m n enter enter')
    (xs : List Selection) {pool pool' : List Fragment} (hpools : Parallel A B pool pool') (hm : pool.length ≤ m)
    (hn : pool'.length ≤ n) (hxs : Shares A B a b xs) :
    CollectedAlike A B a b pool.length pool'.length (collectSelections chooses typeName enter pool xs)
      (collectSelections chooses' typeName enter' pool' xs) := by
  cases xs with
  | nil => exact .nothing hpools (Nat.le_refl _) (Nat.le_refl _)
  | cons x xs =>
    have hx := collectSelection_alike hclosed hchooses henter x hpools hm hn (hxs.of_subset (by simp))
    rw [collectSelections, collectSelections]
    cases hr : collectSelection chooses typeName enter pool x <;>
      cases hr' : collectSelection chooses' typeName enter' pool' x <;> rw [hr, hr'] at hx <;> cases hx
    · exact .error _ _
    · rename_i fields pool₁ pool₁' hfields hpools₁ hm₁ hn₁
      have hrest := collectSelections_alike hclosed hchooses henter xs hpools₁ (Nat.le_trans hm₁ hm)
        (Nat.le_trans hn₁ hn) (hxs.of_subset (List.subset_cons_self x xs))
      show CollectedAlike A B a b _ _ (collectSelections chooses typeName enter pool₁ xs >>= _)
        (collectSelections chooses' typeName enter' pool₁' xs >>= _)
      cases hs : collectSelections chooses typeName enter pool₁ xs <;>
        cases hs' : collectSelections chooses' typeName enter' pool₁' xs <;> rw [hs, hs'] at hrest <;> cases hrest
      · exact .error _ _
      · rename_i rest pool₂ pool₂' hrest hpools₂ hm₂ hn₂
        refine .ok (fun y hy => ?_) hpools₂ (Nat.le_trans hm₂ hm₁) (Nat.le_trans hn₂ hn₁)
        exact (List.mem_append.1 hy).elim (hfields y) (hrest y)
end

end

/-- However deep fragments stand in one another, selections come to the same. -/
private theorem collectTo_alike {chooses chooses' : List Directive → Except String Bool}
    (hclosed : ∀ f ∈ B, Shares A B a b f.selections) (hchooses : ChoosesAlike a b chooses chooses') (typeName : String)
    {m n : Nat} {pool pool' : List Fragment} {xs : List Selection} (hpools : Parallel A B pool pool')
    (hm : pool.length < m) (hn : pool'.length < n) (hxs : Shares A B a b xs) :
    CollectedAlike A B a b pool.length pool'.length (collectTo chooses typeName m pool xs)
      (collectTo chooses' typeName n pool' xs) := by
  induction m generalizing n pool pool' xs with
  | zero => cases hm
  | succ m ih =>
    cases n with
    | zero => cases hn
    | succ n =>
      exact collectSelections_alike hclosed hchooses (fun _ _ _ => ih) xs hpools (Nat.le_of_lt_succ hm)
        (Nat.le_of_lt_succ hn) hxs

/-- Selections come to the same fields under two lists of fragments in which their names stand for the same, if the
variables in them have the same values. -/
theorem collectFields_alike {chooses chooses' : List Directive → Except String Bool}
    (hclosed : ∀ f ∈ B, Shares A B a b f.selections) (hchooses : ChoosesAlike a b chooses chooses')
    (typeName : String) {xs : List Selection} (hxs : Shares A B a b xs) :
    (collectFields chooses' typeName B xs).toOption = (collectFields chooses typeName A xs).toOption ∧
      ∀ fields, collectFields chooses typeName A xs = .ok fields → ∀ x ∈ fields, Shares A B a b [x.toSelection] := by
  have halike := collectTo_alike hclosed hchooses typeName (Parallel.refl A B) (Nat.lt_succ_self _)
    (Nat.lt_succ_self _) hxs
  unfold collectFields
  cases hr : collectTo chooses typeName (A.length + 1) A xs <;>
    cases hr' : collectTo chooses' typeName (B.length + 1) B xs <;> rw [hr, hr'] at halike <;> cases halike
  · exact ⟨rfl, nofun⟩
  · rename_i fields pool pool' hfields _ _ _
    refine ⟨rfl, ?_⟩
    rintro _ ⟨⟩
    exact hfields

end

/-! ### Where fields come from -/

/-- A field is one of the selections, or of a fragment inside, that are for objects of a type. -/
inductive Offers (fragments : List Fragment) (typeName : String) : List Selection → SelectedField → Prop
  | field {xs : List Selection} {x : SelectedField} (h : x.toSelection ∈ xs) : Offers fragments typeName xs x
  | inline {xs ys : List Selection} {x : SelectedField} {extent braces : Request.Extent}
      {condition : Option Request.WrittenName} {directives : List Directive}
      (hmem : .inline extent condition directives braces ys ∈ xs)
      (hcondition : condition.all (·.text = typeName) = true) (h : Offers fragments typeName ys x) :
      Offers fragments typeName xs x
  | spread {xs : List Selection} {x : SelectedField} {extent : Request.Extent} {name : Request.WrittenName}
      {directives : List Directive} {f : Fragment} (hmem : .spread extent name directives ∈ xs)
      (hf : fragment? fragments name.text = some f) (hcondition : f.condition.text = typeName)
      (h : Offers fragments typeName f.selections x) : Offers fragments typeName xs x

/-- The fragments of a pool are those of their names in another one. -/
def PartOf (pool fragments : List Fragment) : Prop :=
  ∀ n f, fragment? pool n = some f → fragment? fragments n = some f

/-- What selections come to: fields that they offer and that are chosen, in the order in which all fields stand, and
fragments that were there. -/
structure Collects (chooses : List Directive → Except String Bool) (typeName : String)
    (fragments pool around : List Fragment) (depth : Nat) (xs : List Selection)
    (r : List SelectedField × List Fragment) : Prop where
  offers : ∀ x ∈ r.1, Offers fragments typeName xs x
  chosen : ∀ x ∈ r.1, chooses x.directives = .ok true
  sublist : r.1.Sublist (gatherSelections (gatherFragment depth around) xs)
  rest : PartOf r.2 pool

/-- The insides of fragments come to fields of theirs. -/
def EntersInto (chooses : List Directive → Except String Bool) (typeName : String) (fragments : List Fragment)
    (enter : List Fragment → List Selection → Collected) : Prop :=
  ∀ pool around depth xs r, PartOf pool around → PartOf around fragments → around.length ≤ depth →
    enter pool xs = .ok r → Collects chooses typeName fragments pool around depth xs r

section

variable {chooses : List Directive → Except String Bool} {typeName : String} {fragments : List Fragment}

private theorem PartOf.refl (pool : List Fragment) : PartOf pool pool := fun _ _ h => h

private theorem PartOf.trans {p q r : List Fragment} (h : PartOf p q) (h' : PartOf q r) : PartOf p r :=
  fun n f hf => h' n f (h n f hf)

private theorem partOf_without (f : Fragment) (pool : List Fragment) : PartOf (without f pool) pool := by
  intro n g hg
  rw [fragment?_without] at hg
  split at hg
  · cases hg
  · exact hg

private theorem PartOf.without {p q : List Fragment} (h : PartOf p q) (f : Fragment) :
    PartOf (without f p) (without f q) := by
  intro n g hg
  rw [fragment?_without] at hg ⊢
  split at hg
  · cases hg
  · rename_i hn
    rw [if_neg hn]
    exact h n g hg

theorem Offers.mono {xs ys : List Selection} {x : SelectedField} (h : Offers fragments typeName xs x) (hsub : xs ⊆ ys) :
    Offers fragments typeName ys x := by
  cases h with
  | field h => exact .field (hsub h)
  | inline hmem hcondition h => exact .inline (hsub hmem) hcondition h
  | spread hmem hf hcondition h => exact .spread (hsub hmem) hf hcondition h

private theorem Collects.nothing {pool pool' around : List Fragment} {depth : Nat} {xs : List Selection}
    (h : PartOf pool' pool) : Collects chooses typeName fragments pool around depth xs ([], pool') :=
  ⟨nofun, nofun, List.nil_sublist _, h⟩

section

variable {enter : List Fragment → List Selection → Collected}

private theorem collects_field {x : SelectedField} {pool around : List Fragment} {depth : Nat}
    {r : List SelectedField × List Fragment}
    (h : collectSelection chooses typeName enter pool x.toSelection = .ok r) :
    Collects chooses typeName fragments pool around depth [x.toSelection] r := by
  rw [SelectedField.toSelection, collectSelection] at h
  cases hr : chooses x.directives with
  | error message => rw [hr] at h; cases h
  | ok chosen =>
    rw [hr] at h
    cases chosen with
    | false => cases h; exact .nothing (.refl _)
    | true =>
      cases h
      refine ⟨List.forall_mem_singleton.2 (.field List.mem_cons_self), List.forall_mem_singleton.2 hr, ?_, .refl _⟩
      exact List.Sublist.refl _

/-- What a spread comes to is what the inside of its fragment does, if the fragment is still there, the spread is chosen
and the fragment is for objects of the type. -/
private theorem collects_spread (henter : EntersInto chooses typeName fragments enter) {extent : Request.Extent}
    {name : Request.WrittenName} {directives : List Directive} {pool around : List Fragment} {depth : Nat}
    {r : List SelectedField × List Fragment} (hpool : PartOf pool around) (haround : PartOf around fragments)
    (hdepth : around.length ≤ depth)
    (h : collectSelection chooses typeName enter pool (.spread extent name directives) = .ok r) :
    Collects chooses typeName fragments pool around depth [.spread extent name directives] r := by
  rw [collectSelection] at h
  cases hf : fragment? pool name.text with
  | none =>
    simp only [hf] at h
    cases h
    exact .nothing (.refl _)
  | some f =>
    simp only [hf] at h
    cases hr : chooses directives with
    | error message => rw [hr] at h; cases h
    | ok chosen =>
      rw [hr] at h
      cases chosen with
      | false => cases h; exact .nothing (.refl _)
      | true =>
        change (if f.condition.text = typeName then _ else _) = _ at h
        split at h
        · rename_i hcondition
          have hf' : fragment? around name.text = some f := hpool _ _ hf
          have hlt := length_without_lt hf'
          obtain ⟨k, rfl⟩ : ∃ k, depth = k + 1 := ⟨depth - 1, by omega⟩
          obtain ⟨hoffers, hchosen, hsublist, hrest⟩ := henter _ (without f around) k _ r (hpool.without f)
            ((partOf_without f around).trans haround) (by omega) h
          refine ⟨fun y hy => ?_, hchosen, ?_, hrest.trans (partOf_without f pool)⟩
          · exact .spread List.mem_cons_self (haround _ _ hf') hcondition (hoffers y hy)
          · simp only [gatherSelections, gatherSelection, gatherFragment, hf', List.append_nil]
            exact hsublist
        · cases h
          exact .nothing (partOf_without f pool)

mutual
private theorem collects_collectSelection (henter : EntersInto chooses typeName fragments enter) (x : Selection)
    {pool around : List Fragment} {depth : Nat} {r : List SelectedField × List Fragment} (hpool : PartOf pool around)
    (haround : PartOf around fragments) (hdepth : around.length ≤ depth)
    (h : collectSelection chooses typeName enter pool x = .ok r) :
    Collects chooses typeName fragments pool around depth [x] r := by
  cases x with
  | field extent alias? name arguments directives braces selections =>
    exact collects_field (x := ⟨extent, alias?, name, arguments, directives, braces, selections⟩) h
  | spread extent name directives => exact collects_spread henter hpool haround hdepth h
  | inline extent condition directives braces selections =>
    rw [collectSelection] at h
    cases hr : chooses directives with
    | error message => rw [hr] at h; cases h
    | ok chosen =>
      rw [hr] at h
      change (if (chosen && condition.all (·.text = typeName)) = true then _ else _) = _ at h
      split at h
      · rename_i hcondition
        obtain ⟨-, hcondition⟩ := Bool.and_eq_true_iff.1 hcondition
        obtain ⟨hoffers, hchosen, hsublist, hrest⟩ :=
          collects_collectSelections henter selections hpool haround hdepth h
        refine ⟨fun y hy => .inline List.mem_cons_self hcondition (hoffers y hy), hchosen, ?_, hrest⟩
        simpa only [gatherSelections, gatherSelection, List.append_nil] using hsublist
      · cases h
        exact .nothing (.refl _)

private theorem collects_collectSelections (henter : EntersInto chooses typeName fragments enter)
    (xs : List Selection) {pool around : List Fragment} {depth : Nat}
    {r : List SelectedField × List Fragment} (hpool : PartOf pool around) (haround : PartOf around fragments)
    (hdepth : around.length ≤ depth) (h : collectSelections chooses typeName enter pool xs = .ok r) :
    Collects chooses typeName fragments pool around depth xs r := by
  cases xs with
  | nil =>
    cases h
    exact .nothing (.refl _)
  | cons x xs =>
    rw [collectSelections] at h
    cases hr : collectSelection chooses typeName enter pool x with
    | error message => rw [hr] at h; cases h
    | ok first =>
      rw [hr] at h
      change (collectSelections chooses typeName enter first.2 xs >>= _) = _ at h
      have hx := collects_collectSelection henter x hpool haround hdepth hr
      cases hs : collectSelections chooses typeName enter first.2 xs with
      | error message => rw [hs] at h; cases h
      | ok rest =>
        rw [hs] at h
        cases h
        have hxs := collects_collectSelections henter xs (hx.rest.trans hpool) haround hdepth hs
        refine ⟨fun y hy => ?_, fun y hy => ?_, ?_, hxs.rest.trans hx.rest⟩
        · exact (List.mem_append.1 hy).elim (fun hy => (hx.offers y hy).mono (by simp))
            fun hy => (hxs.offers y hy).mono (List.subset_cons_self x xs)
        · exact (List.mem_append.1 hy).elim (hx.chosen y) (hxs.chosen y)
        · have hfirst := hx.sublist
          rw [gatherSelections, gatherSelections, List.append_nil] at hfirst
          exact hfirst.append hxs.sublist
end

end

private theorem collects_collectTo {m depth : Nat} {pool around : List Fragment} {xs : List Selection}
    {r : List SelectedField × List Fragment} (hpool : PartOf pool around) (haround : PartOf around fragments)
    (hdepth : around.length ≤ depth) (h : collectTo chooses typeName m pool xs = .ok r) :
    Collects chooses typeName fragments pool around depth xs r := by
  induction m generalizing depth pool around xs r with
  | zero =>
    cases h
    exact .nothing (.refl _)
  | succ m ih => exact collects_collectSelections (fun _ _ _ _ _ => ih) xs hpool haround hdepth h

/-- The fields that selections come to are offered by them and chosen, and stand in the order in which all fields
stand. -/
theorem collects_collectFields {xs : List Selection} {fields : List SelectedField}
    (h : collectFields chooses typeName fragments xs = .ok fields) :
    (∀ x ∈ fields, Offers fragments typeName xs x ∧ chooses x.directives = .ok true) ∧
      fields.Sublist (gather fragments xs) := by
  unfold collectFields at h
  cases hr : collectTo chooses typeName (fragments.length + 1) fragments xs with
  | error message => rw [hr] at h; cases h
  | ok r =>
    rw [hr] at h
    cases h
    have hcollects := collects_collectTo (.refl fragments) (.refl fragments) (Nat.le_refl _) hr
    exact ⟨fun x hx => ⟨hcollects.offers x hx, hcollects.chosen x hx⟩, hcollects.sublist⟩

/-- Fields that are chosen come to themselves. -/
theorem collectFields_toSelection {fields : List SelectedField} (h : ∀ x ∈ fields, chooses x.directives = .ok true) :
    collectFields chooses typeName fragments (fields.map SelectedField.toSelection) = .ok fields := by
  have hall : ∀ enter pool, collectSelections chooses typeName enter pool (fields.map SelectedField.toSelection) =
      .ok (fields, pool) := by
    intro enter pool
    induction fields with
    | nil => rfl
    | cons x xs ih =>
      have hx := h x List.mem_cons_self
      rw [List.map_cons, collectSelections, SelectedField.toSelection, collectSelection, hx]
      show (collectSelections chooses typeName enter pool (xs.map SelectedField.toSelection) >>= _) = _
      rw [ih fun y hy => h y (List.mem_cons_of_mem _ hy)]
      rfl
  unfold collectFields
  rw [collectTo, hall]
  rfl

end

/-! ### Fragments inside -/

/-- Names lead to a fragment: it has one of them, or is named in a fragment that they lead to. -/
inductive Reaches (pool : List Fragment) (names : List String) : Fragment → Prop
  | named {f : Fragment} (hname : f.name ∈ names) (hf : fragment? pool f.name = some f) : Reaches pool names f
  | inside {f g : Fragment} (h : Reaches pool names f) (hname : g.name ∈ spreadsInAll f.selections)
      (hg : fragment? pool g.name = some g) : Reaches pool names g

theorem Reaches.fragment? {pool : List Fragment} {names : List String} {f : Fragment} (h : Reaches pool names f) :
    fragment? pool f.name = some f := by
  cases h <;> assumption

/-- Of the fragments that names lead to, the first one of the pool can be left out, if the names in it are added. -/
private theorem reaches_iff {pool : List Fragment} {names : List String} {f g : Fragment} (hname : f.name ∈ names)
    (hf : Request.fragment? pool f.name = some f) :
    Reaches pool names g ↔ g = f ∨ Reaches (without f pool) (spreadsInAll f.selections ++ names) g := by
  have hwithout : ∀ {g : Fragment}, Request.fragment? pool g.name = some g →
      g = f ∨ Request.fragment? (without f pool) g.name = some g := by
    intro g hg
    by_cases hgf : g.name = f.name
    · rw [hgf, hf] at hg
      exact .inl (Option.some.inj hg).symm
    · exact .inr (by rw [fragment?_without, if_neg hgf, hg])
  constructor
  · intro h
    induction h with
    | named hg hfound => exact (hwithout hfound).imp_right (.named (List.mem_append_right _ hg))
    | inside _ hg hfound ih =>
      refine (hwithout hfound).imp_right fun hfound' => ?_
      rcases ih with rfl | ih
      · exact .named (List.mem_append_left _ hg) hfound'
      · exact .inside ih hg hfound'
  · rintro (rfl | h)
    · exact .named hname hf
    · induction h with
      | named hg hfound =>
        rcases List.mem_append.1 hg with hg | hg
        · exact .inside (.named hname hf) hg (partOf_without f pool _ _ hfound)
        · exact .named hg (partOf_without f pool _ _ hfound)
      | inside _ hg hfound ih => exact .inside ih hg (partOf_without f pool _ _ hfound)

private theorem mem_reachedTo {depth : Nat} {pool : List Fragment} (hdepth : pool.length ≤ depth)
    {names : List String} {g : Fragment} : g ∈ reachedTo depth pool names ↔ Reaches pool names g := by
  have hnone : ∀ {pool : List Fragment} {names : List String}, pool.find? (names.contains ·.name) = none →
      ∀ g, ¬ Reaches pool names g := by
    intro pool names hnone g h
    induction h with
    | named hg hfound => exact absurd (List.find?_eq_none.1 hnone _ (mem_of_fragment? hfound)) (by simpa using hg)
    | inside _ _ _ ih => exact ih
  induction depth generalizing pool names with
  | zero =>
    obtain rfl := List.eq_nil_of_length_eq_zero (Nat.le_zero.1 hdepth)
    simpa [reachedTo] using hnone rfl g
  | succ depth ih =>
    rw [reachedTo]
    cases hfirst : pool.find? (names.contains ·.name) with
    | none => simpa using hnone hfirst g
    | some f =>
      have hname : f.name ∈ names := by simpa using List.find?_some hfirst
      have hf : Request.fragment? pool f.name = some f := by
        obtain ⟨-, before, after, rfl, hbefore⟩ := List.find?_eq_some_iff_append.1 hfirst
        refine List.find?_eq_some_iff_append.2 ⟨by simp, before, after, rfl, fun x hx => ?_⟩
        have hx := hbefore x hx
        simp only [Bool.not_eq_true', List.contains_eq_mem, decide_eq_false_iff_not] at hx ⊢
        exact fun heq => hx (heq ▸ hname)
      have hlt := length_without_lt hf
      have hrest : (without f pool).length ≤ depth := by omega
      rw [reaches_iff hname hf]
      exact List.mem_cons.trans (or_congr_right (ih hrest))

/-- The fragments that are reached from names are those that the names lead to. -/
theorem mem_reached {pool : List Fragment} {names : List String} {g : Fragment} :
    g ∈ reached pool names ↔ Reaches pool names g :=
  mem_reachedTo (Nat.le_refl _)

end ThriftGateway.Execution
