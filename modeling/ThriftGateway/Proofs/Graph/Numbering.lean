import ThriftGateway.Proofs.Graph.Work

/-!
# The numbers behind names

`IsNext` says which name comes next for a preferred one: that name itself, or it with the least positive number that
gives a free name.  A table remembers the last number for each preferred name and begins behind it, which passes over
nothing, since every smaller number was used up (`IsKept`): the name given out is the next one (`IsKept.isNext`), as if
every search began at one (`allocateAll_next`).
-/

namespace ThriftGateway.Graph

open NameTable (numbered)

/-- The name that comes next for a preferred name, where some names are taken. -/
inductive IsNext (taken : List String) (preferred : String) : String → Prop
  | preferred (hfree : preferred ∉ taken) : IsNext taken preferred preferred
  | numbered {n : Nat} (htaken : preferred ∈ taken) (hpos : 0 < n) (hfree : numbered preferred n ∉ taken)
      (hleast : ∀ k, 0 < k → k < n → NameTable.numbered preferred k ∈ taken) :
      IsNext taken preferred (NameTable.numbered preferred n)

/-- Trying one number after another from the first one on, without any bound, ends at the second one. -/
inductive Searches (taken : List String) (preferred : String) : Nat → Nat → Prop
  | found {n : Nat} (hfree : numbered preferred n ∉ taken) : Searches taken preferred n n
  | next {n m : Nat} (htaken : numbered preferred n ∈ taken) (hrest : Searches taken preferred (n + 1) m) :
      Searches taken preferred n m

variable {taken taken' : List String} {preferred name name' : String} {n m : Nat}

/-! ### The next name -/

private theorem IsNext.notMem (h : IsNext taken preferred name) : name ∉ taken := by
  cases h with
  | preferred hfree => exact hfree
  | numbered htaken hpos hfree hleast => exact hfree

private theorem IsNext.unique (h : IsNext taken preferred name) (h' : IsNext taken preferred name') : name = name' := by
  cases h with
  | preferred hfree =>
    cases h' with
    | preferred => rfl
    | numbered htaken => exact absurd htaken hfree
  | @numbered n htaken hpos hfree hleast =>
    cases h' with
    | preferred hfree' => exact absurd htaken hfree'
    | @numbered n' htaken' hpos' hfree' hleast' =>
      -- the smaller of two different numbers would be both free and taken
      obtain hlt | rfl | hlt := Nat.lt_trichotomy n n'
      · exact absurd (hleast' n hpos hlt) hfree
      · rfl
      · exact absurd (hleast n' hpos' hlt) hfree'

/-- Only which names are taken matters. -/
private theorem IsNext.congr (htaken : ∀ name, name ∈ taken ↔ name ∈ taken') (h : IsNext taken preferred name) :
    IsNext taken' preferred name := by
  cases h with
  | preferred hfree => exact .preferred (by rwa [← htaken])
  | numbered hmem hpos hfree hleast =>
    exact .numbered ((htaken _).1 hmem) hpos (by rwa [← htaken]) fun k hk hlt => (htaken _).1 (hleast k hk hlt)

/-! ### Searches -/

private theorem Searches.notMem (h : Searches taken preferred n m) : numbered preferred m ∉ taken := by
  induction h with
  | found hfree => exact hfree
  | next htaken hrest ih => exact ih

private theorem Searches.le (h : Searches taken preferred n m) : n ≤ m := by
  induction h with
  | found hfree => exact Nat.le_refl _
  | next htaken hrest ih => omega

/-- A search passes over nothing but what is taken. -/
private theorem Searches.mem (h : Searches taken preferred n m) {k : Nat} (hk : n ≤ k) (hlt : k < m) :
    numbered preferred k ∈ taken := by
  induction h with
  | found hfree => omega
  | @next n m htaken hrest ih =>
    obtain rfl | hne := Nat.eq_or_lt_of_le hk
    · exact htaken
    · exact ih hne hlt

private theorem Searches.congr (htaken : ∀ name, name ∈ taken ↔ name ∈ taken') (h : Searches taken preferred n m) :
    Searches taken' preferred n m := by
  induction h with
  | found hfree => exact .found (by rwa [← htaken])
  | next hmem hrest ih => exact .next ((htaken _).1 hmem) ih

/-- A search ends where it begins at a number with nothing free between it and one. -/
theorem Searches.isNext (h : Searches taken preferred n m) (htaken : preferred ∈ taken) (hn : 0 < n)
    (hpassed : ∀ k, 0 < k → k < n → numbered preferred k ∈ taken) :
    IsNext taken preferred (numbered preferred m) := by
  have hle := h.le
  refine .numbered htaken (by omega) h.notMem fun k hk hlt => ?_
  obtain hbefore | hafter := Nat.lt_or_ge k n
  · exact hpassed k hk hbefore
  · exact h.mem hafter hlt

namespace NameTable

variable {t : NameTable}

private theorem isUsed_iff : t.isUsed name = true ↔ name ∈ t.used := by
  rw [isUsed, List.contains_iff_mem]

/-- A bounded search that ends at a free name is the search without a bound. -/
private theorem searches_of_free {fuel : Nat} (h : numbered preferred (t.firstFree preferred fuel n) ∉ t.used) :
    Searches t.used preferred n (t.firstFree preferred fuel n) := by
  induction fuel generalizing n with
  | zero => exact .found h
  | succ fuel ih =>
    unfold firstFree at h ⊢
    split
    · rename_i hn
      rw [if_pos hn] at h
      exact .next (isUsed_iff.1 hn) (ih h)
    · rename_i hn
      exact .found fun hmem => hn (isUsed_iff.2 hmem)

/-- Of one number more than there are names in use one is free, so the bound is never reached. -/
private theorem searches_firstFree (t : NameTable) (preferred : String) (n : Nat) :
    Searches t.used preferred n (t.firstFree preferred (t.used.length + 1) n) := by
  refine searches_of_free fun hmem => ?_
  have hfree := t.isUsed_firstFree preferred n
  rw [isUsed_iff.2 hmem] at hfree
  cases hfree

/-! ### Counters -/

/-- Every number up to that of a counter has given a name that is in use. -/
def IsKept (t : NameTable) : Prop :=
  ∀ preferred k, 0 < k → k ≤ t.counter preferred → numbered preferred k ∈ t.used

private theorem fresh_isKept : fresh.IsKept := by
  intro preferred k hk hle
  have hzero : fresh.counter preferred = 0 := rfl
  omega

private theorem lookup_filter_ne {other : String} (h : other ≠ preferred) (entries : List (String × Nat)) :
    (entries.filter (·.1 ≠ preferred)).lookup other = entries.lookup other := by
  induction entries with
  | nil => rfl
  | cons entry entries ih =>
    obtain ⟨key, value⟩ := entry
    by_cases hkey : key = preferred
    · have hother : (other == key) = false := by simpa [hkey] using h
      rw [List.filter_cons_of_neg (by simpa using hkey), ih, List.lookup_cons, hother]
    · rw [List.filter_cons_of_pos (by simpa using hkey), List.lookup_cons, List.lookup_cons, ih]

private theorem lookup_setCounter (t : NameTable) (preferred other : String) (n : Nat) :
    (t.setCounter preferred n).lookup other = if other = preferred then some n else t.counters.lookup other := by
  unfold setCounter
  rw [List.lookup_cons]
  by_cases h : other = preferred
  · simp [h]
  · have hne : (other == preferred) = false := by simpa using h
    rw [if_neg h, hne]
    exact lookup_filter_ne h t.counters

/-- Giving out a name sets the counter of the preferred one, if that is in use, and no other counter. -/
private theorem counter_allocate (t : NameTable) (preferred other : String) :
    (t.allocate preferred).2.counter other =
      if preferred ∈ t.used ∧ other = preferred then
        t.firstFree preferred (t.used.length + 1) (t.counter preferred + 1)
      else t.counter other := by
  unfold allocate
  by_cases hused : preferred ∈ t.used
  · rw [if_pos (isUsed_iff.2 hused)]
    show ((t.setCounter preferred _).lookup other).getD 0 = _
    rw [lookup_setCounter]
    by_cases h : other = preferred
    · rw [if_pos h, if_pos ⟨hused, h⟩]
      rfl
    · rw [if_neg h, if_neg fun hboth => h hboth.2]
      rfl
  · rw [if_neg fun h => hused (isUsed_iff.1 h), if_neg fun hboth => hused hboth.1]
    rfl

/-- What giving out a name does with the number: it is found by the search from behind the counter. -/
private theorem allocate_of_mem (hused : preferred ∈ t.used) :
    ∃ n, Searches t.used preferred (t.counter preferred + 1) n ∧ (t.allocate preferred).1 = numbered preferred n := by
  refine ⟨_, t.searches_firstFree preferred _, ?_⟩
  unfold allocate
  rw [if_pos (isUsed_iff.2 hused)]

/-- The name that is given out is the next one. -/
theorem IsKept.isNext (h : t.IsKept) (preferred : String) : IsNext t.used preferred (t.allocate preferred).1 := by
  by_cases hused : preferred ∈ t.used
  · obtain ⟨n, hn, hname⟩ := allocate_of_mem hused
    rw [hname]
    exact hn.isNext hused (Nat.succ_pos _) fun k hk hlt => h preferred k hk (by omega)
  · rw [allocate_of_notMem hused]
    exact .preferred hused

/-- Giving out a name keeps the counters right: between the old number and the new one, all was taken. -/
private theorem IsKept.allocate (h : t.IsKept) (preferred : String) : (t.allocate preferred).2.IsKept := by
  intro other k hk hle
  rw [counter_allocate] at hle
  rw [used_allocate]
  split at hle
  · rename_i hset
    obtain ⟨hused, rfl⟩ := hset
    have hsearch := t.searches_firstFree other (t.counter other + 1)
    obtain hlt | rfl := Nat.lt_or_eq_of_le hle
    · refine List.mem_cons_of_mem _ ?_
      obtain hbefore | hafter := Nat.lt_or_ge (t.counter other) k
      · exact hsearch.mem hbefore hlt
      · exact h other k hk hafter
    · -- the number of the name that was just given out
      have hgiven : (t.allocate other).1 =
        numbered other (t.firstFree other (t.used.length + 1) (t.counter other + 1)) := by
        unfold NameTable.allocate
        rw [if_pos (isUsed_iff.2 hused)]
      rw [← hgiven]
      exact List.mem_cons_self
  · exact List.mem_cons_of_mem _ (h other k hk hle)

end NameTable

/-! ### Giving out many names -/

/-- Gives out names one after another. -/
def Session.allocateAll (s : Session) : List String → List String × Session
  | [] => ([], s)
  | preferred :: rest =>
    let (name, s) := s.allocate preferred
    let (names, s) := s.allocateAll rest
    (name :: names, s)

/-- The names given out one after another where each search begins at one: no number is remembered. -/
def givenAfresh (taken : List String) : List String → List String
  | [] => []
  | preferred :: rest =>
    let name := ((⟨taken, []⟩ : NameTable).allocate preferred).1
    name :: givenAfresh (name :: taken) rest

namespace Session

variable {s : Session}

private theorem allocate_names (s : Session) (preferred : String) :
    (s.allocate preferred).1 = (s.names.allocate preferred).1 ∧
      (s.allocate preferred).2.names = (s.names.allocate preferred).2 := by
  obtain ⟨log, hlog⟩ := allocate_eq s preferred
  rw [hlog]
  exact ⟨rfl, rfl⟩

private theorem allocateAll_cons (s : Session) (preferred : String) (rest : List String) :
    s.allocateAll (preferred :: rest) =
      ((s.allocate preferred).1 :: ((s.allocate preferred).2.allocateAll rest).1,
        ((s.allocate preferred).2.allocateAll rest).2) := rfl

/-- What is in use after names were given out. -/
private theorem used_allocateAll (s : Session) (requests : List String) :
    (s.allocateAll requests).2.names.used = (s.allocateAll requests).1.reverse ++ s.names.used := by
  induction requests generalizing s with
  | nil => rfl
  | cons preferred rest ih =>
    obtain ⟨hname, hnames⟩ := s.allocate_names preferred
    have hrest := ih (s.allocate preferred).2
    rw [hnames, NameTable.used_allocate, ← hname] at hrest
    rw [allocateAll_cons, List.reverse_cons, List.append_assoc]
    exact hrest

private theorem length_allocateAll (s : Session) (requests : List String) :
    (s.allocateAll requests).1.length = requests.length := by
  induction requests generalizing s with
  | nil => rfl
  | cons preferred rest ih => rw [allocateAll_cons, List.length_cons, List.length_cons, ih]

private theorem allocateAll_isKept (h : s.names.IsKept) (requests : List String) :
    (s.allocateAll requests).2.names.IsKept := by
  induction requests generalizing s with
  | nil => exact h
  | cons preferred rest ih =>
    have hkept : (s.allocate preferred).2.names.IsKept := by
      rw [(s.allocate_names preferred).2]
      exact h.allocate preferred
    exact ih hkept

/-- No name is given out twice, and none that was in use before. -/
private theorem allocateAll_nodup (h : s.names.used.Nodup) (requests : List String) :
    (s.allocateAll requests).2.names.used.Nodup := by
  induction requests generalizing s with
  | nil => exact h
  | cons preferred rest ih =>
    have hnodup : (s.allocate preferred).2.names.used.Nodup := by
      rw [(s.allocate_names preferred).2, NameTable.used_allocate, List.nodup_cons]
      refine ⟨fun hmem => ?_, h⟩
      have hfree := s.names.isUsed_allocate preferred
      rw [NameTable.isUsed_iff.2 hmem] at hfree
      cases hfree
    exact ih hnodup

/-- Remembering numbers changes no name: both ways give out the next one. -/
private theorem allocateAll_eq_givenAfresh (h : s.names.IsKept) (requests : List String) :
    (s.allocateAll requests).1 = givenAfresh s.names.used requests := by
  induction requests generalizing s with
  | nil => rfl
  | cons preferred rest ih =>
    obtain ⟨hname, hnames⟩ := s.allocate_names preferred
    have hforgetful : (⟨s.names.used, []⟩ : NameTable).IsKept := by
      intro other k hk hle
      have hzero : (⟨s.names.used, []⟩ : NameTable).counter other = 0 := rfl
      omega
    have hsame : (s.names.allocate preferred).1 = ((⟨s.names.used, []⟩ : NameTable).allocate preferred).1 :=
      (h.isNext preferred).unique (hforgetful.isNext preferred)
    have hkept : (s.allocate preferred).2.names.IsKept := by
      rw [hnames]
      exact h.allocate preferred
    have hrest := ih hkept
    rw [hnames, NameTable.used_allocate] at hrest
    rw [allocateAll_cons, givenAfresh, ← hsame, ← hrest, ← hname]

/-- Where any names were given out in a fresh session, each request gets the next name: the preferred one if it is free,
and else the least positive number behind it, at which the search from behind the counter ends.  All names given out
are different and none is reserved, and they are what searching from one each time gives out. -/
theorem allocateAll_next (enumsAsInts : Bool) (naming : TypeNaming) (requests : List String) (preferred : String) :
    let r := (fresh enumsAsInts naming).allocateAll requests
    let taken := r.1 ++ reservedNames
    let name := (r.2.allocate preferred).1
    IsNext taken preferred name ∧
      (preferred ∉ taken ∧ name = preferred ∨
        preferred ∈ taken ∧
          ∃ n, name = numbered preferred n ∧ Searches taken preferred (r.2.names.counter preferred + 1) n) ∧
      taken.Nodup ∧
      r.1.length = requests.length ∧
      r.1 = givenAfresh reservedNames requests := by
  intro r taken name
  have hkept : r.2.names.IsKept := allocateAll_isKept NameTable.fresh_isKept requests
  have hused : r.2.names.used = r.1.reverse ++ reservedNames := used_allocateAll _ requests
  have htaken : ∀ x, x ∈ r.2.names.used ↔ x ∈ taken := by simp [hused, taken]
  have hname : name = (r.2.names.allocate preferred).1 := (r.2.allocate_names preferred).1
  have hreserved : reservedNames.Nodup := by decide
  have hnodup : r.2.names.used.Nodup := allocateAll_nodup hreserved requests
  refine ⟨?_, ?_, ?_, length_allocateAll _ requests, allocateAll_eq_givenAfresh NameTable.fresh_isKept requests⟩
  · rw [hname]
    exact (hkept.isNext preferred).congr htaken
  · by_cases hmem : preferred ∈ taken
    · obtain ⟨n, hsearch, hn⟩ := NameTable.allocate_of_mem ((htaken preferred).2 hmem)
      exact .inr ⟨hmem, n, hname.trans hn, hsearch.congr htaken⟩
    · exact .inl ⟨hmem, hname.trans (NameTable.allocate_of_notMem fun h => hmem ((htaken preferred).1 h))⟩
  · have hperm : (r.1.reverse ++ reservedNames).Perm taken := (List.reverse_perm r.1).append_right _
    rw [hused] at hnodup
    exact hperm.nodup_iff.1 hnodup

-- `Foo` with 11 is `Foo1` with 1, which is not given out twice
example : ((fresh false declaredName).allocateAll ["Foo", "Foo11", "Foo1", "Foo1", "Foo"]).1 =
    ["Foo", "Foo11", "Foo1", "Foo12", "Foo2"] := by decide +kernel

end Session

end ThriftGateway.Graph
