import ThriftGateway.Proofs.Graph.Work
import ThriftGateway.Proofs.Number.Reading

/-!
# Legal names

A legal name (`IsLegalName`) stays legal with letters and digits behind it, so the name that is given out for a
declaration with a legal name is legal, and giving it out succeeds (`run_giveName_of_isLegalName`).
-/

namespace ThriftGateway.Graph

open Text (isDigit isNamePart isNameStart)

/-- A name that types, fields and arguments of a schema can have. -/
structure IsLegalName (name : String) : Prop where
  isName : checkName name = .ok ()
  notHidden : isHidden name = false

instance (name : String) : Decidable (IsLegalName name) :=
  decidable_of_iff (checkName name = .ok () ∧ isHidden name = false) ⟨fun h => ⟨h.1, h.2⟩, fun h => ⟨h.1, h.2⟩⟩

private theorem checkName_eq_ok {name : String} :
    checkName name = .ok () ↔
      ∃ c cs, name.toList = c :: cs ∧ isNameStart c = true ∧ ∀ d ∈ cs, isNamePart d = true := by
  unfold checkName
  cases name.toList with
  | nil => simp
  | cons c cs =>
    by_cases hparts : cs.all isNamePart = true
    · by_cases hstart : isNameStart c = true
      · simpa [hparts, hstart] using List.all_eq_true.1 hparts
      · simp [hparts, hstart]
    · simpa [hparts] using fun _ => by simpa using hparts

theorem checkAll_eq_ok {check : String → Except NameError Unit} {names : List String} :
    checkAll check names = .ok () ↔ ∀ name ∈ names, check name = .ok () := by
  induction names with
  | nil => simp [checkAll]
  | cons name names ih =>
    rw [List.forall_mem_cons, ← ih, checkAll]
    cases check name with
    | error e => simp [bind, Except.bind]
    | ok u => simp [bind, Except.bind]

/-- A name that a member of an enumeration can have. -/
structure IsLegalMember (name : String) : Prop where
  isLegalName : IsLegalName name
  notWord : name ∉ ["true", "false", "null"]

instance (name : String) : Decidable (IsLegalMember name) :=
  decidable_of_iff (IsLegalName name ∧ name ∉ ["true", "false", "null"]) ⟨fun h => ⟨h.1, h.2⟩, fun h => ⟨h.1, h.2⟩⟩

theorem IsLegalMember.check {name : String} (h : IsLegalMember name) : checkMemberName name = .ok () := by
  have hword : ¬(name = "true" ∨ name = "false" ∨ name = "null") := by simpa using h.notWord
  unfold checkMemberName
  rw [h.isLegalName.isName, if_neg hword]
  rfl

/-- A legal name stays legal with letters and digits behind it. -/
theorem IsLegalName.append {name behind : String} (h : IsLegalName name)
    (hb : ∀ c ∈ behind.toList, isNamePart c = true ∧ c ≠ '_') : IsLegalName (name ++ behind) := by
  obtain ⟨c, cs, hname, hstart, hparts⟩ := checkName_eq_ok.1 h.isName
  have hlist : (name ++ behind).toList = c :: (cs ++ behind.toList) := by
    rw [String.toList_append, hname]
    rfl
  have hshown := h.notHidden
  unfold isHidden at hshown
  rw [hname] at hshown
  constructor
  · refine checkName_eq_ok.2 ⟨c, _, hlist, hstart, fun d hd => ?_⟩
    exact (List.mem_append.1 hd).elim (hparts d) fun hd => (hb d hd).1
  · unfold isHidden
    rw [hlist]
    cases cs with
    | cons d cs => exact hshown
    | nil =>
      cases hbehind : behind.toList with
      | nil => rw [List.append_nil]; exact hshown
      | cons d ds =>
        have hd : d ≠ '_' := (hb d (by rw [hbehind]; exact List.mem_cons_self)).2
        simp [List.isPrefixOf, Ne.symm hd]

/-- A numbered name is legal if the name is. -/
theorem IsLegalName.numbered {name : String} (h : IsLegalName name) (n : Nat) :
    IsLegalName (NameTable.numbered name n) := by
  refine h.append fun c hc => ?_
  have hdigit : isDigit c = true := Number.isDigit_of_mem_toDigits (by rwa [← Nat.toList_repr])
  exact ⟨by simp [isNamePart, hdigit], (Number.digitIn?_of_isDigit hdigit 10).2⟩

theorem IsLegalName.declaredName {r : NameRequest} (h : IsLegalName r.name) : IsLegalName (declaredName r) := by
  unfold Graph.declaredName
  split
  · have hletters : "Input".toList.all (fun c => isNamePart c && c != '_') = true := by decide
    exact h.append fun c hc => by simpa using List.all_eq_true.1 hletters c hc
  · exact h

/-- A name that a table gives out is legal if the preferred one is. -/
theorem IsLegalName.allocate {preferred : String} (h : IsLegalName preferred) (t : NameTable) :
    IsLegalName (t.allocate preferred).1 := by
  unfold NameTable.allocate
  split
  · exact h.numbered _
  · exact h

/-- No legal name is kept for describing the graph, so the only names of types that every schema has are reserved
ones. -/
theorem IsLegalName.isReservedType {name : String} (h : IsLegalName name) (hr : name ∉ reservedNames) :
    isReservedType name = false := by
  have hdescribing : ∀ n ∈ describingNames, isHidden n = true := by decide +kernel
  have hscalars : ∀ n ∈ ["String", "Int", "Float", "Boolean", "ID"], n ∈ reservedNames := by decide
  unfold Graph.isReservedType
  rw [Bool.or_eq_false_iff, List.contains_eq_mem, List.contains_eq_mem, decide_eq_false_iff_not,
    decide_eq_false_iff_not]
  refine ⟨fun hmem => ?_, fun hmem => hr (hscalars name hmem)⟩
  exact absurd (hdescribing name hmem) (by simp [h.notHidden])

/-! ### Names of scalars -/

theorem Scalar.name_injective : Function.Injective Scalar.name := by
  rintro (_ | _ | _ | _ | ⟨_ | _ | _⟩) (_ | _ | _ | _ | ⟨_ | _ | _⟩) h <;>
    first | rfl | exact absurd h (by decide)

theorem Scalar.name_mem_reservedNames (x : Scalar) : x.name ∈ reservedNames := by
  obtain (_ | _ | _ | _ | ⟨_ | _ | _⟩) := x <;> decide

theorem Scalar.isLegalName (x : Scalar) : IsLegalName x.name := by
  obtain (_ | _ | _ | _ | ⟨_ | _ | _⟩) := x <;> decide

/-! ### Giving out names -/

/-- Giving out a name succeeds if the preferred name is legal, and the name is legal too. -/
theorem run_giveName_of_isLegalName {r : NameRequest} {s : Session} (hs : s.Distinct)
    (hlegal : IsLegalName (s.naming r)) :
    ∃ name names log, Work.run (giveName r) s = (.ok name, { s with names, log }) ∧ IsLegalName name := by
  obtain ⟨log, hlog⟩ := allocate_eq s (s.naming r)
  have hgiven := hlegal.allocate s.names
  have hunused : (s.names.allocate (s.naming r)).1 ∉ reservedNames := by
    intro hmem
    have hused := NameTable.isUsed_allocate s.names (s.naming r)
    rw [NameTable.isUsed, List.contains_eq_mem, decide_eq_false_iff_not] at hused
    exact hused (hs.reserved _ hmem).1
  refine ⟨_, (s.names.allocate (s.naming r)).2, log, ?_, hgiven⟩
  unfold giveName Session.typeName
  rw [Work.run_bind_of_ok (Work.run_modifyGet _ s), hlog]
  dsimp only
  rw [if_neg (by rw [hgiven.isReservedType hunused]; exact Bool.false_ne_true), hgiven.isName]
  rfl

end ThriftGateway.Graph
