import Mathlib.Data.List.Nodup
import Mathlib.Data.List.Pairwise
import ThriftGateway.Execution.Input
import ThriftGateway.Graph.Output
import ThriftGateway.Proofs.Graph.Collecting
import ThriftGateway.Proofs.Graph.Compile

/-!
# Members of enumerations

The name of a member is read as the value of the member, and a value is written as the name of the first member that
stands for it.  A member without an initializer stands for its place, so members can have one value although all
initializers differ.  The values are distinct, and every name that is read is written back, exactly if no initializer is
the place of a member without one (`readsBack_iff_not_clashes`).
-/

namespace ThriftGateway.Graph

open Idl (Enumeration Member)
open Source (Path)

/-! ### Values of members -/

variable {members : List EnumMember}

private theorem membersFrom_eq_ok {place : Nat} {ms : List Member} (h : membersFrom place ms = .ok members) :
    members.map EnumMember.name = ms.map Member.name ∧
      (ms.zipIdx place).map (fun m => memberValue m.2 m.1) = members.map fun m => .ok m.value := by
  induction ms generalizing place members with
  | nil =>
    cases h
    exact ⟨rfl, rfl⟩
  | cons m ms ih =>
    rw [membersFrom] at h
    cases hv : memberValue place m with
    | error e =>
      rw [hv] at h
      cases h
    | ok v =>
      rw [hv] at h
      cases hrest : membersFrom (place + 1) ms with
      | error e =>
        rw [hrest] at h
        cases h
      | ok rest =>
        rw [hrest] at h
        cases h
        obtain ⟨hnames, hvalues⟩ := ih hrest
        refine ⟨by rw [List.map_cons, List.map_cons, hnames], ?_⟩
        rw [List.zipIdx_cons, List.map_cons, List.map_cons, hvalues, hv]

/-- All initializers have values of their own. -/
def InitializersDiffer (e : Enumeration) : Prop :=
  (e.members.filterMap Member.initializer).Pairwise fun l l' => integerOfLiteral l ≠ integerOfLiteral l'

instance (e : Enumeration) : Decidable (InitializersDiffer e) :=
  inferInstanceAs (Decidable ((e.members.filterMap Member.initializer).Pairwise _))

/-- An initializer is the place of a member without one. -/
def Clashes (e : Enumeration) : Prop :=
  ∃ m ∈ e.members.zipIdx, m.1.initializer = none ∧
    ∃ l ∈ e.members.filterMap Member.initializer, integerOfLiteral l = .ok (m.2 : Int)

instance (e : Enumeration) : Decidable (Clashes e) :=
  inferInstanceAs (Decidable (∃ m ∈ e.members.zipIdx, m.1.initializer = none ∧
    ∃ l ∈ e.members.filterMap Member.initializer, integerOfLiteral l = .ok (m.2 : Int)))

private theorem memberValue_of_some {place : Nat} {m : Member} {l : Idl.IntLiteral} (h : m.initializer = some l) :
    memberValue place m = integerOfLiteral l := by
  rw [memberValue, h]

private theorem memberValue_of_none {place : Nat} {m : Member} (h : m.initializer = none) :
    memberValue place m = .ok (place : Int) := by
  rw [memberValue, h]

/-- Members at different places differ in their values, unless an initializer is the place of a member without one. -/
private theorem place_unique {e : Enumeration} (hdiffer : InitializersDiffer e) (hclash : ¬Clashes e)
    {m m' : Member × Nat} (hm : m ∈ e.members.zipIdx) (hm' : m' ∈ e.members.zipIdx)
    (h : memberValue m.2 m.1 = memberValue m'.2 m'.1) : m = m' := by
  -- a member without an initializer, whose place is a value, has a clash with a member that has one
  have hmixed : ∀ {a b : Member × Nat}, a ∈ e.members.zipIdx → b ∈ e.members.zipIdx → a.1.initializer = none →
      ∀ l, b.1.initializer = some l → memberValue a.2 a.1 ≠ memberValue b.2 b.1 := by
    intro a b ha hb hnone l hsome hvalue
    rw [memberValue_of_none hnone, memberValue_of_some hsome] at hvalue
    exact hclash ⟨a, ha, hnone, l, List.mem_filterMap.2 ⟨b.1, List.fst_mem_of_mem_zipIdx hb, hsome⟩, hvalue.symm⟩
  cases hi : m.1.initializer with
  | none =>
    cases hi' : m'.1.initializer with
    | none =>
      rw [memberValue_of_none hi, memberValue_of_none hi'] at h
      have hplace : m.2 = m'.2 := Int.ofNat.inj (Except.ok.inj h)
      have hget := List.mem_zipIdx_iff_getElem?.1 hm
      have hget' := List.mem_zipIdx_iff_getElem?.1 hm'
      rw [hplace] at hget
      exact Prod.ext (Option.some.inj (hget.symm.trans hget')) hplace
    | some l => exact absurd h (hmixed hm hm' hi l hi')
  | some l =>
    cases hi' : m'.1.initializer with
    | none => exact absurd h.symm (hmixed hm' hm hi' l hi)
    | some l' =>
      rw [memberValue_of_some hi, memberValue_of_some hi'] at h
      have hplaces : (e.members.zipIdx.filterMap fun m => m.1.initializer) =
        e.members.filterMap Member.initializer := by
        rw [← List.zipIdx_map_fst 0 e.members, List.filterMap_map, List.zipIdx_map_fst]
        rfl
      unfold InitializersDiffer at hdiffer
      rw [← hplaces, List.pairwise_filterMap] at hdiffer
      by_contra hne
      have : Std.Symm fun a b : Member × Nat => ∀ l, a.1.initializer = some l → ∀ l', b.1.initializer = some l' →
          integerOfLiteral l ≠ integerOfLiteral l' := ⟨fun a b hab l hl l' hl' heq => hab l' hl' l hl heq.symm⟩
      exact hdiffer.forall hm hm' hne l hi l' hi' h

/-- The values of an enumeration whose initializers differ are distinct exactly if no initializer is the place of a
member without one. -/
private theorem nodup_values_iff {e : Enumeration} (hdiffer : InitializersDiffer e)
    (h : membersFrom 0 e.members = .ok members) : (members.map EnumMember.value).Nodup ↔ ¬Clashes e := by
  have hvalues : (e.members.zipIdx.map fun m => memberValue m.2 m.1) =
      (members.map EnumMember.value).map Except.ok := by
    rw [(membersFrom_eq_ok h).2, List.map_map]
    rfl
  have hplaces : e.members.zipIdx.Nodup := by
    refine List.Nodup.of_map Prod.snd ?_
    rw [List.zipIdx_map_snd]
    exact List.nodup_range'
  rw [← List.nodup_map_iff (f := (Except.ok : Int → Except Number.NumeralError Int)) fun _ _ => Except.ok.inj,
    ← hvalues]
  refine ⟨fun hnodup => ?_, fun hclash => hplaces.map_on fun m hm m' hm' => place_unique hdiffer hclash hm hm'⟩
  rintro ⟨m, hm, hnone, l, hl, hvalue⟩
  obtain ⟨n, hn, hsome⟩ := List.mem_filterMap.1 hl
  obtain ⟨place, hplace⟩ := List.getElem?_of_mem hn
  have hm' : (n, place) ∈ e.members.zipIdx := List.mem_zipIdx_iff_getElem?.2 hplace
  have heq : m = (n, place) := List.inj_on_of_nodup_map hnodup hm hm'
    (by rw [memberValue_of_none hnone, memberValue_of_some hsome, hvalue])
  rw [heq, hsome] at hnone
  cases hnone

/-- Asking for a node that is not there yet succeeds by making it. -/
private theorem run_nodeFor_eq_ok_of_new {key : NodeKey} {make : Compile Node} {s s' : Session} {id : Nat}
    (hnew : s.find? key = none) (h : Work.run (nodeFor key make) s = (.ok id, s')) :
    ∃ node made, Work.run make s = (.ok node, made) ∧ id = made.nodes.length ∧
      s' = { made with nodes := made.nodes ++ [(key, node)] } := by
  cases hs : s.isSealed with
  | true =>
    rw [run_nodeFor_of_sealed hnew hs] at h
    cases h
  | false =>
    cases hmake : Work.run make s with
    | mk r made =>
      cases r with
      | error e =>
        rw [run_nodeFor_of_error hnew hs hmake] at h
        cases h
      | ok node =>
        rw [run_nodeFor_of_make hnew hs hmake] at h
        cases h
        exact ⟨node, made, rfl, rfl, rfl⟩

/-- The node that is made for an enumeration has its members. -/
private theorem makeEnumeration_eq_ok {file : Path} {e : Enumeration} {s s' : Session} {node : Node}
    (h : Work.run (makeEnumeration file e) s = (.ok node, s')) :
    ∃ name members, membersFrom 0 e.members = .ok members ∧
      node = .enumeration name (collect EnumMember.name members) e.description := by
  obtain ⟨members, s₁, hmembers, h⟩ := Work.run_bind_eq_ok.1 h
  obtain ⟨name, s₂, -, h⟩ := Work.run_bind_eq_ok.1 h
  cases h
  refine ⟨name, members, ?_, rfl⟩
  cases hread : membersFrom 0 e.members with
  | error error =>
    rw [hread] at hmembers
    cases hmembers
  | ok read =>
    rw [hread] at hmembers
    cases hmembers
    rfl

/-- A declaration of an enumeration stands for its node. -/
private theorem run_compileDeclaration_enumeration (direction : Option Direction) (file : Path) (e : Enumeration)
    {s : Session} (henums : s.enumsAsInts = false) :
    Work.run (compileDeclaration direction file (.enumeration e)) s =
      Work.run (nodeFor ⟨file.written, e.name, none⟩ (makeEnumeration file e) >>= fun id =>
        pure (.named (.node id))) s := by
  have hcore : Work.run (compileCore direction (.enumeration file e)) s =
      Work.run (nodeFor ⟨file.written, e.name, none⟩ (makeEnumeration file e) >>= fun id => pure (.node id)) s := by
    unfold compileCore
    rw [Work.run_bind_of_ok (Work.run_get s), henums]
    rfl
  unfold compileDeclaration compileType
  rw [Work.run_bind_of_ok (Work.run_get s), expandType_enumeration]
  show Work.run (compileCore direction (.enumeration file e) >>= fun t => pure (GraphType.named t)) s = _
  rw [Work.run_bind, hcore, Work.run_bind, Work.run_bind]
  generalize Work.run (nodeFor _ (makeEnumeration file e)) s = r
  obtain ⟨r, s'⟩ := r
  cases r <;> rfl

/-- A declaration of an enumeration that has no node yet becomes a node with its members. -/
private theorem compileDeclaration_enumeration {direction : Option Direction} {file : Path} {e : Enumeration}
    {s s' : Session}
    {t : GraphType} (henums : s.enumsAsInts = false) (hnew : s.find? ⟨file.written, e.name, none⟩ = none)
    (h : Work.run (compileDeclaration direction file (.enumeration e)) s = (.ok t, s')) :
    ∃ id name members, t = .named (.node id) ∧ membersFrom 0 e.members = .ok members ∧
      s'.node? id = some (.enumeration name (collect EnumMember.name members) e.description) := by
  rw [run_compileDeclaration_enumeration direction file e henums] at h
  obtain ⟨id, s₁, hnode, h⟩ := Work.run_bind_eq_ok.1 h
  cases h
  obtain ⟨node, made, hmake, rfl, rfl⟩ := run_nodeFor_eq_ok_of_new hnew hnode
  obtain ⟨name, members, hmembers, rfl⟩ := makeEnumeration_eq_ok hmake
  exact ⟨_, name, members, rfl, hmembers, by simp [Session.node?]⟩

end ThriftGateway.Graph

namespace ThriftGateway.Execution

open Graph (Clashes CoercionError Direction EnumMember InitializersDiffer Session Work collect membersFrom writeMember)
open Idl (Enumeration Member)
open Source (Path)

/-! ### Names that are read and written back -/

/-- The name of a member is read, among given values and in requests, as a value that is written as this name. -/
def ReadsBack (enumeration : String) (members : List EnumMember) (name : String) : Prop :=
  ∃ v, readMember enumeration members (.text name) = .ok v ∧
    readMemberLiteral enumeration members (.word name) = .ok v ∧
    writeMember enumeration members v = .ok (.text name)

section

variable {enumeration : String} {members : List EnumMember} {m : EnumMember}

private theorem find?_of_nodup {α β : Type} [DecidableEq β] {f : α → β} {xs : List α} {x : α} (h : (xs.map f).Nodup)
    (hx : x ∈ xs) : (xs.find? fun y => f y = f x) = some x := by
  cases hy : xs.find? fun y => f y = f x with
  | none => exact absurd (List.find?_eq_none.1 hy x hx) (by simp)
  | some y =>
    have heq : f y = f x := by simpa using List.find?_some hy
    rw [List.inj_on_of_nodup_map h (List.mem_of_find?_eq_some hy) hx heq]

/-- The name of a member is read as the value of the member. -/
private theorem memberValue_of_mem (hnames : (members.map EnumMember.name).Nodup) (hm : m ∈ members) :
    memberValue enumeration members m.name = .ok (.int m.value) := by
  rw [memberValue, find?_of_nodup hnames hm]
  rfl

private theorem same_int (m n : Int) : Value.same (.int m) (.int n) = decide (m = n) := by
  simp [Value.same, Value.sameNumber, Value.integer?]

/-- A value is written as the name of the first member that stands for it. -/
private theorem writeMember_of_mem (enumeration : String) (hm : m ∈ members) :
    ∃ first, members.find? (fun x => x.value = m.value) = some first ∧
      writeMember enumeration members (.int m.value) = .ok (.text first.name) := by
  cases hfirst : members.find? fun x => x.value = m.value with
  | none => exact absurd (List.find?_eq_none.1 hfirst m hm) (by simp)
  | some first =>
    refine ⟨first, rfl, ?_⟩
    simp only [writeMember, Graph.memberOf?, same_int, hfirst]

/-- If names are distinct, all names are written back exactly if values are distinct. -/
private theorem readsBack_iff_nodup (hnames : (members.map EnumMember.name).Nodup) :
    (∀ m ∈ members, ReadsBack enumeration members m.name) ↔ (members.map EnumMember.value).Nodup := by
  constructor
  · intro hback
    refine (List.Nodup.of_map _ hnames).map_on fun m hm m' hm' hvalue => ?_
    have hwritten : ∀ m ∈ members, writeMember enumeration members (.int m.value) = .ok (.text m.name) := by
      intro m hm
      obtain ⟨v, hread, -, hv⟩ := hback m hm
      cases (memberValue_of_mem hnames hm).symm.trans hread
      exact hv
    have hname : m.name = m'.name :=
      Value.text.inj (Except.ok.inj ((hwritten m hm).symm.trans (hvalue ▸ hwritten m' hm')))
    exact List.inj_on_of_nodup_map hnames hm hm' hname
  · intro hvalues m hm
    obtain ⟨first, hfirst, hwritten⟩ := writeMember_of_mem enumeration hm
    cases (find?_of_nodup hvalues hm).symm.trans hfirst
    exact ⟨_, memberValue_of_mem hnames hm, memberValue_of_mem hnames hm, hwritten⟩

/-- For an enumeration with distinct names and differing initializers, the values of the members are distinct, and all
names that are read are written back, exactly if no initializer is the place of a member without one. -/
theorem readsBack_iff_not_clashes {direction : Option Direction} {file : Path} {e : Enumeration} {s s' : Session}
    {t : Graph.GraphType} (hnames : (e.members.map Member.name).Nodup) (hdiffer : InitializersDiffer e)
    (henums : s.enumsAsInts = false) (hnew : s.find? ⟨file.written, e.name, none⟩ = none)
    (h : Work.run (Graph.compileDeclaration direction file (.enumeration e)) s = (.ok t, s')) :
    ∃ id name members, t = .named (.node id) ∧ s'.node? id = some (.enumeration name members e.description) ∧
      members.map EnumMember.name = e.members.map Member.name ∧
      ((members.map EnumMember.value).Nodup ↔ ¬Clashes e) ∧
      ((∀ m ∈ e.members, ReadsBack name members m.name) ↔ ¬Clashes e) := by
  obtain ⟨id, name, members, rfl, hmembers, hnode⟩ := Graph.compileDeclaration_enumeration henums hnew h
  have hsame := (Graph.membersFrom_eq_ok hmembers).1
  rw [← hsame] at hnames
  rw [Graph.collect_of_nodup hnames] at hnode
  have hvalues := Graph.nodup_values_iff hdiffer hmembers
  refine ⟨id, name, members, rfl, hnode, hsame, hvalues, ?_⟩
  rw [← hvalues, ← readsBack_iff_nodup hnames, ← List.forall_mem_map (P := ReadsBack name members), ← hsame,
    List.forall_mem_map]

end

/-! ### An enumeration of two members -/

/-- An enumeration whose second member has an initializer. -/
def switch (raw : String) : Enumeration :=
  ⟨1, "E", [⟨1, "A", none, none⟩, ⟨1, "B", some ⟨1, raw, false⟩, none⟩], none⟩

namespace switch

/-- The session before. -/
abbrev before : Session := Session.fresh false Graph.declaredName

/-- The members that the enumeration has. -/
def members (n : Int) : List EnumMember := [⟨"A", 0, none⟩, ⟨"B", n, none⟩]

/-- The session with the node. -/
def after (n : Int) : Session :=
  { before with
    names := ⟨"E" :: Graph.reservedNames, []⟩
    nodes := [(⟨Path.root.written, "E", none⟩, .enumeration "E" (members n) none)] }

private theorem compiles (raw : String) (n : Int) (h : Graph.integerOfLiteral ⟨1, raw, false⟩ = .ok n) :
    Work.run (Graph.compileDeclaration none Path.root (.enumeration (switch raw))) before =
      (.ok (.named (.node 0)), after n) := by
  have hfree : before.names.isUsed "E" = false ∧ Graph.isReservedType "E" = false ∧ Graph.checkName "E" = .ok () := by
    decide +kernel
  have hname := Graph.run_giveName_of_free (s := before) (r := ⟨Path.root.written, "E", false, true⟩) hfree.1 hfree.2.1
    hfree.2.2
  have hmembers : membersFrom 0 (switch raw).members = .ok (members n) := by
    simp only [switch, membersFrom, Graph.memberValue, h]
    rfl
  have hmake : Work.run (Graph.makeEnumeration Path.root (switch raw)) before =
      (.ok (.enumeration "E" (members n) none), { before with names := ⟨"E" :: Graph.reservedNames, []⟩ }) := by
    unfold Graph.makeEnumeration
    rw [hmembers, Work.run_bind_of_ok (Work.run_ofExcept_ok _)]
    show Work.run (Graph.giveName ⟨Path.root.written, "E", false, true⟩ >>= _) before = _
    rw [Work.run_bind_of_ok hname]
    rfl
  have hnode : Work.run (Graph.nodeFor ⟨Path.root.written, "E", none⟩ (Graph.makeEnumeration Path.root (switch raw)))
      before = (.ok 0, after n) := Graph.run_nodeFor_of_make rfl rfl hmake
  rw [Graph.run_compileDeclaration_enumeration none Path.root (switch raw) rfl]
  exact Work.run_bind_of_ok hnode

end switch

/-- Values that are no places are written back. -/
theorem readsBack_switch_five :
    ∃ id name members s, Work.run (Graph.compileDeclaration none Path.root (.enumeration (switch "5"))) switch.before =
        (.ok (.named (.node id)), s) ∧ s.node? id = some (.enumeration name members none) ∧
      ∀ m ∈ (switch "5").members, ReadsBack name members m.name := by
  obtain ⟨id, name, members, ht, hnode, -, -, hback⟩ := readsBack_iff_not_clashes (by decide) (by decide) rfl rfl
    (switch.compiles "5" 5 (by decide))
  cases ht
  exact ⟨_, name, members, _, switch.compiles "5" 5 (by decide), hnode, hback.2 (by decide)⟩

/-- Names are distinct, and there is only one initializer, but it is the place of the first member: both members have
one value, and the name of the second one is not written back. -/
theorem not_readsBack_switch_zero :
    ((switch "0").members.map Member.name).Nodup ∧ InitializersDiffer (switch "0") ∧
      Work.run (Graph.compileDeclaration none Path.root (.enumeration (switch "0"))) switch.before =
        (.ok (.named (.node 0)), switch.after 0) ∧
      (switch.after 0).node? 0 = some (.enumeration "E" (switch.members 0) none) ∧
      ¬((switch.members 0).map EnumMember.value).Nodup ∧ ¬ReadsBack "E" (switch.members 0) "B" := by
  refine ⟨by decide, by decide, switch.compiles "0" 0 (by decide), rfl, by decide, ?_⟩
  rintro ⟨v, hread, -, hwritten⟩
  have hvalue : readMember "E" (switch.members 0) (.text "B") = .ok (.int 0) := rfl
  have hname : writeMember "E" (switch.members 0) (.int 0) = .ok (.text "A") := by
    simp [writeMember, Graph.memberOf?, same_int, switch.members]
  cases hvalue.symm.trans hread
  exact absurd (Value.text.inj (Except.ok.inj (hname.symm.trans hwritten))) (by decide)

end ThriftGateway.Execution
