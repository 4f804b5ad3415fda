import Mathlib.Data.List.Forall2
import ThriftGateway.Proofs.Graph.Compile

/-!
# Libraries that compile alike

A likeness (`Likeness`) relates the types that are written in two libraries; related types stand for the same in their
libraries.  Work with one library then follows work with the other (`Follows`): in sessions with the same names and with
nodes that correspond one by one, it ends in the same way, makes nodes for the same keys and gives out the same names.
Following is closed under the ways in which work is put together.  From the law for expansions it is shown of compiling
types and functions and of telling the fields of a node (`compileType_follows`, `compileFunction_follows`,
`nodeFields_follows`).
-/

namespace ThriftGateway.Graph

open Idl (Field Function TypeExpr)
open Source (Library Path)

variable {ε δ α β α' β' : Type}

/-! ### What differs in types only -/

section Alike

variable (R : TypeExpr → TypeExpr → Prop)

/-- Fields that differ in their types only. -/
def FieldAlike (f f' : Field) : Prop := ∃ type, R f.type type ∧ f' = { f with type }

/-- Structs that differ in the types of their fields only. -/
def StructAlike (s s' : Idl.Struct) : Prop :=
  ∃ fields, List.Forall₂ (FieldAlike R) s.fields fields ∧ s' = { s with fields }

/-- Functions that differ in the types of their results and of their fields only. -/
def FunctionAlike (f f' : Function) : Prop :=
  ∃ result arguments throws, R f.result result ∧ List.Forall₂ (FieldAlike R) f.arguments arguments ∧
    List.Forall₂ (FieldAlike R) f.throws throws ∧ f' = { f with result, arguments, throws }

private theorem fieldAlike_eq : FieldAlike Eq = Eq := by
  funext ⟨line, name, id, requiredness, type, default, description⟩ f'
  refine propext ⟨?_, fun h => ⟨_, rfl, h.symm⟩⟩
  rintro ⟨_, rfl, rfl⟩
  rfl

private theorem structAlike_eq : StructAlike Eq = Eq := by
  funext ⟨form, line, name, fields, description⟩ s'
  unfold StructAlike
  rw [fieldAlike_eq, List.forall₂_eq_eq_eq]
  refine propext ⟨?_, fun h => ⟨_, rfl, h.symm⟩⟩
  rintro ⟨_, rfl, rfl⟩
  rfl

theorem functionAlike_eq : FunctionAlike Eq = Eq := by
  funext ⟨line, name, result, arguments, throws, oneway, description⟩ f'
  unfold FunctionAlike
  rw [fieldAlike_eq, List.forall₂_eq_eq_eq]
  refine propext ⟨?_, fun h => ⟨_, _, _, rfl, rfl, rfl, h.symm⟩⟩
  rintro ⟨_, _, _, rfl, rfl, rfl, rfl⟩
  rfl

end Alike

/-! ### Likenesses -/

/-- Results that agree: both are there and related, or both are the same error.  Where it is lenient, the second may be
anything if the first is an error. -/
inductive Agree (isLenient : Prop) (R : α → β → Prop) : Except ε α → Except ε β → Prop
  | ok {a b} (h : R a b) : Agree isLenient R (.ok a) (.ok b)
  | error (e : ε) : Agree isLenient R (.error e) (.error e)
  | excused {e : ε} {r : Except ε β} (h : isLenient) : Agree isLenient R (.error e) r

/-- Where outcomes agree and the second one is a success, so is the first one. -/
theorem Agree.exists_of_eq_ok {R : α → β → Prop} {r : Except ε α} {r' : Except ε β} {b : β} (h : Agree False R r r')
    (hr : r' = .ok b) : ∃ a, r = .ok a ∧ R a b := by
  cases h with
  | @ok a b' hab =>
    obtain rfl : b' = b := Except.ok.inj hr
    exact ⟨a, rfl, hab⟩
  | error e => cases hr
  | excused hp => exact hp.elim

theorem Agree.refl {p : Prop} {R : α → α → Prop} (hR : ∀ a, R a a) (r : Except ε α) : Agree p R r r := by
  cases r with
  | ok a => exact .ok (hR a)
  | error e => exact .error e

theorem Agree.map {p : Prop} {R : α → β → Prop} {R' : α' → β' → Prop} {f : α → α'} {g : β → β'}
    (h : ∀ a b, R a b → R' (f a) (g b)) {r : Except ε α} {r' : Except ε β} (hr : Agree p R r r') :
    Agree p R' (r.map f) (r'.map g) := by
  cases hr with
  | ok hab => exact .ok (h _ _ hab)
  | error e => exact .error e
  | excused hp => exact .excused hp

/-- Cores whose structs differ in the types of fields only. -/
inductive CoreAlike (R : Path → TypeExpr → TypeExpr → Prop) : Core → Core → Prop
  | scalar (x : Scalar) : CoreAlike R (.scalar x) (.scalar x)
  | struct {file s s'} (h : StructAlike (R file) s s') : CoreAlike R (.struct file s) (.struct file s')
  | enumeration (file : Path) (e : Idl.Enumeration) : CoreAlike R (.enumeration file e) (.enumeration file e)

/-- Expansions with the same around cores that are alike. -/
def ExpansionAlike (R : Path → TypeExpr → TypeExpr → Prop) (e e' : Expansion) : Prop :=
  e'.around = e.around ∧ CoreAlike R e.core e'.core

/-- How types in two libraries correspond to each other: related types stand for the same, up to types that are related
again.  Where it is lenient, nothing is said of types that stand for nothing in the first library. -/
structure Likeness where
  first : Library
  second : Library
  isLenient : Prop
  /-- The types in a file that are related. -/
  types : Path → TypeExpr → TypeExpr → Prop
  /-- How what is reported with the first library and what is with the second are related. -/
  logs : List Notice → List Notice → Prop
  logs_append : ∀ {log log' : List Notice} (n : Notice), logs log log' → logs (log ++ [n]) (log' ++ [n])
  expand : ∀ {file : Path} {t t' : TypeExpr}, types file t t' →
    Agree isLenient (ExpansionAlike types) (expandType first [] file t) (expandType second [] file t')

namespace Likeness

variable (L : Likeness)

/-- Nodes of declarations that differ in the types of fields only. -/
inductive Nodes : Node → Node → Prop
  | input {name file s s'} (h : StructAlike (L.types file) s s') : Nodes (.input name file s) (.input name file s')
  | output {name file s s'} (h : StructAlike (L.types file) s s') : Nodes (.output name file s) (.output name file s')
  | enumeration (name : String) (members : List EnumMember) (description : Option String) :
      Nodes (.enumeration name members description) (.enumeration name members description)
  | foreign : Nodes .foreign .foreign

/-- A session with each of the libraries: the names are the same, and the nodes correspond to each other in their
order. -/
structure Sessions (s s' : Session) : Prop where
  first : s.library = L.first
  second : s'.library = L.second
  enumsAsInts : s'.enumsAsInts = s.enumsAsInts
  naming : s'.naming = s.naming
  names : s'.names = s.names
  isSealed : s'.isSealed = s.isSealed
  nodes : List.Forall₂ (fun n n' => n'.1 = n.1 ∧ L.Nodes n.2 n'.2) s.nodes s'.nodes
  logs : L.logs s.log s'.log

/-- What work has come to with each of the libraries. -/
inductive Outcome (R : α → β → Prop) : Except ε α × Session → Except ε β × Session → Prop
  | ok {a b s s'} (h : R a b) (hs : L.Sessions s s') : Outcome R (.ok a, s) (.ok b, s')
  | error {s s'} (e : ε) (hs : L.Sessions s s') : Outcome R (.error e, s) (.error e, s')
  | excused {e : ε} {s : Session} {r : Except ε β × Session} (h : L.isLenient) : Outcome R (.error e, s) r

/-- The second work does with the second library what the first does with the first. -/
def Follows (R : α → β → Prop) (w : Work ε α) (w' : Work ε β) : Prop :=
  ∀ s s', L.Sessions s s' → L.Outcome R (Work.run w s) (Work.run w' s')

variable {L} {s s' : Session}

/-! ### Work that follows -/

theorem Outcome.bind {R : α → β → Prop} {R' : α' → β' → Prop} {w : Work ε α} {w' : Work ε β} {k : α → Work ε α'}
    {k' : β → Work ε β'} (hw : L.Outcome R (Work.run w s) (Work.run w' s'))
    (hk : ∀ a b, R a b → L.Follows R' (k a) (k' b)) :
    L.Outcome R' (Work.run (w >>= k) s) (Work.run (w' >>= k') s') := by
  rw [Work.run_bind, Work.run_bind]
  generalize Work.run w s = r at hw ⊢
  generalize Work.run w' s' = r' at hw ⊢
  cases hw with
  | ok hab hs => exact hk _ _ hab _ _ hs
  | error e hs => exact .error e hs
  | excused hp => exact .excused hp

theorem Outcome.adapt {R : α → β → Prop} (f : δ → ε) {w : Work δ α} {w' : Work δ β}
    (hw : L.Outcome R (Work.run w s) (Work.run w' s')) :
    L.Outcome R (Work.run (ExceptT.adapt f w : Work ε α) s) (Work.run (ExceptT.adapt f w' : Work ε β) s') := by
  rw [Work.run_adapt, Work.run_adapt]
  generalize Work.run w s = r at hw ⊢
  generalize Work.run w' s' = r' at hw ⊢
  cases hw with
  | ok hab hs => exact .ok hab hs
  | error e hs => exact .error (f e) hs
  | excused hp => exact .excused hp

namespace Follows

variable {R : α → β → Prop}

theorem pure {a : α} {b : β} (h : R a b) : L.Follows R (Pure.pure a : Work ε α) (Pure.pure b) :=
  fun _ _ hs => .ok h hs

theorem throw (e : ε) : L.Follows R (MonadExcept.throw e : Work ε α) (MonadExcept.throw e) :=
  fun _ _ hs => .error e hs

private theorem ofExcept (wrap : δ → ε) {r : Except δ α} {r' : Except δ β} (h : Agree L.isLenient R r r') :
    L.Follows R (Work.ofExcept wrap r) (Work.ofExcept wrap r') := by
  cases h with
  | ok h => exact pure h
  | error e => exact throw (wrap e)
  | excused h => exact fun _ _ _ => .excused h

/-- The same result on both sides. -/
theorem result (wrap : δ → ε) (r : Except δ α) : L.Follows Eq (Work.ofExcept wrap r) (Work.ofExcept wrap r) :=
  ofExcept wrap (.refl (fun _ => rfl) r)

theorem bind {R' : α' → β' → Prop} {w : Work ε α} {w' : Work ε β} {k : α → Work ε α'} {k' : β → Work ε β'}
    (hw : L.Follows R w w') (hk : ∀ a b, R a b → L.Follows R' (k a) (k' b)) : L.Follows R' (w >>= k) (w' >>= k') :=
  fun s s' hs => (hw s s' hs).bind hk

/-- Steps with the same result before those that follow. -/
theorem bind_eq {R' : α' → β' → Prop} {w w' : Work ε α} {k : α → Work ε α'} {k' : α → Work ε β'}
    (hw : L.Follows Eq w w') (hk : ∀ a, L.Follows R' (k a) (k' a)) : L.Follows R' (w >>= k) (w' >>= k') :=
  hw.bind fun a _ h => h ▸ hk a

theorem adapt (f : δ → ε) {w : Work δ α} {w' : Work δ β} (hw : L.Follows R w w') :
    L.Follows R (ExceptT.adapt f w : Work ε α) (ExceptT.adapt f w') :=
  fun s s' hs => (hw s s' hs).adapt f

/-- Work that begins with looking at the session. -/
theorem look {k : Session → Work ε α} {k' : Session → Work ε β}
    (hk : ∀ s s', L.Sessions s s' → L.Follows R (k s) (k' s')) : L.Follows R (get >>= k) (get >>= k') :=
  fun s s' hs => hk s s' hs s s' hs

end Follows

theorem Sessions.report (h : L.Sessions s s') (n : Notice) : L.Sessions (s.report n) (s'.report n) :=
  { h with logs := L.logs_append n h.logs }

theorem report_follows (n : Notice) :
    L.Follows Eq (modify fun s => s.report n : Work ε Unit) (modify fun s => s.report n) :=
  fun _ _ hs => .ok rfl (hs.report n)

theorem close_follows : L.Follows Eq (modify Session.close : Work ε Unit) (modify Session.close) :=
  fun _ _ hs => .ok rfl { hs with isSealed := rfl }

/-! ### Names and nodes -/

private theorem Sessions.typeName (h : L.Sessions s s') (r : NameRequest) :
    (s'.typeName r).1 = (s.typeName r).1 ∧ L.Sessions (s.typeName r).2 (s'.typeName r).2 := by
  have hnames : ∀ names, L.Sessions { s with names } { s' with names } := fun names => { h with names := rfl }
  unfold Session.typeName
  rw [h.naming]
  unfold Session.allocate
  rw [h.names]
  dsimp only
  split
  · exact ⟨rfl, hnames _⟩
  · exact ⟨rfl, (hnames _).report _⟩

private theorem giveName_follows (r : NameRequest) : L.Follows Eq (giveName r) (giveName r) := by
  have hname : L.Follows Eq (modifyGet fun s => s.typeName r : Compile String) (modifyGet fun s => s.typeName r) := by
    intro s s' hs
    obtain ⟨hname, hs'⟩ := hs.typeName r
    exact .ok hname.symm hs'
  refine hname.bind_eq fun name => ?_
  dsimp only
  split
  · exact (Follows.throw (R := fun _ _ => False) _).bind nofun
  · exact (Follows.result _ _).bind_eq fun _ => .pure rfl

private theorem makeEnumeration_follows (file : Path) (e : Idl.Enumeration) :
    L.Follows L.Nodes (makeEnumeration file e) (makeEnumeration file e) :=
  (Follows.result _ _).bind_eq fun _ => (giveName_follows _).bind_eq fun name => .pure (.enumeration name _ _)

private theorem makeStruct_follows (direction : Option Direction) {file : Path} {x x' : Idl.Struct}
    (h : StructAlike (L.types file) x x') :
    L.Follows L.Nodes (makeStruct direction file x) (makeStruct direction file x') := by
  have hname : x'.name = x.name := by
    obtain ⟨_, -, rfl⟩ := h
    rfl
  unfold makeStruct
  rw [hname]
  split
  · exact (giveName_follows _).bind_eq fun _ => .pure (.input h)
  · exact (giveName_follows _).bind_eq fun _ => .pure (.output h)

theorem Sessions.find? (h : L.Sessions s s') (key : NodeKey) : s'.find? key = s.find? key := by
  have hkeys : ∀ {ns ns' : List (NodeKey × Node)}, List.Forall₂ (fun n n' => n'.1 = n.1 ∧ L.Nodes n.2 n'.2) ns ns' →
      ns'.findIdx? (·.1 = key) = ns.findIdx? (·.1 = key) := by
    intro ns ns' hns
    induction hns with
    | nil => rfl
    | cons hn _ ih => rw [List.findIdx?_cons, List.findIdx?_cons, hn.1, ih]
  exact hkeys h.nodes

/-- Nodes of one number correspond to each other. -/
theorem Sessions.node? (h : L.Sessions s s') (id : Nat) :
    (s.node? id = none ∧ s'.node? id = none) ∨ ∃ n n', s.node? id = some n ∧ s'.node? id = some n' ∧ L.Nodes n n' := by
  unfold Session.node?
  have hlength := h.nodes.length_eq
  by_cases hid : id < s.nodes.length
  · refine Or.inr ⟨_, _, ?_, ?_, (h.nodes.get hid (hlength ▸ hid)).2⟩
    · rw [List.getElem?_eq_getElem hid]
      rfl
    · rw [List.getElem?_eq_getElem (hlength ▸ hid)]
      rfl
  · rw [List.getElem?_eq_none (by omega), List.getElem?_eq_none (by omega)]
    exact Or.inl ⟨rfl, rfl⟩

private theorem nodeFor_follows (key : NodeKey) {make make' : Compile Node} (h : L.Follows L.Nodes make make') :
    L.Follows Eq (nodeFor key make) (nodeFor key make') := by
  refine Follows.look fun s s' hs => ?_
  rw [hs.find?, hs.isSealed]
  split
  · exact .pure rfl
  · have hadd : L.Follows Eq
        (make >>= fun node => modifyGet fun s => (s.nodes.length, { s with nodes := s.nodes ++ [(key, node)] }))
        (make' >>= fun node => modifyGet fun s => (s.nodes.length, { s with nodes := s.nodes ++ [(key, node)] })) := by
      refine h.bind fun n n' hn s s' hs => .ok hs.nodes.length_eq { hs with nodes := ?_ }
      exact List.rel_append hs.nodes (.cons ⟨rfl, hn⟩ .nil)
    split
    · exact (Follows.throw (R := fun _ _ => False) _).bind nofun
    · exact hadd

/-! ### Types -/

private theorem compileCore_follows (direction : Option Direction) {c c' : Core} (h : CoreAlike L.types c c') :
    L.Follows Eq (compileCore direction c) (compileCore direction c') := by
  cases h with
  | scalar x => exact .pure rfl
  | @struct file x x' h =>
    have hname : x'.name = x.name := by
      obtain ⟨_, -, rfl⟩ := h
      rfl
    unfold compileCore
    dsimp only
    rw [hname]
    exact (nodeFor_follows _ (makeStruct_follows direction h)).bind_eq fun _ => .pure rfl
  | enumeration file e =>
    refine Follows.look fun s s' hs => ?_
    rw [hs.enumsAsInts]
    split
    · exact .pure rfl
    · exact (nodeFor_follows _ (makeEnumeration_follows file e)).bind_eq fun _ => .pure rfl

private theorem compileExpansion_follows (direction : Option Direction) {r r' : Except ExpansionError Expansion}
    (h : Agree L.isLenient (ExpansionAlike L.types) r r') :
    L.Follows Eq (compileExpansion direction r) (compileExpansion direction r') := by
  refine (Follows.ofExcept _ h).bind fun e e' he => ?_
  rw [he.1]
  exact (compileCore_follows direction he.2).bind_eq fun _ => .pure rfl

theorem compileType_follows (direction : Option Direction) {file : Path} {t t' : TypeExpr} (h : L.types file t t') :
    L.Follows Eq (compileType direction file t) (compileType direction file t') := by
  refine Follows.look fun s s' hs => ?_
  rw [hs.first, hs.second]
  exact compileExpansion_follows direction (L.expand h)

/-- A field stands for what its type stands for, with a mark if it is required. -/
private theorem compileField_follows (direction : Option Direction) {file : Path} {f f' : Field}
    (h : FieldAlike (L.types file) f f') :
    L.Follows Eq (compileField direction file f) (compileField direction file f') := by
  obtain ⟨type, htype, rfl⟩ := h
  refine Follows.look fun s s' hs => ?_
  rw [hs.first, hs.second, expandType_field, expandType_field]
  refine compileExpansion_follows direction ((L.expand htype).map fun e e' he => ?_)
  unfold Expansion.inField
  split
  · exact ⟨congrArg (List.cons Wrapping.nonNull) he.1, he.2⟩
  · exact he

/-! ### Fields and functions -/

private theorem compileInputField_follows {file : Path} {f f' : Field} (h : FieldAlike (L.types file) f f') :
    L.Follows Eq (compileInputField file f) (compileInputField file f') := by
  have htype := compileField_follows (some .input) h
  obtain ⟨type, -, rfl⟩ := h
  exact htype.bind_eq fun _ => (Follows.result _ _).bind_eq fun _ => .pure rfl

private theorem compileOutputField_follows {file : Path} {f f' : Field} (h : FieldAlike (L.types file) f f') :
    L.Follows Eq (compileOutputField file f) (compileOutputField file f') := by
  have htype := compileField_follows (some .output) h
  obtain ⟨type, -, rfl⟩ := h
  exact htype.bind_eq fun _ => .pure rfl

private theorem compileInputFields_follows {file : Path} {fs fs' : List Field}
    (h : List.Forall₂ (FieldAlike (L.types file)) fs fs') :
    L.Follows Eq (compileInputFields file fs) (compileInputFields file fs') := by
  induction h with
  | nil => exact .pure rfl
  | cons hf _ ih => exact (compileInputField_follows hf).bind_eq fun _ => ih.bind_eq fun _ => .pure rfl

private theorem compileOutputFields_follows {file : Path} {fs fs' : List Field}
    (h : List.Forall₂ (FieldAlike (L.types file)) fs fs') :
    L.Follows Eq (compileOutputFields file fs) (compileOutputFields file fs') := by
  induction h with
  | nil => exact .pure rfl
  | cons hf _ ih => exact (compileOutputField_follows hf).bind_eq fun _ => ih.bind_eq fun _ => .pure rfl

theorem compileFunction_follows {file : Path} {f f' : Function} (h : FunctionAlike (L.types file) f f') :
    L.Follows Eq (compileFunction file f) (compileFunction file f') := by
  obtain ⟨result, arguments, throws, hresult, harguments, -, rfl⟩ := h
  exact (compileType_follows (some .output) hresult).bind_eq fun _ =>
    (compileInputFields_follows harguments).bind_eq fun _ => (Follows.result _ _).bind_eq fun _ => .pure rfl

private theorem isEmpty_eq {R : α → β → Prop} {xs : List α} {ys : List β} (h : List.Forall₂ R xs ys) :
    ys.isEmpty = xs.isEmpty := by
  cases h <;> rfl

private theorem structInputFields_follows {file : Path} {x x' : Idl.Struct} (h : StructAlike (L.types file) x x') :
    L.Follows Eq (structInputFields file x) (structInputFields file x') := by
  obtain ⟨fields, hfields, rfl⟩ := h
  have hempty : fields.isEmpty = x.fields.isEmpty := isEmpty_eq hfields
  unfold structInputFields
  dsimp only
  rw [hempty]
  split
  · exact .pure rfl
  · exact (compileInputFields_follows hfields).bind_eq fun _ => .pure rfl

private theorem structOutputFields_follows {file : Path} {x x' : Idl.Struct} (h : StructAlike (L.types file) x x') :
    L.Follows Eq (structOutputFields file x) (structOutputFields file x') := by
  obtain ⟨fields, hfields, rfl⟩ := h
  have hempty : fields.isEmpty = x.fields.isEmpty := isEmpty_eq hfields
  unfold structOutputFields
  dsimp only
  rw [hempty]
  split
  · exact .pure rfl
  · exact (compileOutputFields_follows hfields).bind_eq fun _ => .pure rfl

/-- Nodes that correspond to each other have the same fields. -/
theorem nodeFields_follows {n n' : Node} (h : L.Nodes n n') : L.Follows Eq (nodeFields n) (nodeFields n') := by
  cases h with
  | input h =>
    exact ((structInputFields_follows h).adapt _).bind_eq fun _ => (Follows.result _ _).bind_eq fun _ => .pure rfl
  | output h =>
    exact ((structOutputFields_follows h).adapt _).bind_eq fun _ => (Follows.result _ _).bind_eq fun _ => .pure rfl
  | enumeration => exact (Follows.result _ _).bind_eq fun _ => .pure rfl
  | foreign => exact .pure rfl

/-! ### The same types in two libraries -/

/-- The likeness of libraries in which the same types stand for the same. -/
def plain (l l' : Library) (isLenient : Prop) (logs : List Notice → List Notice → Prop)
    (logs_append : ∀ {log log' : List Notice} (n : Notice), logs log log' → logs (log ++ [n]) (log' ++ [n]))
    (expand : ∀ (file : Path) (t : TypeExpr), Agree isLenient Eq (expandType l [] file t) (expandType l' [] file t)) :
    Likeness where
  first := l
  second := l'
  isLenient
  types _ := Eq
  logs
  logs_append
  expand := by
    rintro file t _ rfl
    have hcore : ∀ c, CoreAlike (fun _ => Eq) c c
      | .scalar x => .scalar x
      | .struct file x => .struct (by rw [structAlike_eq])
      | .enumeration file e => .enumeration file e
    have h := expand file t
    generalize expandType l [] file t = r at h ⊢
    generalize expandType l' [] file t = r' at h ⊢
    cases h with
    | ok h => exact .ok (h ▸ ⟨rfl, hcore _⟩)
    | error e => exact .error e
    | excused h => exact .excused h

private theorem nodes_eq (hL : L.types = fun _ => Eq) : L.Nodes = Eq := by
  funext n n'
  refine propext ⟨fun h => ?_, ?_⟩
  · cases h with
    | input h | output h =>
      rw [hL, structAlike_eq] at h
      rw [h]
    | enumeration | foreign => rfl
  · rintro rfl
    cases n with
    | input name file x => exact .input (by rw [hL, structAlike_eq])
    | output name file x => exact .output (by rw [hL, structAlike_eq])
    | enumeration name members description => exact .enumeration name members description
    | foreign => exact .foreign

/-- With the same types, sessions differ in the library and in what has been reported only. -/
theorem sessions_iff (hL : L.types = fun _ => Eq) :
    L.Sessions s s' ↔
      s.library = L.first ∧ L.logs s.log s'.log ∧ s' = { s with library := L.second, log := s'.log } := by
  have hnodes : ∀ ns ns' : List (NodeKey × Node),
      List.Forall₂ (fun n n' => n'.1 = n.1 ∧ L.Nodes n.2 n'.2) ns ns' ↔ ns = ns' := by
    intro ns ns'
    have hpairs : (fun n n' : NodeKey × Node => n'.1 = n.1 ∧ L.Nodes n.2 n'.2) = Eq := by
      funext n n'
      rw [nodes_eq hL, Prod.ext_iff, eq_comm (a := n'.1)]
    rw [hpairs, List.forall₂_eq_eq_eq]
  constructor
  · intro h
    refine ⟨h.first, h.logs, ?_⟩
    obtain ⟨enumsAsInts, naming, library, nodes, names, isSealed, log⟩ := s'
    obtain ⟨-, rfl, rfl, rfl, rfl, rfl, hn, -⟩ := h
    rw [(hnodes _ _).1 hn]
  · rintro ⟨hfirst, hlogs, hs'⟩
    rw [hs']
    exact ⟨hfirst, rfl, rfl, rfl, rfl, rfl, (hnodes _ _).2 rfl, hlogs⟩

end Likeness

end ThriftGateway.Graph
