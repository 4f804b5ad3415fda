import ThriftGateway.Graph.Session
import ThriftGateway.Proofs.Graph.NameTable
import ThriftGateway.Proofs.Source.Reference

/-!
# Work in a session

Whatever compiles is steady (`Steady`): the session that it leaves knows what the session knew, names stay distinct,
and once it has succeeded, it gives the same result in every later session and changes nothing there.  Steady work is
closed under the ways in which work is put together, and making a node that has no node yet is steady
(`nodeFor_steady`), since the node gets a name of its own.
-/

namespace ThriftGateway.Graph

open Source (Library)

/-! ### Running work -/

variable {ε δ α β : Type}

namespace Work

@[simp] theorem run_pure (a : α) (s : Session) : Work.run (pure a : Work ε α) s = (.ok a, s) := rfl

@[simp] theorem run_throw (e : ε) (s : Session) : Work.run (throw e : Work ε α) s = (.error e, s) := rfl

@[simp] theorem run_get (s : Session) : Work.run (get : Work ε Session) s = (.ok s, s) := rfl

@[simp] theorem run_modifyGet (f : Session → α × Session) (s : Session) :
    Work.run (modifyGet f : Work ε α) s = (.ok (f s).1, (f s).2) := rfl

theorem run_bind (w : Work ε α) (k : α → Work ε β) (s : Session) :
    Work.run (w >>= k) s =
      match Work.run w s with
      | (.ok a, s') => Work.run (k a) s'
      | (.error e, s') => (.error e, s') := by
  show StateT.run (ExceptT.run (w >>= k)) s = _
  rw [ExceptT.run_bind, StateT.run_bind]
  unfold Work.run
  generalize StateT.run (ExceptT.run w) s = r
  obtain ⟨r, s'⟩ := r
  cases r <;> rfl

theorem run_bind_of_ok {w : Work ε α} {k : α → Work ε β} {s s' : Session} {a : α} (h : Work.run w s = (.ok a, s')) :
    Work.run (w >>= k) s = Work.run (k a) s' := by
  rw [run_bind, h]

/-- Work whose result is only changed. -/
theorem run_bind_pure (w : Work ε α) (f : α → β) (s : Session) :
    Work.run (w >>= fun a => pure (f a)) s = ((Work.run w s).1.map f, (Work.run w s).2) := by
  rw [run_bind]
  generalize Work.run w s = r
  obtain ⟨r, s'⟩ := r
  cases r <;> rfl

/-- Work in two steps succeeds if both steps do. -/
theorem run_bind_eq_ok {w : Work ε α} {k : α → Work ε β} {s s'' : Session} {b : β} :
    Work.run (w >>= k) s = (.ok b, s'') ↔
      ∃ a s', Work.run w s = (.ok a, s') ∧ Work.run (k a) s' = (.ok b, s'') := by
  rw [run_bind]
  generalize Work.run w s = r
  obtain ⟨r, s'⟩ := r
  cases r with
  | error e => simp
  | ok a => simp

/-- Work in two steps fails if the first step does, or if that succeeds and the second one fails. -/
theorem run_bind_eq_error {w : Work ε α} {k : α → Work ε β} {s s'' : Session} {e : ε} :
    Work.run (w >>= k) s = (.error e, s'') ↔ Work.run w s = (.error e, s'') ∨
      ∃ a s', Work.run w s = (.ok a, s') ∧ Work.run (k a) s' = (.error e, s'') := by
  rw [run_bind]
  generalize Work.run w s = r
  obtain ⟨r, s'⟩ := r
  cases r with
  | error e => simp
  | ok a => simp

theorem run_ofExcept_ok {wrap : δ → ε} {a : α} (s : Session) :
    Work.run (Work.ofExcept wrap (.ok a)) s = (.ok a, s) := rfl

theorem run_ofExcept_eq_ok {wrap : δ → ε} {r : Except δ α} {s s' : Session} {a : α} :
    Work.run (Work.ofExcept wrap r) s = (.ok a, s') ↔ r = .ok a ∧ s' = s := by
  constructor
  · intro h
    cases r with
    | error e => cases h
    | ok b =>
      cases h
      exact ⟨rfl, rfl⟩
  · rintro ⟨rfl, rfl⟩
    exact run_ofExcept_ok s'

theorem run_ofExcept_eq_error {wrap : δ → ε} {r : Except δ α} {s s' : Session} {e : ε} :
    Work.run (Work.ofExcept wrap r) s = (.error e, s') ↔ (∃ e', r = .error e' ∧ wrap e' = e) ∧ s' = s := by
  cases r with
  | error e' => simp [Work.ofExcept, eq_comm]
  | ok a => simp [Work.ofExcept]

theorem run_adapt (f : δ → ε) (w : Work δ α) (s : Session) :
    Work.run (ExceptT.adapt f w) s = ((Work.run w s).1.mapError f, (Work.run w s).2) := rfl

/-- Work whose failures are told in another way succeeds where it did. -/
theorem run_adapt_eq_ok {f : δ → ε} {w : Work δ α} {s s' : Session} {a : α} :
    Work.run (ExceptT.adapt f w) s = (.ok a, s') ↔ Work.run w s = (.ok a, s') := by
  rw [run_adapt]
  generalize Work.run w s = r
  obtain ⟨r, s₁⟩ := r
  cases r <;> simp [Except.mapError]

theorem run_adapt_eq_error {f : δ → ε} {w : Work δ α} {s s' : Session} {e : ε} :
    Work.run (ExceptT.adapt f w) s = (.error e, s') ↔ ∃ e', Work.run w s = (.error e', s') ∧ f e' = e := by
  rw [run_adapt]
  generalize Work.run w s = r
  obtain ⟨r, s₁⟩ := r
  cases r with
  | error e' => simp [Except.mapError, and_comm]
  | ok a => simp [Except.mapError]

end Work

/-! ### Results of work -/

/-- Whenever the work succeeds, its result has the property. -/
def Gives (w : Work ε α) (P : α → Prop) : Prop := ∀ s s' a, Work.run w s = (.ok a, s') → P a

namespace Gives

variable {P : α → Prop}

theorem pure {a : α} (h : P a) : Gives (Pure.pure a : Work ε α) P := by
  intro s s' b hb
  cases hb
  exact h

theorem throw (e : ε) : Gives (throw e : Work ε α) P := by
  intro s s' b hb
  cases hb

theorem bind {Q : β → Prop} {w : Work ε α} {k : α → Work ε β} (hw : Gives w P) (hk : ∀ a, P a → Gives (k a) Q) :
    Gives (w >>= k) Q := by
  intro s s'' b hb
  obtain ⟨a, s', ha, hb⟩ := Work.run_bind_eq_ok.1 hb
  exact hk a (hw s s' a ha) s' s'' b hb

/-- Work whose first result does not matter. -/
theorem after {Q : β → Prop} {w : Work ε α} {k : α → Work ε β} (hk : ∀ a, Gives (k a) Q) : Gives (w >>= k) Q :=
  bind (P := fun _ => True) (fun _ _ _ _ => trivial) fun a _ => hk a

theorem ofExcept {wrap : δ → ε} {r : Except δ α} (h : ∀ a, r = .ok a → P a) : Gives (Work.ofExcept wrap r) P := by
  cases r with
  | ok a => exact pure (h a rfl)
  | error e => exact throw (wrap e)

theorem adapt (f : δ → ε) {w : Work δ α} (hw : Gives w P) : Gives (ExceptT.adapt f w : Work ε α) P := by
  intro s s' a ha
  exact hw s s' a (Work.run_adapt_eq_ok.1 ha)

end Gives

/-- Whenever the work fails, its error has the property. -/
def Throws (w : Work ε α) (P : ε → Prop) : Prop := ∀ s s' e, Work.run w s = (.error e, s') → P e

namespace Throws

variable {P : ε → Prop}

theorem pure (a : α) : Throws (Pure.pure a : Work ε α) P := fun _ _ _ h => by cases h

theorem throw {e : ε} (h : P e) : Throws (MonadExcept.throw e : Work ε α) P := by
  intro s s' e' he
  cases he
  exact h

theorem bind {w : Work ε α} {k : α → Work ε β} (hw : Throws w P) (hk : ∀ a, Throws (k a) P) : Throws (w >>= k) P := by
  intro s s'' e he
  rw [Work.run_bind] at he
  split at he
  · exact hk _ _ _ _ he
  · rename_i h
    cases he
    exact hw _ _ _ h

theorem modifyGet (f : Session → α × Session) : Throws (modifyGet f : Work ε α) P := fun _ _ _ h => by cases h

theorem ofExcept {wrap : δ → ε} {r : Except δ α} (h : ∀ e, r = .error e → P (wrap e)) :
    Throws (Work.ofExcept wrap r) P := by
  cases r with
  | ok a => exact pure a
  | error e => exact throw (h e rfl)

/-- Work that begins with looking at the session. -/
theorem read {k : Session → Work ε α} (hk : ∀ s, Throws (k s) P) : Throws (get >>= k) P := fun s => hk s s

theorem giveName {r : NameRequest} {P : CompileError → Prop} (hreserved : ∀ name, P (.reservedType name))
    (hname : ∀ e, P (.name e)) : Throws (Graph.giveName r) P := by
  refine (modifyGet _).bind fun name => ?_
  split
  · exact (throw (hreserved name)).bind fun _ => (ofExcept fun e _ => hname e).bind fun _ => pure _
  · exact (ofExcept fun e _ => hname e).bind fun _ => pure _

theorem nodeFor {key : NodeKey} {make : Compile Node} {P : CompileError → Prop} (hm : Throws make P)
    (hsealed : ∀ name file, P (.sealedSession name file)) : Throws (Graph.nodeFor key make) P := by
  refine read fun s => ?_
  split
  · exact pure _
  · split
    · exact (throw (hsealed _ _)).bind fun _ => hm.bind fun _ => modifyGet _
    · exact hm.bind fun _ => modifyGet _

end Throws

/-! ### What work does to the session -/

/-- A relation of sessions to later ones, which holds where nothing is done, and of two steps if it holds of each. -/
class IsMove (R : Session → Session → Prop) : Prop where
  refl : ∀ s, R s s
  trans : ∀ {s s' s''}, R s s' → R s' s'' → R s s''

/-- Whether the work succeeds or fails, it leaves a session to which the relation holds. -/
def Moves (R : Session → Session → Prop) (w : Work ε α) : Prop := ∀ s, R s (Work.run w s).2

/-- A property of sessions that stays. -/
def Keeps (I : Session → Prop) (s s' : Session) : Prop := I s → I s'

instance (I : Session → Prop) : IsMove (Keeps I) where
  refl _ := id
  trans h h' hs := h' (h hs)

namespace Moves

variable {R : Session → Session → Prop} [IsMove R]

theorem pure (a : α) : Moves R (Pure.pure a : Work ε α) := fun s => IsMove.refl s

theorem throw (e : ε) : Moves R (MonadExcept.throw e : Work ε α) := fun s => IsMove.refl s

/-- What would come after a failure does not matter. -/
theorem throw_bind (e : ε) (k : α → Work ε β) : Moves R ((MonadExcept.throw e : Work ε α) >>= k) :=
  fun s => IsMove.refl s

theorem ofExcept (wrap : δ → ε) (r : Except δ α) : Moves R (Work.ofExcept wrap r) := by
  cases r with
  | ok a => exact pure a
  | error e => exact throw (wrap e)

theorem bind {w : Work ε α} {k : α → Work ε β} (hw : Moves R w) (hk : ∀ a, Moves R (k a)) : Moves R (w >>= k) := by
  intro s
  have hs := hw s
  rw [Work.run_bind]
  split
  · rename_i a s' h
    rw [h] at hs
    exact IsMove.trans hs (hk a s')
  · rename_i e s' h
    rwa [h] at hs

omit [IsMove R] in
theorem adapt (f : δ → ε) {w : Work δ α} (hw : Moves R w) : Moves R (ExceptT.adapt f w : Work ε α) := fun s => hw s

omit [IsMove R] in
/-- Work that begins with looking at the session. -/
theorem read {k : Session → Work ε α} (hk : ∀ s, Moves R (k s)) : Moves R (get >>= k) := fun s => hk s s

/-- Work that begins with looking at a session that has the property. -/
theorem look {I : Session → Prop} {k : Session → Work ε α} (hk : ∀ s, I s → Moves (Keeps I) (k s)) :
    Moves (Keeps I) (get >>= k) := fun s hs => hk s hs s hs

end Moves

/-! ### Sessions that only grow -/

namespace Session

/-- A later session: it works in the same way, its documents and nodes are those of the earlier one and maybe more. -/
structure Extends (s s' : Session) : Prop where
  enumsAsInts : s'.enumsAsInts = s.enumsAsInts
  library : s.library.Extends s'.library
  nodes : ∃ more, s'.nodes = s.nodes ++ more

variable {s s' : Session}

theorem Extends.refl (s : Session) : s.Extends s := ⟨rfl, Library.Extends.refl _, [], by simp⟩

theorem Extends.trans {s'' : Session} (h : s.Extends s') (h' : s'.Extends s'') : s.Extends s'' := by
  obtain ⟨more, hmore⟩ := h.nodes
  obtain ⟨more', hmore'⟩ := h'.nodes
  exact ⟨h'.enumsAsInts.trans h.enumsAsInts, h.library.trans h'.library, more ++ more', by
    rw [hmore', hmore, List.append_assoc]⟩

theorem extends_close (s : Session) : s.Extends s.close := ⟨rfl, Library.Extends.refl _, [], (List.append_nil _).symm⟩

/-- A node keeps its number. -/
theorem Extends.find? (h : s.Extends s') {key : NodeKey} {id : Nat} (hid : s.find? key = some id) :
    s'.find? key = some id := by
  obtain ⟨more, hmore⟩ := h.nodes
  unfold Session.find? at hid ⊢
  rw [hmore, List.findIdx?_append, hid]
  rfl

/-- Different keys have different nodes. -/
theorem find?_inj {key key' : NodeKey} {id : Nat} (h : s.find? key = some id) (h' : s.find? key' = some id) :
    key = key' := by
  unfold Session.find? at h h'
  rw [List.findIdx?_eq_some_iff_getElem] at h h'
  obtain ⟨_, hkey, _⟩ := h
  obtain ⟨_, hkey', _⟩ := h'
  exact (of_decide_eq_true hkey).symm.trans (of_decide_eq_true hkey')

/-- The names of the nodes, in the order in which the nodes were made. -/
def nodeNames (s : Session) : List String := s.nodes.map fun n => n.2.name

/-- Nodes have names of their own, which the table of names knows; the reserved names are in use and no node has one. -/
structure Distinct (s : Session) : Prop where
  nodup : s.nodeNames.Nodup
  used : ∀ name ∈ s.nodeNames, name ∈ s.names.used
  reserved : ∀ name ∈ reservedNames, name ∈ s.names.used ∧ name ∉ s.nodeNames

theorem fresh_distinct (enumsAsInts : Bool) (naming : TypeNaming) : (fresh enumsAsInts naming).Distinct where
  nodup := by simp [nodeNames, fresh]
  used := by simp [nodeNames, fresh]
  reserved := by simp [nodeNames, fresh, NameTable.fresh]

end Session

/-! ### Steady work -/

/-- Work that only adds to a session and keeps names distinct.  Once it has succeeded, it changes no later session. -/
structure Steady (w : Work ε α) : Prop where
  grows : ∀ s : Session, s.Extends (Work.run w s).2
  distinct : ∀ s : Session, s.Distinct → (Work.run w s).2.Distinct
  again : ∀ {s s₁ s₂ : Session} {a : α}, Work.run w s = (.ok a, s₁) → s₁.Extends s₂ → Work.run w s₂ = (.ok a, s₂)

namespace Steady

theorem pure (a : α) : Steady (Pure.pure a : Work ε α) where
  grows s := Session.Extends.refl s
  distinct _ h := h
  again h _ := by cases h; rfl

theorem throw (e : ε) : Steady (throw e : Work ε α) where
  grows s := Session.Extends.refl s
  distinct _ h := h
  again h _ := by cases h

theorem ofExcept (wrap : δ → ε) (r : Except δ α) : Steady (Work.ofExcept wrap r) := by
  cases r with
  | ok a => exact Steady.pure a
  | error e => exact Steady.throw (wrap e)

/-- In a later session, the first step gives what it has given, and so does the second. -/
theorem bind {w : Work ε α} {k : α → Work ε β} (hw : Steady w) (hk : ∀ a, Steady (k a)) : Steady (w >>= k) where
  grows s := by
    have hs := hw.grows s
    rw [Work.run_bind]
    split
    · rename_i a s' h
      rw [h] at hs
      exact hs.trans ((hk a).grows s')
    · rename_i e s' h
      rw [h] at hs
      exact hs
  distinct s hd := by
    have hs := hw.distinct s hd
    rw [Work.run_bind]
    split
    · rename_i a s' h
      rw [h] at hs
      exact (hk a).distinct s' hs
    · rename_i e s' h
      rw [h] at hs
      exact hs
  again := by
    intro s s₁ s₂ b h hs
    obtain ⟨a, s', ha, hb⟩ := Work.run_bind_eq_ok.1 h
    have hs' : s'.Extends s₁ := by
      have := (hk a).grows s'
      rwa [hb] at this
    rw [Work.run_bind_of_ok (hw.again ha (hs'.trans hs))]
    exact (hk a).again hb hs

theorem adapt (f : δ → ε) {w : Work δ α} (hw : Steady w) : Steady (ExceptT.adapt f w : Work ε α) where
  grows s := hw.grows s
  distinct s := hw.distinct s
  again h hs := Work.run_adapt_eq_ok.2 (hw.again (Work.run_adapt_eq_ok.1 h) hs)

/-- Work that looks at the session is steady if what it does for a session it also does for every later one. -/
theorem read {k : Session → Work ε α} (hk : ∀ s, Steady (k s))
    (hlater : ∀ s s' : Session, s.Extends s' → ∀ a x y,
      Work.run (k s) x = (.ok a, y) → Work.run (k s') x = (.ok a, y)) :
    Steady (get >>= k) where
  grows s := (hk s).grows s
  distinct s := (hk s).distinct s
  again := by
    intro s s₁ s₂ a h hs
    have hgrows : s.Extends s₁ := by
      have := (hk s).grows s
      rwa [show Work.run (k s) s = (.ok a, s₁) from h] at this
    show Work.run (k s₂) s₂ = _
    exact hlater s s₂ (hgrows.trans hs) a s₂ s₂ ((hk s).again h hs)

end Steady

/-! ### Making nodes -/

/-- Work that changes nothing but names and reports, and whose result has a name that was not in use. -/
structure Names (nameOf : α → String) (w : Compile α) : Prop where
  same : ∀ s : Session, ∃ names log, (Work.run w s).2 = { s with names, log }
  used : ∀ (s : Session) (name), name ∈ s.names.used → name ∈ (Work.run w s).2.names.used
  unused : ∀ {s s' : Session} {a : α}, Work.run w s = (.ok a, s') → nameOf a ∉ s.names.used ∧ nameOf a ∈ s'.names.used

namespace Names

theorem map {nameOf : α → String} {nameOf' : β → String} {w : Compile α} (hw : Names nameOf w) (f : α → β)
    (hf : ∀ a, nameOf' (f a) = nameOf a) : Names nameOf' (w >>= fun a => Pure.pure (f a)) := by
  have hrun : ∀ s, (Work.run (w >>= fun a => Pure.pure (f a)) s).2 = (Work.run w s).2 :=
    fun s => congrArg Prod.snd (Work.run_bind_pure w f s)
  refine ⟨fun s => by rw [hrun]; exact hw.same s, fun s name hn => by rw [hrun]; exact hw.used s name hn, ?_⟩
  intro s s' b h
  obtain ⟨a, s'', ha, hb⟩ := Work.run_bind_eq_ok.1 h
  cases hb
  rw [hf]
  exact hw.unused ha

theorem after {nameOf : α → String} {k : δ → Compile α} (hk : ∀ a, Names nameOf (k a)) {η : Type}
    (wrap : η → CompileError) (r : Except η δ) : Names nameOf (Work.ofExcept wrap r >>= k) := by
  cases r with
  | ok a => exact hk a
  | error e => exact ⟨fun s => ⟨s.names, s.log, rfl⟩, fun s name hn => hn, fun h => by cases h⟩

end Names

/-- Giving out a name changes the table of names, and may be reported. -/
theorem allocate_eq (s : Session) (preferred : String) :
    ∃ log, s.allocate preferred =
      ((s.names.allocate preferred).1, { s with names := (s.names.allocate preferred).2, log }) := by
  unfold Session.allocate
  dsimp only
  split
  · exact ⟨_, rfl⟩
  · exact ⟨_, rfl⟩

/-- The name that is given out is the next one of the table, if it can name a type at all. -/
theorem run_giveName (r : NameRequest) (s : Session) :
    ∃ log, (Work.run (giveName r) s).2 = { s with names := (s.names.allocate (s.naming r)).2, log } ∧
      ∀ name, (Work.run (giveName r) s).1 = .ok name → name = (s.names.allocate (s.naming r)).1 := by
  obtain ⟨log, hlog⟩ := allocate_eq s (s.naming r)
  refine ⟨log, ?_⟩
  unfold giveName Session.typeName
  rw [Work.run_bind_of_ok (Work.run_modifyGet _ s), hlog]
  dsimp only
  by_cases hr : isReservedType (s.names.allocate (s.naming r)).1 = true
  · rw [if_pos hr]
    exact ⟨rfl, fun name h => by cases h⟩
  · rw [if_neg hr]
    cases checkName (s.names.allocate (s.naming r)).1 with
    | error e => exact ⟨rfl, fun name h => by cases h⟩
    | ok u => exact ⟨rfl, fun name h => by cases h; rfl⟩

/-- The preferred name is given out if it is free and can name a type. -/
theorem run_giveName_of_free {r : NameRequest} {s : Session} (hu : s.names.isUsed (s.naming r) = false)
    (hr : isReservedType (s.naming r) = false) (hc : checkName (s.naming r) = .ok ()) :
    Work.run (giveName r) s =
      (.ok (s.naming r), { s with names := { s.names with used := s.naming r :: s.names.used } }) := by
  have ha : s.typeName r = (s.naming r, { s with names := { s.names with used := s.naming r :: s.names.used } }) := by
    unfold Session.typeName Session.allocate NameTable.allocate
    simp [hu]
  unfold giveName
  rw [Work.run_bind_of_ok (Work.run_modifyGet _ s), ha]
  dsimp only
  rw [if_neg (by simp [hr]), hc]
  rfl

theorem giveName_names (r : NameRequest) : Names id (giveName r) where
  same s := by
    obtain ⟨log, hlog, -⟩ := run_giveName r s
    exact ⟨_, log, hlog⟩
  used s name hn := by
    obtain ⟨log, hlog, -⟩ := run_giveName r s
    rw [hlog]
    show name ∈ (s.names.allocate (s.naming r)).2.used
    rw [NameTable.used_allocate]
    exact List.mem_cons_of_mem _ hn
  unused := by
    intro s s' name h
    obtain ⟨log, hlog, hname⟩ := run_giveName r s
    rw [h] at hlog hname
    obtain rfl := hname name rfl
    obtain rfl : s' = _ := hlog
    refine ⟨fun hn => ?_, ?_⟩
    · have := NameTable.isUsed_allocate s.names (s.naming r)
      rw [NameTable.isUsed, List.contains_eq_mem, decide_eq_false_iff_not] at this
      exact this hn
    · show _ ∈ (s.names.allocate (s.naming r)).2.used
      rw [NameTable.used_allocate]
      exact List.mem_cons_self

section NodeFor

variable {key : NodeKey} {make : Compile Node} {s s' : Session}

theorem run_nodeFor_of_find? {id : Nat} (h : s.find? key = some id) :
    Work.run (nodeFor key make) s = (.ok id, s) := by
  unfold nodeFor
  rw [Work.run_bind_of_ok (Work.run_get s), h]
  rfl

theorem run_nodeFor_of_sealed (h : s.find? key = none) (hs : s.isSealed = true) :
    Work.run (nodeFor key make) s = (.error (.sealedSession key.name key.file), s) := by
  unfold nodeFor
  rw [Work.run_bind_of_ok (Work.run_get s), h]
  simp [hs]

theorem run_nodeFor_of_error (h : s.find? key = none) (hs : s.isSealed = false) {e : CompileError}
    (he : Work.run make s = (.error e, s')) : Work.run (nodeFor key make) s = (.error e, s') := by
  unfold nodeFor
  rw [Work.run_bind_of_ok (Work.run_get s), h]
  simp [hs, Work.run_bind, he]

theorem run_nodeFor_of_make (h : s.find? key = none) (hs : s.isSealed = false) {node : Node}
    (hm : Work.run make s = (.ok node, s')) :
    Work.run (nodeFor key make) s = (.ok s'.nodes.length, { s' with nodes := s'.nodes ++ [(key, node)] }) := by
  unfold nodeFor
  rw [Work.run_bind_of_ok (Work.run_get s), h]
  simp [hs, Work.run_bind, hm]

/-- What asking for a node does: it finds the node; or it fails, and only names and reports have changed; or it makes
the node, the last one then, and the node has a new name. -/
theorem run_nodeFor_cases (key : NodeKey) (hm : Names Node.name make) (s : Session) :
    (∃ id, s.find? key = some id ∧ Work.run (nodeFor key make) s = (.ok id, s)) ∨
    (s.find? key = none ∧ ∃ e names log, Work.run (nodeFor key make) s = (.error e, { s with names, log }) ∧
      ∀ name ∈ s.names.used, name ∈ names.used) ∨
    (s.find? key = none ∧ ∃ node names log, Work.run (nodeFor key make) s =
        (.ok s.nodes.length, { s with names, log, nodes := s.nodes ++ [(key, node)] }) ∧
      (∀ name ∈ s.names.used, name ∈ names.used) ∧ node.name ∉ s.names.used ∧ node.name ∈ names.used) := by
  cases hf : s.find? key with
  | some id => exact Or.inl ⟨id, rfl, run_nodeFor_of_find? hf⟩
  | none =>
    right
    by_cases hs : s.isSealed = true
    · exact Or.inl ⟨rfl, _, s.names, s.log, run_nodeFor_of_sealed hf hs, fun _ h => h⟩
    · have hs : s.isSealed = false := by simpa using hs
      obtain ⟨names, log, hsame⟩ := hm.same s
      have hused := hm.used s
      cases hr : (Work.run make s).1 with
      | error e =>
        have hr : Work.run make s = (.error e, { s with names, log }) := Prod.ext hr hsame
        rw [hr] at hused
        exact Or.inl ⟨rfl, e, names, log, run_nodeFor_of_error hf hs hr, hused⟩
      | ok node =>
        have hr : Work.run make s = (.ok node, { s with names, log }) := Prod.ext hr hsame
        rw [hr] at hused
        exact Or.inr ⟨rfl, node, names, log, run_nodeFor_of_make hf hs hr, hused, hm.unused hr⟩

/-- Once there is a node with the key, it is found. -/
theorem find?_of_nodeFor (hm : Names Node.name make) {id : Nat} (h : Work.run (nodeFor key make) s = (.ok id, s')) :
    s'.find? key = some id := by
  rcases run_nodeFor_cases key hm s with ⟨id', hf, hr⟩ | ⟨hf, e, names, log, hr, -⟩ |
      ⟨hf, node, names, log, hr, -⟩
  · rw [hr] at h
    cases h
    exact hf
  · rw [hr] at h
    cases h
  · rw [hr] at h
    cases h
    unfold Session.find? at hf ⊢
    simp [List.findIdx?_append, hf]

/-- Asking for a node is steady, if making it gives it a name of its own. -/
theorem nodeFor_steady (key : NodeKey) (hm : Names Node.name make) : Steady (nodeFor key make) where
  grows s := by
    rcases run_nodeFor_cases key hm s with ⟨id, -, hr⟩ | ⟨-, e, names, log, hr, -⟩ |
      ⟨-, node, names, log, hr, -⟩
    · rw [hr]
      exact Session.Extends.refl s
    · rw [hr]
      exact ⟨rfl, Library.Extends.refl _, [], by simp⟩
    · rw [hr]
      exact ⟨rfl, Library.Extends.refl _, [(key, node)], rfl⟩
  distinct s hd := by
    rcases run_nodeFor_cases key hm s with ⟨id, -, hr⟩ | ⟨-, e, names, log, hr, hused⟩ |
      ⟨-, node, names, log, hr, hused, hnew, hnode⟩
    · rw [hr]
      exact hd
    · rw [hr]
      exact ⟨hd.nodup, fun name hn => hused name (hd.used name hn),
        fun name hn => ⟨hused name (hd.reserved name hn).1, (hd.reserved name hn).2⟩⟩
    · rw [hr]
      have hnames : Session.nodeNames { s with names, log, nodes := s.nodes ++ [(key, node)] } =
          s.nodeNames ++ [node.name] := by simp [Session.nodeNames]
      -- the new name was not in use, so it is neither reserved nor the name of another node
      refine ⟨?_, fun name hn => ?_, fun name hn => ⟨hused name (hd.reserved name hn).1, fun h => ?_⟩⟩
      · rw [hnames, List.nodup_append]
        refine ⟨hd.nodup, List.nodup_singleton _, ?_⟩
        intro name hname name' hname' heq
        obtain rfl : name' = node.name := by simpa using hname'
        exact hnew (heq ▸ hd.used name hname)
      · rw [hnames, List.mem_append, List.mem_singleton] at hn
        rcases hn with hn | rfl
        · exact hused name (hd.used name hn)
        · exact hnode
      · rw [hnames, List.mem_append, List.mem_singleton] at h
        rcases h with h | rfl
        · exact (hd.reserved name hn).2 h
        · exact hnew (hd.reserved _ hn).1
  again h hs := run_nodeFor_of_find? (hs.find? (find?_of_nodeFor hm h))

end NodeFor

end ThriftGateway.Graph
