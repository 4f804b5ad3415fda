import ThriftGateway.Proofs.Graph.Side

/-!
# Work that completes

Work completes under an invariant if it succeeds in every session in which the invariant holds, only adds to the session
and keeps the invariant (`Completes`).  That is closed under the ways in which work is put together.
-/

namespace ThriftGateway.Graph

variable {ε δ α β : Type}

/-- Where the invariant holds, the work succeeds; it only adds to the session and keeps the invariant, and what it gives
has the property in the session that it leaves. -/
def Completes (I : Session → Prop) (w : Work ε α) (P : Session → α → Prop) : Prop :=
  ∀ s, I s → ∃ a s', Work.run w s = (.ok a, s') ∧ s.Extends s' ∧ I s' ∧ P s' a

namespace Completes

variable {I : Session → Prop} {P P' : Session → α → Prop} {Q : Session → β → Prop}

theorem pure {a : α} (h : ∀ s, I s → P s a) : Completes I (Pure.pure a : Work ε α) P :=
  fun s hs => ⟨a, s, rfl, Session.Extends.refl s, hs, h s hs⟩

theorem ofExcept {wrap : δ → ε} {r : Except δ α} {a : α} (hr : r = .ok a) (h : ∀ s, I s → P s a) :
    Completes I (Work.ofExcept wrap r) P := by
  subst hr
  exact pure h

theorem adapt (f : δ → ε) {w : Work δ α} (hw : Completes I w P) : Completes I (ExceptT.adapt f w : Work ε α) P := by
  intro s hs
  obtain ⟨a, s', hrun, hgrows, hs', ha⟩ := hw s hs
  exact ⟨a, s', by rw [Work.run_adapt, hrun]; rfl, hgrows, hs', ha⟩

/-- What the first step gives still has its property when the second step is done. -/
theorem bind {w : Work ε α} {k : α → Work ε β} (hP : Stable P) (hw : Completes I w P)
    (hk : ∀ a, (∃ s, P s a) → Completes I (k a) fun s b => P s a → Q s b) : Completes I (w >>= k) Q := by
  intro s hs
  obtain ⟨a, s', hrun, hgrows, hs', ha⟩ := hw s hs
  obtain ⟨b, s'', hrun', hgrows', hs'', hb⟩ := hk a ⟨s', ha⟩ s' hs'
  exact ⟨b, s'', by rw [Work.run_bind_of_ok hrun, hrun'], hgrows.trans hgrows', hs'', hb (hP _ _ hgrows' a ha)⟩

/-- Work whose first result does not matter. -/
theorem after {w : Work ε α} {k : α → Work ε β} (hw : Completes I w fun _ _ => True) (hk : ∀ a, Completes I (k a) Q) :
    Completes I (w >>= k) Q := by
  intro s hs
  obtain ⟨a, s', hrun, hgrows, hs', -⟩ := hw s hs
  obtain ⟨b, s'', hrun', hgrows', hs'', hb⟩ := hk a s' hs'
  exact ⟨b, s'', by rw [Work.run_bind_of_ok hrun, hrun'], hgrows.trans hgrows', hs'', hb⟩

theorem mono {w : Work ε α} (hw : Completes I w P) (h : ∀ s a, I s → P s a → P' s a) : Completes I w P' := by
  intro s hs
  obtain ⟨a, s', hrun, hgrows, hs', ha⟩ := hw s hs
  exact ⟨a, s', hrun, hgrows, hs', h s' a hs' ha⟩

/-- What holds of every result may be added. -/
theorem and {w : Work ε α} {R : α → Prop} (hw : Completes I w P) (h : Gives w R) :
    Completes I w fun s a => P s a ∧ R a := by
  intro s hs
  obtain ⟨a, s', hrun, hgrows, hs', ha⟩ := hw s hs
  exact ⟨a, s', hrun, hgrows, hs', ha, h s s' a hrun⟩

/-- Work that looks at the session, which then is an earlier one. -/
theorem look {k : Session → Work ε β} (hk : ∀ s₀, I s₀ → Completes I (k s₀) fun s b => s₀.Extends s → Q s b) :
    Completes I (get >>= k) Q := by
  intro s hs
  obtain ⟨b, s', hrun, hgrows, hs', hb⟩ := hk s hs s hs
  exact ⟨b, s', by rw [Work.run_bind_of_ok (Work.run_get s), hrun], hgrows, hs', hb hgrows⟩

/-- Work that only reports something. -/
theorem report (n : Notice) (hI : ∀ s, I s → I (s.report n)) :
    Completes I (modify fun s => s.report n : Work ε Unit) fun _ _ => True :=
  fun s hs => ⟨(), s.report n, rfl, ⟨rfl, Source.Library.Extends.refl _, [], by simp [Session.report]⟩, hI s hs,
    trivial⟩

end Completes

end ThriftGateway.Graph
