import ThriftGateway.Service.Schedule

/-!
# Invocations run to their end

`Completes` says by rules what is run from a point of an invocation on, and how it ends.  An invocation that is run on
its own follows these rules (`completes_run`): where its stages give way decides only in which rounds they are run.
-/

namespace ThriftGateway.Service

/-! ### Stages that are left -/

/-- How many stages are left from a stage on. -/
def Stage.left : Stage → Nat
  | globalRequest => 5
  | methodRequest => 4
  | call => 3
  | globalResponse => 2
  | methodResponse => 1

/-- How many stages are left. -/
def Progress.left : Progress → Nat
  | finished _ => 0
  | pending stage _ _ => stage.left

private theorem Progress.isOver_iff {p : Progress} : p.isOver = true ↔ p.left = 0 := by
  cases p with
  | finished r => simp [isOver, left]
  | pending stage info value => cases stage <;> simp [isOver, left, Stage.left]

theorem Progress.left_le (p : Progress) : p.left ≤ Stage.count := by
  cases p with
  | finished r => simp [left]
  | pending stage info value => cases stage <;> simp [left, Stage.left, Stage.count]

namespace Invocation

variable {i : Invocation} {p : Progress}

private theorem left_next (i : Invocation) (stage : Stage) (info : ReplyInfo) (value : Value) :
    (i.next stage info value).left + 1 = stage.left := by
  cases stage <;> rfl

@[simp] theorem step_finished (r : Except CallError Value) : i.step (.finished r) = ([], .finished r) := rfl

/-- A stage takes the invocation at least one stage further. -/
private theorem left_step_lt (h : p.isOver = false) : (i.step p).2.left < p.left := by
  cases p with
  | finished r => cases h
  | pending stage info value =>
    have hpos : 0 < stage.left := by cases stage <;> decide
    rw [step]
    split
    · exact hpos
    · have := i.left_next stage info value
      show (i.next stage info value).left < stage.left
      omega
    · rename_i w _
      dsimp only
      split
      · rename_i v _
        have := i.left_next stage (w.leaves value) v
        show (i.next stage (w.leaves value) v).left < stage.left
        omega
      · exact hpos

/-! ### Running to the end -/

/-- From a point on, the invocation runs what is listed and ends with the result. -/
inductive Completes (i : Invocation) : Progress → List TraceEntry → Except CallError Value → Prop
  | finished {r} : Completes i (.finished r) [] r
  | step {p entries r} (hp : p.isOver = false) (h : Completes i (i.step p).2 entries r) :
      Completes i p ((i.step p).1 ++ entries) r

/-- What follows a turn follows the point at which the turn began. -/
private theorem Completes.of_turn {fuel : Nat} {resumed : Bool} {entries : List TraceEntry} {r : Except CallError Value}
    (h : i.Completes (i.turn fuel resumed p).2 entries r) : i.Completes p ((i.turn fuel resumed p).1 ++ entries) r := by
  induction fuel generalizing p resumed with
  | zero => exact h
  | succ fuel ih =>
    unfold turn at h ⊢
    split at h
    · rename_i hway
      rw [if_pos hway]
      exact h
    · rename_i hway
      rw [if_neg hway, List.append_assoc]
      cases hp : p.isOver with
      | false => exact .step hp (ih h)
      | true =>
        cases p with
        | finished r' => exact ih h
        | pending stage info value => cases hp

/-- A turn that has enough fuel ends where the invocation is over or gives way.  Having given way in the turn before,
the invocation gets at least one stage further. -/
private theorem left_turn (i : Invocation) (fuel : Nat) (resumed : Bool) (p : Progress) (hfuel : p.left < fuel) :
    (i.turn fuel resumed p).2.left ≤ p.left ∧
      (resumed = true → p.isOver = false → (i.turn fuel resumed p).2.left < p.left) := by
  induction fuel generalizing p resumed with
  | zero => omega
  | succ fuel ih =>
    unfold turn
    split
    · rename_i hway
      rw [Bool.and_eq_true, Bool.not_eq_true'] at hway
      exact ⟨Nat.le_refl _, fun h => by simp [h] at hway⟩
    · cases hp : p.isOver with
      | false =>
        have hstep := left_step_lt (i := i) hp
        have hle := (ih false (i.step p).2 (by omega)).1
        exact ⟨by dsimp only; omega, fun _ _ => by dsimp only; omega⟩
      | true =>
        have hzero := Progress.isOver_iff.1 hp
        cases p with
        | pending stage info value => cases hp
        | finished r =>
          refine ⟨?_, fun _ h => nomatch h⟩
          cases fuel with
          | zero => simp [turn, step, Progress.left]
          | succ fuel => exact (ih false (.finished r) (by simp [Progress.left])).1

end Invocation

/-! ### Rounds of one task -/

namespace Task

variable {t : Task}

/-- A task that is over takes no more turns. -/
private theorem rounds_of_isOver (n : Nat) (h : t.progress.isOver = true) : rounds n [t] = ([], [t]) := by
  induction n with
  | zero => rfl
  | succ n ih => simp [rounds, round, turn, h, ih]

/-- A task that is not over takes a turn and goes on in the rounds that are left. -/
theorem rounds_succ (n : Nat) (t : Task) :
    rounds (n + 1) [t] = (t.turn.1 ++ (rounds n [t.turn.2]).1, (rounds n [t.turn.2]).2) := by
  simp [rounds, round]

/-- The turn of a task that is not over. -/
private theorem turn_of_not_isOver (h : t.progress.isOver = false) :
    t.turn = ((t.invocation.turn (Stage.count + 1) (0 < t.turns) t.progress).1,
      { t with
        progress := (t.invocation.turn (Stage.count + 1) (0 < t.turns) t.progress).2
        turns := t.turns + 1 }) := by
  unfold turn
  rw [if_neg (by simp [h])]

/-- In as many rounds as there are stages left, a task gets to its end.  It needs one round more if it has not had a
turn yet, since its first stage may give way at once. -/
theorem exists_rounds (n : Nat) (t : Task)
    (hn : t.progress.isOver = true ∨ t.progress.left < n + (if t.turns = 0 then 0 else 1)) :
    ∃ u : Task, (rounds n [t]).2 = [u] ∧
      t.invocation.Completes t.progress (rounds n [t]).1 u.progress.result := by
  induction n generalizing t with
  | zero =>
    have hover : t.progress.isOver = true := hn.elim id fun h => Progress.isOver_iff.2 (by split at h <;> omega)
    rw [rounds_of_isOver 0 hover]
    refine ⟨t, rfl, ?_⟩
    cases hp : t.progress with
    | finished r => exact .finished
    | pending stage info value => simp [hp, Progress.isOver] at hover
  | succ n ih =>
    cases hover : t.progress.isOver with
    | true =>
      rw [rounds_of_isOver (n + 1) hover]
      have := ih t (Or.inl hover)
      rwa [rounds_of_isOver n hover] at this
    | false =>
      have hn := hn.resolve_left (by simp [hover])
      obtain ⟨hle, hlt⟩ := t.invocation.left_turn (Stage.count + 1) (0 < t.turns) t.progress
        (Nat.lt_succ_of_le t.progress.left_le)
      -- only a task that has had no turn may have got no further
      have hleft : (t.invocation.turn (Stage.count + 1) (0 < t.turns) t.progress).2.left < n + 1 := by
        by_cases hturns : t.turns = 0
        · rw [if_pos hturns] at hn
          exact Nat.lt_of_le_of_lt hle hn
        · rw [if_neg hturns] at hn
          have := hlt (by simpa using Nat.pos_of_ne_zero hturns) hover
          omega
      obtain ⟨u, hu, hcompletes⟩ := ih
        { t with
          progress := (t.invocation.turn (Stage.count + 1) (0 < t.turns) t.progress).2
          turns := t.turns + 1 } (Or.inr hleft)
      rw [rounds_succ, turn_of_not_isOver hover]
      exact ⟨u, hu, hcompletes.of_turn⟩

end Task

/-- An invocation that is run on its own runs its stages in order, up to its end. -/
theorem Invocation.completes_run (i : Invocation) (arguments : List (String × Value)) :
    i.Completes (i.start arguments) (i.run arguments).1 (i.run arguments).2 := by
  obtain ⟨u, hu, h⟩ := Task.exists_rounds (Stage.count + 1) (Task.start i arguments)
    (Or.inr (by simpa [Task.start] using Nat.lt_succ_of_le (i.start arguments).left_le))
  have hrun : i.run arguments = ((rounds (Stage.count + 1) [Task.start i arguments]).1, u.progress.result) := by
    unfold run runAll
    dsimp only
    rw [hu]
    rfl
  rw [hrun]
  exact h

end ThriftGateway.Service
