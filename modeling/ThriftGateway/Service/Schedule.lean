import ThriftGateway.Service.Invocation

/-!
# Running invocations side by side

Invocations take turns, always in the same order.  In every round each of them runs up to its next stage that
gives way, so all are over after one round more than there are stages.
-/

namespace ThriftGateway.Service

/-- An invocation under way. -/
structure Task where
  invocation : Invocation
  progress : Progress
  /-- How many turns it has taken. -/
  turns : Nat

/-- An invocation that has not run yet. -/
def Task.start (i : Invocation) (arguments : List (String × Value)) : Task := ⟨i, i.start arguments, 0⟩

/-- One turn of a task; one that is over takes no more turns.  Its next stage has given way in the turn before, if
there was one. -/
def Task.turn (t : Task) : List TraceEntry × Task :=
  if t.progress.isOver then ([], t)
  else
    let (entries, progress) := t.invocation.turn (Stage.count + 1) (0 < t.turns) t.progress
    (entries, { t with progress, turns := t.turns + 1 })

/-- One turn of every task. -/
def round : List Task → List TraceEntry × List Task
  | [] => ([], [])
  | t :: ts =>
    let (entries, t) := t.turn
    let (more, ts) := round ts
    (entries ++ more, t :: ts)

/-- Several rounds. -/
def rounds : Nat → List Task → List TraceEntry × List Task
  | 0, ts => ([], ts)
  | n + 1, ts =>
    let (entries, ts) := round ts
    let (more, ts) := rounds n ts
    (entries ++ more, ts)

/-- How an invocation ends: its result, and in which round; in none if it was over before it began. -/
structure Ending where
  round : Nat
  result : Except CallError Value

/-- How a task that is over has ended. -/
def Task.ending (t : Task) : Ending := ⟨t.turns, t.progress.result⟩

/-- Runs tasks side by side until all are over: what has been run, and how the tasks have ended, in their order. -/
def runAll (ts : List Task) : List TraceEntry × List Ending :=
  let (entries, ts) := rounds (Stage.count + 1) ts
  (entries, ts.map Task.ending)

/-- Runs one invocation on its own. -/
def Invocation.run (i : Invocation) (arguments : List (String × Value)) :
    List TraceEntry × Except CallError Value :=
  let (entries, endings) := runAll [Task.start i arguments]
  (entries, endings.head?.elim (.ok .null) Ending.result)

end ThriftGateway.Service
