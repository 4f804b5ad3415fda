import ThriftGateway.Proofs.Service.Stages

/-!
# Invocations that take turns

Invocations that run side by side do not touch one another: what each of them runs, and how it ends, is what it would
run on its own (`runsUnder_keyedRounds`, `results_runAll`), whatever gives way where.  To tell whose an entry of the
trace is, tasks are run with keys (`keyedRounds`).  On its own, an invocation does the same if nothing in it gives way
(`rounds_plain`), since stages give their values in any mode.
-/

namespace ThriftGateway.Service

/-! ### The same callables, run at once -/

/-- A callable that does the same at once. -/
def Callable.plain (c : Callable) : Callable := { c with mode := .plain }

/-- A hook that does the same at once. -/
def Hook.plain {Info : Type} (h : Hook Info) : Hook Info := { h with mode := .plain }

/-- Hooks that do the same at once. -/
def Hooks.plain (h : Hooks) : Hooks := ⟨h.onRequest.map Hook.plain, h.onResponse.map Hook.plain⟩

/-- A client whose functions do the same at once. -/
def Client.plain (client : Client) : Client := fun service =>
  (client service).map fun methods method => (methods method).map Callable.plain

/-- An invocation in which all does the same at once. -/
def Invocation.plain (i : Invocation) : Invocation :=
  { i with client := i.client.map Client.plain, globalHooks := i.globalHooks.plain, methodHooks := i.methodHooks.plain }

/-- A task of such an invocation. -/
def Task.plain (t : Task) : Task := { t with invocation := t.invocation.plain }

namespace Invocation

variable {i : Invocation} {p : Progress} {entries entries' : List TraceEntry} {r r' : Except CallError Value}

private theorem target_plain (i : Invocation) : i.plain.target = i.target.map Callable.plain := by
  unfold target plain
  cases i.client with
  | none => rfl
  | some client =>
    simp only [Option.map_some, Client.plain]
    cases client i.service with
    | none => rfl
    | some methods =>
      simp only [Option.map_some, method]
      cases methods i.function.name <;> rfl

/-- What runs at a stage, at once. -/
def Worker.plain (w : Worker) : Worker := { w with mode := .plain }

private theorem worker_plain (i : Invocation) (stage : Stage) (info : ReplyInfo) :
    i.plain.worker stage info = (i.worker stage info).map (Option.map Worker.plain) := by
  have request (h : Option (Hook CallInfo)) :
      (h.map Hook.plain).map (requestWorker info) = (h.map (requestWorker info)).map Worker.plain := by
    cases h <;> rfl
  have reply (h : Option (Hook ReplyInfo)) :
      (h.map Hook.plain).map (replyWorker info) = (h.map (replyWorker info)).map Worker.plain := by
    cases h <;> rfl
  cases stage with
  | globalRequest => exact congrArg Except.ok (request i.globalHooks.onRequest)
  | methodRequest => exact congrArg Except.ok (request i.methodHooks.onRequest)
  | call =>
    rw [worker, worker, target_plain]
    cases i.target <;> rfl
  | globalResponse => exact congrArg Except.ok (reply i.globalHooks.onResponse)
  | methodResponse => exact congrArg Except.ok (reply i.methodHooks.onResponse)

@[simp] theorem step_plain (i : Invocation) (p : Progress) : i.plain.step p = i.step p := by
  cases p with
  | finished r => rfl
  | pending stage info value =>
    have hentry : i.plain.entry stage info value = i.entry stage info value := by cases stage <;> rfl
    have hnext : i.plain.next = i.next := by
      funext stage info value
      cases stage <;> rfl
    rw [step, step, worker_plain, hentry, hnext]
    cases i.worker stage info with
    | error e => rfl
    | ok c => cases c <;> rfl

theorem Completes.plain (h : i.Completes p entries r) : i.plain.Completes p entries r := by
  induction h with
  | finished => exact .finished
  | step hp h ih =>
    rw [← step_plain] at ih ⊢
    exact .step hp ih

/-- There is one way to the end. -/
private theorem Completes.unique (h : i.Completes p entries r) (h' : i.Completes p entries' r') :
    entries = entries' ∧ r = r' := by
  induction h generalizing entries' with
  | finished =>
    cases h' with
    | finished => exact ⟨rfl, rfl⟩
    | step hp h' => cases hp
  | step hp h ih =>
    cases h' with
    | finished => cases hp
    | step hp' h' =>
      obtain ⟨rfl, rfl⟩ := ih h'
      exact ⟨rfl, rfl⟩

end Invocation

/-! ### Rounds of several tasks -/

private theorem round_cons (t : Task) (ts : List Task) :
    (round (t :: ts)).2 = (round [t]).2 ++ (round ts).2 := by
  simp [round]

/-- In rounds, every task gets where it gets on its own. -/
private theorem rounds_cons (n : Nat) (t : Task) (ts : List Task) :
    (rounds n (t :: ts)).2 = (rounds n [t]).2 ++ (rounds n ts).2 := by
  induction n generalizing t ts with
  | zero => rfl
  | succ n ih =>
    have hround : ∀ ts, (rounds (n + 1) ts).2 = (rounds n (round ts).2).2 := fun ts => rfl
    rw [hround, hround [t], hround ts, round_cons]
    exact ih t.turn.2 (round ts).2

namespace Task

variable {t : Task}

/-- A task that has not had its first turn. -/
def IsFresh (t : Task) : Prop := t.turns = 0

theorem isFresh_start (i : Invocation) (arguments : List (String × Value)) : (Task.start i arguments).IsFresh := rfl

/-- What a task runs and gives on its own. -/
def alone (t : Task) : List TraceEntry × Except CallError Value :=
  ((rounds (Stage.count + 1) [t]).1, (rounds (Stage.count + 1) [t]).2.head?.elim (.ok .null) (·.progress.result))

/-- On its own, a task gets to its end. -/
private theorem IsFresh.completes (h : t.IsFresh) :
    ∃ u : Task, (rounds (Stage.count + 1) [t]).2 = [u] ∧ u.progress.result = t.alone.2 ∧
      t.invocation.Completes t.progress t.alone.1 t.alone.2 := by
  have hleft := t.progress.left_le
  obtain ⟨u, hu, hcompletes⟩ := exists_rounds (Stage.count + 1) t (.inr (by rw [h]; simp; omega))
  have hresult : t.alone.2 = u.progress.result := by simp [alone, hu]
  exact ⟨u, hu, hresult.symm, hresult ▸ hcompletes⟩

/-- On its own, a task does the same if nothing in it gives way. -/
theorem IsFresh.alone_plain (h : t.IsFresh) : t.plain.alone = t.alone := by
  obtain ⟨-, -, -, hcompletes⟩ := h.completes
  obtain ⟨-, -, -, hplain⟩ := IsFresh.completes (t := t.plain) h
  obtain ⟨hentries, hresult⟩ := hplain.unique hcompletes.plain
  exact Prod.ext hentries hresult

end Task

/-- Tasks that run side by side end as each of them ends on its own. -/
theorem results_runAll {ts : List Task} (h : ∀ t ∈ ts, t.IsFresh) :
    (runAll ts).2.map Ending.result = ts.map fun t => t.alone.2 := by
  have hrounds : ((rounds (Stage.count + 1) ts).2.map fun t => t.progress.result) = ts.map fun t => t.alone.2 := by
    induction ts with
    | nil => rfl
    | cons t ts ih =>
      rw [List.forall_mem_cons] at h
      obtain ⟨u, hu, hresult, -⟩ := h.1.completes
      rw [rounds_cons, List.map_append, ih h.2, hu]
      simp [hresult]
  simpa [runAll, Function.comp_def, Task.ending] using hrounds

/-! ### Rounds of tasks with keys -/

/-- One turn of every task, each entry with the key of its task. -/
def keyedRound : List (String × Task) → List (String × TraceEntry) × List (String × Task)
  | [] => ([], [])
  | (key, t) :: ts =>
    let (entries, t) := t.turn
    let (more, ts) := keyedRound ts
    (entries.map (key, ·) ++ more, (key, t) :: ts)

/-- Several rounds. -/
def keyedRounds : Nat → List (String × Task) → List (String × TraceEntry) × List (String × Task)
  | 0, ts => ([], ts)
  | n + 1, ts =>
    let (entries, ts) := keyedRound ts
    let (more, ts) := keyedRounds n ts
    (entries ++ more, ts)

/-- The entries of one task. -/
def runsUnder (key : String) (runs : List (String × TraceEntry)) : List TraceEntry :=
  (runs.filter fun e => e.1 = key).map Prod.snd

@[simp] theorem runsUnder_append (key : String) (runs runs' : List (String × TraceEntry)) :
    runsUnder key (runs ++ runs') = runsUnder key runs ++ runsUnder key runs' := by simp [runsUnder]

@[simp] theorem runsUnder_self (key : String) (entries : List TraceEntry) :
    runsUnder key (entries.map (key, ·)) = entries := by
  induction entries <;> simp_all [runsUnder]

private theorem runsUnder_of_ne {key other : String} (h : other ≠ key) (entries : List TraceEntry) :
    runsUnder key (entries.map (other, ·)) = [] := by simp [runsUnder, h]

/-- Without the keys, rounds are those of the tasks. -/
theorem map_snd_keyedRounds (n : Nat) (ts : List (String × Task)) :
    (keyedRounds n ts).1.map Prod.snd = (rounds n (ts.map Prod.snd)).1 := by
  have hround : ∀ ts : List (String × Task), (keyedRound ts).1.map Prod.snd = (round (ts.map Prod.snd)).1 ∧
      (keyedRound ts).2.map Prod.snd = (round (ts.map Prod.snd)).2 := by
    intro ts
    induction ts with
    | nil => exact ⟨rfl, rfl⟩
    | cons t ts ih => simp [keyedRound, round, ih.1, ih.2, Function.comp_def]
  induction n generalizing ts with
  | zero => rfl
  | succ n ih =>
    show ((keyedRound ts).1 ++ (keyedRounds n (keyedRound ts).2).1).map Prod.snd =
      (round (ts.map Prod.snd)).1 ++ (rounds n (round (ts.map Prod.snd)).2).1
    rw [List.map_append, ih, (hround ts).1, (hround ts).2]

private theorem keys_keyedRound (ts : List (String × Task)) : (keyedRound ts).2.map Prod.fst = ts.map Prod.fst := by
  induction ts with
  | nil => rfl
  | cons t ts ih => simp [keyedRound, ih]

/-- Under a key that no task has, nothing is run. -/
private theorem runsUnder_keyedRound_of_not_mem {key : String} {ts : List (String × Task)} (h : key ∉ ts.map Prod.fst) :
    runsUnder key (keyedRound ts).1 = [] := by
  induction ts with
  | nil => rfl
  | cons t ts ih =>
    rw [List.map_cons, List.mem_cons, not_or] at h
    show runsUnder key (t.2.turn.1.map (t.1, ·) ++ (keyedRound ts).1) = []
    rw [runsUnder_append, runsUnder_of_ne (Ne.symm h.1), ih h.2, List.append_nil]

/-- In a round, a task with a key of its own takes its turn. -/
private theorem runsUnder_keyedRound {key : String} {t : Task} {ts : List (String × Task)}
    (hn : (ts.map Prod.fst).Nodup) (h : (key, t) ∈ ts) :
    runsUnder key (keyedRound ts).1 = t.turn.1 ∧ (key, t.turn.2) ∈ (keyedRound ts).2 := by
  induction ts with
  | nil => cases h
  | cons u ts ih =>
    rw [List.map_cons, List.nodup_cons] at hn
    show runsUnder key (u.2.turn.1.map (u.1, ·) ++ (keyedRound ts).1) = t.turn.1 ∧
      (key, t.turn.2) ∈ (u.1, u.2.turn.2) :: (keyedRound ts).2
    rw [runsUnder_append]
    rcases List.mem_cons.1 h with rfl | h
    · rw [runsUnder_self, runsUnder_keyedRound_of_not_mem hn.1, List.append_nil]
      exact ⟨rfl, List.mem_cons_self⟩
    · have hne : u.1 ≠ key := fun heq => hn.1 (heq ▸ List.mem_map_of_mem h)
      obtain ⟨hruns, hmem⟩ := ih hn.2 h
      rw [runsUnder_of_ne hne, List.nil_append]
      exact ⟨hruns, List.mem_cons_of_mem _ hmem⟩

/-- In rounds, a task with a key of its own runs what it runs on its own. -/
theorem runsUnder_keyedRounds {key : String} {t : Task} {ts : List (String × Task)} (n : Nat)
    (hn : (ts.map Prod.fst).Nodup) (h : (key, t) ∈ ts) : runsUnder key (keyedRounds n ts).1 = (rounds n [t]).1 := by
  induction n generalizing t ts with
  | zero => rfl
  | succ n ih =>
    obtain ⟨hruns, hmem⟩ := runsUnder_keyedRound hn h
    show runsUnder key ((keyedRound ts).1 ++ (keyedRounds n (keyedRound ts).2).1) = _
    rw [runsUnder_append, hruns, ih (by rwa [keys_keyedRound]) hmem, Task.rounds_succ]

private theorem runsUnder_keyedRounds_of_not_mem {key : String} {ts : List (String × Task)} (n : Nat)
    (h : key ∉ ts.map Prod.fst) : runsUnder key (keyedRounds n ts).1 = [] := by
  induction n generalizing ts with
  | zero => rfl
  | succ n ih =>
    show runsUnder key ((keyedRound ts).1 ++ (keyedRounds n (keyedRound ts).2).1) = []
    rw [runsUnder_append, runsUnder_keyedRound_of_not_mem h, ih (by rwa [keys_keyedRound]), List.append_nil]

/-- Under every key, the same is run if nothing gives way. -/
theorem runsUnder_plain {ts : List (String × Task)} (hn : (ts.map Prod.fst).Nodup) (hfresh : ∀ t ∈ ts, t.2.IsFresh)
    (key : String) :
    runsUnder key (keyedRounds (Stage.count + 1) (ts.map fun t => (t.1, t.2.plain))).1 =
      runsUnder key (keyedRounds (Stage.count + 1) ts).1 := by
  have hkeys : (ts.map fun t => (t.1, t.2.plain)).map Prod.fst = ts.map Prod.fst := by simp [Function.comp_def]
  by_cases hkey : key ∈ ts.map Prod.fst
  · obtain ⟨⟨key, t⟩, ht, rfl⟩ := List.mem_map.1 hkey
    have hplain : (key, t.plain) ∈ ts.map fun t => (t.1, t.2.plain) := List.mem_map.2 ⟨_, ht, rfl⟩
    rw [runsUnder_keyedRounds _ hn ht, runsUnder_keyedRounds _ (hkeys ▸ hn) hplain]
    exact (Prod.ext_iff.1 (hfresh _ ht).alone_plain).1
  · rw [runsUnder_keyedRounds_of_not_mem _ hkey, runsUnder_keyedRounds_of_not_mem _ (hkeys ▸ hkey)]

end ThriftGateway.Service
