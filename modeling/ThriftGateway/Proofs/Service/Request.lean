import ThriftGateway.Proofs.Service.Stages
import ThriftGateway.Proofs.Value.Entries

/-!
# The request that is sent

The request of an invocation is the value of the only argument of its function, or the map of all given arguments by
their names (`IsRequest`).  It reaches the first request hook that there is, or else the call, unless an argument is
given under a name that the call itself needs (`request_reaches`).
-/

namespace ThriftGateway.Service

/-- The request that given arguments make: of a function with one argument, its value, or `null` if it is not given; of
all others, the map of what is given by names. -/
structure IsRequest (f : Idl.Function) (arguments : List (String × Value)) (request : Value) : Prop where
  given : ∀ a v, f.arguments = [a] → (a.name, v) ∈ arguments → request = v
  missing : ∀ a, f.arguments = [a] → (∀ v, (a.name, v) ∉ arguments) → request = .null
  record : f.arguments.length ≠ 1 → request = .map (arguments.map fun a => (.text a.1, a.2))

/-! ### Arguments by names -/

private theorem lookup_eq_some_of_mem {arguments : List (String × Value)} {name : String} {v : Value}
    (hn : (arguments.map Prod.fst).Nodup) (hm : (name, v) ∈ arguments) : arguments.lookup name = some v := by
  induction arguments with
  | nil => cases hm
  | cons a arguments ih =>
    obtain ⟨key, value⟩ := a
    rw [List.map_cons, List.nodup_cons] at hn
    rw [List.lookup_cons]
    by_cases hk : name = key
    · subst hk
      rcases List.mem_cons.1 hm with h | h
      · cases h
        simp
      · exact absurd (List.mem_map_of_mem h) hn.1
    · rcases List.mem_cons.1 hm with h | h
      · cases h
        exact absurd rfl hk
      · simpa [beq_false_of_ne hk] using ih hn.2 h

private theorem lookup_eq_none_of_not_mem {arguments : List (String × Value)} {name : String}
    (h : ∀ v, (name, v) ∉ arguments) : arguments.lookup name = none := by
  rw [List.lookup_eq_none_iff]
  rintro ⟨key, value⟩ hm
  rw [bne_iff_ne]
  rintro rfl
  exact h value hm

private theorem isRequest_requestOf {f : Idl.Function} {arguments : List (String × Value)}
    (hn : (arguments.map Prod.fst).Nodup) : IsRequest f arguments (requestOf f arguments) where
  given a v ha hv := by simp [requestOf, ha, lookup_eq_some_of_mem hn hv]
  missing a ha hv := by simp [requestOf, ha, lookup_eq_none_of_not_mem hv]
  record hlength := by
    unfold requestOf
    split
    · rename_i a ha
      simp [ha] at hlength
    · exact Value.record_eq_map _ hn

/-! ### The first stage that runs -/

namespace Invocation

variable {i : Invocation} {stage : Stage} {info : ReplyInfo} {request value : Value} {entries : List TraceEntry}
  {r : Except CallError Value}

/-- A stage at which something runs comes first in what is run from there on. -/
private theorem Completes.head?_eq {w : Worker} (hw : i.worker stage info = .ok (some w))
    (h : i.Completes (.pending stage info value) entries r) : entries.head? = some (i.entry stage info value) := by
  cases h with
  | step hp h =>
    rw [Invocation.step, hw]
    rfl

/-- A stage at which nothing runs hands on what it is given. -/
private theorem Completes.next (hw : i.worker stage info = .ok none)
    (h : i.Completes (.pending stage info value) entries r) :
    i.Completes (i.next stage info value) entries r := by
  cases h with
  | step hp h =>
    rw [Invocation.step, hw] at h ⊢
    exact h

/-- A stage that cannot run ends the run. -/
private theorem Completes.eq_error {e : CallError} (hw : i.worker stage info = .error e)
    (h : i.Completes (.pending stage info value) entries r) : entries = [] ∧ r = .error e := by
  cases h with
  | step hp h =>
    rw [Invocation.step, hw] at h ⊢
    cases h with
    | finished => exact ⟨rfl, rfl⟩
    | step hp h => cases hp

/-- The request reaches the first request hook that there is, or else the call; if there is nothing to call either, the
run ends with the lack of it. -/
def Reaches (i : Invocation) (request : Value) (run : List TraceEntry × Except CallError Value) : Prop :=
  match i.globalHooks.onRequest, i.methodHooks.onRequest, i.target with
  | some _, _, _ => run.1.head? = some (.onRequest .all i.info request)
  | none, some _, _ => run.1.head? = some (.onRequest .method i.info request)
  | none, none, .ok _ => run.1.head? = some (.call i.service i.method request)
  | none, none, .error e => run = ([], .error e)

private theorem Completes.reaches (h : i.Completes (.pending .globalRequest ⟨i.info, request⟩ request) entries r) :
    i.Reaches request (entries, r) := by
  unfold Reaches
  cases hglobal : i.globalHooks.onRequest with
  | some hook =>
    have hw : i.worker .globalRequest ⟨i.info, request⟩ = .ok (some (requestWorker ⟨i.info, request⟩ hook)) := by
      simp [worker, hglobal]
    exact h.head?_eq hw
  | none =>
    have h := h.next (show i.worker .globalRequest ⟨i.info, request⟩ = .ok none by simp [worker, hglobal])
    cases hmethod : i.methodHooks.onRequest with
    | some hook =>
      have hw : i.worker .methodRequest ⟨i.info, request⟩ = .ok (some (requestWorker ⟨i.info, request⟩ hook)) := by
        simp [worker, hmethod]
      exact h.head?_eq hw
    | none =>
      have h := h.next (show i.worker .methodRequest ⟨i.info, request⟩ = .ok none by simp [worker, hmethod])
      cases htarget : i.target with
      | ok c =>
        have hw : i.worker .call ⟨i.info, request⟩ = .ok (some (callWorker ⟨i.info, request⟩ c)) := by
          rw [worker, htarget]
          rfl
        exact h.head?_eq hw
      | error e =>
        have hw : i.worker .call ⟨i.info, request⟩ = .error e := by
          rw [worker, htarget]
          rfl
        obtain ⟨rfl, rfl⟩ := h.eq_error hw
        rfl

/-- An invocation begins with its request, unless an argument has a name that the call itself needs. -/
theorem start_of_forall {arguments : List (String × Value)} (h : ∀ a ∈ arguments, a.1 ∉ callNames) :
    i.start arguments =
      .pending .globalRequest ⟨i.info, requestOf i.function arguments⟩ (requestOf i.function arguments) := by
  have hnone : arguments.find? (fun a => callNames.contains a.1) = none := by
    rw [List.find?_eq_none]
    intro a ha
    simpa using h a ha
  rw [start, hnone]

/-- An invocation with an argument whose name the call itself needs is over before it begins. -/
private theorem exists_start_of_mem {arguments : List (String × Value)} {a : String × Value} (ha : a ∈ arguments)
    (hn : a.1 ∈ callNames) :
    ∃ b ∈ arguments, b.1 ∈ callNames ∧ i.start arguments = .finished (.error (.nameTaken b.1)) := by
  cases hb : arguments.find? (fun a => callNames.contains a.1) with
  | none =>
    rw [List.find?_eq_none] at hb
    exact absurd (by simpa using hn) (hb a ha)
  | some b =>
    refine ⟨b, List.mem_of_find?_eq_some hb, by simpa using List.find?_some hb, ?_⟩
    rw [start, hb]

/-- Arguments with different names, none of them `source` or `info`, make a request, and the request reaches the first
request hook, or else the call.  If one is named so, the run ends before any hook or call. -/
theorem request_reaches (i : Invocation) (arguments : List (String × Value)) (hn : (arguments.map Prod.fst).Nodup) :
    ((∀ a ∈ arguments, a.1 ≠ "source" ∧ a.1 ≠ "info") →
      ∃ request, IsRequest i.function arguments request ∧ i.Reaches request (i.run arguments)) ∧
    ((∃ a ∈ arguments, a.1 = "source" ∨ a.1 = "info") →
      ∃ b ∈ arguments, (b.1 = "source" ∨ b.1 = "info") ∧ i.run arguments = ([], .error (.nameTaken b.1))) := by
  have hnames : ∀ name, name ∈ callNames ↔ name = "source" ∨ name = "info" := by simp [callNames]
  have hrun := i.completes_run arguments
  constructor
  · intro h
    have hfree : ∀ a ∈ arguments, a.1 ∉ callNames := fun a ha hm => by
      rcases (hnames _).1 hm with hm | hm
      · exact (h a ha).1 hm
      · exact (h a ha).2 hm
    rw [start_of_forall hfree] at hrun
    exact ⟨_, isRequest_requestOf hn, hrun.reaches⟩
  · rintro ⟨a, ha, hname⟩
    obtain ⟨b, hb, hbname, hstart⟩ := exists_start_of_mem (i := i) ha ((hnames _).2 hname)
    refine ⟨b, hb, (hnames _).1 hbname, ?_⟩
    rw [hstart] at hrun
    generalize i.run arguments = run at hrun
    obtain ⟨entries, r⟩ := run
    cases hrun with
    | finished => rfl
    | step hp h => cases hp

/-- A function with one argument of the given name, behind a client that gives back what it is sent. -/
def echoing (argument : String) : Invocation where
  client := some fun _ => some fun _ => some { mode := .plain, apply := .ok }
  globalHooks := {}
  methodHooks := {}
  service := .text "svc"
  function := ⟨1, "m", .base 1 "i32", [⟨1, argument, none, none, .base 1 "i32", none, none⟩], [], false, none⟩
  context := .null

/-- The value of the only argument reaches the call. -/
theorem request_reaches_echo :
    ([("x", Value.int 1)].map Prod.fst).Nodup ∧ (∀ a ∈ [("x", Value.int 1)], a.1 ≠ "source" ∧ a.1 ≠ "info") ∧
      ((echoing "x").run [("x", .int 1)]).1.head? = some (.call (.text "svc") "m" (.int 1)) := by
  refine ⟨by decide, by decide, ?_⟩
  obtain ⟨request, hrequest, hreaches⟩ := (request_reaches (echoing "x") [("x", .int 1)] (by decide)).1 (by decide)
  obtain rfl : request = .int 1 := hrequest.given _ _ rfl (by simp)
  exact hreaches

/-- An argument that is named `source` is lost: its function has no other argument, its name is a name of the graph, and
still the run ends before the call. -/
theorem request_lost_source :
    let i := echoing "source"
    (i.function.arguments.map Idl.Field.name).Nodup ∧
      (∀ a ∈ i.function.arguments, Graph.checkName a.name = .ok () ∧ Graph.isHidden a.name = false) ∧
      (∃ c, i.target = .ok c) ∧ i.run [("source", .int 1)] = ([], .error (.nameTaken "source")) := by
  refine ⟨by decide, ?_, ⟨_, rfl⟩, rfl⟩
  intro a ha
  obtain rfl := List.mem_singleton.1 ha
  exact ⟨rfl, rfl⟩

end Invocation

end ThriftGateway.Service
