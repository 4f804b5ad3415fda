import ThriftGateway.Proofs.Source.Canonical
import ThriftGateway.Source.Library

/-!
# What loading does to a library

`Loads` says by rules what loading does: it goes into the includes of a file before it goes on, and stops at the first
error.  The rules have exactly one outcome, which `loadPending` computes (`loads_iff`), so loading always ends.

Loading adds documents behind those that there are, each file once (`exists_growth`), and depends on nothing but the
files that it opens (`loadPending_congr`).
-/

namespace ThriftGateway.Source

open Idl (Document)

/-! ### Documents of a library -/

namespace Library

theorem contains_iff {l : Library} {p : Path} : l.contains p = true ↔ ∃ d, (p, d) ∈ l.entries := by
  simp [Library.contains]

theorem contains_of_mem {l : Library} {e : Path × Document} (h : e ∈ l.entries) : l.contains e.1 = true :=
  contains_iff.2 ⟨e.2, h⟩

theorem mem_of_document? {l : Library} {p : Path} {d : Document} (h : l.document? p = some d) :
    (p, d) ∈ l.entries := by
  unfold Library.document? at h
  rw [Option.map_eq_some_iff] at h
  obtain ⟨e, he, rfl⟩ := h
  have hp : e.1 = p := by simpa using List.find?_some he
  subst hp
  exact List.mem_of_find?_eq_some he

/-- Documents that are there stay where they are when others come behind them. -/
theorem document?_append {l l' : Library} {added : List (Path × Document)} (h : l'.entries = l.entries ++ added)
    {p : Path} {d : Document} (hd : l.document? p = some d) : l'.document? p = some d := by
  unfold Library.document? at hd ⊢
  rw [Option.map_eq_some_iff] at hd
  obtain ⟨e, he, rfl⟩ := hd
  rw [h, List.find?_append, he]
  rfl

/-- A path that is new has the document that is added for it. -/
theorem document?_add_self {l : Library} {p : Path} {d : Document} (hp : l.contains p = false) :
    (l.add p d).document? p = some d := by
  have hnone : (l.entries.find? fun e => decide (e.1 = p)) = none :=
    List.find?_eq_none.2 fun e he => List.any_eq_false.1 hp e he
  unfold Library.document? Library.add
  rw [List.find?_append, hnone]
  simp

theorem contains_append {l l' : Library} {added : List (Path × Document)} (h : l'.entries = l.entries ++ added)
    (p : Path) : l'.contains p = true ↔ l.contains p = true ∨ ∃ d, (p, d) ∈ added := by
  simp only [contains_iff, h, List.mem_append, exists_or]

/-- Paths are keys: no path has two documents, and each is canonical and the one that its document tells. -/
structure IsTable (l : Library) : Prop where
  nodup : l.paths.Nodup
  canonical : ∀ e ∈ l.entries, e.1.IsCanonical
  path : ∀ e ∈ l.entries, e.2.path = some e.1

end Library

theorem path_of_document {t : FileTree} {p : Path} {d : Document} (h : t.document p = .ok d) : d.path = some p := by
  unfold FileTree.document readDocument at h
  split at h
  · cases h
  · split at h
    · cases h
    · split at h
      · cases h
      · cases h
      · cases h
        rfl

/-- A file that can be loaded, by what it includes. -/
theorem exists_document {t : FileTree} {p : Path} (qs : List Path)
    (h : (t.document p).toOption.map (includesOf p) = some qs) :
    ∃ d, t.document p = .ok d ∧ includesOf p d = qs := by
  cases hd : t.document p with
  | error e => simp [hd, Except.toOption] at h
  | ok d => exact ⟨d, rfl, by simpa [hd, Except.toOption] using h⟩

/-- A file that can be loaded, by what can be seen of its document. -/
theorem exists_document_of_any {t : FileTree} {p : Path} (view : Document → Bool)
    (h : (t.document p).toOption.any view = true) :
    ∃ d, t.document p = .ok d ∧ view d = true := by
  cases hd : t.document p with
  | error e => simp [hd, Except.toOption] at h
  | ok d => exact ⟨d, rfl, by simpa [hd, Except.toOption] using h⟩

theorem exists_error {t : FileTree} {p : Path} (h : (t.document p).toOption.isNone) : ∃ e, t.document p = .error e := by
  cases hd : t.document p with
  | error e => exact ⟨e, rfl⟩
  | ok d => simp [hd, Except.toOption] at h

/-! ### Loading by rules -/

/-- One outcome of loading, and another one that begins where it has ended. -/
def Loaded.andThen (r s : Loaded) : Loaded :=
  ⟨s.library, r.notices ++ s.notices, r.opened ++ s.opened, s.error⟩

/-- The outcome of loading: a loaded file is skipped; another one is read, and after everything that it includes the
search goes on with what is left. -/
inductive Loads (t : FileTree) : Library → List Path → Loaded → Prop
  | done {l} : Loads t l [] ⟨l, [], [], none⟩
  | skipped {l p ps r} (hp : l.contains p = true) (hr : Loads t l ps r) :
      Loads t l (p :: ps) (Loaded.andThen ⟨l, [.skipped p], [], none⟩ r)
  | unreadable {l p ps e} (hp : l.contains p = false) (he : t.document p = .error e) :
      Loads t l (p :: ps) ⟨l, [], [p], some e⟩
  | stopped {l p ps d r e} (hp : l.contains p = false) (hd : t.document p = .ok d)
      (hr : Loads t (l.add p d) (includesOf p d) r) (he : r.error = some e) :
      Loads t l (p :: ps) (Loaded.andThen ⟨l.add p d, [.parsed p], [p], none⟩ r)
  | parsed {l p ps d r s} (hp : l.contains p = false) (hd : t.document p = .ok d)
      (hr : Loads t (l.add p d) (includesOf p d) r) (he : r.error = none) (hs : Loads t r.library ps s) :
      Loads t l (p :: ps) ((Loaded.andThen ⟨l.add p d, [.parsed p], [p], none⟩ r).andThen s)

variable {t : FileTree} {l : Library} {p : Path} {ps : List Path}

theorem loadPending_nil : loadPending t l [] = ⟨l, [], [], none⟩ := by
  rw [loadPending]

theorem loadPending_of_contains (hp : l.contains p = true) :
    loadPending t l (p :: ps) = Loaded.andThen ⟨l, [.skipped p], [], none⟩ (loadPending t l ps) := by
  rw [loadPending, dif_pos hp]
  rfl

theorem loadPending_of_error {e : LoadError} (hp : l.contains p = false) (he : t.document p = .error e) :
    loadPending t l (p :: ps) = ⟨l, [], [p], some e⟩ := by
  rw [loadPending, dif_neg (by simp [hp])]
  split
  · rename_i e' he'
    rw [he] at he'
    cases he'
    rfl
  · rename_i d hd
    rw [he] at hd
    cases hd

theorem loadPending_of_ok {d : Document} (hp : l.contains p = false) (hd : t.document p = .ok d) :
    loadPending t l (p :: ps) =
      Loaded.andThen ⟨l.add p d, [.parsed p], [p], none⟩ (loadPending t (l.add p d) (includesOf p d ++ ps)) := by
  rw [loadPending, dif_neg (by simp [hp])]
  split
  · rename_i e he
    rw [hd] at he
    cases he
  · rename_i d' hd'
    rw [hd] at hd'
    cases hd'
    rfl

/-- A file that includes nothing is added by itself. -/
theorem loadPending_of_includes_eq_nil {d : Document} (hp : l.contains p = false) (hd : t.document p = .ok d)
    (hincludes : d.includes = []) : loadPending t l [p] = ⟨l.add p d, [.parsed p], [p], none⟩ := by
  rw [loadPending_of_ok hp hd, includesOf, hincludes]
  show Loaded.andThen _ (loadPending t _ []) = _
  rw [loadPending_nil]
  rfl

/-- The first file is loaded by itself if it includes nothing. -/
theorem loadPending_alone {d : Document} (hd : t.document p = .ok d) (hincludes : d.includes = []) :
    loadPending t .empty [p] = ⟨⟨[(p, d)]⟩, [.parsed p], [p], none⟩ :=
  loadPending_of_includes_eq_nil rfl hd hincludes

/-- The induction that loading follows: a file that is not loaded leads to its includes and what is left, in the
library with its document. -/
theorem loading_induction {motive : Library → List Path → Prop} (t : FileTree)
    (done : ∀ l, motive l [])
    (skipped : ∀ l p ps, l.contains p = true → motive l ps → motive l (p :: ps))
    (unreadable : ∀ l p ps e, l.contains p = false → t.document p = .error e → motive l (p :: ps))
    (parsed : ∀ l p ps d, l.contains p = false → t.document p = .ok d →
      motive (l.add p d) (includesOf p d ++ ps) → motive l (p :: ps)) (l : Library) (ps : List Path) :
    motive l ps := by
  induction l, ps using loadPending.induct t with
  | case1 l => exact done l
  | case2 l p ps hp ih => exact skipped l p ps hp ih
  | case3 l p ps hp e he => exact unreadable l p ps e (by simpa using hp) he
  | case4 l p ps hp d hd ih => exact parsed l p ps d (by simpa using hp) hd ih

/-! ### The rules and what is computed -/

/-- Loading some paths and then more: the second part begins where the first one has ended, unless that was an
error. -/
private theorem loadPending_append (t : FileTree) (l : Library) (ps qs : List Path) :
    ((loadPending t l ps).error = none → loadPending t l (ps ++ qs) =
      (loadPending t l ps).andThen (loadPending t (loadPending t l ps).library qs)) ∧
    (∀ e, (loadPending t l ps).error = some e → loadPending t l (ps ++ qs) = loadPending t l ps) := by
  induction l, ps using loading_induction t with
  | done l => simp [loadPending_nil, Loaded.andThen]
  | skipped l p ps hp ih =>
    rw [List.cons_append, loadPending_of_contains hp, loadPending_of_contains hp]
    refine ⟨fun h => ?_, fun e h => ?_⟩
    · rw [ih.1 h]
      simp [Loaded.andThen]
    · rw [ih.2 e h]
  | unreadable l p ps e hp he =>
    rw [List.cons_append, loadPending_of_error hp he, loadPending_of_error hp he]
    simp
  | parsed l p ps d hp hd ih =>
    rw [List.cons_append, loadPending_of_ok hp hd, loadPending_of_ok hp hd, ← List.append_assoc]
    refine ⟨fun h => ?_, fun e h => ?_⟩
    · rw [ih.1 h]
      simp [Loaded.andThen]
    · rw [ih.2 e h]

/-- The library grows: documents come behind those that there are. -/
theorem exists_entries_loadPending (t : FileTree) (l : Library) (ps : List Path) :
    ∃ added, (loadPending t l ps).library.entries = l.entries ++ added := by
  induction l, ps using loading_induction t with
  | done l => exact ⟨[], by simp [loadPending_nil]⟩
  | skipped l p ps hp ih =>
    rw [loadPending_of_contains hp]
    exact ih
  | unreadable l p ps e hp he => exact ⟨[], by simp [loadPending_of_error hp he]⟩
  | parsed l p ps d hp hd ih =>
    rw [loadPending_of_ok hp hd]
    obtain ⟨added, h⟩ := ih
    refine ⟨(p, d) :: added, ?_⟩
    show (loadPending t (l.add p d) (includesOf p d ++ ps)).library.entries = _
    rw [h]
    simp [Library.add]

private theorem unloaded_le {l l' : Library} {added : List (Path × Document)}
    (h : l'.entries = l.entries ++ added) : unloaded t l' ≤ unloaded t l := by
  unfold unloaded
  rw [← List.countP_eq_length_filter, ← List.countP_eq_length_filter]
  refine List.countP_mono_left fun f _ hf => ?_
  have hf : l'.contains f.1 = false := by simpa using hf
  have hl : l.contains f.1 = false := by
    by_contra hc
    rw [(Library.contains_append h f.1).2 (Or.inl (by simpa using hc))] at hf
    cases hf
  simp [hl]

/-- What is computed follows the rules.  The induction is on the files that are not loaded, then on what is left to
do: the includes of a file begin with one file fewer. -/
private theorem loads_loadPending (t : FileTree) (n : Nat) :
    ∀ (l : Library) (ps : List Path), unloaded t l ≤ n → Loads t l ps (loadPending t l ps) := by
  induction n using Nat.strongRecOn with
  | ind n ih =>
    intro l ps
    induction ps with
    | nil =>
      intro _
      rw [loadPending_nil]
      exact .done
    | cons p ps ihp =>
      intro hn
      by_cases hp : l.contains p = true
      · rw [loadPending_of_contains hp]
        exact .skipped hp (ihp hn)
      · have hp : l.contains p = false := by simpa using hp
        cases hd : t.document p with
        | error e =>
          rw [loadPending_of_error hp hd]
          exact .unreadable hp hd
        | ok d =>
          have hlt : unloaded t (l.add p d) < n := Nat.lt_of_lt_of_le (unloaded_add_lt hp hd) hn
          have hr := ih _ hlt (l.add p d) (includesOf p d) (Nat.le_refl _)
          have happ := loadPending_append t (l.add p d) (includesOf p d) ps
          rw [loadPending_of_ok hp hd]
          cases he : (loadPending t (l.add p d) (includesOf p d)).error with
          | some e =>
            rw [happ.2 e he]
            exact .stopped hp hd hr he
          | none =>
            rw [happ.1 he]
            obtain ⟨added, hadded⟩ := exists_entries_loadPending t (l.add p d) (includesOf p d)
            exact .parsed hp hd hr he (ih _ hlt _ ps (unloaded_le hadded))

/-- By the rules, loading has exactly one outcome: the one that is computed. -/
theorem loads_iff {r : Loaded} : Loads t l ps r ↔ loadPending t l ps = r := by
  constructor
  · intro h
    induction h with
    | done => exact loadPending_nil
    | skipped hp _ ih => rw [loadPending_of_contains hp, ih]
    | unreadable hp he => exact loadPending_of_error hp he
    | stopped hp hd _ he ih =>
      rw [loadPending_of_ok hp hd, (loadPending_append _ _ _ _).2 _ (by rw [ih]; exact he), ih]
    | parsed hp hd _ he _ ihr ihs =>
      rw [loadPending_of_ok hp hd, (loadPending_append _ _ _ _).1 (by rw [ihr]; exact he), ihr, ihs]
      simp [Loaded.andThen]
  · rintro rfl
    exact loads_loadPending t _ l ps (Nat.le_refl _)

/-! ### What a library has grown by -/

/-- The documents that loading has added: each is what its file holds, the file was not loaded, and was loaded once. -/
structure Growth (t : FileTree) (l : Library) (r : Loaded) (added : List (Path × Document)) : Prop where
  entries : r.library.entries = l.entries ++ added
  document : ∀ e ∈ added, t.document e.1 = .ok e.2
  fresh : ∀ e ∈ added, l.contains e.1 = false
  nodup : (added.map Prod.fst).Nodup
  opened : r.error = none → r.opened = added.map Prod.fst

private theorem Growth.cons {d : Document} {r : Loaded} {added : List (Path × Document)}
    (hp : l.contains p = false) (hd : t.document p = .ok d) (h : Growth t (l.add p d) r added) :
    Growth t l (Loaded.andThen ⟨l.add p d, [.parsed p], [p], none⟩ r) ((p, d) :: added) where
  entries := by
    show r.library.entries = _
    rw [h.entries]
    simp [Library.add]
  document := by
    rintro e he
    rcases List.mem_cons.1 he with rfl | he
    · exact hd
    · exact h.document e he
  fresh := by
    rintro e he
    rcases List.mem_cons.1 he with rfl | he
    · exact hp
    · have := h.fresh e he
      rw [Library.contains_add, Bool.or_eq_false_iff] at this
      exact this.1
  nodup := by
    refine List.nodup_cons.2 ⟨fun hm => ?_, h.nodup⟩
    obtain ⟨e, he, hep⟩ := List.mem_map.1 hm
    have := h.fresh e he
    simp [Library.contains_add, hep] at this
  opened := by
    intro he
    show [p] ++ r.opened = _
    rw [h.opened he]
    rfl

/-- Loading adds documents, whether it succeeds or not. -/
theorem exists_growth (t : FileTree) (l : Library) (ps : List Path) :
    ∃ added, Growth t l (loadPending t l ps) added := by
  induction l, ps using loading_induction t with
  | done l =>
    refine ⟨[], ?_⟩
    rw [loadPending_nil]
    constructor <;> simp
  | skipped l p ps hp ih =>
    obtain ⟨added, h⟩ := ih
    rw [loadPending_of_contains hp]
    exact ⟨added, h.entries, h.document, h.fresh, h.nodup, h.opened⟩
  | unreadable l p ps e hp he =>
    refine ⟨[], ?_⟩
    rw [loadPending_of_error hp he]
    constructor <;> simp
  | parsed l p ps d hp hd ih =>
    obtain ⟨added, h⟩ := ih
    rw [loadPending_of_ok hp hd]
    exact ⟨(p, d) :: added, h.cons hp hd⟩

theorem Growth.contains_iff {r : Loaded} {added : List (Path × Document)} (h : Growth t l r added) (q : Path) :
    r.library.contains q = true ↔ l.contains q = true ∨ q ∈ added.map Prod.fst := by
  rw [Library.contains_append h.entries]
  simp [List.mem_map]

/-- A table that has grown is a table. -/
theorem Growth.isTable {r : Loaded} {added : List (Path × Document)} (h : Growth t l r added) (hl : l.IsTable)
    (hc : ∀ p ∈ added.map Prod.fst, p.IsCanonical) : r.library.IsTable where
  nodup := by
    unfold Library.paths
    rw [h.entries, List.map_append, List.nodup_append]
    refine ⟨hl.nodup, h.nodup, ?_⟩
    rintro p hp q hq rfl
    obtain ⟨e, he, rfl⟩ := List.mem_map.1 hp
    obtain ⟨f, hf, hfe⟩ := List.mem_map.1 hq
    have := h.fresh f hf
    rw [hfe, Library.contains_of_mem he] at this
    cases this
  canonical := by
    intro e he
    rw [h.entries, List.mem_append] at he
    rcases he with he | he
    · exact hl.canonical e he
    · exact hc e.1 (List.mem_map_of_mem he)
  path := by
    intro e he
    rw [h.entries, List.mem_append] at he
    rcases he with he | he
    · exact hl.path e he
    · exact path_of_document (h.document e he)

/-! ### What matters -/

/-- Loading depends on nothing but the files that it opens. -/
theorem loadPending_congr {t' : FileTree} (h : ∀ p ∈ (loadPending t l ps).opened, t'.read p = t.read p) :
    loadPending t' l ps = loadPending t l ps := by
  have hdoc : ∀ p, t'.read p = t.read p → t'.document p = t.document p := by
    intro p hp
    unfold FileTree.document
    rw [hp]
  induction l, ps using loading_induction t with
  | done l => rw [loadPending_nil, loadPending_nil]
  | skipped l p ps hp ih =>
    rw [loadPending_of_contains hp] at h ⊢
    rw [loadPending_of_contains hp, ih (fun q hq => h q (by simpa [Loaded.andThen] using hq))]
  | unreadable l p ps e hp he =>
    rw [loadPending_of_error hp he] at h ⊢
    rw [loadPending_of_error hp (by rw [hdoc p (h p (by simp)), he])]
  | parsed l p ps d hp hd ih =>
    rw [loadPending_of_ok hp hd] at h ⊢
    rw [loadPending_of_ok hp (by rw [hdoc p (h p (by simp [Loaded.andThen])), hd]),
      ih (fun q hq => h q (by simp [Loaded.andThen, hq]))]

end ThriftGateway.Source
