import ThriftGateway.Proofs.Source.Loading

/-!
# What loading reaches

If loading succeeds, the library holds what it held and the files that a search from the requested paths meets
(`contains_loadPending_iff`).  It is then closed under includes exactly if the search meets the includes that older
documents lack (`isClosed_loadPending_iff`); from a closed library, the files added are those reached through includes
(`load_reaches`).
-/

namespace ThriftGateway.Source

open Idl (Document)

namespace Library

/-- Every include of a loaded document is loaded. -/
def IsClosed (l : Library) : Prop := ∀ e ∈ l.entries, ∀ q ∈ includesOf e.1 e.2, l.contains q = true

theorem empty_isClosed : empty.IsClosed := by
  intro e he
  simp [empty] at he

end Library

variable {t : FileTree} {l : Library} {p : Path} {ps : List Path}

/-! ### What is met -/

/-- The files that a search from the roots meets if it does not go into loaded ones. -/
inductive Meets (t : FileTree) (l : Library) (roots : List Path) : Path → Prop
  | root {p : Path} (hp : p ∈ roots) : Meets t l roots p
  | inclusion {p q : Path} {d : Document} (hp : Meets t l roots p) (hl : l.contains p = false)
      (hd : t.document p = .ok d) (hq : q ∈ includesOf p d) : Meets t l roots q

/-- The files that are reached from the roots through includes: of loaded files those of their documents, of others
those that they hold now. -/
inductive Reaches (t : FileTree) (l : Library) (roots : List Path) : Path → Prop
  | root {p : Path} (hp : p ∈ roots) : Reaches t l roots p
  | inclusion {p q : Path} {d : Document} (hp : Reaches t l roots p)
      (hd : l.document? p = some d ∨ l.contains p = false ∧ t.document p = .ok d)
      (hq : q ∈ includesOf p d) : Reaches t l roots q

theorem Meets.mono {roots roots' : List Path} (h : ∀ p ∈ roots, p ∈ roots') {q : Path} (hq : Meets t l roots q) :
    Meets t l roots' q := by
  induction hq with
  | root hp => exact .root (h _ hp)
  | inclusion _ hl hd hq ih => exact .inclusion ih hl hd hq

/-- From canonical paths, only canonical paths are met. -/
theorem Meets.isCanonical {roots : List Path} (hroots : ∀ p ∈ roots, p.IsCanonical) {q : Path}
    (h : Meets t l roots q) : q.IsCanonical := by
  induction h with
  | root hp => exact hroots _ hp
  | inclusion _ _ _ hq ih =>
    obtain ⟨written, _, rfl⟩ := List.mem_map.1 hq
    exact Path.ofInclude_isCanonical ih written

/-- What is met with one more document, from its includes, is met without it from its file. -/
theorem Meets.of_add {d : Document} (hp : l.contains p = false) (hd : t.document p = .ok d) {q : Path}
    (h : Meets t (l.add p d) (includesOf p d ++ ps) q) : Meets t l (p :: ps) q := by
  induction h with
  | root hq =>
    rcases List.mem_append.1 hq with hq | hq
    · exact .inclusion (.root (by simp)) hp hd hq
    · exact .root (List.mem_cons_of_mem _ hq)
  | inclusion _ hl hd' hq ih =>
    rw [Library.contains_add, Bool.or_eq_false_iff] at hl
    exact .inclusion ih hl.1 hd' hq

/-- On a closed library, what is reached is loaded or met: loaded files lead to loaded files. -/
private theorem reaches_iff_of_isClosed (hl : l.IsClosed) {roots : List Path} {p : Path} :
    l.contains p = true ∨ Reaches t l roots p ↔ l.contains p = true ∨ Meets t l roots p := by
  constructor
  · rintro (h | h)
    · exact Or.inl h
    · induction h with
      | root hp => exact Or.inr (.root hp)
      | @inclusion p q d _ hd hq ih =>
        rcases hd with hd | ⟨hp, hd⟩
        · exact Or.inl (hl _ (Library.mem_of_document? hd) q hq)
        · rcases ih with ih | ih
          · rw [hp] at ih
            cases ih
          · exact Or.inr (.inclusion ih hp hd hq)
  · rintro (h | h)
    · exact Or.inl h
    · right
      induction h with
      | root hp => exact .root hp
      | inclusion _ hp hd hq ih => exact .inclusion ih (Or.inr ⟨hp, hd⟩) hq

/-! ### Loading that succeeds -/

/-- Whatever is loaded was loaded or is met. -/
private theorem met_of_contains_loadPending (t : FileTree) (l : Library) (ps : List Path) {q : Path}
    (hq : (loadPending t l ps).library.contains q = true) : l.contains q = true ∨ Meets t l ps q := by
  induction l, ps using loading_induction t with
  | done l =>
    rw [loadPending_nil] at hq
    exact Or.inl hq
  | skipped l p ps hp ih =>
    rw [loadPending_of_contains hp] at hq
    exact (ih hq).imp_right (Meets.mono fun _ => List.mem_cons_of_mem _)
  | unreadable l p ps e hp he =>
    rw [loadPending_of_error hp he] at hq
    exact Or.inl hq
  | parsed l p ps d hp hd ih =>
    rw [loadPending_of_ok hp hd] at hq
    rcases ih hq with hc | hm
    · rw [Library.contains_add, Bool.or_eq_true, decide_eq_true_eq] at hc
      rcases hc with hc | rfl
      · exact Or.inl hc
      · exact Or.inr (.root (by simp))
    · exact Or.inr (hm.of_add hp hd)

/-- A successful search has loaded what was asked for, and the includes of all that it has added. -/
theorem contains_of_loadPending (t : FileTree) (l : Library) (ps : List Path)
    (h : (loadPending t l ps).error = none) :
    (∀ p ∈ ps, (loadPending t l ps).library.contains p = true) ∧
    ∀ e ∈ (loadPending t l ps).library.entries, e ∈ l.entries ∨
      ∀ q ∈ includesOf e.1 e.2, (loadPending t l ps).library.contains q = true := by
  induction l, ps using loading_induction t with
  | done l =>
    rw [loadPending_nil]
    exact ⟨by simp, fun e he => Or.inl he⟩
  | skipped l p ps hp ih =>
    rw [loadPending_of_contains hp] at h ⊢
    obtain ⟨hroots, hincludes⟩ := ih h
    refine ⟨fun q hq => ?_, hincludes⟩
    rcases List.mem_cons.1 hq with rfl | hq
    · obtain ⟨added, hadded⟩ := exists_entries_loadPending t l ps
      exact (Library.contains_append hadded q).2 (Or.inl hp)
    · exact hroots q hq
  | unreadable l p ps e hp he =>
    rw [loadPending_of_error hp he] at h
    cases h
  | parsed l p ps d hp hd ih =>
    rw [loadPending_of_ok hp hd] at h ⊢
    obtain ⟨hroots, hincludes⟩ := ih h
    refine ⟨fun q hq => ?_, fun e he => ?_⟩
    · rcases List.mem_cons.1 hq with rfl | hq
      · obtain ⟨added, hadded⟩ := exists_entries_loadPending t (l.add q d) (includesOf q d ++ ps)
        exact (Library.contains_append hadded q).2 (Or.inl (by simp [Library.contains_add]))
      · exact hroots q (List.mem_append_right _ hq)
    · rcases hincludes e he with he | he
      · rcases List.mem_append.1 (show e ∈ l.entries ++ [(p, d)] from he) with he | he
        · exact Or.inl he
        · obtain rfl : e = (p, d) := by simpa using he
          exact Or.inr fun q hq => hroots q (List.mem_append_left _ hq)
      · exact Or.inr he

/-- If loading succeeds, what is loaded is what was loaded before and what is met. -/
theorem contains_loadPending_iff (h : (loadPending t l ps).error = none) {q : Path} :
    (loadPending t l ps).library.contains q = true ↔ l.contains q = true ∨ Meets t l ps q := by
  obtain ⟨added, hg⟩ := exists_growth t l ps
  obtain ⟨hroots, hincludes⟩ := contains_of_loadPending t l ps h
  refine ⟨met_of_contains_loadPending t l ps, ?_⟩
  rintro (hq | hq)
  · exact (hg.contains_iff q).2 (Or.inl hq)
  · induction hq with
    | root hp => exact hroots _ hp
    | @inclusion p q d _ hp hd hq ih =>
      -- the file has been added in this search, with the document that it holds
      obtain ⟨e, he, rfl⟩ : ∃ e ∈ added, e.1 = p := by
        rcases (hg.contains_iff p).1 ih with hc | hc
        · rw [hp] at hc
          cases hc
        · simpa [List.mem_map] using hc
      have hde : e.2 = d := by
        have := hg.document e he
        rw [hd] at this
        cases this
        rfl
      have hmem : e ∈ (loadPending t l ps).library.entries := by
        rw [hg.entries]
        exact List.mem_append_right _ he
      rcases hincludes e hmem with hold | hall
      · rw [Library.contains_of_mem hold] at hp
        cases hp
      · exact hall q (by rw [hde]; exact hq)

/-- A successful search closes a library exactly if it meets every include of an old document that was not loaded. -/
theorem isClosed_loadPending_iff (h : (loadPending t l ps).error = none) :
    (loadPending t l ps).library.IsClosed ↔
      ∀ e ∈ l.entries, ∀ q ∈ includesOf e.1 e.2, l.contains q = false → Meets t l ps q := by
  obtain ⟨added, hg⟩ := exists_growth t l ps
  constructor
  · intro hc e he q hq hql
    have hmem : e ∈ (loadPending t l ps).library.entries := by
      rw [hg.entries]
      exact List.mem_append_left _ he
    rcases (contains_loadPending_iff h).1 (hc e hmem q hq) with hq' | hq'
    · rw [hql] at hq'
      cases hq'
    · exact hq'
  · intro hall e he q hq
    rcases (contains_of_loadPending t l ps h).2 e he with hold | hnew
    · rw [contains_loadPending_iff h]
      by_cases hql : l.contains q = true
      · exact Or.inl hql
      · exact Or.inr (hall e hold q hq (by simpa using hql))
    · exact hnew q hq

/-! ### Loading written paths -/

/-- From a closed library, loading written paths always ends, and if it succeeds, it has added exactly the files that
are reached from them through includes and were not loaded: behind the documents that there were, each once, under a
canonical path that its document tells, with what its file holds.  It opens each of these files once and depends on no
other. -/
theorem load_reaches (hw : t.working.IsCanonical) (hl : l.IsClosed) (written : List String) :
    let paths := written.map t.working.resolve
    let r := l.load t paths
    (∃! s, Loads t l paths s) ∧
      (r.error = none → ∃ added : List (Path × Document),
        r.library.entries = l.entries ++ added ∧
        (added.map Prod.fst).Nodup ∧
        (∀ p, p ∈ added.map Prod.fst ↔ Reaches t l paths p ∧ l.contains p = false) ∧
        (∀ e ∈ added, t.document e.1 = .ok e.2 ∧ e.1.IsCanonical ∧ e.2.path = some e.1) ∧
        (l.IsTable → r.library.IsTable) ∧
        r.library.IsClosed ∧
        r.opened = added.map Prod.fst ∧
        ∀ t' : FileTree, (∀ p ∈ r.opened, t'.read p = t.read p) → l.load t' paths = r) := by
  intro paths r
  refine ⟨⟨r, loads_iff.2 rfl, fun s hs => (loads_iff.1 hs).symm⟩, fun hr => ?_⟩
  obtain ⟨added, hg⟩ := exists_growth t l paths
  have hmem : ∀ p, p ∈ added.map Prod.fst ↔ Reaches t l paths p ∧ l.contains p = false := by
    intro p
    have hiff : l.contains p = true ∨ p ∈ added.map Prod.fst ↔ l.contains p = true ∨ Reaches t l paths p := by
      rw [← hg.contains_iff, reaches_iff_of_isClosed hl]
      exact contains_loadPending_iff hr
    constructor
    · intro hp
      obtain ⟨e, he, rfl⟩ := List.mem_map.1 hp
      have hfresh := hg.fresh e he
      refine ⟨?_, hfresh⟩
      rcases hiff.1 (Or.inr hp) with hc | hreach
      · rw [hfresh] at hc
        cases hc
      · exact hreach
    · rintro ⟨hreach, hc⟩
      rcases hiff.2 (Or.inr hreach) with hp | hp
      · rw [hc] at hp
        cases hp
      · exact hp
  have hroots : ∀ p ∈ paths, p.IsCanonical := by
    intro p hp
    obtain ⟨text, _, rfl⟩ := List.mem_map.1 hp
    exact Path.resolve_isCanonical hw text
  have hcanonical : ∀ p ∈ added.map Prod.fst, p.IsCanonical := by
    intro p hp
    rcases met_of_contains_loadPending t l paths ((hg.contains_iff p).2 (Or.inr hp)) with hc | hm
    · rw [((hmem p).1 hp).2] at hc
      cases hc
    · exact hm.isCanonical hroots
  refine ⟨added, hg.entries, hg.nodup, hmem, fun e he => ?_, fun ht => hg.isTable ht hcanonical, ?_, hg.opened hr,
    fun t' ht' => loadPending_congr ht'⟩
  · exact ⟨hg.document e he, hcanonical e.1 (List.mem_map_of_mem he), path_of_document (hg.document e he)⟩
  · refine (isClosed_loadPending_iff hr).2 fun e he q hq hc => ?_
    rw [hl e he q hq] at hc
    cases hc

/-- Two files that include each other, one of them itself and one a third file. -/
def ring : FileTree where
  working := ⟨["idl"]⟩
  files := [
    (⟨["idl", "a.thrift"]⟩, Text.encode "include 'sub/../b.thrift' include './a.thrift'"),
    (⟨["idl", "b.thrift"]⟩, Text.encode "include 'a.thrift' include '/idl/c.thrift'")]

/-- A library with the third file of the ring. -/
def ringLibrary : Library := ⟨[(⟨["idl", "c.thrift"]⟩, ⟨1, [], some ⟨["idl", "c.thrift"]⟩⟩)]⟩

/-- Both files of the ring are added, each once, however they are written. -/
theorem load_reaches_ring :
    let paths := ["b.thrift", "x/../a.thrift"].map ring.working.resolve
    let r := ringLibrary.load ring paths
    ring.working.IsCanonical ∧ ringLibrary.IsClosed ∧ r.error = none ∧
      r.opened = [⟨["idl", "b.thrift"]⟩, ⟨["idl", "a.thrift"]⟩] ∧
      (∀ p, p ∈ r.opened ↔ Reaches ring ringLibrary paths p ∧ ringLibrary.contains p = false) ∧
      r.library.IsClosed := by
  intro paths r
  have hw : ring.working.IsCanonical := by
    have hroot : ring.working = Path.root.resolve "/idl" := by decide +kernel
    rw [hroot]
    exact Path.resolve_isCanonical Path.root_isCanonical _
  have hl : ringLibrary.IsClosed := by
    intro e he q hq
    simp only [ringLibrary, List.mem_singleton] at he
    subst he
    cases hq
  have hpaths : paths = [⟨["idl", "b.thrift"]⟩, ⟨["idl", "a.thrift"]⟩] := by decide +kernel
  obtain ⟨a, ha, hia⟩ := exists_document (t := ring) (p := ⟨["idl", "a.thrift"]⟩)
    [⟨["idl", "b.thrift"]⟩, ⟨["idl", "a.thrift"]⟩] (by decide +kernel)
  obtain ⟨b, hb, hib⟩ := exists_document (t := ring) (p := ⟨["idl", "b.thrift"]⟩)
    [⟨["idl", "a.thrift"]⟩, ⟨["idl", "c.thrift"]⟩] (by decide +kernel)
  have hr : r.error = none ∧ r.opened = [⟨["idl", "b.thrift"]⟩, ⟨["idl", "a.thrift"]⟩] := by
    show (loadPending _ _ paths).error = none ∧ (loadPending _ _ paths).opened = _
    rw [hpaths, loadPending_of_ok (by decide) hb, hib, List.cons_append,
      loadPending_of_ok (by simp [ringLibrary, Library.contains, Library.add]) ha, hia]
    simp [loadPending_of_contains, loadPending_nil, Library.contains, ringLibrary, Library.add, Loaded.andThen]
  obtain ⟨-, hall⟩ := load_reaches hw hl ["b.thrift", "x/../a.thrift"]
  obtain ⟨added, -, -, hmem, -, -, hclosed, hopened, -⟩ := hall hr.1
  refine ⟨hw, hl, hr.1, hr.2, fun p => ?_, hclosed⟩
  rw [← hmem p, ← hopened]

end ThriftGateway.Source
