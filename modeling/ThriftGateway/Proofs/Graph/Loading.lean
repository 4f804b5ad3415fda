import Mathlib.Data.List.Induction
import ThriftGateway.Graph.Session
import ThriftGateway.Proofs.Source.Closure

/-!
# Loading into a session

A session stays closed under includes as long as every call to load succeeds.  A call that fails leaves gaps: includes
of documents that it has recorded and not followed.  A later call that succeeds leaves the session closed exactly if
all gaps have been filled (`isClosed_after_load_iff`); the same call made again does not fill them, though it succeeds
(`load_again`).
-/

namespace ThriftGateway.Graph

open Idl (Document)
open Source (FileTree Library LoadError Meets Path includesOf loadPending)

/-! ### Gaps -/

/-- The includes of loaded documents that are not loaded. -/
def gaps (l : Library) : List Path := l.entries.flatMap fun e => (includesOf e.1 e.2).filter fun q => !l.contains q

private theorem mem_gaps {l : Library} {q : Path} :
    q ∈ gaps l ↔ (∃ e ∈ l.entries, q ∈ includesOf e.1 e.2) ∧ l.contains q = false := by
  simp only [gaps, List.mem_flatMap, List.mem_filter, Bool.not_eq_true']
  constructor
  · rintro ⟨e, he, hq, hl⟩
    exact ⟨⟨e, he, hq⟩, hl⟩
  · rintro ⟨⟨e, he, hq⟩, hl⟩
    exact ⟨e, he, hq, hl⟩

private theorem isClosed_iff_gaps {l : Library} : l.IsClosed ↔ gaps l = [] := by
  rw [List.eq_nil_iff_forall_not_mem]
  constructor
  · intro hc q hq
    obtain ⟨⟨e, he, hqe⟩, hl⟩ := mem_gaps.1 hq
    rw [hc e he q hqe] at hl
    cases hl
  · intro h e he q hq
    by_contra hl
    exact h q (mem_gaps.2 ⟨⟨e, he, hq⟩, by simpa using hl⟩)

/-- A gap after a search that succeeds was a gap before. -/
private theorem mem_gaps_of_loadPending {t : FileTree} {l : Library} {ps : List Path}
    (h : (loadPending t l ps).error = none) {q : Path} (hq : q ∈ gaps (loadPending t l ps).library) : q ∈ gaps l := by
  obtain ⟨⟨e, he, hqe⟩, hc⟩ := mem_gaps.1 hq
  rcases (Source.contains_of_loadPending t l ps h).2 e he with hold | hnew
  · refine mem_gaps.2 ⟨⟨e, hold, hqe⟩, ?_⟩
    by_contra hl
    rw [(Source.contains_loadPending_iff h).2 (Or.inl (by simpa using hl))] at hc
    cases hc
  · rw [hnew q hqe] at hc
    cases hc

/-! ### Calls to load -/

/-- A call to load files, with the files as they are then. -/
structure LoadCall where
  tree : FileTree
  paths : List Path

namespace Session

/-- The session after a call to load. -/
def afterLoad (s : Session) (c : LoadCall) : Session := (s.load c.tree c.paths).1

/-- The session after calls to load, whether they succeed or fail. -/
def afterLoads (s : Session) (calls : List LoadCall) : Session := calls.foldl afterLoad s

private theorem library_afterLoad (s : Session) (c : LoadCall) :
    (s.afterLoad c).library = (loadPending c.tree s.library c.paths).library := rfl

@[simp] theorem afterLoads_append (s : Session) (before after : List LoadCall) :
    s.afterLoads (before ++ after) = (s.afterLoads before).afterLoads after := by
  simp [afterLoads]

/-- Documents stay, whether calls succeed or fail. -/
private theorem entries_afterLoads (s : Session) (calls : List LoadCall) :
    ∃ added, (s.afterLoads calls).library.entries = s.library.entries ++ added := by
  induction calls generalizing s with
  | nil => exact ⟨[], by simp [afterLoads]⟩
  | cons c calls ih =>
    obtain ⟨first, hfirst⟩ := Source.exists_entries_loadPending c.tree s.library c.paths
    obtain ⟨rest, hrest⟩ := ih (s.afterLoad c)
    refine ⟨first ++ rest, ?_⟩
    show ((s.afterLoad c).afterLoads calls).library.entries = _
    rw [hrest, library_afterLoad, hfirst, List.append_assoc]

/-- A path that a failed call has left open: after it, the path is a gap. -/
def LeftOpen (s : Session) (calls : List LoadCall) (q : Path) : Prop :=
  ∃ before c after, calls = before ++ c :: after ∧ ((s.afterLoads before).load c.tree c.paths).2 ≠ none ∧
    q ∈ gaps (s.afterLoads (before ++ [c])).library

private theorem LeftOpen.append {s : Session} {calls : List LoadCall} {q : Path} (h : s.LeftOpen calls q)
    (more : List LoadCall) : s.LeftOpen (calls ++ more) q := by
  obtain ⟨before, c, after, rfl, hfailed, hq⟩ := h
  exact ⟨before, c, after ++ more, by simp, hfailed, hq⟩

/-- Gaps come from calls that fail.  The induction is on the last call: one that succeeds leaves no gap of its own. -/
private theorem leftOpen_of_mem_gaps {s : Session} (hs : s.library.IsClosed) {calls : List LoadCall} {q : Path}
    (hq : q ∈ gaps (s.afterLoads calls).library) : s.LeftOpen calls q := by
  induction calls using List.reverseRecOn with
  | nil =>
    rw [isClosed_iff_gaps] at hs
    rw [show (s.afterLoads []).library = s.library from rfl, hs] at hq
    cases hq
  | append_singleton calls c ih =>
    by_cases hc : ((s.afterLoads calls).load c.tree c.paths).2 = none
    · have hbefore : q ∈ gaps (s.afterLoads calls).library := by
        rw [afterLoads_append] at hq
        exact mem_gaps_of_loadPending hc hq
      exact (ih hbefore).append [c]
    · exact ⟨calls, c, [], rfl, hc, hq⟩

/-- After any calls to load, one that succeeds leaves the session closed exactly if everything that failed calls have
left open is loaded; it is loaded if it was loaded before or is met by the last call.  So the session is closed if no
call has failed. -/
theorem isClosed_after_load_iff {s : Session} (hs : s.library.IsClosed) (calls : List LoadCall) (last : LoadCall)
    (hlast : ((s.afterLoads calls).load last.tree last.paths).2 = none) :
    ((s.afterLoads (calls ++ [last])).library.IsClosed ↔
      ∀ q, s.LeftOpen calls q → (s.afterLoads (calls ++ [last])).library.contains q = true) ∧
    (∀ q, (s.afterLoads (calls ++ [last])).library.contains q = true ↔
      (s.afterLoads calls).library.contains q = true ∨
        Meets last.tree (s.afterLoads calls).library last.paths q) := by
  refine ⟨⟨?_, fun hfilled => ?_⟩, fun q => ?_⟩
  · rintro hc q ⟨before, c, after, rfl, -, hq⟩
    -- the document that includes the gap is still there
    obtain ⟨⟨e, he, hqe⟩, -⟩ := mem_gaps.1 hq
    obtain ⟨added, hadded⟩ := entries_afterLoads (s.afterLoads (before ++ [c])) (after ++ [last])
    have hsession : s.afterLoads (before ++ c :: after ++ [last]) =
        (s.afterLoads (before ++ [c])).afterLoads (after ++ [last]) := by
      rw [← afterLoads_append]
      simp
    rw [hsession] at hc ⊢
    refine hc e ?_ q hqe
    rw [hadded]
    exact List.mem_append_left _ he
  · rw [isClosed_iff_gaps, List.eq_nil_iff_forall_not_mem]
    intro q hq
    have hopen : s.LeftOpen calls q := by
      rw [afterLoads_append] at hq
      exact leftOpen_of_mem_gaps hs (mem_gaps_of_loadPending hlast hq)
    have hq := (mem_gaps.1 hq).2
    rw [hfilled q hopen] at hq
    cases hq
  · rw [afterLoads_append]
    exact Source.contains_loadPending_iff hlast

/-- Only files that can be loaded are added. -/
private theorem contains_afterLoad_of_error {s : Session} {c : LoadCall} {q : Path} {e : LoadError}
    (hq : s.library.contains q = false) (he : c.tree.document q = .error e) :
    (s.afterLoad c).library.contains q = false := by
  by_contra hc
  rw [library_afterLoad, Bool.not_eq_false] at hc
  obtain ⟨added, hg⟩ := Source.exists_growth c.tree s.library c.paths
  rcases (hg.contains_iff q).1 hc with hc | hc
  · rw [hq] at hc
    cases hc
  · obtain ⟨entry, hentry, rfl⟩ := List.mem_map.1 hc
    rw [hg.document entry hentry] at he
    cases he

/-- A file that can be loaded is recorded, even if loading then fails. -/
private theorem mem_afterLoad {s : Session} {t : FileTree} {p : Path} {d : Document} (hp : s.library.contains p = false)
    (hd : t.document p = .ok d) (ps : List Path) : (p, d) ∈ (s.afterLoad ⟨t, p :: ps⟩).library.entries := by
  obtain ⟨added, hadded⟩ := Source.exists_entries_loadPending t (s.library.add p d) (includesOf p d ++ ps)
  rw [library_afterLoad, Source.loadPending_of_ok hp hd]
  show (p, d) ∈ (loadPending t (s.library.add p d) (includesOf p d ++ ps)).library.entries
  rw [hadded]
  simp [Library.add]

/-- Loading a file that is loaded already succeeds and adds nothing. -/
private theorem load_of_contains {s : Session} {p : Path} (hp : s.library.contains p = true) (t : FileTree) :
    (s.load t [p]).2 = none ∧ (s.afterLoad ⟨t, [p]⟩).library = s.library := by
  rw [library_afterLoad]
  show (loadPending t s.library [p]).error = none ∧ (loadPending t s.library [p]).library = _
  rw [Source.loadPending_of_contains hp, Source.loadPending_nil]
  exact ⟨rfl, rfl⟩

/-- Loading a file with an include that cannot be loaded fails and records the file.  So the same call made again
succeeds, and the session is not closed. -/
theorem load_again {s : Session} {t : FileTree} {p q : Path} {d : Document} {e : LoadError}
    (hp : s.library.contains p = false) (hd : t.document p = .ok d) (hq : q ∈ includesOf p d)
    (hql : s.library.contains q = false) (he : t.document q = .error e) :
    (s.load t [p]).2 ≠ none ∧ ((s.afterLoads [⟨t, [p]⟩]).load t [p]).2 = none ∧
      ¬(s.afterLoads [⟨t, [p]⟩, ⟨t, [p]⟩]).library.IsClosed := by
  have hrecorded := mem_afterLoad hp hd []
  have hgap := contains_afterLoad_of_error (c := ⟨t, [p]⟩) hql he
  obtain ⟨hsucceeds, hsame⟩ := load_of_contains (Library.contains_of_mem hrecorded) t
  refine ⟨fun hn => ?_, hsucceeds, fun hc => ?_⟩
  · have hmet := (Source.contains_loadPending_iff hn).2 (Or.inr (.inclusion (.root (by simp)) hp hd hq))
    rw [← library_afterLoad s ⟨t, [p]⟩, hgap] at hmet
    cases hmet
  · have hlibrary : (s.afterLoads [⟨t, [p]⟩, ⟨t, [p]⟩]).library = (s.afterLoad ⟨t, [p]⟩).library := hsame
    rw [hlibrary] at hc
    rw [hc (p, d) hrecorded q hq] at hgap
    cases hgap

/-- A file whose include is not there. -/
def gapped : FileTree where
  working := ⟨["idl"]⟩
  files := [(⟨["idl", "a.thrift"]⟩, Text.encode "include 'b.thrift'")]

/-- The same with the include. -/
def mended : FileTree := gapped.write ⟨["idl", "b.thrift"]⟩ []

namespace gapped

/-- The file with the include. -/
def outer : Path := ⟨["idl", "a.thrift"]⟩

/-- The file that is included. -/
def inner : Path := ⟨["idl", "b.thrift"]⟩

/-- The call that loads the file with the include. -/
def call : LoadCall := ⟨gapped, [outer]⟩

variable {d : Document} {e : LoadError} {q : Path}

private theorem contains_outer : Library.contains ⟨[(outer, d)]⟩ q = decide (outer = q) := by
  simp [Library.contains]

/-- The call fails, and records the file with the include. -/
private theorem load_outer (hd : gapped.document outer = .ok d) (hincludes : includesOf outer d = [inner])
    (he : gapped.document inner = .error e) :
    ((fresh false declaredName).load gapped [outer]).2 = some e ∧
      ((fresh false declaredName).afterLoads [call]).library = ⟨[(outer, d)]⟩ := by
  show (loadPending gapped .empty [outer]).error = _ ∧ (loadPending gapped .empty [outer]).library = _
  rw [Source.loadPending_of_ok rfl hd, hincludes]
  show (loadPending gapped ⟨[(outer, d)]⟩ [inner]).error = _ ∧ (loadPending gapped ⟨[(outer, d)]⟩ [inner]).library = _
  rw [Source.loadPending_of_error (contains_outer.trans (by decide)) he]
  exact ⟨rfl, rfl⟩

/-- The include is the only gap. -/
private theorem mem_gaps_outer (hincludes : includesOf outer d = [inner]) : q ∈ gaps ⟨[(outer, d)]⟩ ↔ q = inner := by
  rw [mem_gaps, contains_outer]
  constructor
  · rintro ⟨⟨entry, hentry, hq⟩, -⟩
    obtain rfl := List.mem_singleton.1 hentry
    rw [hincludes] at hq
    exact List.mem_singleton.1 hq
  · rintro rfl
    exact ⟨⟨(outer, d), List.mem_singleton_self _, hincludes ▸ List.mem_singleton_self _⟩, by decide⟩

/-- The include is what the call has left open. -/
private theorem leftOpen_iff (hd : gapped.document outer = .ok d) (hincludes : includesOf outer d = [inner])
    (he : gapped.document inner = .error e) : (fresh false declaredName).LeftOpen [call] q ↔ q = inner := by
  obtain ⟨hfailed, hlibrary⟩ := load_outer hd hincludes he
  constructor
  · rintro ⟨before, c, after, hcalls, -, hq⟩
    obtain ⟨rfl, rfl⟩ : before = [] ∧ c = call := by
      cases before with
      | nil => exact ⟨rfl, (List.cons.inj hcalls).1.symm⟩
      | cons _ before => simp at hcalls
    rw [List.nil_append, hlibrary] at hq
    exact (mem_gaps_outer hincludes).1 hq
  · rintro rfl
    refine ⟨[], call, [], rfl, ?_, ?_⟩
    · show ((fresh false declaredName).load gapped [outer]).2 ≠ none
      rw [hfailed]
      exact Option.some_ne_none e
    · rw [List.nil_append, hlibrary]
      exact (mem_gaps_outer hincludes).2 rfl

end gapped

/-- After loading a file whose include is not there, loading it again leaves the session open, even when the include is
there by then.  Loading the include closes it. -/
theorem isClosed_after_load_mended :
    let s := fresh false declaredName
    let a : Path := ⟨["idl", "a.thrift"]⟩
    let b : Path := ⟨["idl", "b.thrift"]⟩
    let calls := [LoadCall.mk gapped [a]]
    s.library.IsClosed ∧ ((s.afterLoads calls).load mended [a]).2 = none ∧
      ¬(s.afterLoads (calls ++ [⟨mended, [a]⟩])).library.IsClosed ∧
      ((s.afterLoads calls).load mended [b]).2 = none ∧
      (s.afterLoads (calls ++ [⟨mended, [b]⟩])).library.IsClosed := by
  intro s a b calls
  have hs : s.library.IsClosed := Library.empty_isClosed
  obtain ⟨d, hd, hincludes⟩ := Source.exists_document (t := gapped) (p := a) [b] (by decide +kernel)
  obtain ⟨d', hd', hincludes'⟩ := Source.exists_document (t := mended) (p := b) [] (by decide +kernel)
  obtain ⟨e, he⟩ := Source.exists_error (t := gapped) (p := b) (by decide +kernel)
  have hlibrary : (s.afterLoads calls).library = ⟨[(a, d)]⟩ := (gapped.load_outer hd hincludes he).2
  have hopen : ∀ q, s.LeftOpen calls q ↔ q = b := fun q => gapped.leftOpen_iff hd hincludes he
  have hb : Library.contains ⟨[(a, d)]⟩ b = false := gapped.contains_outer.trans (by decide)
  -- asked for again, the file is passed over
  have hagain := load_of_contains (s := s.afterLoads calls) (p := a)
    (by rw [hlibrary]; exact gapped.contains_outer.trans (by decide)) mended
  have hmended : ((s.afterLoads calls).load mended [b]).2 = none := by
    show (loadPending mended (s.afterLoads calls).library [b]).error = none
    rw [hlibrary, Source.loadPending_of_ok hb hd', hincludes']
    show (loadPending mended _ []).error = none
    rw [Source.loadPending_nil]
  refine ⟨hs, hagain.1, fun hc => ?_, hmended, ?_⟩
  · have hfilled := (isClosed_after_load_iff hs calls ⟨mended, [a]⟩ hagain.1).1.1 hc b ((hopen b).2 rfl)
    have hsame : (s.afterLoads (calls ++ [⟨mended, [a]⟩])).library = ⟨[(a, d)]⟩ := hagain.2.trans hlibrary
    rw [hsame, hb] at hfilled
    cases hfilled
  · obtain ⟨hiff, hcontains⟩ := isClosed_after_load_iff hs calls ⟨mended, [b]⟩ hmended
    refine hiff.2 fun q hq => (hcontains q).2 (Or.inr ?_)
    rw [(hopen q).1 hq]
    exact .root (by simp)

end Session

end ThriftGateway.Graph
