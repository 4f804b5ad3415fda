import ThriftGateway.Proofs.Schema.Carried
import ThriftGateway.Proofs.Source.Writing

/-!
# What generating opens

Generating opens the files of the services and those that they include (`filesOpened`).  A file that it does not open
does not matter to it, whether it is there or not (`generate_of_sameBut`).
-/

namespace ThriftGateway.Schema

open Graph (QueryNaming Session TypeNaming Work)
open Source (FileTree Library Path)

/-- The files that are opened while services are prepared, beginning with the documents of a library. -/
def filesOpened (t : FileTree) (c : Config) : Library → List (Value × ServiceConfig) → List Path
  | _, [] => []
  | l, (_, x) :: rest =>
    match servicePath t c.idlPath x.file with
    | .error _ => []
    | .ok file => (l.load t [file]).opened ++ filesOpened t c (l.load t [file]).library rest

variable {t t' : FileTree} {c : Config} {path : Path}

private theorem servicePath_of_sameBut (h : FileTree.SameBut path t t') {directory file : Value} {p : Path}
    (hp : servicePath t directory file = .ok p) : servicePath t' directory file = .ok p := by
  unfold servicePath at hp ⊢
  split at hp
  · rename_i d f
    have hhalves : t'.stopsAtHalf f = t.stopsAtHalf f := by
      unfold FileTree.stopsAtHalf
      rw [h.halves]
    rw [hhalves, h.working]
    split at hp
    · cases hp
    · rename_i hstops
      rw [if_neg hstops]
      cases hplain : t.plainPath ((t.working.resolve d).resolve f) with
      | error e =>
        rw [hplain] at hp
        cases hp
      | ok q =>
        rw [hplain] at hp
        rw [h.plainPath hplain]
        exact hp
  · cases hp
  · cases hp

variable {p p' : Prepared} {s s' : Session}

/-- A service is prepared from its path and from what is loaded there; the files do not matter otherwise. -/
private theorem exists_load_of_prepareService {name : Value} {x : ServiceConfig}
    (h : Work.run (prepareService t c p name x) s = (.ok p', s')) :
    ∃ file, servicePath t c.idlPath x.file = .ok file ∧ (s.library.load t [file]).error = none ∧
      s'.library = (s.library.load t [file]).library ∧
      ∀ t' : FileTree, servicePath t' c.idlPath x.file = .ok file →
        s.library.load t' [file] = s.library.load t [file] →
        Work.run (prepareService t' c p name x) s = (.ok p', s') := by
  unfold prepareService at h
  obtain ⟨file, s₁, hfile, hload⟩ := Work.run_bind_eq_ok.1 h
  obtain ⟨hpath, hs⟩ := Work.run_ofExcept_eq_ok.1 hfile
  obtain rfl : s = s₁ := hs.symm
  obtain ⟨failure, s₂, hs₂, hfound⟩ := Work.run_bind_eq_ok.1 hload
  refine ⟨file, hpath, ?_⟩
  have hsame : ∀ t' : FileTree, servicePath t' c.idlPath x.file = .ok file →
      s.library.load t' [file] = s.library.load t [file] →
      Work.run (prepareService t' c p name x) s = (.ok p', s') := by
    intro t' hpath' hload'
    unfold prepareService
    refine Work.run_bind_eq_ok.2 ⟨file, s, Work.run_ofExcept_eq_ok.2 ⟨hpath', rfl⟩, ?_⟩
    refine Work.run_bind_eq_ok.2 ⟨failure, s₂, ?_, hfound⟩
    rw [← hs₂, Work.run_modifyGet, Work.run_modifyGet]
    unfold Session.load
    rw [hload']
  cases hs₂
  split at hfound
  · cases hfound
  · rename_i hnone
    obtain ⟨_, _, ⟨⟩, hfound⟩ := Work.run_bind_eq_ok.1 hfound
    dsimp only at hfound
    split at hfound
    · obtain ⟨_, _, ⟨⟩, hfound⟩ := Work.run_bind_eq_ok.1 hfound
      cases hfound
      exact ⟨Option.eq_none_iff_forall_ne_some.2 hnone, rfl, hsame⟩
    · cases hfound

/-- Services are prepared in the same way if a file that is not opened is written. -/
private theorem prepareServices_of_sameBut (h : FileTree.SameBut path t t') {entries : List (Value × ServiceConfig)}
    (hrun : Work.run (prepareServices t c p entries) s = (.ok p', s'))
    (hpath : path ∉ filesOpened t c s.library entries) :
    Work.run (prepareServices t' c p entries) s = (.ok p', s') := by
  induction entries generalizing p s with
  | nil => exact hrun
  | cons entry entries ih =>
    obtain ⟨p₁, s₁, hprepare, hrest⟩ := Work.run_bind_eq_ok.1 hrun
    obtain ⟨file, hfile, hok, hlibrary, hsame⟩ := exists_load_of_prepareService hprepare
    rw [filesOpened, hfile] at hpath
    dsimp only at hpath
    rw [← hlibrary, List.mem_append, not_or] at hpath
    have hload := h.load_eq hok hpath.1
    exact Work.run_bind_eq_ok.2 ⟨p₁, s₁, hsame t' (servicePath_of_sameBut h hfile) hload, ih hrest hpath.2⟩

/-- Generating gives the same after a file that is not opened has been written. -/
theorem generate_of_sameBut (h : FileTree.SameBut path t t') {types : TypeNaming} {queries : QueryNaming}
    {hasClient : Bool} {schema : Schema} (hok : (generate t c types queries hasClient).outcome = .ok schema)
    (hpath : path ∉ filesOpened t c .empty c.services) :
    (generate t' c types queries hasClient).outcome = .ok schema := by
  obtain ⟨p, session, session', hprepare, hassemble⟩ := generate_eq_ok.1 hok
  exact generate_eq_ok.2 ⟨p, session, session', prepareServices_of_sameBut h hprepare hpath, hassemble⟩

end ThriftGateway.Schema
