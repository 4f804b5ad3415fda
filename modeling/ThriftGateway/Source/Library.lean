import ThriftGateway.Idl.Parser
import ThriftGateway.Notice
import ThriftGateway.Source.FileTree

/-!
# Libraries of documents

A library holds parsed documents by their paths, in the order in which they were loaded.  `Library.load` adds
files and everything they include.  A document is recorded before its includes are followed, so cycles of
includes end, and no file is parsed twice.
-/

namespace ThriftGateway.Source

open Idl (Document Issue)

/-- Documents by their paths, in the order of loading. -/
structure Library where
  entries : List (Path × Document)
  deriving Inhabited

namespace Library

/-- Nothing loaded. -/
def empty : Library := ⟨[]⟩

/-- The document at a path. -/
def document? (l : Library) (p : Path) : Option Document := (l.entries.find? fun e => e.1 = p).map (·.2)

/-- Whether a path is loaded. -/
def contains (l : Library) (p : Path) : Bool := l.entries.any fun e => e.1 = p

/-- The library with one more document. -/
def add (l : Library) (p : Path) (d : Document) : Library := ⟨l.entries ++ [(p, d)]⟩

/-- The loaded paths. -/
def paths (l : Library) : List Path := l.entries.map (·.1)

end Library

/-- Why a file cannot be loaded. -/
inductive LoadError where
  | file (error : FileError)
  | invalid (path : Path) (issues : List Issue)
  /-- A field number of the file is too long to be read. -/
  | numeralTooLong (path : Path)
  deriving DecidableEq, Repr

/-- The document that bytes stand for. -/
def readDocument (path : Path) (bytes : List UInt8) : Except LoadError Document :=
  match Text.decode bytes with
  | .error (fault, place) =>
    .error (.invalid path [⟨s!"not valid UTF-8: {fault.reason} at byte {place}", 0, 0⟩])
  | .ok cs =>
    match Idl.parse (String.ofList (Text.unixLines cs)) with
    | .error (.malformed e) => .error (.invalid path [e.issue])
    | .error .numeralTooLong => .error (.numeralTooLong path)
    | .ok d => .ok { d with path := some path }

/-- The document of the file at a path. -/
def FileTree.document (t : FileTree) (path : Path) : Except LoadError Document :=
  match t.read path with
  | .error e => .error (.file e)
  | .ok bytes => readDocument path bytes

/-- The paths of the includes of a document, in order. -/
def includesOf (path : Path) (d : Document) : List Path := d.includes.map path.ofInclude

/-- How many files have not been loaded. -/
def unloaded (t : FileTree) (l : Library) : Nat := (t.files.filter fun f => !l.contains f.1).length

theorem Library.contains_add (l : Library) (p q : Path) (d : Document) :
    (l.add p d).contains q = (l.contains q || decide (p = q)) := by
  simp [Library.contains, Library.add, List.any_append]

theorem FileTree.exists_of_read {t : FileTree} {p : Path} {bytes : List UInt8} (h : t.read p = .ok bytes) :
    ∃ f ∈ t.files, f.1 = p := by
  unfold FileTree.read FileTree.file? at h
  cases hf : t.files.find? fun f => decide (f.1 = p) with
  | none => simp [hf] at h
  | some f => exact ⟨f, List.mem_of_find?_eq_some hf, by simpa using List.find?_some hf⟩

theorem FileTree.exists_of_document {t : FileTree} {p : Path} {d : Document} (h : t.document p = .ok d) :
    ∃ f ∈ t.files, f.1 = p := by
  unfold FileTree.document at h
  cases hr : t.read p with
  | error e => simp [hr] at h
  | ok bytes => exact FileTree.exists_of_read hr

/-- Filtering by a stronger condition that drops a member gives a shorter list. -/
theorem length_filter_lt {α : Type} {p q : α → Bool} {l : List α} (hpq : ∀ x, q x = true → p x = true)
    {a : α} (ha : a ∈ l) (hp : p a = true) (hq : q a = false) : (l.filter q).length < (l.filter p).length := by
  induction l with
  | nil => simp at ha
  | cons b l ih =>
    have hle : (l.filter q).length ≤ (l.filter p).length := by
      rw [← List.countP_eq_length_filter, ← List.countP_eq_length_filter]
      exact List.countP_mono_left fun x _ => hpq x
    rcases List.mem_cons.1 ha with rfl | ha
    · simp [hp, hq]; omega
    · have := ih ha
      by_cases hqb : q b = true
      · simp [hqb, hpq b hqb]; omega
      · by_cases hpb : p b = true
        · simp [hqb, hpb]; omega
        · simp [hqb, hpb]; omega

theorem unloaded_add_lt {t : FileTree} {l : Library} {p : Path} {d : Document}
    (hp : l.contains p = false) (h : t.document p = .ok d) : unloaded t (l.add p d) < unloaded t l := by
  obtain ⟨f, hf, rfl⟩ := FileTree.exists_of_document h
  refine length_filter_lt ?_ hf (by simp [hp]) (by simp [Library.contains_add])
  intro x hx
  simp [Library.contains_add] at hx
  simp [hx.1]

/-- What loading has done: the library, the notices, the files that were opened, in order, and the error that ended
it. -/
structure Loaded where
  library : Library
  notices : List Notice
  opened : List Path
  error : Option LoadError

/-- Loads pending files one by one.  The includes of a file come before what was pending after it. -/
def loadPending (t : FileTree) (l : Library) : List Path → Loaded
  | [] => ⟨l, [], [], none⟩
  | p :: pending =>
    if _hp : l.contains p then
      let r := loadPending t l pending
      { r with notices := .skipped p :: r.notices }
    else
      match _h : t.document p with
      | .error e => ⟨l, [], [p], some e⟩
      | .ok d =>
        let r := loadPending t (l.add p d) (includesOf p d ++ pending)
        { r with notices := .parsed p :: r.notices, opened := p :: r.opened }
  termination_by pending => (unloaded t l, pending.length)
  decreasing_by
    · simp only [List.length_cons]; exact Prod.Lex.right _ (by omega)
    · exact Prod.Lex.left _ _ (unloaded_add_lt (by simpa using _hp) _h)

/-- Loads files and, transitively, everything they include. -/
def Library.load (t : FileTree) (l : Library) (paths : List Path) : Loaded := loadPending t l paths

end ThriftGateway.Source
