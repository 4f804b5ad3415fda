import ThriftGateway.Proofs.Schema.Nullable
import ThriftGateway.Proofs.Schema.Sides

/-!
# Resolved for good

Whatever is done with a session, documents only come behind those that it has recorded, and they come only from files
that were not loaded.  So a reference that has been resolved in a file is resolved to the same declaration ever after,
even if loads fail partway, files change, or an include leads back (`resolved_for_good`).
-/

namespace ThriftGateway.Schema

open Graph (Direction IsMove Moves NameRequest NodeKey Session Work)
open Idl (Document TypeExpr)
open Source (FileTree Library Path Resolved)

/-! ### What can be done with a session -/

/-- Anything that is done with a session. -/
inductive Deed where
  /-- Loads files, answers a request or assembles a schema. -/
  | turn (t : Turn)
  /-- Compiles a type, or a declaration, for one direction or none. -/
  | compile (direction : Option Direction) (file : Path) (t : TypeExpr)
  /-- Asks for the node with a key, which is not made for a declaration. -/
  | node (key : NodeKey)
  | allocate (preferred : String)
  | typeName (r : NameRequest)
  | close

/-- The session after a deed, whether it succeeds or fails. -/
def Deed.next (s : Session) : Deed → Session
  | .turn t => t.next s
  | .compile direction file t => (Work.run (Graph.compileType direction file t) s).2
  | .node key => (Work.run (Graph.nodeFor key (pure .foreign)) s).2
  | .allocate preferred => (s.allocate preferred).2
  | .typeName r => (s.typeName r).2
  | .close => s.close

/-- The session after some deeds. -/
def afterDeeds (s : Session) (run : List Deed) : Session := run.foldl Deed.next s

private theorem afterDeeds_append (s : Session) (before later : List Deed) :
    afterDeeds s (before ++ later) = afterDeeds (afterDeeds s before) later := by
  simp [afterDeeds]

/-! ### All else than loading keeps the documents -/

variable {ε α : Type}

private theorem nodeFields_keepsLibrary (node : Graph.Node) : KeepsLibrary (Graph.nodeFields node) :=
  .nodeFields fun _ _ _ _ _ _ => .compileType_of_blind (fun _ _ _ _ => rfl) _ _ _

private theorem request_keepsLibrary (q : Graph.Request) : KeepsLibrary q.work := by
  cases q with
  | compile direction file t =>
    exact .adapt _ (.bind (.compileType_of_blind (fun _ _ _ _ => rfl) _ _ _) fun _ => .pure _)
  | function file f => exact .adapt _ (.bind (compileFunction_keepsLibrary file f) fun _ => .pure _)
  | fields id =>
    refine .read fun s => ?_
    split
    · exact .throw _
    · exact .adapt _ (.bind (nodeFields_keepsLibrary _) fun _ => .pure _)

private theorem assemble_keepsLibrary (queries : Graph.QueryNaming) (offers : List Offer) :
    KeepsLibrary (assemble queries offers) := by
  have hdefine : ∀ t, KeepsLibrary (define t) := fun t => Moves.define fun s _ node _ => nodeFields_keepsLibrary node s
  have hroot : KeepsLibrary (addRootFields queries (offeredFunctions offers) []) :=
    Moves.addRootFields (fun _ _ => rfl) (fun _ _ => compileFunction_keepsLibrary _ _) []
  unfold assemble
  refine .bind (.adapt _ hroot) fun root => .bind (.ofExcept _ _) fun _ => ?_
  refine .read fun s => .bind (.adapt _ (Moves.collectTypes hdefine _ _ _)) fun types => ?_
  dsimp only
  split
  · exact .throw_bind _ _
  · refine .bind (.ofExcept _ _) fun _ => ?_
    split
    · exact .throw_bind _ _
    · exact .bind (fun s => rfl) fun _ => .pure _

private theorem nodeFor_keepsLibrary (key : NodeKey) : KeepsLibrary (Graph.nodeFor key (pure .foreign)) := by
  refine .read fun s => ?_
  split
  · exact .pure _
  · split
    · exact .throw_bind _ _
    · exact .bind (.pure _) fun node s => rfl

private theorem library_allocate (s : Session) (preferred : String) : (s.allocate preferred).2.library = s.library := by
  unfold Session.allocate
  dsimp only
  split <;> rfl

/-! ### Documents are only added -/

/-- The documents of a session are the first ones of a later session. -/
def Records (s s' : Session) : Prop := s.library.entries <+: s'.library.entries

instance : IsMove Records where
  refl _ := List.prefix_rfl
  trans := List.IsPrefix.trans

private theorem Records.of_sameLibrary {s s' : Session} (h : SameLibrary s s') : Records s s' :=
  ⟨[], by rw [List.append_nil, h]⟩

private theorem Records.extends {s s' : Session} (h : Records s s') : s.library.Extends s'.library := by
  obtain ⟨added, hadded⟩ := h
  exact fun path d hd => Library.document?_append hadded.symm hd

private theorem load_records (s : Session) (tree : FileTree) (paths : List Path) : Records s (s.load tree paths).1 := by
  obtain ⟨added, hadded⟩ := Source.exists_entries_loadPending tree s.library paths
  exact ⟨added, hadded.symm⟩

/-- What one deed preserves: only loading adds documents, and they come behind. -/
private theorem next_records (s : Session) (d : Deed) : Records s (d.next s) := by
  cases d with
  | turn t =>
    cases t with
    | step x =>
      cases x with
      | load tree paths => exact load_records s tree paths
      | ask q => exact .of_sameLibrary (request_keepsLibrary q s)
    | assemble queries offers => exact .of_sameLibrary (assemble_keepsLibrary queries offers s)
  | compile direction file t => exact .of_sameLibrary (Moves.compileType_of_blind (fun _ _ _ _ => rfl) _ _ _ s)
  | node key => exact .of_sameLibrary (nodeFor_keepsLibrary key s)
  | allocate preferred => exact .of_sameLibrary (library_allocate s preferred)
  | typeName r => exact .of_sameLibrary (library_allocate s _)
  | close => exact .of_sameLibrary rfl

/-- What many deeds preserve. -/
private theorem afterDeeds_records (s : Session) (run : List Deed) : Records s (afterDeeds s run) := by
  induction run generalizing s with
  | nil => exact IsMove.refl s
  | cons d run ih => exact IsMove.trans (next_records s d) (ih (d.next s))

/-! ### References -/

/-- In every run, a reference that has been resolved in a file is resolved to the same declaration in the same file
after anything else that is done; recorded documents stay, each in its place; and a load adds documents of files that
were not recorded, as the files are then, whether it succeeds or fails. -/
theorem resolved_for_good (s : Session) (before later : List Deed) :
    (∀ (reference : String) (context : Path) (r : Resolved),
      (afterDeeds s before).library.resolve reference context = .ok r →
      (afterDeeds s (before ++ later)).library.resolve reference context = .ok r) ∧
    (afterDeeds s before).library.entries <+: (afterDeeds s (before ++ later)).library.entries ∧
    (∀ path d, (afterDeeds s before).library.document? path = some d →
      (afterDeeds s (before ++ later)).library.document? path = some d) ∧
    ∀ tree paths, ∃ added : List (Path × Document),
      ((afterDeeds s before).load tree paths).1.library.entries = (afterDeeds s before).library.entries ++ added ∧
        (added.map Prod.fst).Nodup ∧
        ∀ e ∈ added, (afterDeeds s before).library.contains e.1 = false ∧ tree.document e.1 = .ok e.2 := by
  have hrecords : Records (afterDeeds s before) (afterDeeds s (before ++ later)) := by
    rw [afterDeeds_append]
    exact afterDeeds_records _ later
  refine ⟨fun reference context r hr => Library.resolve_of_extends hrecords.extends hr, hrecords, hrecords.extends,
    fun tree paths => ?_⟩
  obtain ⟨added, hgrowth⟩ := Source.exists_growth tree (afterDeeds s before).library paths
  exact ⟨added, hgrowth.entries, hgrowth.nodup, fun e he => ⟨hgrowth.fresh e he, hgrowth.document e he⟩⟩

/-- A file that includes itself. -/
def looping : FileTree where
  working := ⟨["idl"]⟩
  files := [(⟨["idl", "a.thrift"]⟩, Text.encode "include 'a.thrift' struct S {}")]

/-- The same place later: the file is empty, and another one includes what is not there. -/
def emptied : FileTree where
  working := ⟨["idl"]⟩
  files := [(⟨["idl", "a.thrift"]⟩, []), (⟨["idl", "c.thrift"]⟩, Text.encode "include 'd.thrift'")]

/-- Whether the file includes itself and declares one `S`. -/
private def declaresLooping (d : Document) : Bool :=
  decide (Source.includesOf ⟨["idl", "a.thrift"]⟩ d = [⟨["idl", "a.thrift"]⟩]) && (d.declarationsNamed "S").length = 1

/-- The file's document is kept and its struct still found by its name after the file has become empty and a load of it
has failed partway. -/
theorem resolved_for_good_emptied :
    let a : Path := ⟨["idl", "a.thrift"]⟩
    let c : Path := ⟨["idl", "c.thrift"]⟩
    let before := [Deed.turn (.step (.load looping [a]))]
    let later := [Deed.turn (.step (.load emptied [c, a])), Deed.close]
    let s := Session.fresh false Graph.declaredName
    ((afterDeeds s before).load emptied [c, a]).2 ≠ none ∧ (afterDeeds s (before ++ later)).library.contains c = true ∧
      (∃ d, (afterDeeds s (before ++ later)).library.document? a = some d ∧ emptied.document a ≠ .ok d) ∧
      ∃ r, (afterDeeds s before).library.resolve "S" a = .ok r ∧
        (afterDeeds s (before ++ later)).library.resolve "S" a = .ok r := by
  intro a c before later s
  obtain ⟨d, hd, hview⟩ := Source.exists_document_of_any (t := looping) (p := a) declaresLooping (by decide +kernel)
  rw [declaresLooping, Bool.and_eq_true, decide_eq_true_iff, decide_eq_true_iff, List.length_eq_one_iff] at hview
  obtain ⟨hincludes, declaration, hS⟩ := hview
  obtain ⟨dc, hdc, hincludes'⟩ := Source.exists_document (t := emptied) (p := c) [⟨["idl", "d.thrift"]⟩]
    (by decide +kernel)
  obtain ⟨e, he⟩ := Source.exists_error (t := emptied) (p := ⟨["idl", "d.thrift"]⟩) (by decide +kernel)
  -- the include leads back to the file itself
  have hfirst : (afterDeeds s before).library = ⟨[(a, d)]⟩ := by
    show (Source.loadPending looping .empty [a]).library = _
    rw [Source.loadPending_of_ok rfl hd, hincludes]
    show (Source.loadPending looping ⟨[(a, d)]⟩ [a]).library = _
    rw [Source.loadPending_of_contains (by simp [Library.contains]), Source.loadPending_nil]
    rfl
  have hsecond : Source.loadPending emptied ⟨[(a, d)]⟩ [c, a] =
      ⟨⟨[(a, d), (c, dc)]⟩, [.parsed c], [c, ⟨["idl", "d.thrift"]⟩], some e⟩ := by
    have hc : Library.contains ⟨[(a, d)]⟩ c = false := by simp [Library.contains, a, c]
    have hmissing : Library.contains ⟨[(a, d), (c, dc)]⟩ ⟨["idl", "d.thrift"]⟩ = false := by
      simp [Library.contains, a, c]
    rw [Source.loadPending_of_ok hc hdc, hincludes']
    show Source.Loaded.andThen _ (Source.loadPending emptied ⟨[(a, d), (c, dc)]⟩ [⟨["idl", "d.thrift"]⟩, a]) = _
    rw [Source.loadPending_of_error hmissing he]
    rfl
  have hafter : (afterDeeds s (before ++ later)).library = ⟨[(a, d), (c, dc)]⟩ := by
    show (Source.loadPending emptied (afterDeeds s before).library [c, a]).library = _
    rw [hfirst, hsecond]
  have hrecorded : (afterDeeds s before).library.document? a = some d := by
    rw [hfirst]
    simp [Library.document?]
  have hchanged : emptied.document a ≠ .ok d := by
    obtain ⟨d', hd', hnone⟩ := Source.exists_document (t := emptied) (p := a) [] (by decide +kernel)
    rw [hd']
    rintro ⟨⟩
    rw [hincludes] at hnone
    cases hnone
  have hresolve : (afterDeeds s before).library.resolve "S" a = .ok ⟨a, declaration⟩ := by
    exact Library.resolve_of_plain (by decide) hrecorded hS
  obtain ⟨hstays, -, hkept, -⟩ := resolved_for_good s before later
  refine ⟨?_, ?_, ⟨d, hkept a d hrecorded, hchanged⟩, _, hresolve, hstays _ _ _ hresolve⟩
  · show (Source.loadPending emptied (afterDeeds s before).library [c, a]).error ≠ none
    rw [hfirst, hsecond]
    exact Option.some_ne_none e
  · rw [hafter]
    simp [Library.contains]

end ThriftGateway.Schema
