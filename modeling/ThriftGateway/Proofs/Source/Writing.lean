import ThriftGateway.Proofs.Source.Loading

/-!
# Trees with one file written

Once a file has been written, the tree is the same as before but for that file (`sameBut_write`): the other
files have the bytes that they had, and the directories are the same.  What is loaded without opening the file is
loaded as before (`SameBut.load_eq`).
-/

namespace ThriftGateway.Source

/-! ### Below a directory -/

namespace Path

private theorem isBelow_iff {p dir : Path} :
    p.isBelow dir = true ↔ ∃ rest, rest ≠ [] ∧ p.components = dir.components ++ rest := by
  unfold isBelow
  rw [Bool.and_eq_true, decide_eq_true_eq, List.isPrefixOf_iff_prefix]
  constructor
  · rintro ⟨hlt, rest, hrest⟩
    refine ⟨rest, ?_, hrest.symm⟩
    rintro rfl
    rw [← hrest, List.append_nil] at hlt
    exact Nat.lt_irrefl _ hlt
  · rintro ⟨rest, hne, hrest⟩
    have hpos := List.length_pos_iff.2 hne
    rw [hrest, List.length_append]
    exact ⟨by omega, List.prefix_append _ _⟩

private theorem isBelow_trans {p q dir : Path} (hp : p.isBelow q = true) (hq : q.isBelow dir = true) :
    p.isBelow dir = true := by
  obtain ⟨rest, hne, hrest⟩ := isBelow_iff.1 hp
  obtain ⟨more, -, hmore⟩ := isBelow_iff.1 hq
  exact isBelow_iff.2 ⟨more ++ rest, by simp [hne], by rw [hrest, hmore, List.append_assoc]⟩

/-- What lies below a directory lies in it, or in a directory below it. -/
private theorem parent_of_isBelow {p dir : Path} (h : p.isBelow dir = true) :
    p.parent = dir ∨ p.parent.isBelow dir = true := by
  obtain ⟨rest, hne, hrest⟩ := isBelow_iff.1 h
  obtain ⟨front, last, rfl⟩ : ∃ front last, rest = front ++ [last] := List.eq_nil_or_concat' rest |>.resolve_left hne
  have hparent : p.parent.components = dir.components ++ front := by
    show p.components.dropLast = _
    rw [hrest, ← List.append_assoc, List.dropLast_concat]
  by_cases hfront : front = []
  · rw [hfront, List.append_nil] at hparent
    exact .inl (congrArg Path.mk hparent)
  · exact .inr (isBelow_iff.2 ⟨front, hfront, hparent⟩)

end Path

namespace FileTree

variable {t t' : FileTree} {p q : Path} {bytes : List UInt8}

/-! ### Writing -/

/-- The file at a path, or the bytes that are written there. -/
private def overwritten (p : Path) (bytes : List UInt8) (f : Path × List UInt8) : Path × List UInt8 :=
  if f.1 = p then (p, bytes) else f

private theorem overwritten_fst (p : Path) (bytes : List UInt8) (f : Path × List UInt8) :
    (overwritten p bytes f).1 = f.1 := by
  unfold overwritten
  split
  · rename_i h
    exact h.symm
  · rfl

/-- The file that is written has the bytes, and every other one has what it had. -/
private theorem file?_write (t : FileTree) (p q : Path) (bytes : List UInt8) :
    (t.write p bytes).file? q = if q = p then some bytes else t.file? q := by
  unfold write
  split
  · rename_i hp
    show ((t.files.map (overwritten p bytes)).find? fun f => f.1 = q).map Prod.snd = _
    have hsame : ((fun f : Path × List UInt8 => decide (f.1 = q)) ∘ overwritten p bytes) =
      fun f => decide (f.1 = q) := by
      funext f
      simp [overwritten_fst]
    rw [List.find?_map, hsame, Option.map_map]
    unfold file? at hp ⊢
    by_cases hq : q = p
    · subst hq
      obtain ⟨f, hf⟩ := Option.isSome_iff_exists.1 (Option.isSome_map.symm.trans hp)
      have hfst : f.1 = q := by simpa using List.find?_some hf
      simp [hf, overwritten, hfst]
    · rw [if_neg hq]
      cases hf : t.files.find? fun f => decide (f.1 = q) with
      | none => rfl
      | some f =>
        have hfst : f.1 = q := by simpa using List.find?_some hf
        simp [overwritten, hfst, hq]
  · rename_i hp
    show ((t.files ++ [(p, bytes)]).find? fun f => f.1 = q).map Prod.snd = _
    rw [List.find?_append]
    unfold file? at hp ⊢
    by_cases hq : q = p
    · subst hq
      have hnone := Option.map_eq_none_iff.1 (Option.not_isSome_iff_eq_none.1 hp)
      simp [hnone]
    · simp [hq, Ne.symm hq]

theorem file?_write_self (t : FileTree) (p : Path) (bytes : List UInt8) :
    (t.write p bytes).file? p = some bytes := by
  rw [file?_write, if_pos rfl]

/-- What is written over does not matter. -/
theorem write_write (t : FileTree) (p : Path) (bytes bytes' : List UInt8) :
    (t.write p bytes).write p bytes' = t.write p bytes' := by
  have hthere : ((t.write p bytes).file? p).isSome = true := by rw [file?_write_self]; rfl
  have htwice : overwritten p bytes' ∘ overwritten p bytes = overwritten p bytes' := by
    funext f
    unfold Function.comp overwritten
    by_cases hf : f.1 = p <;> simp [hf]
  rw [write, if_pos hthere]
  show { t.write p bytes with files := (t.write p bytes).files.map (overwritten p bytes') } = _
  unfold write
  split
  · show { t with files := (t.files.map (overwritten p bytes)).map (overwritten p bytes') } = _
    rw [List.map_map, htwice]
    rfl
  · rename_i hp
    have hnone := Option.map_eq_none_iff.1 (Option.not_isSome_iff_eq_none.1 hp)
    have hkept : t.files.map (overwritten p bytes') = t.files := by
      have hne : ∀ f ∈ t.files, overwritten p bytes' f = id f := fun f hf =>
        if_neg (by simpa using List.find?_eq_none.1 hnone f hf)
      rw [List.map_congr_left hne, List.map_id]
    simp [hkept, overwritten]

/-! ### The same but for one file -/

/-- The trees have the same directories, and the same files but for one path, where the second tree has a file. -/
structure SameBut (p : Path) (t t' : FileTree) : Prop where
  working : t'.working = t.working
  halves : t'.halves = t.halves
  there : (t'.file? p).isSome = true
  file : ∀ q, q ≠ p → t'.file? q = t.file? q
  isDirectory : ∀ q, t'.isDirectory q = t.isDirectory q

/-- A directory that holds the written file, at any depth, was there before. -/
private theorem isDirectory_of_parent (hp : t.isDirectory p.parent = true) (hq : p.isBelow q = true) :
    t.isDirectory q = true := by
  obtain rfl | hbelow := Path.parent_of_isBelow hq
  · exact hp
  · unfold FileTree.isDirectory at hp ⊢
    rw [Bool.or_eq_true, List.any_eq_true, List.any_eq_true] at hp ⊢
    obtain ⟨f, hf, hfile⟩ | ⟨d, hd, hdirectory⟩ := hp
    · exact .inl ⟨f, hf, Path.isBelow_trans hfile hbelow⟩
    · refine .inr ⟨d, hd, ?_⟩
      rw [Bool.or_eq_true, decide_eq_true_eq] at hdirectory ⊢
      obtain rfl | hdirectory := hdirectory
      · exact .inr hbelow
      · exact .inr (Path.isBelow_trans hdirectory hbelow)

private theorem isDirectory_write (t : FileTree) (p q : Path) (bytes : List UInt8)
    (hp : (t.file? p).isSome = true ∨ t.isDirectory p.parent = true) :
    (t.write p bytes).isDirectory q = t.isDirectory q := by
  unfold write
  split
  · show ((t.files.map (overwritten p bytes)).any _ || _) = _
    rw [List.any_map]
    have hsame : ((fun f : Path × List UInt8 => f.1.isBelow q) ∘ overwritten p bytes) = fun f => f.1.isBelow q := by
      funext f
      simp [overwritten_fst]
    rw [hsame]
    rfl
  · rename_i hfile
    have hparent := hp.resolve_left hfile
    show ((t.files ++ [(p, bytes)]).any _ || _) = _
    rw [List.any_append, List.any_cons, List.any_nil, Bool.or_false]
    cases hq : p.isBelow q with
    | false =>
      rw [Bool.or_false]
      rfl
    | true =>
      rw [isDirectory_of_parent hparent hq]
      simp

/-- A tree in which a file has been written is the same but for this file. -/
theorem sameBut_write (t : FileTree) (p : Path) (bytes : List UInt8)
    (hp : (t.file? p).isSome = true ∨ t.isDirectory p.parent = true) : SameBut p t (t.write p bytes) where
  working := by unfold write; split <;> rfl
  halves := by unfold write; split <;> rfl
  there := by rw [file?_write_self]; rfl
  file q hq := by rw [file?_write, if_neg hq]
  isDirectory q := isDirectory_write t p q bytes hp

theorem writeFile_of_file? (hp : (t.file? p).isSome = true) : t.writeFile p bytes = .ok (t.write p bytes) := by
  unfold writeFile
  rw [if_pos hp]

/-- A file is written where there is one, or in a directory that is there. -/
theorem writeFile_eq_ok (h : t.writeFile p bytes = .ok t') :
    t' = t.write p bytes ∧ ((t.file? p).isSome = true ∨ t.isDirectory p.parent = true) := by
  unfold writeFile at h
  split at h
  · rename_i hp
    exact ⟨(Except.ok.inj h).symm, .inl hp⟩
  · split at h
    · split at h
      · rename_i hp
        exact ⟨(Except.ok.inj h).symm, .inr hp⟩
      · cases h
    · cases h

theorem contains_of_isSome (h : (t.file? p).isSome = true) : t.contains p = true := by
  unfold FileTree.contains
  rw [h, Bool.true_or]

namespace SameBut

/-- What is there stays there. -/
theorem isSome_file? (h : SameBut p t t') (hq : (t.file? q).isSome = true) : (t'.file? q).isSome = true := by
  by_cases hp : q = p
  · rw [hp]
    exact h.there
  · rw [h.file q hp, hq]

theorem contains (h : SameBut p t t') (hq : t.contains q = true) : t'.contains q = true := by
  unfold FileTree.contains at hq ⊢
  rw [Bool.or_eq_true] at hq ⊢
  rw [h.isDirectory]
  exact hq.imp_left h.isSome_file?

/-- Another file that is there is read as before. -/
theorem read (h : SameBut p t t') (hq : q ≠ p) (hread : t.read q = .ok bytes) : t'.read q = .ok bytes := by
  unfold FileTree.read at hread ⊢
  rw [h.file q hq]
  cases hfile : t.file? q with
  | none => simp [hfile] at hread
  | some b => simpa [hfile] using hread

/-- A path without halves is found as before. -/
theorem plainPath (h : SameBut p t t') {r : Path} (hq : t.plainPath q = .ok r) : t'.plainPath q = .ok r := by
  unfold FileTree.plainPath at hq ⊢
  rw [h.halves]
  split at hq
  · rename_i hhalf
    rw [if_pos hhalf]
    cases hnames : q.components.mapM (plainName? t.halves) with
    | none => simp [hnames] at hq
    | some names =>
      rw [hnames] at hq
      by_cases hfile : (t.file? ⟨names⟩).isSome = true
      · simp only [Option.filter_some, hfile, if_true] at hq
        simp only [Option.filter_some, h.isSome_file? hfile, if_true]
        exact hq
      · simp [Option.filter_some, hfile] at hq
  · rename_i hhalf
    rw [if_neg hhalf]
    exact hq

theorem withHalves (h : SameBut p t t') (halves : Text.StandIns) :
    SameBut p { t with halves } { t' with halves } where
  working := h.working
  halves := rfl
  there := h.there
  file := h.file
  isDirectory := h.isDirectory

/-- Files that are loaded without opening the other one are loaded as before. -/
theorem load_eq (h : SameBut p t t') {l : Library} {paths : List Path} (hok : (l.load t paths).error = none)
    (hp : p ∉ (l.load t paths).opened) : l.load t' paths = l.load t paths := by
  refine loadPending_congr fun q hq => ?_
  obtain ⟨added, hg⟩ := exists_growth t l paths
  have hadded : q ∈ added.map Prod.fst := hg.opened hok ▸ hq
  obtain ⟨e, he, rfl⟩ := List.mem_map.1 hadded
  have hread : ∃ bytes, t.read e.1 = .ok bytes := by
    have hdocument := hg.document e he
    unfold FileTree.document at hdocument
    split at hdocument
    · cases hdocument
    · exact ⟨_, ‹_›⟩
  obtain ⟨bytes, hbytes⟩ := hread
  rw [hbytes, h.read (fun heq => hp (heq ▸ hq)) hbytes]

end SameBut

end FileTree

end ThriftGateway.Source
