import ThriftGateway.Proofs.Source.Closure
import ThriftGateway.Proofs.Source.Reference

/-!
# When a reference means something

`Means` says what a reference can mean: a name the only declaration of it in the same file, and a stem, a dot and a
name the only declaration of the name in the file that the only include with that stem leads to.  In a library that is
closed under includes, references are resolved to what they mean, and all others are refused for what is wrong with
them (`resolve_iff_means`).
-/

namespace ThriftGateway.Source

open Idl (Declaration Document)

/-! ### The parts of a reference -/

private theorem splitAt_append {c : Char} {a : List Char} (h : c ∉ a) (b : List Char) :
    Text.splitAt c (a ++ c :: b) = a :: Text.splitAt c b := by
  induction a with
  | nil => rw [List.nil_append, Text.splitAt, if_pos rfl]
  | cons d a ih =>
    rw [List.mem_cons, not_or] at h
    rw [List.cons_append, Text.splitAt, if_neg (Ne.symm h.1), ih h.2]

private theorem length_splitAt (c : Char) (cs : List Char) : (Text.splitAt c cs).length = cs.count c + 1 := by
  induction cs with
  | nil => rfl
  | cons d cs ih =>
    rw [Text.splitAt]
    split
    · rename_i hd
      rw [hd, List.length_cons, ih, List.count_cons_self]
    · rename_i hd
      rw [List.count_cons_of_ne hd]
      split
      · rename_i hnil
        rw [hnil] at ih
        cases ih
      · rename_i hcons
        rw [hcons, List.length_cons] at ih
        rw [List.length_cons, ih]

/-- A reference has no dot, one dot, or more. -/
theorem reference_cases (reference : String) :
    '.' ∉ reference.toList ∨
    (∃ stem name : String, '.' ∉ stem.toList ∧ '.' ∉ name.toList ∧ reference = stem ++ "." ++ name) ∨
    2 ≤ reference.toList.count '.' := by
  by_cases hdot : '.' ∈ reference.toList
  · obtain ⟨stem, name, hsplit, hstem⟩ := List.eq_append_cons_of_mem hdot
    by_cases hname : '.' ∈ name
    · refine .inr (.inr ?_)
      have hpos := List.count_pos_iff.2 hname
      rw [hsplit, List.count_append, List.count_cons_self]
      omega
    · refine .inr (.inl ⟨String.ofList stem, String.ofList name, by simpa using hstem, by simpa using hname, ?_⟩)
      rw [← String.toList_inj, hsplit]
      simp
  · exact .inl hdot

namespace Library

variable {l : Library} {file : Path} {reference : String} {r : Resolved}

theorem resolve_plain (h : '.' ∉ reference.toList) :
    l.resolve reference file = l.resolveIn reference reference file file := by
  unfold resolve
  rw [splitAt_of_not_mem h, List.map_cons, List.map_nil, String.ofList_toList]

theorem resolve_qualified {stem name : String} (hstem : '.' ∉ stem.toList) (hname : '.' ∉ name.toList) :
    l.resolve (stem ++ "." ++ name) file =
      match l.resolveStem (stem ++ "." ++ name) stem file with
      | .error e => .error e
      | .ok target => l.resolveIn (stem ++ "." ++ name) name target file := by
  have hparts : (Text.splitAt '.' (stem ++ "." ++ name).toList).map String.ofList = [stem, name] := by
    have hlist : (stem ++ "." ++ name).toList = stem.toList ++ '.' :: name.toList := by simp
    rw [hlist, splitAt_append hstem, splitAt_of_not_mem hname]
    simp
  unfold resolve
  generalize (Text.splitAt '.' (stem ++ "." ++ name).toList).map String.ofList = parts at hparts ⊢
  subst hparts
  rfl

theorem resolve_of_dots (h : 2 ≤ reference.toList.count '.') :
    l.resolve reference file = .error (.malformed reference file) := by
  have hlength : ((Text.splitAt '.' reference.toList).map String.ofList).length = reference.toList.count '.' + 1 := by
    rw [List.length_map, length_splitAt]
  unfold resolve
  split
  · rename_i hone
    rw [hone] at hlength
    simp only [List.length_cons, List.length_nil] at hlength
    omega
  · rename_i htwo
    rw [htwo] at hlength
    simp only [List.length_cons, List.length_nil] at hlength
    omega
  · rfl

/-! ### Meaning -/

/-- What a reference means in a file: without a dot, the only declaration of that name in the file; with one dot, the
only declaration of the name behind it in the file that has been loaded for the only include whose stem is the name
before it. -/
inductive Means (l : Library) (file : Path) : String → Resolved → Prop
  | plain {name : String} {d : Document} {e : Declaration} : '.' ∉ name.toList → l.document? file = some d →
      d.declarationsNamed name = [e] → Means l file name ⟨file, e⟩
  | qualified {stem name written : String} {target : Path} {d d' : Document} {e : Declaration} :
      '.' ∉ stem.toList → '.' ∉ name.toList → l.document? file = some d →
      (d.includes.zip (includesOf file d)).filter (fun i => stemOf i.1 = stem) = [(written, target)] →
      l.document? target = some d' → d'.declarationsNamed name = [e] → Means l file (stem ++ "." ++ name) ⟨target, e⟩

/-- Each include, with the path that it leads to. -/
private theorem zip_includesOf (file : Path) (d : Document) :
    d.includes.zip (includesOf file d) = d.includes.map fun written => (written, file.ofInclude written) := by
  simpa [includesOf] using List.zip_map' (f := id) (g := file.ofInclude) (l := d.includes)

/-- The includes with a stem, each with the path that it leads to. -/
private theorem filter_zip_includesOf (file : Path) (d : Document) (stem : String) :
    (d.includes.zip (includesOf file d)).filter (fun i => stemOf i.1 = stem) =
      (d.includes.filter fun i => stemOf i = stem).map fun written => (written, file.ofInclude written) := by
  rw [zip_includesOf, List.filter_map]
  rfl

/-- The only declaration of a name in a loaded file, or what is wrong with the name. -/
private theorem resolveIn_cases (reference name : String) (context : Path) {target : Path} {d : Document}
    (hd : l.document? target = some d) :
    (∃ e, d.declarationsNamed name = [e] ∧ l.resolveIn reference name target context = .ok ⟨target, e⟩) ∨
    ∃ reason, l.resolveIn reference name target context = .error (.unresolved reference context reason) ∧
      ∀ fileName, reason ≠ .notLoaded fileName := by
  unfold resolveIn
  rw [hd]
  dsimp only
  cases hnames : d.declarationsNamed name with
  | nil => exact .inr ⟨_, rfl, by simp⟩
  | cons e es =>
    cases es with
    | nil => exact .inl ⟨e, rfl, rfl⟩
    | cons => exact .inr ⟨_, rfl, by simp⟩

/-- The file that the only include with a stem leads to, or what is wrong with the stem. -/
private theorem resolveStem_cases (reference stem : String) {d : Document} (hd : l.document? file = some d)
    (hpaths : ∀ q ∈ includesOf file d, isPassable q.text = true) :
    (∃ written, d.includes.filter (fun i => stemOf i = stem) = [written] ∧
      l.resolveStem reference stem file = .ok (file.ofInclude written)) ∨
    ∃ reason, l.resolveStem reference stem file = .error (.unresolved reference file reason) ∧
      ∀ fileName, reason ≠ .notLoaded fileName := by
  unfold resolveStem
  rw [hd]
  dsimp only
  cases hstems : d.includes.filter fun i => stemOf i = stem with
  | nil => exact .inr ⟨_, rfl, by simp⟩
  | cons written rest =>
    cases rest with
    | nil =>
      have hmem : written ∈ d.includes := List.mem_of_mem_filter (hstems ▸ List.mem_cons_self)
      refine .inl ⟨written, rfl, ?_⟩
      dsimp only
      rw [if_pos (hpaths _ (List.mem_map_of_mem hmem))]
    | cons => exact .inr ⟨_, rfl, by simp⟩

private theorem exists_document?_of_contains {p : Path} (h : l.contains p = true) : ∃ d, l.document? p = some d := by
  obtain ⟨d, hd⟩ := contains_iff.1 h
  have hfind : (l.entries.find? fun e => e.1 = p).isSome = true := List.find?_isSome.2 ⟨_, hd, by simp⟩
  obtain ⟨e, he⟩ := Option.isSome_iff_exists.1 hfind
  exact ⟨e.2, by rw [document?, he, Option.map_some]⟩

/-- What an include of a loaded file leads to is loaded, and can be a file, if the library is closed. -/
theorem IsClosed.isPassable (hl : l.IsClosed) (hpaths : ∀ p ∈ l.paths, isPassable p.text = true) {d : Document}
    (hd : l.document? file = some d) {q : Path} (hq : q ∈ includesOf file d) : isPassable q.text = true := by
  obtain ⟨d', hd'⟩ := contains_iff.1 (hl _ (mem_of_document? hd) q hq)
  exact hpaths q (List.mem_map_of_mem hd')

/-- A reference is resolved to what it means. -/
private theorem resolve_of_means (hpaths : ∀ p ∈ l.paths, isPassable p.text = true) (h : Means l file reference r) :
    l.resolve reference file = .ok r := by
  cases h with
  | plain hname hd he =>
    rw [resolve_plain hname]
    exact resolveIn_eq_ok.2 ⟨rfl, _, hd, he⟩
  | @qualified stem name written target d d' e hstem hname hd hincludes hd' he =>
    rw [filter_zip_includesOf] at hincludes
    obtain ⟨written', hstems, hpair⟩ := List.map_eq_singleton_iff.1 hincludes
    obtain ⟨rfl, rfl⟩ := Prod.mk.inj hpair
    have hpass : isPassable (file.ofInclude written').text = true :=
      hpaths _ (List.mem_map_of_mem (mem_of_document? hd'))
    have htarget : l.resolveStem (stem ++ "." ++ name) stem file = .ok (file.ofInclude written') := by
      unfold resolveStem
      rw [hd]
      dsimp only
      rw [hstems]
      dsimp only
      rw [if_pos hpass]
    rw [resolve_qualified hstem hname, htarget]
    exact resolveIn_eq_ok.2 ⟨rfl, d', hd', he⟩

/-- In a library that is closed under includes, a reference in a loaded file means something, has too many dots, or is
refused for what is wrong with its name or its stem. -/
private theorem resolve_cases (hl : l.IsClosed) (hpaths : ∀ p ∈ l.paths, isPassable p.text = true)
    (hfile : l.contains file = true) (reference : String) :
    (∃ r, l.resolve reference file = .ok r ∧ Means l file reference r) ∨
    2 ≤ reference.toList.count '.' ∧ l.resolve reference file = .error (.malformed reference file) ∨
    ∃ reason, l.resolve reference file = .error (.unresolved reference file reason) ∧
      ∀ fileName, reason ≠ .notLoaded fileName := by
  obtain ⟨d, hd⟩ := exists_document?_of_contains hfile
  obtain hplain | ⟨stem, name, hstem, hname, rfl⟩ | hdots := reference_cases reference
  · rw [resolve_plain hplain]
    obtain ⟨e, he, hok⟩ | hreason := l.resolveIn_cases reference reference file hd
    · exact .inl ⟨_, hok, .plain hplain hd he⟩
    · exact .inr (.inr hreason)
  · rw [resolve_qualified hstem hname]
    obtain ⟨written, hstems, htarget⟩ | ⟨reason, hreason, hloaded⟩ :=
      l.resolveStem_cases (stem ++ "." ++ name) stem hd fun q hq => hl.isPassable hpaths hd hq
    · have hmem : written ∈ d.includes := List.mem_of_mem_filter (hstems ▸ List.mem_cons_self)
      obtain ⟨d', hd'⟩ := exists_document?_of_contains (hl _ (mem_of_document? hd) _ (List.mem_map_of_mem hmem))
      rw [htarget]
      obtain ⟨e, he, hok⟩ | hreason := l.resolveIn_cases (stem ++ "." ++ name) name file hd'
      · have hfound : (d.includes.zip (includesOf file d)).filter (fun i => stemOf i.1 = stem) =
            [(written, file.ofInclude written)] := by
          rw [filter_zip_includesOf, hstems, List.map_singleton]
        exact .inl ⟨_, hok, .qualified hstem hname hd hfound hd' he⟩
      · exact .inr (.inr hreason)
    · rw [hreason]
      exact .inr (.inr ⟨reason, rfl, hloaded⟩)
  · exact .inr (.inl ⟨hdots, resolve_of_dots hdots⟩)

/-- In a library that is closed under includes, a reference in a loaded file is resolved to what it means there.  One
with two dots or more is malformed; any other that means nothing is unresolved, for another reason than that a file is
not loaded.  Both are reported with the reference as it is, of the file that it is in. -/
theorem resolve_iff_means (hl : l.IsClosed) (hpaths : ∀ p ∈ l.paths, isPassable p.text = true)
    (hfile : l.contains file = true) (reference : String) :
    (∀ r, l.resolve reference file = .ok r ↔ Means l file reference r) ∧
    (l.resolve reference file = .error (.malformed reference file) ↔ 2 ≤ reference.toList.count '.') ∧
    ∀ e, l.resolve reference file = .error e → e = .malformed reference file ∨
      ∃ reason, e = .unresolved reference file reason ∧ ∀ fileName, reason ≠ .notLoaded fileName := by
  have hcases := resolve_cases hl hpaths hfile reference
  refine ⟨fun r => ⟨fun h => ?_, resolve_of_means hpaths⟩, ⟨fun h => ?_, resolve_of_dots⟩, fun e h => ?_⟩
  · rw [h] at hcases
    obtain ⟨r', hr, hmeans⟩ | ⟨-, hr⟩ | ⟨reason, hr, -⟩ := hcases
    · cases hr
      exact hmeans
    · cases hr
    · cases hr
  · rw [h] at hcases
    obtain ⟨r', hr, -⟩ | ⟨hdots, -⟩ | ⟨reason, hr, -⟩ := hcases
    · cases hr
    · exact hdots
    · cases hr
  · rw [h] at hcases
    obtain ⟨r', hr, -⟩ | ⟨-, hr⟩ | ⟨reason, hr, hloaded⟩ := hcases
    · cases hr
    · cases hr
      exact .inl rfl
    · cases hr
      exact .inr ⟨reason, rfl, hloaded⟩

/-- Two files that include each other, the first one by a detour.  The second one declares `T`. -/
def twoFiles : Library :=
  ⟨[(⟨["idl", "a.thrift"]⟩, { line := 1, body := [.inclusion 1 "x/../b.thrift"] }),
    (⟨["idl", "b.thrift"]⟩, { line := 1, body := [.inclusion 1 "a.thrift",
      .declaration (.enumeration ⟨2, "T", [], none⟩)] })]⟩

/-- What is declared behind a detour is found at the path that has been loaded, and a second dot leads nowhere. -/
theorem resolve_iff_means_detour :
    twoFiles.IsClosed ∧ (∀ p ∈ twoFiles.paths, isPassable p.text = true) ∧
      twoFiles.contains ⟨["idl", "a.thrift"]⟩ = true ∧
      twoFiles.resolve "b.T" ⟨["idl", "a.thrift"]⟩ =
        .ok ⟨⟨["idl", "b.thrift"]⟩, .enumeration ⟨2, "T", [], none⟩⟩ ∧
      twoFiles.resolve "b.T.U" ⟨["idl", "a.thrift"]⟩ = .error (.malformed "b.T.U" ⟨["idl", "a.thrift"]⟩) := by
  have hl : twoFiles.IsClosed := by
    intro e he q hq
    simp only [twoFiles, List.mem_cons, List.not_mem_nil, or_false] at he
    rcases he with rfl | rfl
    · obtain rfl : q = ⟨["idl", "b.thrift"]⟩ := by
        have hincludes : includesOf ⟨["idl", "a.thrift"]⟩ { line := 1, body := [.inclusion 1 "x/../b.thrift"] } =
            [⟨["idl", "b.thrift"]⟩] := by decide
        rw [hincludes] at hq
        simpa using hq
      decide
    · obtain rfl : q = ⟨["idl", "a.thrift"]⟩ := by
        have hincludes : includesOf ⟨["idl", "b.thrift"]⟩ { line := 1, body := [.inclusion 1 "a.thrift",
            .declaration (.enumeration ⟨2, "T", [], none⟩)] } = [⟨["idl", "a.thrift"]⟩] := by decide
        rw [hincludes] at hq
        simpa using hq
      decide
  have hpaths : ∀ p ∈ twoFiles.paths, isPassable p.text = true := by decide
  have hfile : twoFiles.contains ⟨["idl", "a.thrift"]⟩ = true := by decide
  have hmeans : Means twoFiles ⟨["idl", "a.thrift"]⟩ ("b" ++ "." ++ "T")
      ⟨⟨["idl", "b.thrift"]⟩, .enumeration ⟨2, "T", [], none⟩⟩ := by
    have hfound : (["x/../b.thrift"].zip (includesOf ⟨["idl", "a.thrift"]⟩
        { line := 1, body := [.inclusion 1 "x/../b.thrift"] })).filter (fun i => stemOf i.1 = "b") =
          [("x/../b.thrift", ⟨["idl", "b.thrift"]⟩)] := by decide
    exact .qualified (by decide) (by decide) rfl hfound rfl rfl
  exact ⟨hl, hpaths, hfile, ((resolve_iff_means hl hpaths hfile "b.T").1 _).2 hmeans,
    (resolve_iff_means hl hpaths hfile "b.T.U").2.1.2 (by decide)⟩

end Library

end ThriftGateway.Source
