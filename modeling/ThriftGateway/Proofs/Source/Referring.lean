import ThriftGateway.Proofs.Source.Meaning

/-!
# Declarations that can be referred to

A declared name may hold dots, and so may the stem of a file, but a reference is cut at its dots.  So a reference that
is resolved means a declaration without a dot in its name (`plain_of_resolve`), and the only declaration of a name is
found by that name, and by the stem of an include, a dot and the name, exactly if there is no further dot
(`resolve_name_iff`, `resolve_stem_iff`).
-/

namespace ThriftGateway.Source

open Idl (Declaration Document)

namespace Library

variable {l : Library} {file context : Path} {reference stem name written : String} {d c : Document} {e : Declaration}
  {r : Resolved}

/-- What is found by a name has that name. -/
private theorem name_of_resolveIn {target : Path} (h : l.resolveIn reference name target context = .ok r) :
    r.declaration.name = name := by
  obtain ⟨-, d, -, he⟩ := resolveIn_eq_ok.1 h
  have hmem : r.declaration ∈ d.declarationsNamed name := by rw [he]; exact List.mem_singleton_self _
  simpa using (List.mem_filter.1 hmem).2

/-- No reference means a declaration with a dot in its name. -/
theorem plain_of_resolve (h : l.resolve reference file = .ok r) : '.' ∉ r.declaration.name.toList := by
  obtain hplain | ⟨stem, name, hstem, hname, rfl⟩ | hdots := reference_cases reference
  · rw [resolve_plain hplain] at h
    rwa [name_of_resolveIn h]
  · rw [resolve_qualified hstem hname] at h
    split at h
    · cases h
    · rwa [name_of_resolveIn h]
  · rw [resolve_of_dots hdots] at h
    cases h

/-- A stem with a dot in front of one dot more makes two. -/
private theorem two_le_count_of_stem (hstem : '.' ∈ stem.toList) (name : String) :
    2 ≤ (stem ++ "." ++ name).toList.count '.' := by
  have hlist : (stem ++ "." ++ name).toList = stem.toList ++ '.' :: name.toList := by simp
  have hpos := List.count_pos_iff.2 hstem
  rw [hlist, List.count_append, List.count_cons_self]
  omega

/-- What a name behind a stem means has no dot, and the stem has none. -/
private theorem plain_of_resolve_stem (h : l.resolve (stem ++ "." ++ name) file = .ok r) : '.' ∉ stem.toList := by
  intro hstem
  rw [resolve_of_dots (two_le_count_of_stem hstem name)] at h
  cases h

/-- In its own file, the only declaration of a name is found by the name exactly if that has no dot. -/
theorem resolve_name_iff (hd : l.document? file = some d) (he : d.declarationsNamed e.name = [e]) :
    l.resolve e.name file = .ok ⟨file, e⟩ ↔ '.' ∉ e.name.toList :=
  ⟨plain_of_resolve, fun hname => resolve_of_plain hname hd he⟩

/-- In a file with one include of that stem, which leads to it, the only declaration of a name is found by the stem, a
dot and the name exactly if neither has a dot. -/
theorem resolve_stem_iff (hd : l.document? file = some d) (he : d.declarationsNamed e.name = [e])
    (hfile : isPassable file.text = true) (hc : l.document? context = some c)
    (hstems : c.includes.filter (fun i => stemOf i = stem) = [written]) (htarget : context.ofInclude written = file) :
    l.resolve (stem ++ "." ++ e.name) context = .ok ⟨file, e⟩ ↔ '.' ∉ stem.toList ∧ '.' ∉ e.name.toList := by
  constructor
  · exact fun h => ⟨plain_of_resolve_stem h, plain_of_resolve h⟩
  · rintro ⟨hstem, hname⟩
    have hfound : l.resolveStem (stem ++ "." ++ e.name) stem context = .ok file := by
      subst htarget
      unfold resolveStem
      rw [hc]
      dsimp only
      rw [hstems]
      dsimp only
      rw [if_pos hfile]
    rw [resolve_qualified hstem hname, hfound]
    exact resolveIn_eq_ok.2 ⟨rfl, d, hd, he⟩

/-- The only declaration of a name in a loaded file is found there by its name exactly if the name has no dot.  In a
loaded file that includes that file and has no other include with the same stem, it is found by the stem, a dot and the
name exactly if neither has a dot.  So it can be referred to at all exactly if its name has no dot. -/
theorem resolve_declared_iff (hfile : isPassable file.text = true) (hd : l.document? file = some d)
    (he : d.declarationsNamed e.name = [e]) :
    (l.resolve e.name file = .ok ⟨file, e⟩ ↔ '.' ∉ e.name.toList) ∧
    (∀ context c written, l.document? context = some c →
      c.includes.filter (fun i => stemOf i = stemOf written) = [written] → context.ofInclude written = file →
      (l.resolve (stemOf written ++ "." ++ e.name) context = .ok ⟨file, e⟩ ↔
        '.' ∉ (stemOf written).toList ∧ '.' ∉ e.name.toList)) ∧
    ((∃ reference context, l.resolve reference context = .ok ⟨file, e⟩) ↔ '.' ∉ e.name.toList) := by
  refine ⟨resolve_name_iff hd he, fun context c written hc hstems htarget => ?_, ?_, fun hname => ?_⟩
  · exact resolve_stem_iff hd he hfile hc hstems htarget
  · rintro ⟨reference, context, h⟩
    exact plain_of_resolve h
  · exact ⟨e.name, file, (resolve_name_iff hd he).2 hname⟩

end Library

/-- Two files that include each other.  The stem of one has a dot, and one of the names that the other one declares. -/
def dotted : FileTree where
  working := ⟨["idl"]⟩
  files := [
    (⟨["idl", "a.thrift"]⟩, Text.encode "include 'v.1.thrift' struct S.T {} struct U {}"),
    (⟨["idl", "v.1.thrift"]⟩, Text.encode "include 'a.thrift' enum E {}")]

/-- Whether a document has one include, as it is written, and these names are declared there once. -/
private def declaresOnce (written : String) (names : List String) (d : Document) : Bool :=
  d.includes = [written] && names.all fun name => (d.declarationsNamed name).length = 1

private theorem declaresOnce_iff {names : List String} : declaresOnce written names d = true ↔
    d.includes = [written] ∧ ∀ name ∈ names, ∃ e : Declaration, e.name = name ∧ d.declarationsNamed e.name = [e] := by
  rw [declaresOnce, Bool.and_eq_true, decide_eq_true_iff, List.all_eq_true]
  refine and_congr_right fun _ => forall₂_congr fun name _ => ?_
  rw [decide_eq_true_iff, List.length_eq_one_iff]
  constructor
  · rintro ⟨e, he⟩
    have hmem : e ∈ d.declarationsNamed name := by rw [he]; exact List.mem_singleton_self _
    obtain rfl : e.name = name := by simpa using (List.mem_filter.1 hmem).2
    exact ⟨e, rfl, he⟩
  · rintro ⟨e, rfl, he⟩
    exact ⟨e, he⟩

/-- What is loaded of the two files. -/
private theorem exists_load_dotted : ∃ a v : Document,
    (Library.load dotted .empty [⟨["idl", "a.thrift"]⟩]).error = none ∧
    (Library.load dotted .empty [⟨["idl", "a.thrift"]⟩]).library =
      ⟨[(⟨["idl", "a.thrift"]⟩, a), (⟨["idl", "v.1.thrift"]⟩, v)]⟩ ∧
    declaresOnce "v.1.thrift" ["S.T", "U"] a = true ∧ declaresOnce "a.thrift" ["E"] v = true := by
  obtain ⟨a, ha, hviewa⟩ := exists_document_of_any (t := dotted) (p := ⟨["idl", "a.thrift"]⟩)
    (declaresOnce "v.1.thrift" ["S.T", "U"]) (by decide +kernel)
  obtain ⟨v, hv, hviewv⟩ := exists_document_of_any (t := dotted) (p := ⟨["idl", "v.1.thrift"]⟩)
    (declaresOnce "a.thrift" ["E"]) (by decide +kernel)
  have hincludesa : includesOf ⟨["idl", "a.thrift"]⟩ a = [⟨["idl", "v.1.thrift"]⟩] := by
    rw [includesOf, (declaresOnce_iff.1 hviewa).1]
    decide
  have hincludesv : includesOf ⟨["idl", "v.1.thrift"]⟩ v = [⟨["idl", "a.thrift"]⟩] := by
    rw [includesOf, (declaresOnce_iff.1 hviewv).1]
    decide
  have hload : Library.load dotted .empty [⟨["idl", "a.thrift"]⟩] = ⟨⟨[(⟨["idl", "a.thrift"]⟩, a),
      (⟨["idl", "v.1.thrift"]⟩, v)]⟩, [.parsed ⟨["idl", "a.thrift"]⟩, .parsed ⟨["idl", "v.1.thrift"]⟩,
        .skipped ⟨["idl", "a.thrift"]⟩], [⟨["idl", "a.thrift"]⟩, ⟨["idl", "v.1.thrift"]⟩], none⟩ := by
    rw [Library.load, loadPending_of_ok rfl ha, hincludesa, List.singleton_append, loadPending_of_ok rfl hv,
      hincludesv, List.singleton_append, loadPending_of_contains rfl, loadPending_nil]
    rfl
  exact ⟨a, v, by rw [hload], by rw [hload], hviewa, hviewv⟩

/-- Of the two files, the struct whose name has no dot can be referred to from both. -/
theorem resolve_declared_iff_dotted :
    ∃ (l : Library) (a v : Document) (e : Declaration),
      (Library.load dotted .empty [⟨["idl", "a.thrift"]⟩]).library = l ∧
      isPassable (Path.text ⟨["idl", "a.thrift"]⟩) = true ∧ l.document? ⟨["idl", "a.thrift"]⟩ = some a ∧
      a.declarationsNamed e.name = [e] ∧ e.name = "U" ∧ l.document? ⟨["idl", "v.1.thrift"]⟩ = some v ∧
      v.includes.filter (fun i => stemOf i = stemOf "a.thrift") = ["a.thrift"] ∧
      Path.ofInclude ⟨["idl", "v.1.thrift"]⟩ "a.thrift" = ⟨["idl", "a.thrift"]⟩ ∧
      l.resolve "U" ⟨["idl", "a.thrift"]⟩ = .ok ⟨⟨["idl", "a.thrift"]⟩, e⟩ ∧
      l.resolve (stemOf "a.thrift" ++ "." ++ "U") ⟨["idl", "v.1.thrift"]⟩ = .ok ⟨⟨["idl", "a.thrift"]⟩, e⟩ := by
  obtain ⟨a, v, -, hl, ha, hv⟩ := exists_load_dotted
  obtain ⟨-, hnames⟩ := declaresOnce_iff.1 ha
  obtain ⟨e, he, honce⟩ := hnames "U" (by simp)
  have hpass : isPassable (Path.text ⟨["idl", "a.thrift"]⟩) = true := by decide
  have hstems : v.includes.filter (fun i => stemOf i = stemOf "a.thrift") = ["a.thrift"] := by
    rw [(declaresOnce_iff.1 hv).1]
    decide
  have htarget : Path.ofInclude ⟨["idl", "v.1.thrift"]⟩ "a.thrift" = ⟨["idl", "a.thrift"]⟩ := by decide
  have hfound := Library.resolve_declared_iff (l := ⟨[(⟨["idl", "a.thrift"]⟩, a), (⟨["idl", "v.1.thrift"]⟩, v)]⟩)
    hpass rfl honce
  refine ⟨_, a, v, e, hl, hpass, rfl, honce, he, rfl, hstems, htarget, ?_, ?_⟩
  · rw [← he]
    exact hfound.1.2 (by rw [he]; decide)
  · rw [← he]
    exact (hfound.2.1 _ v "a.thrift" rfl hstems htarget).2 ⟨by decide, by rw [he]; decide⟩

/-- The struct with a dot in its name is the only declaration of that name, and its name means nothing in its own file.
The enum is the only declaration of its name in the only include with its stem, and stem and name mean nothing. -/
theorem not_resolve_dotted :
    ∃ (l : Library) (a v : Document) (s e : Declaration),
      (Library.load dotted .empty [⟨["idl", "a.thrift"]⟩]).error = none ∧
      (Library.load dotted .empty [⟨["idl", "a.thrift"]⟩]).library = l ∧
      l.document? ⟨["idl", "a.thrift"]⟩ = some a ∧ l.document? ⟨["idl", "v.1.thrift"]⟩ = some v ∧
      (s.name = "S.T" ∧ a.declarationsNamed s.name = [s] ∧
        ¬ l.resolve s.name ⟨["idl", "a.thrift"]⟩ = .ok ⟨⟨["idl", "a.thrift"]⟩, s⟩) ∧
      e.name = "E" ∧ v.declarationsNamed e.name = [e] ∧
        a.includes.filter (fun i => stemOf i = stemOf "v.1.thrift") = ["v.1.thrift"] ∧
        Path.ofInclude ⟨["idl", "a.thrift"]⟩ "v.1.thrift" = ⟨["idl", "v.1.thrift"]⟩ ∧
        ¬ l.resolve (stemOf "v.1.thrift" ++ "." ++ e.name) ⟨["idl", "a.thrift"]⟩ =
          .ok ⟨⟨["idl", "v.1.thrift"]⟩, e⟩ := by
  obtain ⟨a, v, herror, hl, ha, hv⟩ := exists_load_dotted
  obtain ⟨hincludes, hnames⟩ := declaresOnce_iff.1 ha
  obtain ⟨s, hs, honce⟩ := hnames "S.T" (by simp)
  obtain ⟨e, he, honce'⟩ := (declaresOnce_iff.1 hv).2 "E" (by simp)
  have hstems : a.includes.filter (fun i => stemOf i = stemOf "v.1.thrift") = ["v.1.thrift"] := by
    rw [hincludes]
    decide
  refine ⟨_, a, v, s, e, herror, hl, rfl, rfl, ⟨hs, honce, fun h => ?_⟩, he, honce', hstems, by decide, fun h => ?_⟩
  · have hplain := Library.plain_of_resolve h
    rw [hs] at hplain
    exact hplain (by decide)
  · exact Library.plain_of_resolve_stem h (by decide)

end ThriftGateway.Source
