import ThriftGateway.Proofs.Graph.Collecting
import ThriftGateway.Proofs.Graph.Reporting
import ThriftGateway.Proofs.Schema.Existence

/-!
# Which functions root fields call

The root fields are those of the exposed functions by their query names, where a later function takes over the name of
an earlier one (`isExposed_of_rootFields`).  Each taking over and each function that is not exposed is reported once.
The offers of a configuration are the first services of its files (`exists_source_of_prepareServices`).
-/

namespace ThriftGateway.Schema

open Graph (GraphType InputField QueryNaming Reports Session Steady TypeNaming Work compileFunction compileInputFields
  compileType)
open Idl (Function)
open Source (FileTree Library Path)

/-- Functions with the offers they belong to. -/
abbrev Offered : Type := Offer × Function

/-- The functions of a list that are exposed. -/
def exposedOf (xs : List Offered) : List Offered := xs.filter fun x => x.1.offers x.2

/-- The query name of a function. -/
def queryOf (queries : QueryNaming) (x : Offered) : String := queries x.1.service.name x.2.name

/-- That a root field is the one of a function: it has the query name of the function, the type and the arguments that
the function is compiled to, and what it is told about and is bound to are the function's, with the hooks that its own
offer gives it. -/
structure Stands (queries : QueryNaming) (s : Session) (x : Offered) (r : RootField) : Prop where
  name : r.field.name = queryOf queries x
  type : Work.run (compileType (some .output) x.1.file x.2.result) s = (.ok r.field.type, s)
  arguments : ∃ arguments, Work.run (compileInputFields x.1.file x.2.arguments) s = (.ok arguments, s) ∧
    r.field.arguments = Graph.collect InputField.name arguments
  description : r.field.description = x.2.description
  binding : r.binding = ⟨x.1.name, x.2, x.1.hooks x.2.name⟩

private theorem Stands.of_extends {queries : QueryNaming} {s s' : Session} (hs : s.Extends s') {x : Offered}
    {r : RootField} (h : Stands queries s x r) : Stands queries s' x r := by
  obtain ⟨arguments, hrun, harguments⟩ := h.arguments
  exact ⟨h.name, (Graph.compileType_steady _ _ _).again h.type hs,
    ⟨arguments, (Graph.compileInputFields_steady _ _).again hrun hs, harguments⟩, h.description, h.binding⟩

/-- The field of a function that has been compiled stands for it. -/
private theorem stands_of_compileFunction {queries : QueryNaming} {o : Offer} {f : Function} {s s' : Session}
    {field : Graph.OutputField} (h : Work.run (compileFunction o.file f) s = (.ok field, s')) :
    Stands queries s' (o, f) ⟨{ field with name := queries o.service.name f.name }, ⟨o.name, f, o.hooks f.name⟩⟩ := by
  obtain ⟨type, s₁, htype, h⟩ := Work.run_bind_eq_ok.1 h
  obtain ⟨arguments, s₂, harguments, h⟩ := Work.run_bind_eq_ok.1 h
  obtain ⟨_, s₃, hnames, h⟩ := Work.run_bind_eq_ok.1 h
  have h₁ : s₁.Extends s₂ := by
    have := (Graph.compileInputFields_steady o.file f.arguments).grows s₁
    rwa [harguments] at this
  have h₂ : s₂.Extends s₃ := by
    have := (Steady.ofExcept Graph.CompileError.name (Graph.checkAll Graph.checkName
      ((Graph.collect InputField.name arguments).map InputField.name))).grows s₂
    rwa [hnames] at this
  cases h
  exact ⟨rfl, (Graph.compileType_steady _ _ _).again htype (h₁.trans h₂),
    ⟨arguments, (Graph.compileInputFields_steady _ _).again harguments h₂, rfl⟩, rfl, rfl⟩

/-! ### Reports -/

/-- Whether a notice is about which function a root field calls. -/
def isExposure : Notice → Bool
  | .notListed .. | .duplicateQuery .. => true
  | _ => false

/-- What is reported of a function that comes after others: that it is not exposed, or that it takes over the query name
of an exposed one. -/
def exposureNotices (queries : QueryNaming) (earlier : List Offered) (x : Offered) : List Notice :=
  if !x.1.offers x.2 then [.notListed x.1.name.nameText x.2.name]
  else if (exposedOf earlier).any fun y => queryOf queries y = queryOf queries x then
    [.duplicateQuery (queryOf queries x) x.1.name.nameText x.2.name]
  else []

/-- What is reported of functions one after another. -/
def exposureLog (queries : QueryNaming) : (earlier : List Offered) → List Offered → List Notice
  | _, [] => []
  | earlier, x :: xs => exposureNotices queries earlier x ++ exposureLog queries (earlier ++ [x]) xs

/-! ### Adding root fields -/

section RootFields

variable {queries : QueryNaming} {earlier : List Offered} {fields fields' : List RootField} {s s' : Session}

/-- That root fields are those of the exposed functions so far, the later ones in the place of the earlier ones. -/
def AreRoots (queries : QueryNaming) (s : Session) (xs : List Offered) (fields : List RootField) : Prop :=
  ∃ all, fields = Graph.collect (·.field.name) all ∧ List.Forall₂ (Stands queries s) (exposedOf xs) all

private theorem map_name_of_forall₂ {xs : List Offered} {all : List RootField}
    (h : List.Forall₂ (Stands queries s) xs all) : all.map (·.field.name) = xs.map (queryOf queries) := by
  induction h with
  | nil => rfl
  | cons h _ ih => rw [List.map_cons, List.map_cons, h.name, ih]

private theorem AreRoots.report (h : AreRoots queries s earlier fields) (n : Notice) :
    AreRoots queries (s.report n) earlier fields := by
  have hs : s.Extends (s.report n) := ⟨rfl, Library.Extends.refl _, [], (List.append_nil _).symm⟩
  obtain ⟨all, rfl, hall⟩ := h
  exact ⟨all, rfl, hall.imp fun _ _ hx => hx.of_extends hs⟩

/-- Whether a root field has a name is whether one of the functions has it. -/
private theorem AreRoots.any_eq (h : AreRoots queries s earlier fields) (name : String) :
    fields.any (·.field.name = name) = (exposedOf earlier).any fun y => queryOf queries y = name := by
  obtain ⟨all, rfl, hall⟩ := h
  rw [Bool.eq_iff_iff, List.any_eq_true, List.any_eq_true]
  have hkeys := Graph.collect_keys (·.field.name) all
  rw [map_name_of_forall₂ hall] at hkeys
  have hmem : name ∈ (Graph.collect (·.field.name) all).map (·.field.name) ↔
      name ∈ (exposedOf earlier).map (queryOf queries) := by rw [hkeys, List.mem_eraseDups]
  simpa using hmem

private theorem exposedOf_concat_of_not {x : Offered} (h : x.1.offers x.2 = false) :
    exposedOf (earlier ++ [x]) = exposedOf earlier := by
  simp [exposedOf, List.filter_append, h]

private theorem exposedOf_concat {x : Offered} (h : x.1.offers x.2 = true) :
    exposedOf (earlier ++ [x]) = exposedOf earlier ++ [x] := by
  simp [exposedOf, List.filter_append, h]

/-- What adding the root field of an exposed function does: it compiles the function, and the field takes its place. -/
private theorem areRoots_of_upsert {o : Offer} {f : Function} (ho : o.offers f = true)
    (hroots : AreRoots queries s earlier fields)
    (h : Work.run (do
      let field ← compileFunction o.file f
      return Graph.upsert (·.field.name)
        ⟨{ field with name := queries o.service.name f.name }, ⟨o.name, f, o.hooks f.name⟩⟩ fields) s =
          (.ok fields', s')) :
    AreRoots queries s' (earlier ++ [(o, f)]) fields' ∧
      ∃ added, s'.log = s.log ++ added ∧ ∀ n ∈ added, Graph.IsRenaming n := by
  obtain ⟨field, s₁, hfield, h⟩ := Work.run_bind_eq_ok.1 h
  cases h
  have hgrows := (Graph.compileFunction_steady o.file f).grows s
  have hlog := Graph.compileFunction_reports o.file f s
  rw [hfield] at hgrows hlog
  obtain ⟨all, rfl, hall⟩ := hroots
  refine ⟨⟨all ++ [⟨{ field with name := queries o.service.name f.name }, ⟨o.name, f, o.hooks f.name⟩⟩], ?_, ?_⟩, hlog⟩
  · rw [Graph.collect_concat]
  · rw [exposedOf_concat ho]
    exact List.rel_append (hall.imp fun _ _ hx => hx.of_extends hgrows)
      (.cons (stands_of_compileFunction hfield) .nil)

/-- One function more: its root field is there if the function is exposed, and its report has been made. -/
private theorem areRoots_of_addRootField {o : Offer} {f : Function} (hroots : AreRoots queries s earlier fields)
    (h : Work.run (addRootField queries o fields f) s = (.ok fields', s')) :
    AreRoots queries s' (earlier ++ [(o, f)]) fields' ∧
      ∃ added, s'.log = s.log ++ exposureNotices queries earlier (o, f) ++ added ∧
        ∀ n ∈ added, Graph.IsRenaming n := by
  unfold addRootField at h
  unfold exposureNotices
  cases ho : o.offers f with
  | false =>
    rw [ho] at h
    obtain ⟨_, s₁, ⟨⟩, h⟩ := Work.run_bind_eq_ok.1 h
    cases h
    refine ⟨?_, [], (List.append_nil _).symm, nofun⟩
    have hroots := hroots.report (.notListed o.name.nameText f.name)
    unfold AreRoots at hroots ⊢
    rwa [exposedOf_concat_of_not ho]
  | true =>
    rw [ho, if_neg (by simp)] at h
    rw [if_neg (by simp)]
    have hany := hroots.any_eq (queryOf queries (o, f))
    dsimp only at h
    split at h
    · rename_i htaken
      rw [if_pos (hany.symm.trans htaken)]
      obtain ⟨_, s₁, ⟨⟩, h⟩ := Work.run_bind_eq_ok.1 h
      exact areRoots_of_upsert ho (hroots.report _) h
    · rename_i hfree
      rw [if_neg (hany ▸ hfree), List.append_nil]
      exact areRoots_of_upsert ho hroots h

/-- After all functions, the root fields are those of all that are exposed, and all reports have been made. -/
private theorem areRoots_of_addRootFields {xs : List Offered} (hroots : AreRoots queries s earlier fields)
    (h : Work.run (addRootFields queries xs fields) s = (.ok fields', s')) :
    AreRoots queries s' (earlier ++ xs) fields' ∧
      ∃ added, s'.log = s.log ++ added ∧ added.filter isExposure = exposureLog queries earlier xs ∧
        ∀ n ∈ added, isExposure n = true ∨ Graph.IsRenaming n := by
  induction xs generalizing earlier fields s with
  | nil =>
    cases h
    rw [List.append_nil]
    exact ⟨hroots, [], (List.append_nil _).symm, rfl, nofun⟩
  | cons x xs ih =>
    obtain ⟨fields₁, s₁, hx, h⟩ := Work.run_bind_eq_ok.1 h
    obtain ⟨hroots₁, renamings, hlog₁, hrenamings⟩ := areRoots_of_addRootField hroots hx
    obtain ⟨hroots', added, hlog, hadded, hkinds⟩ := ih hroots₁ h
    have hnotices : ∀ n ∈ exposureNotices queries earlier x, isExposure n = true := by
      unfold exposureNotices
      split
      · exact fun n hn => by rw [List.mem_singleton.1 hn]; rfl
      · split
        · exact fun n hn => by rw [List.mem_singleton.1 hn]; rfl
        · exact nofun
    have hothers : renamings.filter isExposure = [] := by
      rw [List.filter_eq_nil_iff]
      intro n hn
      obtain ⟨preferred, given, rfl⟩ := hrenamings n hn
      exact Bool.false_ne_true
    refine ⟨by rwa [List.append_cons], exposureNotices queries earlier x ++ renamings ++ added, ?_, ?_, ?_⟩
    · rw [hlog, hlog₁]
      simp only [List.append_assoc]
    · rw [List.filter_append, List.filter_append, hothers, List.append_nil, List.filter_eq_self.2 hnotices, hadded]
      rfl
    · intro n hn
      rcases List.mem_append.1 hn with hn | hn
      · exact (List.mem_append.1 hn).imp (hnotices n) (hrenamings n)
      · exact hkinds n hn

/-- The root fields have the query names of the exposed functions, in the order in which they first occur. -/
theorem AreRoots.names_eq {xs : List Offered} (h : AreRoots queries s xs fields) :
    fields.map (·.field.name) = ((exposedOf xs).map (queryOf queries)).eraseDups := by
  obtain ⟨all, rfl, hall⟩ := h
  rw [Graph.collect_keys, map_name_of_forall₂ hall]

/-- Under functions and their fields, the last field of a name is that of the last function of the query name. -/
private theorem exists_last_of_forall₂ {xs : List Offered} {all : List RootField}
    (h : List.Forall₂ (Stands queries s) xs all)
    {name : String} {r : RootField} (hr : (all.filter fun r => r.field.name = name).getLast? = some r) :
    ∃ x, (xs.filter fun x => queryOf queries x = name).getLast? = some x ∧ Stands queries s x r := by
  have hfilter : List.Forall₂ (Stands queries s) (xs.filter fun x => queryOf queries x = name)
      (all.filter fun r => r.field.name = name) := by
    refine List.rel_filter (fun x r hx => ?_) h
    show decide (queryOf queries x = name) = true ↔ decide (r.field.name = name) = true
    rw [hx.name]
  generalize xs.filter (fun x => queryOf queries x = name) = ys at hfilter
  generalize all.filter (fun r => r.field.name = name) = rs at hfilter hr
  induction hfilter with
  | nil => cases hr
  | @cons y r' ys rs hy hfilter ih =>
    cases hfilter with
    | nil =>
      cases hr
      exact ⟨y, rfl, hy⟩
    | cons _ _ => exact ih hr

/-- Each root field is that of the last exposed function that has its name. -/
theorem AreRoots.exists_last {xs : List Offered} (h : AreRoots queries s xs fields) {r : RootField} (hr : r ∈ fields) :
    ∃ x, ((exposedOf xs).filter fun x => queryOf queries x = r.field.name).getLast? = some x ∧
      Stands queries s x r := by
  obtain ⟨all, rfl, hall⟩ := h
  exact exists_last_of_forall₂ hall (Graph.getLast?_of_mem_collect hr)

theorem areRoots_of_rootFields {offers : List Offer} {root : List RootField}
    (h : Work.run (rootFields queries offers) s = (.ok root, s')) :
    AreRoots queries s' (offeredFunctions offers) root ∧
      ∃ added, s'.log = s.log ++ added ∧
        added.filter isExposure = exposureLog queries [] (offeredFunctions offers) ∧
        ∀ n ∈ added, isExposure n = true ∨ Graph.IsRenaming n := by
  have hnone : AreRoots queries s [] [] := ⟨[], rfl, .nil⟩
  exact areRoots_of_addRootFields hnone h

end RootFields

/-! ### Where offers come from -/

/-- That an offer is the first service of the file of an entry of the configuration. -/
structure Offer.IsOf (t : FileTree) (c : Config) (entry : Value × ServiceConfig) (o : Offer) : Prop where
  name : o.name = entry.1
  file : servicePath t c.idlPath entry.2.file = .ok o.file
  service : ∃ d, t.document o.file = .ok d ∧ d.services.head? = some o.service
  strict : o.strict = c.strict.isTrue
  methods : o.methods = entry.2.methods

/-- That all documents are those of the files. -/
def IsLoaded (t : FileTree) (l : Library) : Prop := ∀ e ∈ l.entries, t.document e.1 = .ok e.2

private theorem isLoaded_loadPending {t : FileTree} {l : Library} (h : IsLoaded t l) (paths : List Path) :
    IsLoaded t (Source.loadPending t l paths).library := by
  obtain ⟨added, hg⟩ := Source.exists_growth t l paths
  intro e he
  rw [hg.entries, List.mem_append] at he
  exact he.elim (h e) (hg.document e)

section Preparing

variable {t : FileTree} {c : Config} {p p' : Prepared} {s s' : Session}

/-- Preparing a service offers the first service of its file. -/
private theorem exists_offer_of_prepareService {entry : Value × ServiceConfig}
    (h : Work.run (prepareService t c p entry.1 entry.2) s = (.ok p', s')) (hs : IsLoaded t s.library) :
    IsLoaded t s'.library ∧ ∃ o, Offer.IsOf t c entry o ∧ p'.offers = p.offers ++ [o] := by
  unfold prepareService at h
  obtain ⟨file, s₁, hfile, hload⟩ := Work.run_bind_eq_ok.1 h
  obtain ⟨hpath, rfl⟩ : servicePath t c.idlPath entry.2.file = .ok file ∧ s = s₁ := by
    cases hpath : servicePath t c.idlPath entry.2.file with
    | error e =>
      rw [hpath] at hfile
      cases hfile
    | ok file' =>
      rw [hpath] at hfile
      cases hfile
      exact ⟨rfl, rfl⟩
  obtain ⟨failure, s₂, ⟨⟩, hfound⟩ := Work.run_bind_eq_ok.1 hload
  have hloaded : IsLoaded t (s.load t [file]).1.library := isLoaded_loadPending hs [file]
  split at hfound
  · cases hfound
  · obtain ⟨_, _, ⟨⟩, hfound⟩ := Work.run_bind_eq_ok.1 hfound
    dsimp only at hfound
    split at hfound
    · rename_i service hservice
      obtain ⟨_, _, ⟨⟩, hfound⟩ := Work.run_bind_eq_ok.1 hfound
      cases hfound
      obtain ⟨d, hd, hhead⟩ := Option.bind_eq_some_iff.1 hservice
      exact ⟨hloaded, ⟨entry.1, file, service, c.strict.isTrue, entry.2.methods⟩,
        ⟨rfl, hpath, ⟨d, hloaded _ (Library.mem_of_document? hd), hhead⟩, rfl, rfl⟩, rfl⟩
    · cases hfound

/-- All offers are first services of files of the configuration. -/
private theorem exists_entry_of_prepareServices {entries : List (Value × ServiceConfig)}
    (h : Work.run (prepareServices t c p entries) s = (.ok p', s')) (hs : IsLoaded t s.library)
    (hp : ∀ o ∈ p.offers, ∃ entry ∈ c.services, Offer.IsOf t c entry o) (hentries : ∀ e ∈ entries, e ∈ c.services) :
    ∀ o ∈ p'.offers, ∃ entry ∈ c.services, Offer.IsOf t c entry o := by
  induction entries generalizing p s with
  | nil =>
    cases h
    exact hp
  | cons entry entries ih =>
    rw [List.forall_mem_cons] at hentries
    obtain ⟨p₁, s₁, hprepare, h⟩ := Work.run_bind_eq_ok.1 h
    obtain ⟨hs₁, o, ho, hp₁⟩ := exists_offer_of_prepareService hprepare hs
    refine ih h hs₁ (fun o' ho' => ?_) hentries.2
    rw [hp₁, List.mem_append, List.mem_singleton] at ho'
    rcases ho' with ho' | rfl
    · exact hp o' ho'
    · exact ⟨entry, hentries.1, ho⟩

/-- Every root field of a generated schema calls a function of the first service of a file of the configuration, which
is offered. -/
theorem exists_offer_of_generate {types : TypeNaming} {queries : QueryNaming} {hasClient : Bool} {schema : Schema}
    (h : (generate t c types queries hasClient).outcome = .ok schema) {r : RootField} (hr : r ∈ schema.root) :
    ∃ entry ∈ c.services, ∃ o, Offer.IsOf t c entry o ∧ ∃ f ∈ o.service.functions, o.offers f = true ∧
      r.binding = ⟨o.name, f, o.hooks f.name⟩ := by
  obtain ⟨p, session, session', hprepare, hassemble⟩ := generate_eq_ok.1 h
  obtain ⟨s₁, -, hroot, -⟩ := stages_of_run_assemble hassemble
  obtain ⟨x, hx, hstands⟩ := (areRoots_of_rootFields hroot).1.exists_last hr
  obtain ⟨hmem, hoffers⟩ := List.mem_filter.1 (List.mem_filter.1 (List.mem_of_getLast? hx)).1
  obtain ⟨o, ho, hmem⟩ := List.mem_flatMap.1 hmem
  obtain ⟨f, hf, rfl⟩ := List.mem_map.1 hmem
  obtain ⟨entry, hentry, hof⟩ := exists_entry_of_prepareServices hprepare (fun _ he => nomatch he) nofun
    (fun _ he => he) o ho
  exact ⟨entry, hentry, o, hof, f, hf, hoffers, hstands.binding⟩

end Preparing

end ThriftGateway.Schema
