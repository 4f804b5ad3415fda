import ThriftGateway.Proofs.Schema.Checking
import ThriftGateway.Proofs.Schema.Likeness
import ThriftGateway.Proofs.Schema.Printing
import ThriftGateway.Proofs.Value.Entries
import ThriftGateway.Proofs.Value.Sorting
import ThriftGateway.Schema.Generation

/-!
# Configurations written and read again

A configuration that is written as a value and read again lists the methods of its services in order, and is the same
otherwise (`exists_ofValue_toValue`).  Generating depends on the methods by which are listed only, so it gives the same
for both, and writing the second one gives the same value again (`generate_ofValue_toValue`).
-/

namespace ThriftGateway

namespace ServiceConfig

/-- The same service with its methods in another order, and no hooks. -/
structure Reorders (s s' : ServiceConfig) : Prop where
  file : s'.file = s.file
  consul : s'.consul = s.consul
  servers : s'.servers = s.servers
  methods : s'.methods.Perm s.methods
  hooks : ∀ e ∈ s.methods, e.2 = {}

/-- The methods are listed by different names and have no hooks. -/
def HasNames (s : ServiceConfig) : Prop :=
  ∃ names : List String, names.Nodup ∧ s.methods = names.map fun name => (.text name, {})

end ServiceConfig

namespace Config

/-- A configuration as there can be one: the services have different names, and each lists different methods by their
names, without hooks. -/
structure IsKeyed (c : Config) : Prop where
  services : c.services.Pairwise fun x y => Value.same x.1 y.1 = false
  methods : ∀ x ∈ c.services, x.2.HasNames

/-- The same configuration with the methods of its services in another order. -/
def Reorders (c c' : Config) : Prop :=
  ∃ services, List.Forall₂ (fun x x' => x'.1 = x.1 ∧ x.2.Reorders x'.2) c.services services ∧ c' = { c with services }

end Config

/-! ### Writing and reading -/

private theorem lookup?_cons (key : String) (v : Value) (name : String) (entries : List (Value × Value)) :
    Value.lookup? ((.text key, v) :: entries) (.text name) =
      if key = name then some v else Value.lookup? entries (.text name) := by
  unfold Value.lookup?
  rw [List.find?_cons, Value.same_text]
  by_cases h : key = name
  · simp [h]
  · simp [h]

private theorem distinctKeys_texts (done : List String) {names : List String} (h : (done ++ names).Nodup) :
    distinctKeys (done.map Value.text) (names.map Value.text) = .ok ((done ++ names).map Value.text) := by
  induction names generalizing done with
  | nil => simp [distinctKeys]
  | cons name names ih =>
    have hnew : (done.map Value.text).any (Value.same · (.text name)) = false := by
      rw [List.any_eq_false]
      intro v hv
      obtain ⟨other, hother, rfl⟩ := List.mem_map.1 hv
      have hne : other ≠ name := (List.nodup_append.1 h).2.2 other hother name List.mem_cons_self
      simp [Value.same_text, hne]
    have hkey : (Value.text name).unkeyable? = none := by rw [Value.unkeyable?] <;> nofun
    rw [List.map_cons, distinctKeys, hkey, hnew]
    have happend : done.map Value.text ++ [Value.text name] = (done ++ [name]).map Value.text := by simp
    dsimp only
    rw [if_neg Bool.false_ne_true, happend, ih _ (by simpa using h), List.append_assoc, List.singleton_append]

theorem ServiceConfig.exists_ofValue_toValue {s : ServiceConfig} (h : s.HasNames) :
    ∃ v s', s.toValue = .ok v ∧ ServiceConfig.ofValue v = .ok s' ∧ s.Reorders s' ∧ s'.toValue = .ok v := by
  obtain ⟨names, hnodup, hnames⟩ := h
  obtain ⟨sorted, hsort, hperm, hsorted⟩ := Value.exists_sort?_texts names
  have hvalue : ∀ methods, Value.sort? (methods.map Prod.fst) = some (sorted.map Value.text) →
      ServiceConfig.toValue { s with methods } =
        .ok (.map [(.text "file", s.file), (.text "consul", s.consul), (.text "servers", .list s.servers),
          (.text "methods", .list (sorted.map Value.text))]) := by
    intro methods hm
    unfold ServiceConfig.toValue
    dsimp only
    rw [hm]
    dsimp only
    have hrecord := Value.record_eq_map [("file", s.file), ("consul", s.consul),
      ("servers", .list s.servers), ("methods", .list (sorted.map Value.text))] (by simp)
    rw [hrecord]
    rfl
  have hfirst (names : List String) : (names.map fun name => (Value.text name, ({} : Service.Hooks))).map Prod.fst =
      names.map Value.text := by
    rw [List.map_map]
    rfl
  refine ⟨_, { s with methods := sorted.map fun name => (.text name, {}) }, ?_, ?_, ⟨rfl, rfl, rfl, ?_, ?_⟩,
    hvalue _ (by rw [hfirst, Value.sort?_of_sorted hsorted])⟩
  · exact hvalue s.methods (by rw [hnames, hfirst, hsort])
  · have hkeys := distinctKeys_texts [] (show ([] ++ sorted).Nodup from hperm.nodup_iff.2 hnodup)
    rw [List.map_nil, List.nil_append] at hkeys
    unfold ServiceConfig.ofValue settingOf
    simp [lookup?_cons, Value.items, Value.items?, hkeys, bind, Except.bind, pure, Except.pure]
  · rw [hnames]
    exact hperm.map _
  · intro e he
    rw [hnames] at he
    obtain ⟨_, -, rfl⟩ := List.mem_map.1 he
    rfl

/-- Services are written and read one by one, with the names that they have. -/
private theorem exists_servicesOf_serviceEntries {services : List (Value × ServiceConfig)}
    (h : ∀ x ∈ services, x.2.HasNames) :
    ∃ entries services', serviceEntries services = .ok entries ∧ entries.map Prod.fst = services.map Prod.fst ∧
      servicesOf entries = .ok services' ∧
      List.Forall₂ (fun x x' => x'.1 = x.1 ∧ x.2.Reorders x'.2) services services' ∧
      serviceEntries services' = .ok entries := by
  induction services with
  | nil => exact ⟨[], [], rfl, rfl, rfl, .nil, rfl⟩
  | cons x services ih =>
    obtain ⟨name, s⟩ := x
    rw [List.forall_mem_cons] at h
    obtain ⟨v, s', hv, hs', hreorders, hv'⟩ := ServiceConfig.exists_ofValue_toValue h.1
    obtain ⟨entries, services', hentries, hnames, hread, hservices, hagain⟩ := ih h.2
    refine ⟨(name, v) :: entries, (name, s') :: services', ?_, by simp [hnames], ?_, .cons ⟨rfl, hreorders⟩ hservices,
      ?_⟩
    · rw [serviceEntries, hv, hentries]
      rfl
    · rw [servicesOf, hs', hread]
      rfl
    · rw [serviceEntries, hv', hagain]
      rfl

/-- A configuration that is written and read again lists the methods of its services in order and is the same
otherwise; writing it gives the same value. -/
theorem Config.exists_ofValue_toValue {c : Config} (h : c.IsKeyed) :
    ∃ v c', c.toValue = .ok v ∧ Config.ofValue v = .ok c' ∧ c.Reorders c' ∧ c'.toValue = .ok v := by
  obtain ⟨entries, services, hentries, hnames, hread, hservices, hagain⟩ := exists_servicesOf_serviceEntries h.methods
  have hkeys : entries.Pairwise fun e e' => Value.same e.1 e'.1 = false := by
    have hpairs : (entries.map Prod.fst).Pairwise fun k k' => Value.same k k' = false := by
      rw [hnames, List.pairwise_map]
      exact h.services
    exact List.pairwise_map.1 hpairs
  have hvalue : ∀ services, serviceEntries services = .ok entries →
      Config.toValue { c with services } =
        .ok (.map [(.text "idl_path", c.idlPath), (.text "strict", c.strict),
          (.text "convert_enum_to_int", c.convertEnumToInt), (.text "services", .map entries),
          (.text "add_generation_comment", c.addGenerationComment)]) := by
    intro services hs
    unfold Config.toValue
    dsimp only
    rw [hs, ← Value.ofEntries_of_pairwise hkeys]
    have hrecord := Value.record_eq_map [("idl_path", c.idlPath), ("strict", c.strict),
      ("convert_enum_to_int", c.convertEnumToInt), ("services", Value.ofEntries entries),
      ("add_generation_comment", c.addGenerationComment)] (by simp)
    simp only [bind, Except.bind, pure, Except.pure]
    rw [hrecord]
    rfl
  refine ⟨_, { c with services }, hvalue c.services hentries, ?_, ⟨services, hservices, rfl⟩, hvalue services hagain⟩
  unfold Config.ofValue settingOf
  simp [lookup?_cons, hread, bind, Except.bind, pure, Except.pure]

/-! ### Generating -/

namespace Schema

open Graph (Agree Likeness Session Work expandType)
open Source (FileTree Library)

/-- The same offer with its methods in another order, and no hooks. -/
def Offer.Reorders (o o' : Offer) : Prop :=
  o'.methods.Perm o.methods ∧ (∀ e ∈ o.methods, e.2 = {}) ∧ o' = { o with methods := o'.methods }

/-- Without hooks of any listed method there are none. -/
private theorem Offer.hooks_eq_none {o : Offer} (h : ∀ e ∈ o.methods, e.2 = {}) : o.hooks = fun _ => {} := by
  funext method
  unfold Offer.hooks
  cases hfind : o.methods.find? fun e => Value.same (.text method) e.1 with
  | none => rfl
  | some e => exact h e (List.mem_of_find?_eq_some hfind)

/-- The same services, with methods in another order. -/
structure Prepared.Reorders (p p' : Prepared) : Prop where
  offers : List.Forall₂ Offer.Reorders p.offers p'.offers
  routing : p'.routing = p.routing

variable {t : FileTree} {c c' : Config}

/-- Preparing a service does the same whatever the order of its methods is and whatever has been reported: it succeeds
or fails alike, and the sessions differ in what has been reported only. -/
private theorem run_prepareService_reorders {x x' : ServiceConfig} (hx : x.Reorders x') {p p' : Prepared}
    (hp : p.Reorders p') (name : Value) (services : List (Value × ServiceConfig)) (s : Session) (log : List Notice) :
    Agree False Prepared.Reorders (Work.run (prepareService t c p name x) s).1
        (Work.run (prepareService t { c with services } p' name x') { s with log }).1 ∧
      ∃ log', (Work.run (prepareService t { c with services } p' name x') { s with log }).2 =
        { (Work.run (prepareService t c p name x) s).2 with log := log' } := by
  unfold prepareService
  rw [hx.file, hx.consul, hx.servers]
  dsimp only
  cases servicePath t c.idlPath x.file with
  | error e => exact ⟨.error e, log, rfl⟩
  | ok file =>
    rw [Work.run_bind_of_ok (Work.run_ofExcept_ok _), Work.run_bind_of_ok (Work.run_modifyGet _ _),
      Work.run_bind_of_ok (Work.run_ofExcept_ok _), Work.run_bind_of_ok (Work.run_modifyGet _ _)]
    unfold Session.load
    dsimp only
    cases (s.library.load t [file]).error with
    | some e => exact ⟨.error _, _, rfl⟩
    | none =>
      dsimp only
      rw [Work.run_bind_of_ok (Work.run_get _), Work.run_bind_of_ok (Work.run_get _)]
      dsimp only
      cases ((s.library.load t [file]).library.document? file).bind fun d => d.services.head? with
      | none => exact ⟨.error _, _, rfl⟩
      | some service =>
        refine ⟨.ok ⟨List.rel_append hp.offers (.cons ⟨hx.methods, hx.hooks, rfl⟩ .nil), ?_⟩, _, rfl⟩
        dsimp only
        rw [hp.routing]

private theorem run_prepareServices_reorders (services : List (Value × ServiceConfig))
    {xs xs' : List (Value × ServiceConfig)}
    (hxs : List.Forall₂ (fun x x' => x'.1 = x.1 ∧ x.2.Reorders x'.2) xs xs') {p p' : Prepared} (hp : p.Reorders p')
    (s : Session) (log : List Notice) :
    Agree False Prepared.Reorders (Work.run (prepareServices t c p xs) s).1
        (Work.run (prepareServices t { c with services } p' xs') { s with log }).1 ∧
      ∃ log', (Work.run (prepareServices t { c with services } p' xs') { s with log }).2 =
        { (Work.run (prepareServices t c p xs) s).2 with log := log' } := by
  induction hxs generalizing p p' s log with
  | nil => exact ⟨.ok hp, log, rfl⟩
  | @cons x x' xs xs' hx _ ih =>
    obtain ⟨name, x⟩ := x
    obtain ⟨name', x'⟩ := x'
    obtain ⟨rfl, hx⟩ := hx
    obtain ⟨hagree, log', hlog'⟩ := run_prepareService_reorders (t := t) (c := c) hx hp name' services s log
    unfold prepareServices
    rw [Work.run_bind, Work.run_bind]
    generalize Work.run (prepareService t c p name' x) s = r at hagree hlog' ⊢
    generalize Work.run (prepareService t { c with services } p' name' x') { s with log } = r' at hagree hlog' ⊢
    obtain ⟨r, s₁⟩ := r
    obtain ⟨r', s₁'⟩ := r'
    obtain rfl : s₁' = { s₁ with log := log' } := hlog'
    cases hagree with
    | ok h => exact ih h s₁ log'
    | error e => exact ⟨.error e, log', rfl⟩
    | excused h => exact h.elim

/-- The likeness of a library with itself, whatever is reported. -/
private def itself (l : Library) : Likeness :=
  .plain l l False (fun _ _ => True) (fun _ h => h) fun _ _ => .refl (fun _ => rfl) _

/-- Assembling depends on the methods by which are listed only, and not on what has been reported. -/
private theorem run_assemble_reorders (naming : Graph.QueryNaming) {os os' : List Offer}
    (h : List.Forall₂ Offer.Reorders os os') (s : Session) (log : List Notice) :
    (Work.run (assemble naming os') { s with log }).1 = (Work.run (assemble naming os) s).1 := by
  have hoffers : List.Forall₂ (OfferAlike (itself s.library)) os os' := by
    refine h.imp fun o o' ho => ?_
    obtain ⟨hperm, hnone, heq⟩ := ho
    have hnone' : ∀ e ∈ o'.methods, e.2 = {} := fun e he => hnone e (hperm.mem_iff.1 he)
    have hhooks : o'.hooks = o.hooks := (Offer.hooks_eq_none hnone').trans (Offer.hooks_eq_none hnone).symm
    have hlists : o'.lists = o.lists := funext fun method => hperm.any_eq
    rw [heq] at hhooks hlists ⊢
    exact ⟨rfl, rfl, rfl, functionsAlike_refl rfl _ _, rfl, hlists, hhooks⟩
  have hsessions : (itself s.library).Sessions s { s with log } :=
    (Likeness.sessions_iff rfl).2 ⟨rfl, trivial, rfl⟩
  have houtcome := assemble_follows naming hoffers s { s with log } hsessions
  generalize Work.run (assemble naming os) s = r at houtcome ⊢
  generalize Work.run (assemble naming os') { s with log } = r' at houtcome ⊢
  cases houtcome with
  | ok h => rw [schemaAlike_eq rfl h]
  | error e => rfl
  | excused h => exact h.elim

/-- Whatever the order of methods is, generating comes to the same, and the services can be reached in the same way. -/
private theorem generate_reorders (h : c.Reorders c') (t : FileTree) (types : Graph.TypeNaming)
    (queries : Graph.QueryNaming) (hasClient : Bool) :
    (generate t c' types queries hasClient).outcome = (generate t c types queries hasClient).outcome ∧
      (generate t c' types queries hasClient).routing = (generate t c types queries hasClient).routing := by
  obtain ⟨services, hservices, rfl⟩ := h
  unfold generate
  dsimp only
  generalize Session.fresh c.convertEnumToInt.isTrue types = s
  have hnothing : Prepared.Reorders {} {} := ⟨.nil, rfl⟩
  have hprepare := run_prepareServices_reorders (t := t) (c := c) services hservices hnothing s s.log
  change Agree _ _ _ (Work.run (prepareServices t { c with services } {} services) s).1 ∧
    ∃ log', (Work.run (prepareServices t { c with services } {} services) s).2 = _ at hprepare
  generalize Work.run (prepareServices t c {} c.services) s = r at hprepare ⊢
  generalize Work.run (prepareServices t { c with services } {} services) s = r' at hprepare ⊢
  obtain ⟨r, s₁⟩ := r
  obtain ⟨r', s₁'⟩ := r'
  obtain ⟨hagree, log, hlog⟩ := hprepare
  obtain rfl : s₁' = { s₁ with log } := hlog
  cases hagree with
  | excused h => exact h.elim
  | error e => exact ⟨rfl, rfl⟩
  | @ok p p' hp =>
    -- what is reported before assembling does not matter
    have hreported : ∃ log', (if hasClient then { s₁ with log } else { s₁ with log }.report .noClient) =
        { (if hasClient then s₁ else s₁.report .noClient) with log := log' } := by
      cases hasClient <;> exact ⟨_, rfl⟩
    obtain ⟨log', hlog'⟩ := hreported
    dsimp only
    rw [hlog']
    generalize (if hasClient then s₁ else s₁.report .noClient) = s₂
    have hassemble := run_assemble_reorders queries hp.offers s₂ log'
    generalize Work.run (assemble queries p.offers) s₂ = a at hassemble ⊢
    generalize Work.run (assemble queries p'.offers) { s₂ with log := log' } = a' at hassemble ⊢
    obtain ⟨a, s₃⟩ := a
    obtain ⟨a', s₃'⟩ := a'
    obtain rfl : a' = a := hassemble
    cases a' with
    | error e => exact ⟨rfl, hp.routing⟩
    | ok schema => exact ⟨rfl, hp.routing⟩

/-- A configuration is written as a value, and what is read from the value is written as the same value again.  For all
files, with or without a client, generating comes to the same for both: the same schema and the same places where the
services can be reached, or the same error. -/
theorem generate_ofValue_toValue (h : c.IsKeyed) :
    ∃ v c', c.toValue = .ok v ∧ Config.ofValue v = .ok c' ∧ c'.toValue = .ok v ∧
      ∀ (t : FileTree) (hasClient : Bool),
        let g := generate t c Graph.declaredName Graph.joinedName hasClient
        let g' := generate t c' Graph.declaredName Graph.joinedName hasClient
        g'.outcome = g.outcome ∧ g'.outcome.map Schema.print = g.outcome.map Schema.print ∧ g'.routing = g.routing := by
  obtain ⟨v, c', hv, hc', hreorders, hagain⟩ := Config.exists_ofValue_toValue h
  refine ⟨v, c', hv, hc', hagain, fun t hasClient => ?_⟩
  obtain ⟨houtcome, hrouting⟩ := generate_reorders hreorders t Graph.declaredName Graph.joinedName hasClient
  exact ⟨houtcome, by rw [houtcome], hrouting⟩

/-- A configuration with two services, one of which lists its methods out of order. -/
def unsorted : Config where
  idlPath := .text "idl"
  services := [(.text "calculator", ⟨.text "c.thrift", .text "calc", [.text "a:1"],
      [(.text "sub", {}), (.text "add", {})]⟩),
    (.text "other", ⟨.text "o.thrift", .text "", [], []⟩)]

namespace unsorted

/-- The file of the service that lists methods. -/
def first : Source.Path := ⟨["idl", "c.thrift"]⟩

/-- The file of the other service. -/
def second : Source.Path := ⟨["idl", "o.thrift"]⟩

/-- A tree with both files. -/
def tree : FileTree where
  working := ⟨[]⟩
  files := [(first, Text.encode "service C { i32 add() i32 sub() }"), (second, Text.encode "service O { i32 get() }")]

/-- A function that gives a number. -/
def function (name : String) : Idl.Function := ⟨1, name, .base 1 "i32", [], [], false, none⟩

/-- The service that lists methods. -/
def calculator : Idl.Service := ⟨1, "C", none, [function "add", function "sub"], none⟩

/-- The other service. -/
def other : Idl.Service := ⟨1, "O", none, [function "get"], none⟩

/-- What the first file declares. -/
def parsed : Idl.Document := ⟨1, [.service calculator], some first⟩

/-- What the second file declares. -/
def parsed' : Idl.Document := ⟨1, [.service other], some second⟩

/-- The offer of the listed methods. -/
def offer : Offer := ⟨.text "calculator", first, calculator, true, [(.text "sub", {}), (.text "add", {})]⟩

/-- The offer of the other service. -/
def offer' : Offer := ⟨.text "other", second, other, true, []⟩

/-- What is offered, and where it can be reached. -/
def prepared : Prepared where
  offers := [offer, offer']
  routing := [⟨.text "calculator", first, .text "calc", [.text "a:1"]⟩, ⟨.text "other", second, .text "", []⟩]

/-- The root field of a function. -/
def root (name query : String) : RootField :=
  ⟨⟨query, .named (.scalar .int), [], none⟩, ⟨.text "calculator", function name, offer.hooks name⟩⟩

/-- The schema of the functions that are listed. -/
def schema : Schema := ⟨[root "add" "C_add", root "sub" "C_sub"], [(.scalar .int, .scalar .int)]⟩

/-- The session once the files have been read, with some reports. -/
def session (log : List Notice) : Session :=
  { Session.fresh false Graph.declaredName with
    library := ⟨[(first, parsed), (second, parsed')]⟩, log := .parsed first :: .parsed second :: log }

/-- The session once the first file has been read, with some reports. -/
def begun (log : List Notice) : Session :=
  { Session.fresh false Graph.declaredName with library := ⟨[(first, parsed)]⟩, log := .parsed first :: log }

/-- Whether a file is the first one. -/
def isFirst : Idl.Document → Bool
  | ⟨1, [.service ⟨1, "C", none, [⟨1, "add", .base 1 "i32", [], [], false, none⟩,
      ⟨1, "sub", .base 1 "i32", [], [], false, none⟩], none⟩], some ⟨["idl", "c.thrift"]⟩⟩ => true
  | _ => false

/-- Whether a file is the second one. -/
def isSecond : Idl.Document → Bool
  | ⟨1, [.service ⟨1, "O", none, [⟨1, "get", .base 1 "i32", [], [], false, none⟩], none⟩],
      some ⟨["idl", "o.thrift"]⟩⟩ => true
  | _ => false

private theorem parsed_eq : tree.document first = .ok parsed := by
  obtain ⟨d, hd, hview⟩ := Source.exists_document_of_any (t := tree) (p := first) isFirst (by decide +kernel)
  unfold isFirst at hview
  split at hview
  · exact hd
  · cases hview

private theorem parsed'_eq : tree.document second = .ok parsed' := by
  obtain ⟨d, hd, hview⟩ := Source.exists_document_of_any (t := tree) (p := second) isSecond (by decide +kernel)
  unfold isSecond at hview
  split at hview
  · exact hd
  · cases hview

private theorem servicePath_eq : servicePath tree unsorted.idlPath (.text "c.thrift") = .ok first ∧
    servicePath tree unsorted.idlPath (.text "o.thrift") = .ok second :=
  ⟨rfl, rfl⟩

/-- The methods are those of the services, the listed ones are offered, and the names of the schema are legal. -/
private theorem names_fine :
    (missingMethods (.text "calculator") calculator [.text "sub", .text "add"] = [] ∧
      missingMethods (.text "other") other [] = []) ∧
      (offer.offers (function "add") = true ∧ offer.offers (function "sub") = true ∧
        offer'.offers (function "get") = false) ∧
      Graph.IsLegalName "C_add" ∧ Graph.IsLegalName "C_sub" := by
  decide +kernel

private theorem run_prepareServices :
    Work.run (prepareServices tree unsorted {} unsorted.services) (Session.fresh false Graph.declaredName) =
      (.ok prepared, session []) := by
  obtain ⟨hfirst, hsecond⟩ := names_fine.1
  have hcalculator : Work.run (prepareService tree unsorted {} (.text "calculator")
      ⟨.text "c.thrift", .text "calc", [.text "a:1"], [(.text "sub", {}), (.text "add", {})]⟩)
      (Session.fresh false Graph.declaredName) =
        (.ok ⟨prepared.offers.take 1, prepared.routing.take 1⟩, begun []) := by
    rw [run_prepareService_of_ok {} _ _ servicePath_eq.1 rfl parsed_eq rfl rfl]
    show (_, begun (missingMethods (.text "calculator") calculator [.text "sub", .text "add"])) = _
    rw [hfirst]
    rfl
  have hother : Work.run (prepareService tree unsorted ⟨prepared.offers.take 1, prepared.routing.take 1⟩
      (.text "other") ⟨.text "o.thrift", .text "", [], []⟩) (begun []) = (.ok prepared, session []) := by
    rw [run_prepareService_of_ok _ _ _ servicePath_eq.2 (by decide) parsed'_eq rfl rfl]
    show (_, session (missingMethods (.text "other") other [])) = _
    rw [hsecond]
    rfl
  show Work.run (prepareService tree unsorted {} (.text "calculator") _ >>= _) _ = _
  rw [Work.run_bind_of_ok hcalculator]
  show Work.run (prepareService tree unsorted _ (.text "other") _ >>= _) _ = _
  rw [Work.run_bind_of_ok hother]
  rfl

private theorem run_function (name : String) (log : List Notice) :
    Work.run (Graph.compileFunction first (function name)) (session log) =
      (.ok ⟨name, .named (.scalar .int), [], none⟩, session log) := by
  have hint : Graph.expandType (session log).library [] first (.base 1 "i32") = .ok ⟨[], .scalar .int⟩ :=
    Graph.expandType_base rfl
  exact Graph.run_compileFunction_of_scalar (f := function name) hint rfl

private theorem run_rootFields :
    Work.run (rootFields Graph.joinedName prepared.offers) (session []) =
      (.ok schema.root, session [.notListed "other" "get"]) := by
  obtain ⟨hadd, hsub, hget⟩ := names_fine.2.1
  have hfirst : Work.run (addRootField Graph.joinedName offer [] (function "add")) (session []) =
      (.ok [root "add" "C_add"], session []) := by
    unfold addRootField
    rw [hadd]
    show Work.run (Graph.compileFunction first (function "add") >>= _) _ = _
    rw [Work.run_bind_of_ok (run_function "add" [])]
    rfl
  have hsecond : Work.run (addRootField Graph.joinedName offer [root "add" "C_add"] (function "sub")) (session []) =
      (.ok schema.root, session []) := by
    unfold addRootField
    rw [hsub]
    show Work.run (Graph.compileFunction first (function "sub") >>= _) _ = _
    rw [Work.run_bind_of_ok (run_function "sub" [])]
    rfl
  have hthird : Work.run (addRootField Graph.joinedName offer' schema.root (function "get")) (session []) =
      (.ok schema.root, session [.notListed "other" "get"]) := by
    unfold addRootField
    rw [hget]
    rfl
  show Work.run (addRootField Graph.joinedName offer [] (function "add") >>= _) _ = _
  rw [Work.run_bind_of_ok hfirst]
  show Work.run (addRootField Graph.joinedName offer _ (function "sub") >>= _) _ = _
  rw [Work.run_bind_of_ok hsecond]
  show Work.run (addRootField Graph.joinedName offer' _ (function "get") >>= _) _ = _
  rw [Work.run_bind_of_ok hthird]
  rfl

private theorem generate_eq :
    (generate tree unsorted Graph.declaredName Graph.joinedName true).outcome = .ok schema := by
  obtain ⟨-, -, hadd, hsub⟩ := names_fine
  refine generate_eq_ok.2 ⟨prepared, session [], _, run_prepareServices, run_assemble_of_scalar run_rootFields ?_ ?_ ?_⟩
  · exact List.cons_ne_nil _ _
  · exact List.forall_mem_cons.2 ⟨⟨hadd, nofun⟩, List.forall_mem_singleton.2 ⟨hsub, nofun⟩⟩
  · exact List.forall_mem_cons.2 ⟨rfl, List.forall_mem_singleton.2 rfl⟩

private theorem succeeds_print : Succeeds schema.print := by
  decide

end unsorted

/-- Its methods come back in order, and both configurations give the schema of the two methods, which can be printed,
and the places of both services. -/
theorem generate_ofValue_toValue_unsorted : unsorted.IsKeyed ∧ ∃ v c', unsorted.toValue = .ok v ∧
    Config.ofValue v = .ok c' ∧ c'.toValue = .ok v ∧
      (∀ (t : FileTree) (hasClient : Bool),
        (generate t c' Graph.declaredName Graph.joinedName hasClient).outcome =
          (generate t unsorted Graph.declaredName Graph.joinedName hasClient).outcome) ∧
      (generate unsorted.tree unsorted Graph.declaredName Graph.joinedName true).outcome = .ok unsorted.schema ∧
      (generate unsorted.tree c' Graph.declaredName Graph.joinedName true).outcome = .ok unsorted.schema ∧
      (∃ printed, unsorted.schema.print = .ok printed) ∧
      (generate unsorted.tree c' Graph.declaredName Graph.joinedName true).routing =
        [⟨.text "calculator", unsorted.first, .text "calc", [.text "a:1"]⟩,
          ⟨.text "other", unsorted.second, .text "", []⟩] := by
  have hkeyed : unsorted.IsKeyed := by
    constructor
    · simp [unsorted, Value.same_text]
    · simp only [unsorted, List.forall_mem_cons]
      exact ⟨⟨["sub", "add"], by decide, rfl⟩, ⟨[], List.nodup_nil, rfl⟩, nofun⟩
  obtain ⟨v, c', hv, hc', hagain, hgenerate⟩ := generate_ofValue_toValue hkeyed
  obtain ⟨houtcome, -, hrouting⟩ := hgenerate unsorted.tree true
  exact ⟨hkeyed, v, c', hv, hc', hagain, fun t hasClient => (hgenerate t hasClient).1, unsorted.generate_eq,
    houtcome.trans unsorted.generate_eq, unsorted.succeeds_print,
    hrouting.trans (routing_of_prepareServices unsorted.run_prepareServices Graph.joinedName true)⟩

end Schema

end ThriftGateway
