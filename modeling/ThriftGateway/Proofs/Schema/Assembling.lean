import ThriftGateway.Proofs.Schema.Carried
import ThriftGateway.Proofs.Source.Loading

/-!
# When a schema is assembled

A service is prepared if its file can be read (`run_prepareService_of_ok`), and assembling succeeds if its stages do
(`run_assemble_of_ok`).
-/

namespace ThriftGateway.Schema

open Graph (QueryNaming Session TypeNaming Work)
open Source (FileTree Path)

/-- A service of a file that includes nothing, and has not been loaded yet, is offered. -/
theorem run_prepareService_of_ok {t : FileTree} {c : Config} {s : Session} {file : Path} {d : Idl.Document}
    {service : Idl.Service} (p : Prepared) (name : Value) (entry : ServiceConfig)
    (hpath : servicePath t c.idlPath entry.file = .ok file) (hnew : s.library.contains file = false)
    (hd : t.document file = .ok d) (hincludes : d.includes = []) (hservice : d.services.head? = some service) :
    Work.run (prepareService t c p name entry) s =
      (.ok ⟨p.offers ++ [⟨name, file, service, c.strict.isTrue, entry.methods⟩],
          p.routing ++ [⟨name, file, entry.consul, entry.servers⟩]⟩,
        { s with
          library := s.library.add file d
          log := s.log ++ [.parsed file] ++ missingMethods name service (entry.methods.map Prod.fst) }) := by
  let loaded : Session := { s with library := s.library.add file d, log := s.log ++ [.parsed file] }
  have hload : s.load t [file] = (loaded, none) := by
    unfold Session.load Source.Library.load
    rw [Source.loadPending_of_includes_eq_nil hnew hd hincludes]
  have hhead : (loaded.library.document? file).bind (fun d => d.services.head?) = some service := by
    rw [Source.Library.document?_add_self hnew]
    exact hservice
  unfold prepareService
  rw [hpath, Work.run_bind_of_ok (Work.run_ofExcept_ok _), Work.run_bind_of_ok (Work.run_modifyGet _ _), hload]
  dsimp only
  rw [Work.run_bind_of_ok (Work.run_get loaded), hhead]
  rfl

/-- What is generated for one service, whose file includes nothing, is what its offer is assembled to. -/
theorem generate_of_service {t : FileTree} {c : Config} {file : Path} {d : Idl.Document} {service : Idl.Service}
    {name : Value} {entry : ServiceConfig} {log : List Notice} {s' : Session} {schema : Schema} {types : TypeNaming}
    {queries : QueryNaming} {hasClient : Bool} (hservices : c.services = [(name, entry)])
    (hpath : servicePath t c.idlPath entry.file = .ok file) (hd : t.document file = .ok d) (hincludes : d.includes = [])
    (hservice : d.services.head? = some service)
    (hlog : missingMethods name service (entry.methods.map Prod.fst) ++ (if hasClient then [] else [.noClient]) = log)
    (h : Work.run (assemble queries [⟨name, file, service, c.strict.isTrue, entry.methods⟩])
      { Session.fresh c.convertEnumToInt.isTrue types with library := ⟨[(file, d)]⟩, log := .parsed file :: log } =
        (.ok schema, s')) :
    (generate t c types queries hasClient).outcome = .ok schema := by
  let missing := missingMethods name service (entry.methods.map Prod.fst)
  have hprepare := run_prepareService_of_ok (s := Session.fresh c.convertEnumToInt.isTrue types) {} name entry hpath rfl
    hd hincludes hservice
  have hall : Work.run (prepareServices t c {} c.services) (Session.fresh c.convertEnumToInt.isTrue types) =
      (.ok ⟨[⟨name, file, service, c.strict.isTrue, entry.methods⟩], [⟨name, file, entry.consul, entry.servers⟩]⟩,
        { Session.fresh c.convertEnumToInt.isTrue types with
          library := ⟨[(file, d)]⟩, log := .parsed file :: missing }) := by
    rw [hservices]
    show Work.run (prepareService t c {} name entry >>= _) (Session.fresh c.convertEnumToInt.isTrue types) = _
    rw [Work.run_bind_of_ok hprepare]
    rfl
  refine generate_eq_ok.2 ⟨_, _, s', hall, ?_⟩
  subst hlog
  cases hasClient with
  | true => simpa using h
  | false => exact h

/-- Where the services can be reached is known once they have been prepared. -/
theorem routing_of_prepareServices {t : FileTree} {c : Config} {types : TypeNaming} {p : Prepared} {s : Session}
    (h : Work.run (prepareServices t c {} c.services) (Session.fresh c.convertEnumToInt.isTrue types) = (.ok p, s))
    (queries : QueryNaming) (hasClient : Bool) : (generate t c types queries hasClient).routing = p.routing := by
  unfold generate
  dsimp only
  rw [show (prepareServices t c {} c.services).run (Session.fresh c.convertEnumToInt.isTrue types) = (.ok p, s) from h]
  dsimp only
  split
  · rfl
  · rfl

/-- What is checked of a schema once its types are known. -/
structure Schema.IsValid (s : Schema) : Prop where
  distinct : firstRepeated [] (s.definitions.map Definition.name ++ Graph.describingNames) = none
  members : Graph.checkAll Graph.checkMemberName s.memberNames = .ok ()
  faultless : s.faults = []

/-- A schema is assembled if its root fields and types can be told and nothing is wrong with it. -/
theorem run_assemble_of_ok {queries : QueryNaming} {offers : List Offer} {s s' s'' : Session} {schema : Schema}
    (hroot : Work.run (rootFields queries offers) s = (.ok schema.root, s'))
    (hnames : Graph.checkAll Graph.checkName (schema.root.map (·.field.name)) = .ok ())
    (htypes : Work.run (collectTypes (typeBound s') [] (outputReferences (schema.root.map RootField.field))) s' =
      (.ok schema.types, s''))
    (h : schema.IsValid) : Work.run (assemble queries offers) s = (.ok schema, s''.close) := by
  have hroot' : Work.run (ExceptT.adapt AssemblyError.compile (rootFields queries offers)) s =
      (.ok schema.root, s') := by
    rw [Work.run_adapt, hroot]
    rfl
  have htypes' : Work.run (ExceptT.adapt AssemblyError.ofFields
      (collectTypes (typeBound s') [] (outputReferences (schema.root.map RootField.field)))) s' =
        (.ok schema.types, s'') := by
    rw [Work.run_adapt, htypes]
    rfl
  unfold assemble
  rw [Work.run_bind_of_ok hroot', hnames, Work.run_bind_of_ok (Work.run_ofExcept_ok s')]
  dsimp only
  rw [Work.run_bind_of_ok (Work.run_get s'), Work.run_bind_of_ok htypes']
  split
  · rename_i name hname
    cases hname.symm.trans h.distinct
  · rw [show Graph.checkAll Graph.checkMemberName (Schema.memberNames ⟨schema.root, schema.types⟩) = .ok ()
      from h.members, Work.run_bind_of_ok (Work.run_ofExcept_ok s''),
      show Schema.faults ⟨schema.root, schema.types⟩ = [] from h.faultless]
    rfl

/-- Where a schema has been assembled, the stages have succeeded, and the session is the one that collecting leaves,
closed. -/
theorem stages_of_run_assemble {queries : QueryNaming} {offers : List Offer} {s s₁ : Session} {schema : Schema}
    (h : Work.run (assemble queries offers) s = (.ok schema, s₁)) :
    ∃ s' s'', Work.run (rootFields queries offers) s = (.ok schema.root, s') ∧
      Work.run (collectTypes (typeBound s') [] (outputReferences (schema.root.map RootField.field))) s' =
        (.ok schema.types, s'') ∧ schema.IsValid ∧ s₁ = s''.close := by
  obtain ⟨root, s', hroot, h₁⟩ := Work.run_bind_eq_ok.1 h
  obtain ⟨_, _, hnames, h₂⟩ := Work.run_bind_eq_ok.1 h₁
  obtain ⟨-, rfl⟩ := Work.run_ofExcept_eq_ok.1 hnames
  obtain ⟨_, _, ⟨⟩, h₃⟩ := Work.run_bind_eq_ok.1 h₂
  obtain ⟨types, s'', htypes, h₄⟩ := Work.run_bind_eq_ok.1 h₃
  dsimp only at h₄
  split at h₄
  · cases h₄
  · rename_i hdistinct
    obtain ⟨_, _, hmembers, h₅⟩ := Work.run_bind_eq_ok.1 h₄
    obtain ⟨hchecked, rfl⟩ := Work.run_ofExcept_eq_ok.1 hmembers
    split at h₅
    · cases h₅
    · rename_i hfaults
      obtain ⟨_, _, ⟨⟩, h₆⟩ := Work.run_bind_eq_ok.1 h₅
      cases h₆
      have hfaultless : Schema.faults ⟨root, types⟩ = [] := by simpa using hfaults
      exact ⟨_, _, Work.run_adapt_eq_ok.1 hroot, Work.run_adapt_eq_ok.1 htypes,
        ⟨Option.eq_none_iff_forall_ne_some.2 hdistinct, hchecked, hfaultless⟩, rfl⟩

end ThriftGateway.Schema
