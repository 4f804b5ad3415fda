import ThriftGateway.Command.Run
import ThriftGateway.Proofs.Graph.Compile
import ThriftGateway.Proofs.Schema.Checking
import ThriftGateway.Proofs.Schema.Opening
import ThriftGateway.Proofs.Schema.Printing
import ThriftGateway.Proofs.Text.Utf8

/-!
# Running a command line again

A command line that writes a file can be run again, if the file that it writes is none of those that it reads.  What it
writes then is the same, but for the name of the file in the comment: a file that is there is shown by its name alone,
and one that is not there yet by its whole path (`run_again`).
-/

namespace ThriftGateway.Command

open Source (FileTree Path)

/-- That a command line asks for settings, and not for help. -/
def Asks (t : FileTree) (args : List String) (s : Settings) : Prop :=
  ∃ w, Words.read args = .ok w ∧ w.has .help = false ∧ w.settings t = .ok s

namespace Settings

/-- The configuration, and what stands for halves of characters in it. -/
def configuration (t : FileTree) (s : Settings) : Except CommandError (Config × Text.StandIns) :=
  s.config.elim (.ok ({}, {})) (readConfig t s.source)

/-- The configuration that the services are located by, with what the options say. -/
def located (t : FileTree) (s : Settings) (c : Config) : Option Config := (locate t c s.source).map s.apply

/-- The files that are read: that of the configuration, and those that are opened to generate the schema. -/
def reads (t : FileTree) (s : Settings) : List Path :=
  s.config.toList ++
    match s.configuration t with
    | .error _ => []
    | .ok (c, halves) =>
      (s.located t c).elim [] fun c => Schema.filesOpened { t with halves } c .empty c.services

/-- Whether the schema is told how it was made. -/
def isCommented (t : FileTree) (s : Settings) : Bool :=
  match s.configuration t with
  | .error _ => false
  | .ok (c, _) => c.addGenerationComment.isTrue

/-- The text for a schema that has been printed, from the configuration that the services are located by. -/
def text (t : FileTree) (s : Settings) (c : Config) (printed : String) : String :=
  endLine (if c.addGenerationComment.isTrue then s.comment t ++ "\n\n" ++ printed else printed)

/-- How a schema comes to be printed: by a configuration, which locates the services. -/
def Prints (t : FileTree) (s : Settings) (c : Config) (printed : String) : Prop :=
  ∃ given halves schema, s.configuration t = .ok (given, halves) ∧ s.located t given = some c ∧
    (Schema.generate { t with halves } c Graph.declaredName Graph.joinedName false).outcome = .ok schema ∧
    schema.print = .ok printed

end Settings

variable {t t' : FileTree} {s : Settings} {c : Config} {printed : String} {p : Path}

/-! ### Runs that come to an end -/

private theorem schemaText_eq_ok {schema : Schema.Schema} {text : String} :
    schemaText t s c schema = .ok text ↔ ∃ printed, schema.print = .ok printed ∧ text = s.text t c printed := by
  unfold schemaText
  cases schema.print with
  | error e => exact ⟨nofun, nofun⟩
  | ok printed =>
    constructor
    · intro h
      exact ⟨printed, rfl, (Except.ok.inj h).symm⟩
    · rintro ⟨_, ⟨⟩, rfl⟩
      rfl

/-- What has been printed is delivered. -/
private theorem ending_of_prints (h : s.Prints t c printed) :
    (s.run t).ending = deliver t s.target (s.text t c printed) := by
  obtain ⟨given, halves, schema, hconfiguration, hlocated, hschema, hprinted⟩ := h
  obtain ⟨found, hfound, rfl⟩ := Option.map_eq_some_iff.1 hlocated
  unfold Settings.configuration at hconfiguration
  unfold Settings.run
  rw [hconfiguration]
  dsimp only
  rw [hfound]
  dsimp only
  rw [hschema]
  dsimp only
  rw [schemaText_eq_ok.2 ⟨printed, hprinted, rfl⟩]

/-- A run that is done has printed a schema. -/
private theorem exists_prints_of_ending {out : String} (h : (s.run t).ending = .done out t') :
    ∃ c printed, s.Prints t c printed := by
  unfold Settings.run at h
  split at h
  · cases h
  · rename_i given halves hconfiguration
    split at h
    · cases h
    · rename_i found hfound
      dsimp only at h
      split at h
      · cases h
      · rename_i schema hschema
        split at h
        · cases h
        · rename_i text htext
          obtain ⟨printed, hprinted, -⟩ := schemaText_eq_ok.1 htext
          refine ⟨s.apply found, printed, given, halves, schema, hconfiguration, ?_, hschema, hprinted⟩
          unfold Settings.located
          rw [hfound]
          rfl

private theorem run_of_asks {args : List String} (h : Asks t args s) : run t args = s.run t := by
  obtain ⟨w, hw, hhelp, hs⟩ := h
  unfold run
  rw [hw]
  dsimp only
  rw [if_neg (by rw [hhelp]; exact Bool.false_ne_true), hs]

/-! ### After a file has been written -/

private theorem pathOf_congr (ht : t'.working = t.working) (written : String) :
    pathOf t' written = pathOf t written := by
  unfold pathOf
  rw [ht]

private theorem bind_eq_ok {ε α β : Type} {x : Except ε α} {k : α → Except ε β} {b : β} :
    (x >>= k) = .ok b ↔ ∃ a, x = .ok a ∧ k a = .ok b := by
  cases x with
  | error e => exact ⟨nofun, nofun⟩
  | ok a =>
    constructor
    · intro h
      exact ⟨a, rfl, h⟩
    · rintro ⟨_, ⟨⟩, h⟩
      exact h

/-- A configuration file that is asked for has to be a file. -/
private theorem configFile_eq_ok {written : String} {found : Option Path} :
    configFile t (some written) = .ok found ↔
      ∃ q, pathOf t written = .ok q ∧ (t.file? q).isSome = true ∧ found = some q := by
  unfold configFile
  refine bind_eq_ok.trans (exists_congr fun q => and_congr_right fun _ => ?_)
  dsimp only
  by_cases hfile : (t.file? q).isSome = true
  · have hcontains := FileTree.contains_of_isSome hfile
    have hsome : ¬(t.file? q).isNone = true := by
      rw [Option.isNone_iff_eq_none, ← Option.not_isSome_iff_eq_none]
      exact not_not_intro hfile
    rw [if_neg (by rw [hcontains]; exact Bool.false_ne_true), if_neg hsome]
    constructor
    · rintro ⟨⟩
      exact ⟨hfile, rfl⟩
    · rintro ⟨-, rfl⟩
      rfl
  · constructor
    · intro h
      split at h
      · cases h
      · rw [if_pos (Option.isNone_iff_eq_none.2 (Option.not_isSome_iff_eq_none.1 hfile))] at h
        cases h
    · rintro ⟨h, -⟩
      exact absurd h hfile

private theorem contains_of_configFile {w : Option String} {found : Option Path} (h : configFile t w = .ok found) :
    ∀ q ∈ found, t.contains q = true := by
  cases w with
  | none =>
    cases h
    exact nofun
  | some written =>
    obtain ⟨q, -, hfile, rfl⟩ := configFile_eq_ok.1 h
    rintro _ ⟨⟩
    exact FileTree.contains_of_isSome hfile

/-- The configuration file of the settings, and the source, which has to be there. -/
private theorem exists_of_settings {w : Words} (h : w.settings t = .ok s) :
    configFile t w.config = .ok s.config ∧ ∃ path operands, w.operands = path :: operands ∧
      pathOf t path = .ok s.source ∧ t.contains s.source = true := by
  unfold Words.settings at h
  obtain ⟨config, hconfig, h⟩ := bind_eq_ok.1 h
  split at h
  · cases h
  · rename_i path operands hoperands
    obtain ⟨source, hsource, h⟩ := bind_eq_ok.1 h
    dsimp only at h
    split at h
    · cases h
    · rename_i hcontains
      have hcontains : t.contains source = true := by simpa using hcontains
      have hsettings : s.config = config ∧ s.source = source := by
        split at h
        · cases h
        · split at h
          all_goals
            obtain ⟨target, -, h⟩ := bind_eq_ok.1 h
            split at h
            · cases h
            · cases h
              exact ⟨rfl, rfl⟩
      obtain ⟨rfl, rfl⟩ := hsettings
      exact ⟨hconfig, path, operands, hoperands, hsource, hcontains⟩

/-- After a file has been written, the same is asked for, if the configuration file is there. -/
private theorem settings_of_sameBut (ht : FileTree.SameBut p t t') {w : Words} (h : w.settings t = .ok s) :
    w.settings t' = .ok s := by
  obtain ⟨hconfig, path, operands, hoperands, hsource, hcontains⟩ := exists_of_settings h
  have hconfig' : configFile t' w.config = .ok s.config := by
    cases hw : w.config with
    | none =>
      rw [hw] at hconfig
      exact hconfig
    | some written =>
      rw [hw, configFile_eq_ok] at hconfig
      obtain ⟨q, hq, hfile, hfound⟩ := hconfig
      exact configFile_eq_ok.2 ⟨q, (pathOf_congr ht.working written).trans hq, ht.isSome_file? hfile, hfound⟩
  unfold Words.settings at h ⊢
  rw [hconfig] at h
  rw [hconfig']
  rw [hoperands] at h ⊢
  simp only [pathOf_congr ht.working, hsource] at h ⊢
  simp only [bind, Except.bind] at h ⊢
  rw [hcontains] at h
  rw [ht.contains hcontains]
  exact h

private theorem asks_of_sameBut (ht : FileTree.SameBut p t t') {args : List String} (h : Asks t args s) :
    Asks t' args s := by
  obtain ⟨w, hw, hhelp, hs⟩ := h
  exact ⟨w, hw, hhelp, settings_of_sameBut ht hs⟩

private theorem configuration_of_sameBut (ht : FileTree.SameBut p t t') (hp : ∀ q ∈ s.config, q ≠ p)
    {r : Config × Text.StandIns} (h : s.configuration t = .ok r) : s.configuration t' = .ok r := by
  unfold Settings.configuration at h ⊢
  cases hconfig : s.config with
  | none =>
    rw [hconfig] at h
    exact h
  | some q =>
    rw [hconfig] at h
    have hread : readConfig t s.source q = .ok r := h
    show readConfig t' s.source q = .ok r
    unfold readConfig at hread ⊢
    obtain ⟨bytes, hbytes, hrest⟩ := bind_eq_ok.1 hread
    refine bind_eq_ok.2 ⟨bytes, ?_, hrest⟩
    cases hfile : t.read q with
    | error e =>
      rw [hfile] at hbytes
      cases hbytes
    | ok found =>
      rw [hfile] at hbytes
      rw [ht.read (hp q hconfig) hfile]
      exact hbytes

private theorem located_of_sameBut (ht : FileTree.SameBut p t t') (c : Config) : s.located t' c = s.located t c := by
  unfold Settings.located locate
  rw [ht.isDirectory]

/-- The same schema is printed if what is written is not read. -/
private theorem prints_of_sameBut (ht : FileTree.SameBut p t t') (hp : p ∉ s.reads t) (h : s.Prints t c printed) :
    s.Prints t' c printed := by
  obtain ⟨given, halves, schema, hconfiguration, hlocated, hschema, hprinted⟩ := h
  unfold Settings.reads at hp
  rw [hconfiguration] at hp
  dsimp only at hp
  rw [hlocated, List.mem_append, not_or] at hp
  obtain ⟨hconfig, hopened⟩ := hp
  have hother : ∀ q ∈ s.config, q ≠ p := by
    rintro q hq rfl
    exact hconfig (Option.mem_toList.2 hq)
  refine ⟨given, halves, schema, configuration_of_sameBut ht hother hconfiguration,
    (located_of_sameBut ht given).trans hlocated, ?_, hprinted⟩
  exact Schema.generate_of_sameBut (ht.withHalves halves) hschema hopened

/-! ### The comment -/

/-- A path is longer than its last component. -/
private theorem name_ne_text (p : Path) : p.name ≠ p.text := by
  have hslash : "/".length = 1 := rfl
  have hlength : p.name.length < p.text.length := by
    unfold Path.name Path.text
    obtain hnil | ⟨front, last, hlast⟩ := List.eq_nil_or_concat' p.components
    · simp [hnil, hslash]
    · simp [hlast, String.length_join, String.length_append, hslash]
      omega
  intro heq
  rw [heq] at hlength
  exact Nat.lt_irrefl _ hlength

/-- What is there is shown as before. -/
private theorem shownPath_of_sameBut (ht : FileTree.SameBut p t t') {q : Path} (hq : t.contains q = true) :
    shownPath t' q = shownPath t q := by
  unfold shownPath
  rw [hq, ht.contains hq]

/-- The file that is written is shown as before exactly if it was there. -/
private theorem shownPath_eq_iff (ht : FileTree.SameBut p t t') :
    shownPath t' p = shownPath t p ↔ t.contains p = true := by
  have hthere := FileTree.contains_of_isSome ht.there
  constructor
  · intro h
    by_contra hp
    unfold shownPath at h
    rw [if_pos hthere, if_neg hp] at h
    exact name_ne_text p h
  · exact shownPath_of_sameBut ht

/-- The options of the command line in the comment. -/
private def shownOptions (t : FileTree) (s : Settings) : List String :=
  s.config.elim [] (fun c => [Switch.config.word, shownPath t c]) ++
    (if s.allMethods then [Switch.allMethods.word] else []) ++
    (if s.convertEnumToInt then [Switch.convertEnumToInt.word] else []) ++
    (if s.verbose then [Switch.verbose.word] else [])

private theorem commandLine_eq (htarget : s.target = some p) :
    s.commandLine t = programName ++ " " ++ (shownPath t s.source ++ " ") ++ shownPath t p ++
      " ".intercalate ("" :: shownOptions t s) := by
  have hwords : s.commandLine t =
      " ".intercalate (programName :: shownPath t s.source :: (shownPath t p ++ "") :: shownOptions t s) := by
    unfold Settings.commandLine shownOptions
    rw [htarget]
    simp only [Option.elim_some, List.cons_append, List.nil_append, List.append_assoc, String.append_empty]
  rw [hwords, String.intercalate_cons_cons, String.intercalate_cons_cons, String.intercalate_cons_append]
  simp only [String.append_assoc]

private theorem endLine_append (a b : String) (hb : b ≠ "") : endLine (a ++ b) = a ++ endLine b := by
  have hne : b.toList ≠ [] := by simpa using hb
  have hlast : (a ++ b).toList.getLast? = b.toList.getLast? := by
    rw [String.toList_append, List.getLast?_append_of_ne_nil _ hne]
  unfold endLine
  rw [hlast]
  split
  · rfl
  · rw [String.append_assoc]

/-- The texts of a schema are the same if there is no comment, or if there was something at the path before. -/
private theorem text_eq_iff (ht : FileTree.SameBut p t t') (hsource : t.contains s.source = true)
    (hconfig : ∀ q ∈ s.config, t.contains q = true) (htarget : s.target = some p) :
    s.text t' c printed = s.text t c printed ↔ t.contains p = true ∨ c.addGenerationComment.isTrue = false := by
  have hoptions : shownOptions t' s = shownOptions t s := by
    unfold shownOptions
    cases hc : s.config with
    | none => rfl
    | some q =>
      simp only [Option.elim_some]
      rw [shownPath_of_sameBut ht (hconfig q hc)]
  unfold Settings.text
  cases c.addGenerationComment.isTrue with
  | false => simp
  | true =>
    rw [if_pos rfl, if_pos rfl]
    unfold Settings.comment
    rw [commandLine_eq htarget, commandLine_eq htarget, hoptions, shownPath_of_sameBut ht hsource,
      ← shownPath_eq_iff ht]
    -- what stands behind the path is not empty, so a line end is missing in both texts or in neither
    have hne : " ".intercalate ("" :: shownOptions t s) ++ "\n\n" ++ printed ≠ "" := by simp
    have hparts : ∀ shown : String,
        endLine ("# Generated by " ++ programName ++ " v" ++ version ++ " : " ++
          (programName ++ " " ++ (shownPath t s.source ++ " ") ++ shown ++ " ".intercalate ("" :: shownOptions t s)) ++
            "\n\n" ++ printed) =
          ("# Generated by " ++ programName ++ " v" ++ version ++ " : " ++ programName ++ " " ++
            (shownPath t s.source ++ " ")) ++ (shown ++
              endLine (" ".intercalate ("" :: shownOptions t s) ++ "\n\n" ++ printed)) := by
      intro shown
      rw [← endLine_append shown _ hne, ← endLine_append _ _ (by simp)]
      simp only [String.append_assoc]
    rw [hparts, hparts, String.append_right_inj, String.append_left_inj]
    simp

/-! ### Running again -/

/-- Locating the services and the options leave the setting of the comment alone. -/
private theorem isCommented_of_prints (h : s.Prints t c printed) : s.isCommented t = c.addGenerationComment.isTrue := by
  obtain ⟨given, halves, schema, hconfiguration, hlocated, -⟩ := h
  obtain ⟨found, hfound, rfl⟩ := Option.map_eq_some_iff.1 hlocated
  have hsetting : found.addGenerationComment = given.addGenerationComment := by
    unfold locate at hfound
    split at hfound
    · split at hfound
      · cases hfound
      · cases hfound
        rfl
    · cases hfound
      rfl
  unfold Settings.isCommented
  rw [hconfiguration]
  show given.addGenerationComment.isTrue = found.addGenerationComment.isTrue
  rw [hsetting]

private theorem deliver_eq_done {text out : String} (h : deliver t (some p) text = .done out t') :
    t' = t.write p (Text.encode text) ∧ ((t.file? p).isSome = true ∨ t.isDirectory p.parent = true) := by
  unfold deliver at h
  dsimp only at h
  split at h
  · rename_i written hwritten
    cases h
    exact FileTree.writeFile_eq_ok hwritten
  · cases h

/-- Once the file has been written, with whatever bytes, the command line writes it again. -/
private theorem ending_after_write {args : List String} {bytes : List UInt8}
    (hp : (t.file? p).isSome = true ∨ t.isDirectory p.parent = true) (hasks : Asks t args s)
    (htarget : s.target = some p) (hprints : s.Prints t c printed) (hreads : p ∉ s.reads t) :
    (run (t.write p bytes) args).ending =
      .done "" (t.write p (Text.encode (s.text (t.write p bytes) c printed))) := by
  have ht := FileTree.sameBut_write t p bytes hp
  rw [run_of_asks (asks_of_sameBut ht hasks), ending_of_prints (prints_of_sameBut ht hreads hprints), htarget]
  unfold deliver
  dsimp only
  rw [FileTree.writeFile_of_file? ht.there, FileTree.write_write]

/-- A command line that writes a file which it does not read comes to an end again, and then once more in the same
way.  The second run leaves the file as the first one has written it exactly if something was there before or the
schema is not told how it was made. -/
theorem run_again {args : List String} {out : String} (hasks : Asks t args s) (htarget : s.target = some p)
    (hrun : (run t args).ending = .done out t') (hreads : p ∉ s.reads t) :
    ∃ t'', (run t' args).ending = .done "" t'' ∧ FileTree.SameBut p t' t'' ∧
      (t''.file? p = t'.file? p ↔ t.contains p = true ∨ s.isCommented t = false) ∧
      (run t'' args).ending = .done "" t'' := by
  rw [run_of_asks hasks] at hrun
  obtain ⟨c, printed, hprints⟩ := exists_prints_of_ending hrun
  rw [ending_of_prints hprints, htarget] at hrun
  obtain ⟨rfl, hp⟩ := deliver_eq_done hrun
  obtain ⟨w, -, -, hw⟩ := id hasks
  obtain ⟨hconfig, -, -, -, -, hsource⟩ := exists_of_settings hw
  have hthere := contains_of_configFile hconfig
  set first := Text.encode (s.text t c printed)
  set second := Text.encode (s.text (t.write p first) c printed)
  have ht := FileTree.sameBut_write t p first hp
  have ht' : FileTree.SameBut p (t.write p first) (t.write p second) := by
    have htwice := FileTree.sameBut_write (t.write p first) p second (.inl ht.there)
    rwa [FileTree.write_write] at htwice
  -- once the file is there, what is written no longer depends on what was written before
  have hsettled : s.text (t.write p second) c printed = s.text (t.write p first) c printed :=
    (text_eq_iff ht' (ht.contains hsource) (fun q hq => ht.contains (hthere q hq)) htarget).2
      (.inl (FileTree.contains_of_isSome ht.there))
  refine ⟨t.write p second, ending_after_write hp hasks htarget hprints hreads, ht', ?_, ?_⟩
  · rw [FileTree.file?_write_self, FileTree.file?_write_self, Option.some_inj, Text.encode_inj,
      text_eq_iff ht hsource hthere htarget, isCommented_of_prints hprints]
  · rw [ending_after_write hp hasks htarget hprints hreads, hsettled]

/-- A file with one service, and nothing where its schema is to be written. -/
def unwritten : FileTree where
  working := ⟨["idl"]⟩
  files := [(unwritten.file, Text.encode "service S { i32 f() }")]
where
  file : Path := ⟨["idl", "s.thrift"]⟩
  target : Path := ⟨["idl", "out.graphql"]⟩
  args : List String := ["s.thrift", "out.graphql"]
  settings : Settings := ⟨none, false, false, false, file, some target⟩
  function : Idl.Function := ⟨1, "f", .base 1 "i32", [], [], false, none⟩
  service : Idl.Service := ⟨1, "S", none, [function], none⟩
  parsed : Idl.Document := ⟨1, [.service service], some file⟩
  entry : ServiceConfig := ⟨.text "s.thrift", .text "", [], []⟩
  config : Config := { idlPath := .text "/idl", strict := .bool false, services := [(.text "s", entry)] }
  offer : Schema.Offer := ⟨.text "s", file, service, false, []⟩
  schema : Schema.Schema :=
    ⟨[⟨⟨"S_f", .named (.scalar .int), [], none⟩, ⟨.text "s", function, {}⟩⟩], [(.scalar .int, .scalar .int)]⟩

namespace unwritten

/-- The session once the file has been read. -/
def session : Graph.Session :=
  { Graph.Session.fresh false Graph.declaredName with library := ⟨[(file, parsed)]⟩, log := [.parsed file, .noClient] }

private theorem asks : Asks unwritten args settings := ⟨{ operands := args }, rfl, rfl, rfl⟩

/-- Whether a file declares the function. -/
def declaresGiven : Idl.Document → Bool
  | ⟨1, [.service ⟨1, "S", none, [⟨1, "f", .base 1 "i32", [], [], false, none⟩], none⟩],
      some ⟨["idl", "s.thrift"]⟩⟩ => true
  | _ => false

private theorem parsed_eq : unwritten.document file = .ok parsed := by
  obtain ⟨d, hd, hview⟩ := Source.exists_document_of_any (t := unwritten) (p := file) declaresGiven (by decide +kernel)
  unfold declaresGiven at hview
  split at hview
  · exact hd
  · cases hview

private theorem servicePath_eq : Schema.servicePath unwritten config.idlPath entry.file = .ok file := by rfl

private theorem run_rootFields : Graph.Work.run (Schema.rootFields Graph.joinedName [offer]) session =
    (.ok schema.root, session) := by
  have hint : Graph.expandType session.library [] file (.base 1 "i32") = .ok ⟨[], .scalar .int⟩ :=
    Graph.expandType_base rfl
  have hfunction : Graph.Work.run (Graph.compileFunction file function) session =
      (.ok ⟨"f", .named (.scalar .int), [], none⟩, session) :=
    Graph.run_compileFunction_of_scalar (f := function) hint rfl
  have hadd : Graph.Work.run (Schema.addRootField Graph.joinedName offer [] function) session =
      (.ok schema.root, session) := by
    unfold Schema.addRootField
    show Graph.Work.run (Graph.compileFunction file function >>= _) _ = _
    rw [Graph.Work.run_bind_of_ok hfunction]
    rfl
  show Graph.Work.run (Schema.addRootField Graph.joinedName offer [] function >>= _) _ = _
  rw [Graph.Work.run_bind_of_ok hadd]
  rfl

private theorem run_assemble : Graph.Work.run (Schema.assemble Graph.joinedName [offer]) session =
    (.ok schema, session.close) := by
  refine Schema.run_assemble_of_scalar run_rootFields (List.cons_ne_nil _ _) ?_ ?_
  · exact List.forall_mem_singleton.2 ⟨of_decide_eq_true (by decide), nofun⟩
  · exact List.forall_mem_singleton.2 rfl

private theorem generate_eq :
    (Schema.generate unwritten config Graph.declaredName Graph.joinedName false).outcome = .ok schema :=
  Schema.generate_of_service rfl servicePath_eq parsed_eq rfl rfl rfl run_assemble

/-- The schema is printed. -/
private theorem exists_prints : ∃ printed, settings.Prints unwritten config printed := by
  have hprint : Schema.Succeeds schema.print := by decide
  obtain ⟨printed, hprinted⟩ := hprint
  exact ⟨printed, {}, {}, schema, rfl, rfl, generate_eq, hprinted⟩

private theorem not_mem_reads : target ∉ settings.reads unwritten := by
  have hreads : settings.reads unwritten = [file] := by
    show Schema.filesOpened unwritten config .empty [(.text "s", entry)] = _
    rw [Schema.filesOpened, servicePath_eq]
    dsimp only
    unfold Source.Library.load
    rw [Source.loadPending_alone parsed_eq rfl]
    rfl
  rw [hreads, List.mem_singleton]
  decide

end unwritten

/-- The first run writes a file that is not there yet, and the second one writes something else. -/
theorem run_again_unwritten : ∃ t' t'' : FileTree,
    (run unwritten unwritten.args).ending = .done "" t' ∧ (run t' unwritten.args).ending = .done "" t'' ∧
      (t'.file? unwritten.target).isSome = true ∧ t''.file? unwritten.target ≠ t'.file? unwritten.target ∧
      (run t'' unwritten.args).ending = .done "" t'' := by
  obtain ⟨printed, hprints⟩ := unwritten.exists_prints
  let text := unwritten.settings.text unwritten unwritten.config printed
  have hrun : (run unwritten unwritten.args).ending =
      .done "" (unwritten.write unwritten.target (Text.encode text)) := by
    have hmissing : unwritten.missing unwritten.target = .notFound "/idl/out.graphql" := by decide +kernel
    have hwritten : ∀ bytes, unwritten.writeFile unwritten.target bytes =
      .ok (unwritten.write unwritten.target bytes) := by
      intro bytes
      unfold FileTree.writeFile
      rw [if_neg (by decide), hmissing]
      exact if_pos (by decide)
    rw [run_of_asks unwritten.asks, ending_of_prints hprints]
    show deliver unwritten (some unwritten.target) _ = _
    unfold deliver
    dsimp only
    rw [hwritten]
  obtain ⟨t'', hsecond, -, hfile, hthird⟩ := run_again unwritten.asks rfl hrun unwritten.not_mem_reads
  have hchanged : ¬(unwritten.contains unwritten.target = true ∨ unwritten.settings.isCommented unwritten = false) := by
    decide
  refine ⟨_, t'', hrun, hsecond, ?_, fun h => hchanged (hfile.1 h), hthird⟩
  rw [FileTree.file?_write_self]
  rfl

end ThriftGateway.Command
