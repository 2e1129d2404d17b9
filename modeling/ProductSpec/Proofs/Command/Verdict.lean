/-
  The verdict of a check. What is read for it is the file, the projects with their standards and
  the definition that is selected with its dataset; the check ends well just if there is no error in
  the reports on them. So neither the choice of what is shown nor a file that is read as none of
  these makes a difference.
-/
import ProductSpec.Proofs.Command.Check
import ProductSpec.Proofs.Command.Search
import ProductSpec.Proofs.DataFile.RoundTrip

namespace ProductSpec

open FileAction

theorem Report.isCompliant_iff {r : Report} :
    r.isCompliant = true ↔ ∀ d ∈ r.diagnostics, d.severity ≠ .error := by
  simp [Report.isCompliant, Report.errors, List.isEmpty_iff, List.filter_eq_nil_iff]

theorem Registry.onlyLooks_load (path : FilePath) : OnlyLooks (Registry.load path) := by
  refine (onlyLooks_isFile path).bind fun isThere => ?_
  split
  · exact onlyLooks_pure _
  · refine (onlyLooks_readText path).bind fun text => ?_
    split
    · exact onlyLooks_pure _
    · exact onlyLooks_ofOption _ _

namespace Command

variable {w w' : World} {e : Environment} {config : Configuration} {c : CheckCommand}
  {file : DataFile} {projects : List Project} {standards : List Dataset}
  {selected : Option (FilePath × Project)} {product : Option Dataset}

section Opening

theorem onlyLooks_openProject (config : Configuration) (path : Option FilePath) :
    OnlyLooks (openProject config path) :=
  (Project.onlyLooks_load _ _ _).inContext _

theorem onlyLooks_registeredProjects (e : Environment) (config : Configuration) (file : DataFile) :
    OnlyLooks (registeredProjects e config file) := by
  have opened (registered : List RegisteredProject) : OnlyLooks (openRegistered registered) := by
    induction registered with
    | nil => exact onlyLooks_pure _
    | cons p rest ih =>
      exact ((Project.onlyLooks_load _ _ _).inContext _).bind fun _ => ih.bind fun _ =>
        onlyLooks_pure _
  unfold registeredProjects
  split
  · exact ((Registry.onlyLooks_load _).inContext _).bind fun _ => opened _
  · exact onlyLooks_pure _

theorem onlyLooks_checkProjects (e : Environment) (config : Configuration) (named : List FilePath)
    (file : DataFile) : OnlyLooks (checkProjects e config named file) := by
  have opened (paths : List FilePath) : OnlyLooks (openProjects config paths) := by
    induction paths with
    | nil => exact onlyLooks_pure _
    | cons path rest ih =>
      exact (onlyLooks_openProject config path).bind fun _ => ih.bind fun _ => onlyLooks_pure _
  unfold checkProjects
  split
  · exact opened named
  · refine (onlyLooks_registeredProjects e config file).bind fun projects => ?_
    split
    · exact onlyLooks_pure _
    · exact (onlyLooks_openProject config none).bind fun _ => onlyLooks_pure _

theorem onlyLooks_loadDefinition (path : FilePath) (project : Project) :
    OnlyLooks (loadDefinition path project) := by
  refine OnlyLooks.inContext ?_ _
  split
  · exact onlyLooks_readDocument _ _
  · exact (Definition.onlyLooks_load path).bind fun _ => onlyLooks_ofExcept _

theorem openProjects_ok (noFault : w.fault = none) {paths : List FilePath}
    (h : Yields (openProjects config paths) w (.ok projects) w') :
    List.Forall₂ (fun root p => Yields (openProject config (some root)) w (.ok p) w)
        paths projects ∧
      ∀ p ∈ projects, w.LeadsToDirectory p.root := by
  induction paths generalizing projects w' with
  | nil =>
    cases h
    exact ⟨.nil, List.forall_mem_nil _⟩
  | cons path rest ih =>
    obtain ⟨p, w₁, opened, onward⟩ := h.bind_ok
    obtain ⟨isThere, rfl⟩ := Project.isDirectory_of_load noFault opened.of_inContext
    obtain ⟨others, w₂, openedRest, given⟩ := onward.bind_ok
    cases given
    obtain ⟨each, areThere⟩ := ih openedRest
    exact ⟨.cons opened each, List.forall_mem_cons.2 ⟨isThere, areThere⟩⟩

theorem openRegistered_ok (noFault : w.fault = none) {registered : List RegisteredProject}
    (h : Yields (openRegistered registered) w (.ok projects) w') :
    ∀ p ∈ projects, w.LeadsToDirectory p.root := by
  induction registered generalizing projects w' with
  | nil =>
    cases h
    exact List.forall_mem_nil _
  | cons r rest ih =>
    obtain ⟨p, w₁, opened, onward⟩ := h.bind_ok
    obtain ⟨isThere, rfl⟩ := Project.isDirectory_of_load noFault opened.of_inContext
    obtain ⟨others, w₂, openedRest, given⟩ := onward.bind_ok
    cases given
    exact List.forall_mem_cons.2 ⟨isThere, ih openedRest⟩

theorem registeredProjects_ok (noFault : w.fault = none)
    (h : Yields (registeredProjects e config file) w (.ok projects) w') :
    w' = w ∧ ∀ p ∈ projects, w.LeadsToDirectory p.root := by
  refine ⟨((onlyLooks_registeredProjects e config file).printed noFault h).1, ?_⟩
  unfold registeredProjects at h
  split at h
  · obtain ⟨registry, w₁, read, onward⟩ := h.bind_ok
    obtain ⟨rfl, -⟩ := (Registry.onlyLooks_load _).printed noFault read.of_inContext
    exact openRegistered_ok noFault onward
  · cases h
    exact List.forall_mem_nil _

/-- A check goes by some projects, each of them opened where its directory is. -/
theorem checkProjects_ok (noFault : w.fault = none) {named : List FilePath}
    (h : Yields (checkProjects e config named file) w (.ok projects) w') :
    projects ≠ [] ∧ (∀ p ∈ projects, w.LeadsToDirectory p.root) ∧
      (named ≠ [] → List.Forall₂ (fun root p => Yields (openProject config (some root)) w (.ok p) w)
        named projects) := by
  unfold checkProjects at h
  cases named with
  | cons root rest =>
    obtain ⟨each, areThere⟩ := openProjects_ok noFault h
    refine ⟨?_, areThere, fun _ => each⟩
    rintro rfl
    cases each
  | nil =>
    obtain ⟨registered, w₁, opened, onward⟩ := Yields.bind_ok h
    obtain ⟨rfl, areThere⟩ := registeredProjects_ok noFault opened
    split at onward
    · next found =>
      cases onward
      have filled : projects ≠ [] := by
        rintro rfl
        cases found
      exact ⟨filled, areThere, fun none => absurd rfl none⟩
    · obtain ⟨p, w₂, openedOne, given⟩ := onward.bind_ok
      obtain ⟨isThere, rfl⟩ := Project.isDirectory_of_load noFault openedOne.of_inContext
      cases given
      exact ⟨List.cons_ne_nil _ _, List.forall_mem_singleton.2 isThere, fun none => absurd rfl none⟩

end Opening

/-- The options for the report on a product. What the product does not know is told if that is
asked for. -/
def productOptions (config : Configuration) (c : CheckCommand) : ValidationOptions :=
  if c.isClosed then { config.check with allowUnknown := false } else config.check

/-- There is no error in the report on a file by any standard, in which nothing is unknown, and
none in the report by the product if there is one. -/
def Passes (config : Configuration) (c : CheckCommand) (file : DataFile) (standards : List Dataset)
    (product : Option Dataset) : Prop :=
  (∀ s ∈ standards, ∀ d ∈ (s.validate { config.check with allowUnknown := true } file).diagnostics,
      d.severity ≠ .error) ∧
    ∀ s ∈ product, ∀ d ∈ (s.validate (productOptions config c) file).diagnostics,
      d.severity ≠ .error

/-- What a check works with: the file, the projects and their standards, and the definition that is
selected with its dataset. -/
structure Judged (w : World) (e : Environment) (config : Configuration) (c : CheckCommand)
    (file : DataFile) (projects : List Project) (standards : List Dataset)
    (selected : Option (FilePath × Project)) (product : Option Dataset) : Prop where
  isDump : c.file.extension? ≠ some "nc"
  loaded : Yields (DataFile.load c.file) w (.ok file) w
  opened : Yields (checkProjects e config c.projects file) w (.ok projects) w
  compiled : List.Forall₂ (fun p s => Yields (Project.standard p) w (.ok s) w) projects standards
  selects : Selects w c projects selected
  product : Option.Rel (fun s d => Yields (loadDefinition s.1 s.2) w (.ok d) w) selected product

/-- Whether a file is compliant with all that it is checked against. -/
def verdict (config : Configuration) (c : CheckCommand) (file : DataFile) (standards : List Dataset)
    (product : Option Dataset) : Bool :=
  (standards.all fun s =>
      (s.validate { productOptions config c with allowUnknown := true } file).isCompliant) &&
    product.all fun s => (s.validate (productOptions config c) file).isCompliant

theorem verdict_iff : verdict config c file standards product = true ↔
    Passes config c file standards product := by
  have same : { productOptions config c with allowUnknown := true } =
      { config.check with allowUnknown := true } := by
    unfold productOptions
    split <;> rfl
  rw [verdict, same, Bool.and_eq_true, List.all_eq_true, Option.all_eq_true]
  simp only [Report.isCompliant_iff]
  rfl

/-- The last part of a check, after the one against the standards. -/
def checkProduct (config : Configuration) (c : CheckCommand) (file : DataFile)
    (projects : List Project) (meetsStandards : Bool) : FileAction Nat := do
  match ← definitionFor? c projects with
  | some (path, project) =>
    let dataset ← loadDefinition path project
    let meetsDefinition ← tell c (productOptions config c) file dataset dataset.productName
    return if meetsStandards && meetsDefinition then 0 else 1
  | none =>
    if c.verbosity ≠ .quiet then
      printLine "No product definition matches; checked against project standards only"
    return if meetsStandards then 0 else 1

/-- What a check does with the file that is read. -/
def checkLoaded (e : Environment) (config : Configuration) (c : CheckCommand) (file : DataFile) :
    FileAction Nat := do
  let projects ← checkProjects e config c.projects file
  let meetsStandards ← checkStandards c (productOptions config c) file projects
  checkProduct config c file projects meetsStandards

theorem checkFile_eq (isDump : c.file.extension? ≠ some "nc") : checkFile e config c = (do
    let file ← (DataFile.load c.file).inContext ("reading " ++ c.file.text)
    checkLoaded e config c file) :=
  if_neg isDump

theorem concludes_definitionFor? (noFault : w.fault = none) (some_ : projects ≠ []) :
    Concludes (definitionFor? c projects) w (Selects w c projects) := by
  obtain ⟨selected, found, selects⟩ := yields_definitionFor? noFault c some_
  refine ((onlyLooks_definitionFor? c projects).concludes noFault).congr fun selected' => ?_
  constructor
  · intro found'
    obtain rfl := Except.ok.inj (found.unique found').1
    exact selects
  · intro selects'
    obtain rfl := selects.unique selects'
    exact found

theorem concludes_checkProduct (noFault : w.fault = none) (some_ : projects ≠ []) (meets : Bool) :
    Concludes (checkProduct config c file projects meets) w fun code =>
      ∃ selected, Selects w c projects selected ∧ ∃ product,
        Option.Rel (fun s d => Yields (loadDefinition s.1 s.2) w (.ok d) w) selected product ∧
        code = if meets && product.all fun s =>
          (s.validate (productOptions config c) file).isCompliant then 0 else 1 := by
  refine (concludes_definitionFor? noFault some_).bind fun selected _ => ?_
  cases selected with
  | none =>
    have ends : Concludes (do
        if c.verbosity ≠ .quiet then
          printLine "No product definition matches; checked against project standards only"
        return if meets then 0 else 1) w (· = if meets then 0 else 1) := by
      by_cases isQuiet : c.verbosity = .quiet
      · rw [if_neg (not_not_intro isQuiet)]
        exact concludes_pure _ w
      · rw [if_pos isQuiet]
        exact fun before => ⟨_, _, (yields_print _ _).bind (yields_pure _ _), fun code => by
          rw [Except.ok.injEq, eq_comm]⟩
    refine ends.congr fun code => ?_
    constructor
    · rintro rfl
      exact ⟨none, .none, by rw [Option.all_none, Bool.and_true]⟩
    · rintro ⟨_, ⟨⟩, rfl⟩
      rw [Option.all_none, Bool.and_true]
  | some s =>
    have loaded := (onlyLooks_loadDefinition s.1 s.2).concludes noFault
    have onward (d : Dataset) := (concludes_tell c (productOptions config c) file d d.productName
      w).bind fun met _ => concludes_pure (if meets && met then 0 else 1) w
    refine (loaded.bind fun d _ => onward d).congr fun code => ?_
    constructor
    · rintro ⟨d, loaded, _, rfl, rfl⟩
      exact ⟨some d, .some loaded, rfl⟩
    · rintro ⟨_, loaded, rfl⟩
      cases loaded with
      | some loaded => exact ⟨_, loaded, _, rfl, rfl⟩

theorem concludes_checkLoaded (noFault : w.fault = none) :
    Concludes (checkLoaded e config c file) w fun code =>
      ∃ projects, Yields (checkProjects e config c.projects file) w (.ok projects) w ∧
      ∃ meets, (∃ standards,
        List.Forall₂ (fun p s => Yields (Project.standard p) w (.ok s) w) projects standards ∧
          meets = standards.all fun s =>
            (s.validate { productOptions config c with allowUnknown := true } file).isCompliant) ∧
      ∃ selected, Selects w c projects selected ∧ ∃ product,
        Option.Rel (fun s d => Yields (loadDefinition s.1 s.2) w (.ok d) w) selected product ∧
        code = if meets && product.all fun s =>
          (s.validate (productOptions config c) file).isCompliant then 0 else 1 :=
  ((onlyLooks_checkProjects e config c.projects file).concludes noFault).bind fun projects opened =>
    (concludes_checkStandards noFault projects).bind fun meets _ =>
      concludes_checkProduct noFault (checkProjects_ok noFault opened).1 meets

/-- A check comes to a verdict if it gets through with what it works with, and to which one is told
by that. -/
theorem concludes_checkFile (noFault : w.fault = none) (e : Environment) (config : Configuration)
    (c : CheckCommand) :
    Concludes (checkFile e config c) w fun code => ∃ file projects standards selected product,
      Judged w e config c file projects standards selected product ∧
        code = if verdict config c file standards product then 0 else 1 := by
  by_cases isDump : c.file.extension? = some "nc"
  · intro before
    have refused : ∃ fault, Yields (checkFile e config c) { w with output := before } (.error fault)
        { w with output := before } := by
      unfold checkFile
      rw [if_pos isDump]
      exact ⟨_, (yields_throw _ _).bind_error⟩
    obtain ⟨fault, refused⟩ := refused
    exact ⟨_, before, refused, fun code => ⟨nofun, fun ⟨_, _, _, _, _, judged, _⟩ =>
      absurd isDump judged.isDump⟩⟩
  rw [checkFile_eq isDump]
  have loaded : Concludes (DataFile.load c.file) w _ :=
    (onlyLooks_readDocument _ _).concludes noFault
  refine ((loaded.inContext ("reading " ++ c.file.text)).bind fun file _ =>
    concludes_checkLoaded noFault).congr fun code => ?_
  constructor
  · rintro ⟨file, loaded, projects, opened, _, ⟨standards, compiled, rfl⟩, selected, selects,
      product, given, rfl⟩
    exact ⟨file, projects, standards, selected, product,
      ⟨isDump, loaded, opened, compiled, selects, given⟩, rfl⟩
  · rintro ⟨file, projects, standards, selected, product, judged, rfl⟩
    exact ⟨file, judged.loaded, projects, judged.opened, _, ⟨standards, judged.compiled, rfl⟩,
      selected, judged.selects, product, judged.product, rfl⟩

section WithFile

variable {directory : FilePlace} {name : String} {content : ByteArray} {modified : Int}
  (noFault : w.fault = none) (free : w.tree.get? (directory ++ [name]) = none)

include noFault free

theorem loadDefinition_withFile {path : FilePath} {project : Project} {d : Dataset}
    (h : Yields (loadDefinition path project) w (.ok d) w) :
    Yields (loadDefinition path project) (w.withFile directory name content modified) (.ok d)
      (w.withFile directory name content modified) := by
  unfold loadDefinition at h ⊢
  by_cases released : path.extension? = some "json"
  · rw [if_pos released] at h ⊢
    exact (yields_ofText_withFile noFault free h.of_inContext).inContext
  · rw [if_neg released] at h ⊢
    obtain ⟨definition, w₁, read, compiled⟩ := h.of_inContext.bind_ok
    obtain ⟨rfl, -⟩ := (Definition.onlyLooks_load path).printed noFault read
    obtain ⟨made, -⟩ := compiled.unique (yields_ofExcept _ _)
    have still : Yields (Definition.load path) (w₁.withFile directory name content modified) _ _ :=
      yields_ofText_withFile noFault free read
    refine Yields.inContext (x := .ok d) (still.bind ?_)
    rw [made]
    exact yields_ofExcept _ _

/-- What a check works with is the same when one more file is there, as long as the projects are
opened as before. -/
theorem Judged.withFile (isName : IsPieceName name)
    (unreadable : ∀ text : String, content = text.toUTF8 → Definition.read? text = none)
    (h : Judged w e config c file projects standards selected product)
    (opened : Yields (checkProjects e config c.projects file)
      (w.withFile directory name content modified) (.ok projects)
      (w.withFile directory name content modified)) :
    Judged (w.withFile directory name content modified) e config c file projects standards selected
      product := by
  have areThere := (checkProjects_ok noFault h.opened).2.1
  refine ⟨h.isDump, yields_ofText_withFile noFault free h.loaded, opened, ?_,
    h.selects.withFile free isName unreadable, ?_⟩
  · exact ((List.forall₂_and_left _ _).2 ⟨areThere, h.compiled⟩).imp fun p s ⟨isThere, compiled⟩ =>
      Project.standard_withFile noFault free isThere compiled
  · cases h.product with
    | none => exact .none
    | some given => exact .some (loadDefinition_withFile noFault free given)

end WithFile

end Command

section Program

variable {w w' : World} {e : Environment} {arguments : List String} {named : Option FilePath}
  {c : CheckCommand} {config : Configuration}

/-- A program that does what it is asked for has nothing to complain about. -/
theorem status_runProgram {i : Invocation} {code : Nat}
    (parsed : Invocation.ofArguments arguments = .ok i) (h : Yields (i.run e) w (.ok code) w') :
    ((runProgram e arguments).run w).1 = ⟨code, ""⟩ := by
  unfold runProgram
  rw [parsed]
  dsimp only
  rw [FileProgram.run_bind, show (ExceptT.run (i.run e)).run w = (.ok code, w') from h]
  rfl

/-- A program that fails says why. -/
theorem complaint_runProgram {i : Invocation} {fault : Fault}
    (parsed : Invocation.ofArguments arguments = .ok i) (h : Yields (i.run e) w (.error fault) w') :
    ((runProgram e arguments).run w).1.complaint ≠ "" := by
  have status : ((runProgram e arguments).run w).1 =
      ⟨1, "Error: " ++ Text.join ": " fault.chain ++ "\n"⟩ := by
    unfold runProgram
    rw [parsed]
    dsimp only
    rw [FileProgram.run_bind, show (ExceptT.run (i.run e)).run w = (.error fault, w') from h]
    rfl
  rw [status]
  simp

/-- The exit status of a check that comes to a verdict. -/
theorem status_check (noFault : w.fault = none)
    (parsed : Invocation.ofArguments arguments = .ok ⟨named, .check c⟩)
    (configured : Yields (Configuration.load e named) w (.ok config) w) {file : DataFile}
    {projects : List Project} {standards : List Dataset} {selected : Option (FilePath × Project)}
    {product : Option Dataset}
    (h : Command.Judged w e config c file projects standards selected product) :
    ((runProgram e arguments).run w).1 =
      ⟨if Command.verdict config c file standards product then 0 else 1, ""⟩ := by
  obtain ⟨result, output, ran, ends⟩ := Command.concludes_checkFile noFault e config c w.output
  obtain rfl := (ends _).2 ⟨file, projects, standards, selected, product, h, rfl⟩
  exact status_runProgram parsed (configured.inContext.bind ran)

/-- The exit status of a check that gets through with the file that it reads. -/
theorem status_check_loaded (parsed : Invocation.ofArguments arguments = .ok ⟨named, .check c⟩)
    (configured : Yields (Configuration.load e named) w (.ok config) w)
    (isDump : c.file.extension? ≠ some "nc") {file : DataFile}
    (loaded : Yields (DataFile.load c.file) w (.ok file) w) {code : Nat}
    (ended : ((Command.checkLoaded e config c file).run.run w).1.toOption = some code) :
    ((runProgram e arguments).run w).1 = ⟨code, ""⟩ := by
  obtain ⟨w', onward⟩ : ∃ w', Yields (Command.checkLoaded e config c file) w (.ok code) w' := by
    rw [← toOption_eq_some.1 ended]
    exact ⟨_, yields_run _ w⟩
  have checked : Yields (Command.checkFile e config c) w (.ok code) w' := by
    rw [Command.checkFile_eq isDump]
    exact loaded.inContext.bind onward
  exact status_runProgram parsed (configured.inContext.bind checked)

/-- A check that does not fail comes to a verdict. -/
theorem exists_judged (noFault : w.fault = none)
    (parsed : Invocation.ofArguments arguments = .ok ⟨named, .check c⟩)
    (finished : ((runProgram e arguments).run w).1.complaint = "") :
    ∃ config file projects standards selected product,
      Yields (Configuration.load e named) w (.ok config) w ∧
      Command.Judged w e config c file projects standards selected product := by
  obtain ⟨result, w', ran⟩ : ∃ result w', Yields (Invocation.run e ⟨named, .check c⟩) w result w' :=
    ⟨_, _, yields_run _ w⟩
  cases result with
  | error fault => exact absurd finished (complaint_runProgram parsed ran)
  | ok code =>
    obtain ⟨config, w₁, configured, checked⟩ := ran.bind_ok
    obtain ⟨rfl, -⟩ :=
      (Configuration.onlyLooks_load e named).printed noFault configured.of_inContext
    obtain ⟨result, output, ran', ends⟩ :=
      Command.concludes_checkFile noFault e config c w₁.output
    obtain ⟨rfl, -⟩ := checked.unique ran'
    obtain ⟨file, projects, standards, selected, product, judged, -⟩ := (ends code).1 rfl
    exact ⟨config, file, projects, standards, selected, product, configured.of_inContext, judged⟩

/-- How a check ends that does not fail: well just if there is no error in the reports on the file
by the standards of the projects, and in the one by the definition that is selected if there is one.
Which of its findings are shown makes no difference, and none is made by one more file that is no
definition, as long as the settings and the projects are found as before. -/
theorem check_verdict (noFault : w.fault = none)
    (parsed : Invocation.ofArguments arguments = .ok ⟨named, .check c⟩)
    (finished : ((runProgram e arguments).run w).1.complaint = "") :
    ∃ config file projects standards selected product,
      Yields (Configuration.load e named) w (.ok config) w ∧
      Command.Judged w e config c file projects standards selected product ∧
      (c.projects ≠ [] → List.Forall₂
        (fun root p => Yields (Command.openProject config (some root)) w (.ok p) w)
        c.projects projects) ∧
      (((runProgram e arguments).run w).1.code = 0 ↔
        Command.Passes config c file standards product) ∧
      (∀ verbosity arguments', Invocation.ofArguments arguments' =
          .ok ⟨named, .check { c with verbosity }⟩ →
        ((runProgram e arguments').run w).1 = ((runProgram e arguments).run w).1) ∧
      ∀ directory name content modified, IsPieceName name →
        w.tree.get? (directory ++ [name]) = none →
        (∀ text : String, content = text.toUTF8 → Definition.read? text = none) →
        Yields (Configuration.load e named) (w.withFile directory name content modified)
          (.ok config) (w.withFile directory name content modified) →
        Yields (Command.checkProjects e config c.projects file)
          (w.withFile directory name content modified) (.ok projects)
          (w.withFile directory name content modified) →
        ((runProgram e arguments).run (w.withFile directory name content modified)).1 =
          ((runProgram e arguments).run w).1 := by
  obtain ⟨config, file, projects, standards, selected, product, configured, judged⟩ :=
    exists_judged noFault parsed finished
  have status := status_check noFault parsed configured judged
  refine ⟨config, file, projects, standards, selected, product, configured, judged,
    (Command.checkProjects_ok noFault judged.opened).2.2, ?_, ?_, ?_⟩
  · rw [status, ← Command.verdict_iff]
    cases Command.verdict config c file standards product with
    | false => exact ⟨nofun, nofun⟩
    | true => exact ⟨fun _ => rfl, fun _ => rfl⟩
  · intro verbosity arguments' parsed'
    have still : Command.Judged w e config { c with verbosity } file projects standards selected
        product :=
      ⟨judged.isDump, judged.loaded, judged.opened, judged.compiled, judged.selects,
        judged.product⟩
    rw [status, status_check noFault parsed' configured still]
    rfl
  · intro directory name content modified isName free unreadable configured' opened'
    have still := judged.withFile noFault free isName unreadable opened'
    rw [status, status_check (w := w.withFile directory name content modified) noFault parsed
      configured' still]

section Demo

/-- A file without anything in it. -/
def emptyFile : DataFile := { FileGroup.blank with name := "/" }

/-- A project `p` with some definitions, and beside it the document of a file without anything in
it. -/
def projectWith (definitions : List (String × String)) : World where
  tree := ⟨[(["p"], .directory), (["p", "definitions"], .directory),
    (["f_1.json"], .file emptyFile.toJson.pretty.toUTF8 0)] ++
      definitions.map fun d => (["p", "definitions", d.1], .file d.2.toUTF8 0)⟩
  directory := []
  clock := 0
  output := ""
  fault := none

/-- Files of one name are to have a title. -/
def titleAsked : World :=
  projectWith [("a.yaml", "meta:\n  file_pattern: f_\x7bn\x7d.json\nattributes:\n  title: Demo\n")]

theorem load_projectWith (definitions : List (String × String)) :
    Yields (DataFile.load "f_1.json") (projectWith definitions) (.ok emptyFile)
      (projectWith definitions) := by
  have known : decodeDocument FileGroup.decode emptyFile.toJson.pretty = some emptyFile :=
    FileGroup.decodeDocument_write (List.forall_mem_nil _) (by decide +kernel)
  exact (yields_ofText_iff rfl).2 ⟨_, ⟨["f_1.json"], 0, rfl, rfl⟩, known, rfl⟩

theorem configured_standard (noFault : w.fault = none)
    (h : ((Configuration.load [] none).run.run w).1.toOption = some .standard) :
    Yields (Configuration.load [] none) w (.ok .standard) w := by
  have found := (Configuration.onlyLooks_load [] none).yields noFault
  rwa [toOption_eq_some.1 h] at found

/-- A file lacks the title that its definition asks for. It makes no difference that a file is added
whose name comes before the one of that definition. -/
theorem check_verdict_titleAsked :
    ((runProgram [] ["check", "f_1.json", "-p", "p"]).run titleAsked).1 = ⟨1, ""⟩ ∧
    (∃ config file projects standards selected product,
      Command.Judged titleAsked [] config ⟨"f_1.json", ["p"], none, .all, false⟩ file projects
        standards selected product ∧
      ¬ Command.Passes config ⟨"f_1.json", ["p"], none, .all, false⟩ file standards product) ∧
    ((runProgram [] ["check", "f_1.json", "-p", "p", "-q"]).run titleAsked).1 = ⟨1, ""⟩ ∧
    ((runProgram [] ["check", "f_1.json", "-p", "p"]).run
      (titleAsked.withFile ["p", "definitions"] "0.yaml" "meta: 5\n".toUTF8 0)).1 = ⟨1, ""⟩ := by
  have parsed : Invocation.ofArguments ["check", "f_1.json", "-p", "p"] =
      .ok ⟨none, .check ⟨"f_1.json", ["p"], none, .all, false⟩⟩ := rfl
  have standard : Yields (Configuration.load [] none) titleAsked (.ok .standard) titleAsked :=
    configured_standard rfl (by decide +kernel)
  have status : ((runProgram [] ["check", "f_1.json", "-p", "p"]).run titleAsked).1 = ⟨1, ""⟩ :=
    status_check_loaded parsed standard (by decide +kernel) (load_projectWith _)
      (by decide +kernel)
  obtain ⟨config, file, projects, standards, selected, product, configured, judged, -, verdict,
    quiet, added⟩ := check_verdict (w := titleAsked) rfl parsed (by rw [status])
  obtain rfl := Except.ok.inj (standard.unique configured).1
  have opened : Yields (Command.checkProjects [] .standard ["p"] file) titleAsked
      (.ok [⟨"p", "p/definitions", .empty⟩]) titleAsked := rfl
  obtain rfl := Except.ok.inj (opened.unique judged.opened).1
  refine ⟨status, ⟨_, _, _, standards, selected, product, judged, ?_⟩, ?_, ?_⟩
  · rw [← verdict, status]
    exact Nat.one_ne_zero
  · exact (quiet .quiet _ rfl).trans status
  · have isName : IsPieceName "0.yaml" := by refine ⟨?_, ?_, ?_, ?_, ?_⟩ <;> decide
    refine (added ["p", "definitions"] "0.yaml" _ 0 isName rfl ?_
      (configured_standard rfl (by decide +kernel)) rfl).trans status
    intro text same
    rw [← String.toByteArray_inj.1 same]
    exact Option.isNone_iff_eq_none.1 (by decide +kernel)

/-- The directory of the definitions of a project may be a project too. A file in it that is no
definition can be the defaults of that one, and then it changes the verdict. -/
theorem check_verdict_changed :
    Definition.read? "meta: 5\nglobal_attributes:\n  title: Demo\n" = none ∧
    Project.isDefinitionName "defaults.yaml" = true ∧
    (projectWith []).tree.get? ["p", "definitions", "defaults.yaml"] = none ∧
    ((runProgram [] ["check", "f_1.json", "-p", "p", "-p", "p/definitions"]).run
      (projectWith [])).1 = ⟨0, ""⟩ ∧
    ((runProgram [] ["check", "f_1.json", "-p", "p", "-p", "p/definitions"]).run
      ((projectWith []).withFile ["p", "definitions"] "defaults.yaml"
        "meta: 5\nglobal_attributes:\n  title: Demo\n".toUTF8 0)).1 = ⟨1, ""⟩ := by
  have parsed : Invocation.ofArguments ["check", "f_1.json", "-p", "p", "-p", "p/definitions"] =
      .ok ⟨none, .check ⟨"f_1.json", ["p", "p/definitions"], none, .all, false⟩⟩ := rfl
  have free : (projectWith []).tree.get? (["p", "definitions"] ++ ["defaults.yaml"]) = none := rfl
  refine ⟨Option.isNone_iff_eq_none.1 (by decide +kernel), by decide +kernel, free, ?_, ?_⟩
  · exact status_check_loaded parsed (configured_standard rfl (by decide +kernel))
      (by decide +kernel) (load_projectWith []) (by decide +kernel)
  · exact status_check_loaded parsed (configured_standard rfl (by decide +kernel))
      (by decide +kernel) (yields_ofText_withFile rfl free (load_projectWith []))
      (by decide +kernel)

end Demo

end Program

end ProductSpec
