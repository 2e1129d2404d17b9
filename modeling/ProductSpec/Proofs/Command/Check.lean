/-
  A check of a file against projects and a definition, by what it finds: it ends well just if the
  standards of the projects compile and the file meets them and the definition.
-/
import ProductSpec.Proofs.Command.Line
import ProductSpec.Proofs.Project.Files
import Mathlib.Data.List.Forall2

namespace ProductSpec

open FileAction

namespace Command

variable {w : World} {e : Environment} {c : CheckCommand} {options : ValidationOptions}
  {file : DataFile} {project : Project}

theorem yields_tell (c : CheckCommand) (options : ValidationOptions) (file : DataFile)
    (dataset : Dataset) (label : String) (w : World) :
    ∃ output, Yields (tell c options file dataset label) w
      (.ok (dataset.validate options file).isCompliant) { w with output } :=
  ⟨_, (yields_print _ w).bind (yields_pure _ _)⟩

/-- The standard of a project compiles, and a file meets it. -/
def MeetsStandard (w : World) (options : ValidationOptions) (file : DataFile) (project : Project) :
    Prop :=
  ∃ s, Yields project.standard w (.ok s) w ∧
    (s.validate { options with allowUnknown := true } file).isCompliant = true

theorem meetsStandard_iff (noFault : w.fault = none) (options : ValidationOptions)
    (file : DataFile) (project : Project) :
    ∃ name,
      (∀ output, Yields project.standard { w with output }
        ((project.defaults.standard name).mapError .definition) { w with output }) ∧
      (MeetsStandard w options file project ↔ ∃ s, project.defaults.standard name = .ok s ∧
        (s.validate { options with allowUnknown := true } file).isCompliant = true) := by
  obtain ⟨name, standard⟩ := project.yields_standard noFault
  refine ⟨name, standard, ?_⟩
  constructor
  · rintro ⟨s, made, met⟩
    exact ⟨s, mapError_eq_ok.1 (made.unique (standard w.output)).1.symm, met⟩
  · rintro ⟨s, compiled, met⟩
    have made := standard w.output
    rw [compiled] at made
    exact ⟨s, made, met⟩

theorem concludes_tell (c : CheckCommand) (options : ValidationOptions) (file : DataFile)
    (dataset : Dataset) (label : String) (w : World) :
    Concludes (tell c options file dataset label) w
      (· = (dataset.validate options file).isCompliant) := by
  intro before
  obtain ⟨output, told⟩ := yields_tell c options file dataset label { w with output := before }
  exact ⟨_, output, told, fun x => by rw [Except.ok.injEq, eq_comm]⟩

/-- The standards of projects are compiled one after the other, and a file passes the check against
them just if it meets all of them. -/
theorem concludes_checkStandards (noFault : w.fault = none) (projects : List Project) :
    Concludes (checkStandards c options file projects) w fun passes => ∃ standards,
      List.Forall₂ (fun p s => Yields (Project.standard p) w (.ok s) w) projects standards ∧
        passes = standards.all fun s =>
          (s.validate { options with allowUnknown := true } file).isCompliant := by
  induction projects with
  | nil =>
    refine (concludes_pure true w).congr fun passes => ?_
    constructor
    · rintro rfl
      exact ⟨[], .nil, rfl⟩
    · rintro ⟨_, ⟨⟩, rfl⟩
      rfl
  | cons p rest ih =>
    have compiled := (p.onlyLooks_standard.concludes noFault).inContext
      ("compiling the standard of " ++ p.root.text)
    have onward (s : Dataset) := (concludes_tell c { options with allowUnknown := true } file s
      (s.productName ++ " standard") w).bind fun met _ => ih.bind fun others _ =>
        concludes_pure (others && met) w
    refine (compiled.bind fun s _ => onward s).congr fun passes => ?_
    constructor
    · rintro ⟨s, compiled, _, rfl, _, ⟨standards, each, rfl⟩, rfl⟩
      exact ⟨s :: standards, .cons compiled each, Bool.and_comm ..⟩
    · rintro ⟨standards, each, rfl⟩
      cases each with
      | cons compiled each => exact ⟨_, compiled, _, rfl, _, ⟨_, each, rfl⟩, Bool.and_comm ..⟩

/-- A file passes the check against the standards of projects just if it meets all of them. -/
theorem yields_checkStandards (noFault : w.fault = none) (projects : List Project)
    (before : String) :
    ∃ result output,
      Yields (checkStandards c options file projects) { w with output := before } result
        { w with output } ∧
      (result = .ok true ↔ ∀ p ∈ projects, MeetsStandard w options file p) := by
  obtain ⟨result, output, checked, right⟩ :=
    concludes_checkStandards (c := c) noFault projects before
  refine ⟨result, output, checked, ?_⟩
  rw [right]
  clear right checked
  induction projects with
  | nil => simp
  | cons p rest ih =>
    rw [List.forall_mem_cons, ← ih]
    simp only [List.forall₂_cons_left_iff]
    constructor
    · rintro ⟨-, ⟨s, standards, compiled, compiledRest, rfl⟩, passes⟩
      obtain ⟨met, others⟩ := Bool.and_eq_true_iff.1 passes.symm
      exact ⟨⟨s, compiled, met⟩, standards, compiledRest, others.symm⟩
    · rintro ⟨⟨s, compiled, met⟩, standards, compiledRest, passes⟩
      refine ⟨_, ⟨s, standards, compiled, compiledRest, rfl⟩, ?_⟩
      rw [List.all_cons, met, ← passes]
      rfl

/-- A definition is loaded whatever has been printed. -/
theorem yields_loadDefinition {path : FilePath} {definition : Definition} {dataset : Dataset}
    (noFault : w.fault = none) (notReleased : path.extension? ≠ some "json")
    (read : Yields (Definition.load path) w (.ok definition) w)
    (compiled : definition.compileNamed (path.stem?.getD "dataset") project.defaults = .ok dataset)
    (output : String) :
    Yields (loadDefinition path project) { w with output } (.ok dataset) { w with output } := by
  obtain ⟨text, leads, known, -⟩ := (yields_ofText_iff noFault).1 read
  have still : Yields (Definition.load path) { w with output } (.ok definition) { w with output } :=
    (yields_ofText_iff (w := { w with output }) noFault).2 ⟨text, leads, known, rfl⟩
  have made : Yields (project.compileFile path) { w with output } (.ok dataset)
      { w with output } := by
    refine still.bind ?_
    rw [compiled]
    exact yields_ofExcept (.ok dataset) _
  unfold loadDefinition
  rw [if_neg notReleased]
  exact made.inContext

/-- A file passes the check against a project and a definition just if it meets the standard of
the one and the dataset of the other. -/
theorem yields_checkFile {config : Configuration} {location root path : FilePath}
    {definition : Definition} {dataset : Dataset} {verbosity : Verbosity}
    (noFault : w.fault = none) (notNetcdf : location.extension? ≠ some "nc")
    (loaded : Yields (DataFile.load location) w (.ok file) w)
    (opened : Yields (openProject config (some root)) w (.ok project) w)
    (notReleased : path.extension? ≠ some "json")
    (read : Yields (Definition.load path) w (.ok definition) w)
    (compiled : definition.compileNamed (path.stem?.getD "dataset") project.defaults =
      .ok dataset) :
    ∃ result w', Yields (checkFile e config ⟨location, [root], some path, verbosity, false⟩) w
        result w' ∧
      (result = .ok 0 ↔ MeetsStandard w config.check file project ∧
        (dataset.validate config.check file).isCompliant = true) := by
  let c : CheckCommand := ⟨location, [root], some path, verbosity, false⟩
  obtain ⟨met, output, checked, right⟩ :
      ∃ result output, Yields (checkStandards c config.check file [project]) w result
        { w with output } ∧ _ := yields_checkStandards noFault [project] w.output
  rw [List.forall_mem_singleton] at right
  have projects : Yields (checkProjects e config [root] file) w (.ok [project]) w :=
    opened.bind ((yields_pure [] w).bind (yields_pure _ w))
  have start {result : Except Fault Nat} {w' : World}
      (next : Yields (do
        let meetsStandards ← checkStandards c config.check file [project]
        let dataset ← loadDefinition path project
        let meetsDefinition ← tell c config.check file dataset dataset.productName
        return if meetsStandards && meetsDefinition then 0 else 1) w result w') :
      Yields (checkFile e config c) w result w' := by
    unfold checkFile
    rw [if_neg notNetcdf]
    exact loaded.inContext.bind (projects.bind next)
  rw [← right]
  cases met with
  | error fault =>
    exact ⟨.error fault, _, start checked.bind_error, nofun, fun h => nomatch h.1⟩
  | ok meetsStandards =>
    obtain ⟨output', told⟩ := yields_tell c config.check file dataset dataset.productName
      { w with output }
    have given := yields_loadDefinition noFault notReleased read compiled output
    refine ⟨_, _, start (checked.bind (given.bind (told.bind (yields_pure _ _)))), ?_⟩
    rw [Except.ok.injEq, Except.ok.injEq, ← Bool.and_eq_true]
    cases meetsStandards && (dataset.validate config.check file).isCompliant with
    | false => exact ⟨nofun, nofun⟩
    | true => exact ⟨fun _ => rfl, fun _ => rfl⟩

end Command

/-- How the program ends that checks a file against a project and a definition. -/
theorem code_check {w : World} {e : Environment} {root path location : String} {project : Project}
    {d : Definition} {dataset : Dataset} {file : DataFile} (noFault : w.fault = none)
    (configured : ((Configuration.load e none).run.run w).1 = .ok .standard)
    (isRoot : Command.isPathWord root = true) (isPath : Command.isPathWord path = true)
    (isLocation : Command.isPathWord location = true)
    (notNetcdf : (FilePath.ofText location).extension? ≠ some "nc")
    (notReleased : (FilePath.ofText path).extension? ≠ some "json")
    (loaded : Yields (DataFile.load (.ofText location)) w (.ok file) w)
    (opened : Yields (Command.openProject .standard (some (.ofText root))) w (.ok project) w)
    (read : Yields (Definition.load (.ofText path)) w (.ok d) w)
    (compiled : d.compileNamed ((FilePath.ofText path).stem?.getD "dataset") project.defaults =
      .ok dataset) :
    ((runProgram e ["check", location, "-p", root, "-d", path]).run w).1.code = 0 ↔
      Command.MeetsStandard w .standard file project ∧
        (dataset.validate .standard file).isCompliant = true := by
  obtain ⟨result, w', checked, right⟩ :
      ∃ result w', Yields (Command.checkFile e .standard ⟨.ofText location, [.ofText root],
        some (.ofText path), .all, false⟩) w result w' ∧ _ :=
    Command.yields_checkFile noFault notNetcdf loaded opened notReleased read compiled
  have ran := run_runProgram (Invocation.ofArguments_check isLocation isRoot isPath)
    (Invocation.yields_run noFault configured checked)
  exact ran.1.trans right

end ProductSpec
