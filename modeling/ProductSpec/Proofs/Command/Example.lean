/-
  An example file and the check that it was made for. The file is read back as it was written and
  meets its definition; whether it also meets the standard of the project depends on the defaults
  that the definition overrides or removes.
-/
import ProductSpec.Proofs.Command.Check
import ProductSpec.Proofs.DataFile.ExampleDocument
import ProductSpec.Proofs.Definition.Standard

namespace ProductSpec

open FileAction

namespace Command

variable {w w' : World} {config : Configuration} {root path output : FilePath}

/-- What comes of an example that is written: the project, the definition and its dataset are
found, and the example arrives. -/
theorem received_of_writeExample {code : Nat} (noFault : w.fault = none)
    (notReleased : path.extension? ≠ some "json")
    (h : Yields (writeExample config (some root) path output) w (.ok code) w') :
    ∃ (project : Project) (d : Definition) (dataset : Dataset),
      Yields (openProject config (some root)) w (.ok project) w ∧
      Yields (Definition.load path) w (.ok d) w ∧
      d.compileNamed (path.stem?.getD "dataset") project.defaults = .ok dataset ∧
      w.Received w' output (dataset.exampleFile config.unlimitedLength).toJson.pretty.toUTF8 := by
  obtain ⟨project, w₁, opening, h₁⟩ := h.bind_ok
  obtain ⟨-, -, -, rfl⟩ := (Project.yields_load_iff noFault).1 opening.of_inContext
  obtain ⟨dataset, w₂, loading, h₂⟩ := h₁.bind_ok
  unfold loadDefinition at loading
  rw [if_neg notReleased] at loading
  obtain ⟨d, w₃, reading, compiling⟩ := loading.of_inContext.bind_ok
  obtain ⟨text, leads, known, rfl⟩ := (yields_ofText_iff noFault).1 reading
  obtain ⟨made, rfl⟩ := compiling.unique (yields_ofExcept _ _)
  obtain ⟨⟨⟩, w₄, saving, telling⟩ := h₂.bind_ok
  obtain ⟨⟨⟩, w₅, printing, ending⟩ := telling.bind_ok
  obtain ⟨-, rfl⟩ := printing.unique (yields_print _ w₄)
  obtain ⟨-, rfl⟩ := ending.unique (yields_pure _ _)
  exact ⟨project, d, dataset, opening, reading, mapError_eq_ok.1 made.symm,
    (DataFile.received_save saving.of_inContext noFault).print _⟩

end Command

/-- Under the standard configuration, and without a fault, the program has written an example for
a definition of a project. It was not written where the definition or the defaults are. -/
structure ExampleWritten (e : Environment) (root path output : String) (w w' : World) : Prop where
  noFault : w.fault = none
  configured : ((Configuration.load e none).run.run w).1 = .ok .standard
  /-- The example is not taken for settings. -/
  stillConfigured : ((Configuration.load e none).run.run w').1 = .ok .standard
  code : ((runProgram e ["eg-data", "-p", root, "-d", path, "-o", output]).run w).1.code = 0
  after : ((runProgram e ["eg-data", "-p", root, "-d", path, "-o", output]).run w).2 = w'
  notReleased : (FilePath.ofText path).extension? ≠ some "json"
  notNetcdf : (FilePath.ofText output).extension? ≠ some "nc"
  besideDefinition : FileTree.resolve w.directory (.ofText output) ≠
    FileTree.resolve w.directory (.ofText path)
  besideDefaults : FileTree.resolve w.directory (.ofText output) ≠
    FileTree.resolve w.directory ((FilePath.ofText root).join Project.defaultsName)

namespace ExampleWritten

variable {e : Environment} {root path output : String} {w w' : World}

/-- The command line was understood, and the command has written the example. -/
theorem yields (h : ExampleWritten e root path output w w') :
    (Command.isPathWord root && Command.isPathWord path && Command.isPathWord output) = true ∧
      Yields (Command.writeExample .standard (some (.ofText root)) (.ofText path) (.ofText output))
        w (.ok 0) w' := by
  have understood := Invocation.ofArguments_exampleData root path output
  cases words : Command.isPathWord root && Command.isPathWord path && Command.isPathWord output with
  | false =>
    rw [words] at understood
    have code := h.code
    unfold runProgram at code
    rw [understood] at code
    cases code
  | true =>
    rw [words, if_pos rfl] at understood
    have ran : Yields (Command.run e .standard (.exampleData (some (.ofText root)) (.ofText path)
        (.ofText output))) w _ _ := yields_run _ w
    obtain ⟨endsWell, after⟩ := run_runProgram understood
      (Invocation.yields_run h.noFault h.configured ran)
    rw [endsWell.1 h.code, after.symm.trans h.after] at ran
    exact ⟨rfl, ran⟩

/-- What the program has read to write the example, and that the example has arrived. -/
theorem received (h : ExampleWritten e root path output w w') :
    ∃ (project : Project) (d : Definition) (dataset : Dataset),
      Yields (Project.load (.ofText root) Project.defaultsName Project.definitionsName) w
        (.ok project) w ∧
      Yields (Definition.load (.ofText path)) w (.ok d) w ∧
      d.compileNamed ((FilePath.ofText path).stem?.getD "dataset") project.defaults = .ok dataset ∧
      w.Received w' (.ofText output) (dataset.exampleFile 1).toJson.pretty.toUTF8 := by
  obtain ⟨project, d, dataset, opened, others⟩ :=
    Command.received_of_writeExample h.noFault h.notReleased h.yields.2
  exact ⟨project, d, dataset, opened.of_inContext, others⟩

section ReadBack

variable {project : Project} {d : Definition} {dataset : Dataset}
  (opened : Yields (Project.load (.ofText root) Project.defaultsName Project.definitionsName) w
    (.ok project) w)
  (read : Yields (Definition.load (.ofText path)) w (.ok d) w)
  (compiled : d.compileNamed ((FilePath.ofText path).stem?.getD "dataset") project.defaults =
    .ok dataset)
  (received : w.Received w' (.ofText output) (dataset.exampleFile 1).toJson.pretty.toUTF8)
  (back : (dataset.exampleFile 1).ReadsBack)

include opened read compiled received back

/-- Whether an example passes its check depends on the standard of the project alone. -/
theorem code_check_iff (h : ExampleWritten e root path output w w') :
    ((runProgram e ["check", output, "-p", root, "-d", path]).run w').1.code = 0 ↔
      d.RespectsStandard project.defaults (dataset.exampleFile 1) := by
  have wf : dataset.WellFormed [] := (Section.of_compile d.body compiled).2.2
  have loaded := DataFile.load_of_received received (Group.decodeDocument_exampleFile back _)
  have compliant : (dataset.validate .standard (dataset.exampleFile 1)).isCompliant = true := by
    rw [Report.isCompliant, Report.errors, Group.diagnostics_exampleFile wf back .standard]
    rfl
  have isPieceName : IsPieceName "defaults.yaml" :=
    ⟨by decide, by decide, by decide, by decide, by decide⟩
  have stillOpened : Yields (Command.openProject .standard (some (.ofText root))) w' (.ok project)
      w' :=
    (Project.load_of_received h.noFault received isPieceName h.besideDefaults opened).inContext
  have stillRead := Definition.load_of_received h.noFault received h.besideDefinition read
  obtain ⟨words, -⟩ := h.yields
  simp only [Bool.and_eq_true] at words
  have plain : ∀ c ∈ dataset.attributes, c.holdsNaN = false := fun c mem =>
    Group.holdsNaN_eq_false wf back List.mem_cons_self mem
  obtain ⟨name, -, meets⟩ := Command.meetsStandard_iff received.noFault .standard
    (dataset.exampleFile 1) project
  rw [code_check received.noFault h.stillConfigured words.1.1 words.1.2 words.2 h.notNetcdf
    h.notReleased loaded stillOpened stillRead compiled, and_iff_left compliant, meets]
  exact (Definition.respectsStandard_exampleFile_iff compiled plain name).symm

end ReadBack

end ExampleWritten

/-- An example is read back as it was written and nothing in it is wrong by the definition that it
was written for. It passes the check against that definition and its project just if the defaults
of the project make a standard by themselves and the example meets what that says about the
attributes that the definition sets or removes; so it does if there are none. -/
theorem check_exampleWritten {e : Environment} {root path output : String} {w w' : World}
    (h : ExampleWritten e root path output w w') :
    ∃ (project : Project) (d : Definition) (dataset : Dataset),
      Yields (Project.load (.ofText root) Project.defaultsName Project.definitionsName) w
        (.ok project) w ∧
      Yields (Definition.load (.ofText path)) w (.ok d) w ∧
      d.compileNamed ((FilePath.ofText path).stem?.getD "dataset") project.defaults = .ok dataset ∧
      ((dataset.exampleFile 1).ReadsBack →
        Yields (DataFile.load (.ofText output)) w' (.ok (dataset.exampleFile 1)) w' ∧
        (dataset.validate .standard (dataset.exampleFile 1)).diagnostics = [] ∧
        (((runProgram e ["check", output, "-p", root, "-d", path]).run w').1.code = 0 ↔
          d.RespectsStandard project.defaults (dataset.exampleFile 1)) ∧
        ((∀ name ∈ project.defaults.globalAttributes.names, name ∉ d.body.attributes.names) →
          ((runProgram e ["check", output, "-p", root, "-d", path]).run w').1.code = 0)) := by
  obtain ⟨project, d, dataset, opened, read, compiled, received⟩ := h.received
  refine ⟨project, d, dataset, opened, read, compiled, fun back => ?_⟩
  have wf : dataset.WellFormed [] := (Section.of_compile d.body compiled).2.2
  have exactly := h.code_check_iff opened read compiled received back
  refine ⟨?_, Group.diagnostics_exampleFile wf back .standard, exactly, fun untouched => ?_⟩
  · exact DataFile.load_of_received received (Group.decodeDocument_exampleFile back _)
  · exact exactly.2 (Definition.respectsStandard_of_untouched compiled untouched _)

/-- A directory with the project `p`, which has defaults, and a definition beside it. -/
def projectBeside (defaults definition : String) : World where
  tree := ⟨[(["p"], .directory), (["p", "defaults.yaml"], .file defaults.toUTF8 0),
    (["d.yaml"], .file definition.toUTF8 0)]⟩
  directory := []
  clock := 0
  output := ""
  fault := none

theorem exampleWritten_beside (defaults definition : String) {r : ExitStatus × World}
    (ran : (runProgram [] ["eg-data", "-p", "p", "-d", "d.yaml", "-o", "out.json"]).run
      (projectBeside defaults definition) = r)
    (well : r.1.code = 0 ∧
      ((Configuration.load [] none).run.run (projectBeside defaults definition)).1.toOption =
        some .standard ∧
      ((Configuration.load [] none).run.run r.2).1.toOption = some .standard) :
    ExampleWritten [] "p" "d.yaml" "out.json" (projectBeside defaults definition) r.2 where
  noFault := rfl
  configured := toOption_eq_some.1 well.2.1
  stillConfigured := toOption_eq_some.1 well.2.2
  code := ran ▸ well.1
  after := congrArg Prod.snd ran
  notReleased := by decide
  notNetcdf := by decide
  besideDefinition := show FileTree.resolve [] _ ≠ FileTree.resolve [] _ by decide
  besideDefaults := show FileTree.resolve [] _ ≠ FileTree.resolve [] _ by decide

/-- What is read to write the example. -/
theorem read_beside {defaults definition : String} {project : Project} {d : Definition}
    {w w' : World}
    (opened : Yields (Project.load (.ofText "p") Project.defaultsName Project.definitionsName)
      (projectBeside defaults definition) (.ok project) w)
    (read : Yields (Definition.load (.ofText "d.yaml")) (projectBeside defaults definition) (.ok d)
      w') :
    Defaults.read? defaults = some project.defaults ∧ Definition.read? definition = some d := by
  have hasDefaults : (projectBeside defaults definition).LeadsToFile
      ((FilePath.ofText "p").join Project.defaultsName) defaults.toUTF8 :=
    ⟨["p", "defaults.yaml"], 0, rfl, rfl⟩
  have hasDefinition : (projectBeside defaults definition).LeadsToFile (.ofText "d.yaml")
      definition.toUTF8 := ⟨["d.yaml"], 0, rfl, rfl⟩
  constructor
  · obtain ⟨-, ⟨text, leads, known⟩ | ⟨absent, -⟩, -⟩ := (Project.yields_load_iff rfl).1 opened
    · rwa [String.toByteArray_inj.1 (hasDefaults.unique leads)]
    · exact absurd ⟨_, hasDefaults⟩ absent
  · obtain ⟨text, leads, known, -⟩ := (yields_ofText_iff rfl).1 read
    rwa [String.toByteArray_inj.1 (hasDefinition.unique leads)]

theorem code_check_beside {defaults definition : String} {w' : World}
    (h : ExampleWritten [] "p" "d.yaml" "out.json" (projectBeside defaults definition) w')
    (unmet : ∀ p ∈ Defaults.read? defaults, ∀ d ∈ Definition.read? definition,
      ∀ dataset ∈ (d.compileNamed ((FilePath.ofText "d.yaml").stem?.getD "dataset") p).toOption,
        (dataset.exampleFile 1).ReadsBack ∧ ¬ d.RespectsStandard p (dataset.exampleFile 1)) :
    ((runProgram [] ["check", "out.json", "-p", "p", "-d", "d.yaml"]).run w').1.code ≠ 0 := by
  obtain ⟨project, d, dataset, opened, read, compiled, received⟩ := h.received
  obtain ⟨defaultsRead, definitionRead⟩ := read_beside opened read
  obtain ⟨back, unmet⟩ :=
    unmet _ defaultsRead _ definitionRead dataset (toOption_eq_some.2 compiled)
  rw [ne_eq, h.code_check_iff opened read compiled received back]
  exact unmet

/-- An example does not pass its check if the definition overrides a default by something else or
removes it. -/
theorem check_fails_on_example :
    (∃ w', ExampleWritten [] "p" "d.yaml" "out.json"
        (projectBeside "global_attributes:\n  title: Demo\n" "attributes:\n  title: Other\n") w' ∧
      ((runProgram [] ["check", "out.json", "-p", "p", "-d", "d.yaml"]).run w').1.code ≠ 0) ∧
    ∃ w', ExampleWritten [] "p" "d.yaml" "out.json"
        (projectBeside "global_attributes:\n  title: Demo\n" "attributes:\n  title: null\n") w' ∧
      ((runProgram [] ["check", "out.json", "-p", "p", "-d", "d.yaml"]).run w').1.code ≠ 0 := by
  constructor
  · have overridden := exampleWritten_beside "global_attributes:\n  title: Demo\n"
      "attributes:\n  title: Other\n" rfl (by decide +kernel)
    exact ⟨_, overridden, code_check_beside overridden (by decide +kernel)⟩
  · have removed := exampleWritten_beside "global_attributes:\n  title: Demo\n"
      "attributes:\n  title: null\n" rfl (by decide +kernel)
    exact ⟨_, removed, code_check_beside removed (by decide +kernel)⟩

/-- A definition that gives a value where the defaults leave it to the file. -/
theorem check_exampleWritten_refined : ∃ (w' : World) (project : Project) (d : Definition),
    ExampleWritten [] "p" "d.yaml" "out.json" (projectBeside
      "global_attributes:\n  title: Demo\n  history: \"<str: derived_from_file>\"\n"
      "attributes:\n  history: none\n  step: 0.5\n") w' ∧
    "history" ∈ project.defaults.globalAttributes.names ∧
    "history" ∈ d.body.attributes.names ∧
    ((runProgram [] ["check", "out.json", "-p", "p", "-d", "d.yaml"]).run w').1.code = 0 := by
  have h := exampleWritten_beside
    "global_attributes:\n  title: Demo\n  history: \"<str: derived_from_file>\"\n"
    "attributes:\n  history: none\n  step: 0.5\n" rfl (by decide +kernel)
  obtain ⟨project, d, dataset, opened, read, compiled, checked⟩ := check_exampleWritten h
  obtain ⟨defaultsRead, definitionRead⟩ := read_beside opened read
  have facts : ∀ p ∈ Defaults.read?
        "global_attributes:\n  title: Demo\n  history: \"<str: derived_from_file>\"\n",
      ∀ d ∈ Definition.read? "attributes:\n  history: none\n  step: 0.5\n",
      ∀ dataset ∈ (d.compileNamed ((FilePath.ofText "d.yaml").stem?.getD "dataset") p).toOption,
        (dataset.exampleFile 1).ReadsBack ∧ d.RespectsStandard p (dataset.exampleFile 1) ∧
          "history" ∈ p.globalAttributes.names ∧ "history" ∈ d.body.attributes.names := by
    decide +kernel
  obtain ⟨back, respects, isDefault, isSet⟩ :=
    facts _ defaultsRead _ definitionRead dataset (toOption_eq_some.2 compiled)
  exact ⟨_, project, d, h, isDefault, isSet, (checked back).2.2.1.2 respects⟩

end ProductSpec
