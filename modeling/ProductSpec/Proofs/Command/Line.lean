/-
  Command lines whose words are not known beforehand, and how the program ends that is called with
  one. Whether a word is an option shows in its first two characters; any other word can be a path
  or the value of an option.
-/
import ProductSpec.Command.Run
import ProductSpec.Proofs.Configuration.Load

namespace ProductSpec

namespace Command

variable {specs : List OptionSpec} {word value : String} {rest : List String}

/-- Whether a word is read as an option. A lone hyphen is none. -/
def isOption (word : String) : Bool :=
  match word.toList with
  | '-' :: _ :: _ => true
  | _ => false

/-- Whether a word can be a path. -/
def isPathWord (word : String) : Bool := word ≠ "" && !isOption word

theorem isSome_readOption (specs : List OptionSpec) (word : String) :
    (readOption specs word).isSome = isOption word := by
  unfold readOption isOption
  split
  · next form => rw [form]; rfl
  · next form => rw [form]; rfl
  · next notLong notShort =>
    split
    · next c rest form => exact absurd form (notShort c rest)
    · rfl

theorem readOption_eq_none : readOption specs word = none ↔ isOption word = false := by
  rw [← Option.not_isSome_iff_eq_none, isSome_readOption, Bool.not_eq_true]

theorem ne_end_of_not_isOption (h : isOption word = false) : word ≠ "--" := by
  rintro rfl
  cases h

/-- An option that takes a value has the next word for it. -/
theorem readWords_option (name : String)
    (read : readOption specs word = some (.ok ([], some name)))
    (notEnd : word ≠ "--") :
    readWords specs false (word :: value :: rest) =
      if isOption value then .error .usage
      else (readWords specs false rest).map (.withOption name value) := by
  rw [readWords, if_neg notEnd, read]
  dsimp only
  rw [isSome_readOption]
  by_cases taken : isOption value = true
  · rw [if_pos (.inr taken), if_pos taken]
  · rw [if_neg (by
      rintro (isEnd | isOption)
      · exact ne_end_of_not_isOption (Bool.eq_false_iff.2 taken) isEnd
      · exact taken isOption), if_neg taken]
    rfl

theorem readWords_plain (h : isOption word = false) :
    readWords specs false (word :: rest) =
      (readWords specs false rest).map (.withPlain word) := by
  rw [readWords, if_neg (ne_end_of_not_isOption h), readOption_eq_none.2 h]
  rfl

/-- With commands, the words from the first plain one on are left alone. -/
theorem checkWords_command (h : isOption word = false) :
    checkWords specs true (word :: rest) = .ok ⟨[], word :: rest⟩ := by
  have read : readWords specs true (word :: rest) = .ok ⟨[], word :: rest⟩ := by
    rw [readWords, if_neg (ne_end_of_not_isOption h), readOption_eq_none.2 h]
    rfl
  unfold checkWords
  rw [read]
  refine if_pos (List.all_eq_true.2 fun o _ => ?_)
  simp [OptionSpec.allows, Words.all]

end Command

namespace Invocation

open Command

variable {name : String}

/-- The words behind the name of a command are its own. -/
theorem ofArguments_command (isCommand : name ∈ Command.names) (rest : List String) :
    ofArguments (name :: rest) = do
      let inner ← checkWords (configOption :: options name) false rest
      return ⟨path? inner "config", ← ofWords name inner⟩ := by
  obtain ⟨plain, same, notHelp⟩ : isOption name = false ∧ fullName name = name ∧ name ≠ "help" := by
    revert name
    decide
  unfold ofArguments
  rw [checkWords_command plain]
  simp only [bind, Except.bind, same, if_neg notHelp, isCommand, not_true_eq_false, if_false,
    show path? ⟨[], name :: rest⟩ "config" = none from rfl, Option.or_none]

/-- What is asked for with an example of a definition. -/
theorem ofArguments_exampleData (project definition output : String) :
    ofArguments ["eg-data", "-p", project, "-d", definition, "-o", output] =
      if isPathWord project && isPathWord definition && isPathWord output then
        .ok ⟨none, .exampleData (some (.ofText project)) (.ofText definition) (.ofText output)⟩
      else .error .usage := by
  have read : readWords (configOption :: options "eg-data") false
      ["-p", project, "-d", definition, "-o", output] =
        if isOption project || isOption definition || isOption output then .error .usage
        else .ok ⟨[("project", project), ("definition", definition), ("output", output)], []⟩ := by
    rw [readWords_option "project" rfl (by decide),
      readWords_option "definition" rfl (by decide),
      readWords_option "output" rfl (by decide)]
    cases isOption project <;> cases isOption definition <;> cases isOption output <;> rfl
  have allowed : (configOption :: options "eg-data").all (·.allows
      ⟨[("project", project), ("definition", definition), ("output", output)], []⟩) =
        (project ≠ "" && definition ≠ "" && output ≠ "") := by
    simp [OptionSpec.allows, options, configOption, path, Words.all, Bool.and_assoc]
  rw [ofArguments_command (by decide)]
  unfold checkWords isPathWord
  rw [read]
  cases isOption project
  · cases isOption definition
    · cases isOption output
      · simp only [Bool.not_false, Bool.and_true, ← allowed]
        rw [Bool.or_self, Bool.or_self, if_neg Bool.false_ne_true]
        change ((if _ then Except.ok _ else .error .usage : Except Stop Words) >>= _) = _
        split <;> rfl
      · simp only [Bool.not_true, Bool.and_false]
        rfl
    · simp only [Bool.not_true, Bool.and_false, Bool.false_and]
      rfl
  · simp only [Bool.not_true, Bool.and_false, Bool.false_and]
    rfl

/-- What is asked for with a check of a file against a definition. -/
theorem ofArguments_check {file project definition : String} (isFile : isPathWord file = true)
    (isProject : isPathWord project = true) (isDefinition : isPathWord definition = true) :
    ofArguments ["check", file, "-p", project, "-d", definition] =
      .ok ⟨none, .check
        ⟨.ofText file, [.ofText project], some (.ofText definition), .all, false⟩⟩ := by
  simp only [isPathWord, Bool.and_eq_true, Bool.not_eq_true', decide_eq_true_eq]
    at isFile isProject isDefinition
  have inner : checkWords (configOption :: options "check") false
      [file, "-p", project, "-d", definition] =
        .ok ⟨[("project", project), ("definition", definition)], [file]⟩ := by
    unfold checkWords
    rw [readWords_plain isFile.2, readWords_option "project" rfl (by decide),
      readWords_option "definition" rfl (by decide), isProject.2, isDefinition.2]
    refine if_pos ?_
    simp [OptionSpec.allows, options, configOption, flag, path, Words.all, Words.withOption,
      Words.withPlain, Words.none, isProject.1, isDefinition.1]
  have onlyFile : onlyPath ⟨[("project", project), ("definition", definition)], [file]⟩ =
      .ok (.ofText file) :=
    if_neg (by simp [isFile.1])
  rw [ofArguments_command (by decide), inner]
  change (onlyPath _ >>= fun _ => _) >>= _ = _
  rw [onlyFile]
  rfl

end Invocation

section Running

open FileAction

variable {w w' : World} {e : Environment} {arguments : List String} {i : Invocation}

/-- The program ends well just if what it is asked for does. -/
theorem run_runProgram {result : Except Fault Nat}
    (parsed : Invocation.ofArguments arguments = .ok i) (h : Yields (i.run e) w result w') :
    (((runProgram e arguments).run w).1.code = 0 ↔ result = .ok 0) ∧
      ((runProgram e arguments).run w).2 = w' := by
  have ran : (ExceptT.run (i.run e)).run w = (result, w') := h
  unfold runProgram
  rw [parsed]
  dsimp only
  rw [FileProgram.run_bind, ran]
  cases result with
  | error fault => exact ⟨⟨nofun, nofun⟩, rfl⟩
  | ok code => exact ⟨⟨congrArg Except.ok, Except.ok.inj⟩, rfl⟩

/-- A command is carried out under the configuration that is found. -/
theorem Invocation.yields_run {command : Command} {config : Configuration}
    {result : Except Fault Nat} (noFault : w.fault = none)
    (configured : ((Configuration.load e none).run.run w).1 = .ok config)
    (h : Yields (command.run e config) w result w') :
    Yields (run e ⟨none, command⟩) w result w' := by
  have loaded := (Configuration.onlyLooks_load e none).yields noFault
  rw [show ((ExceptT.run (Configuration.load e none)).run w).1 = _ from configured] at loaded
  exact loaded.inContext.bind h

end Running

end ProductSpec
