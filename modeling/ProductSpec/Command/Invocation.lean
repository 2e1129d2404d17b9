/-
  The commands of the program and how they are called.
-/
import ProductSpec.Command.Arguments
import ProductSpec.File.Path
import ProductSpec.Report.Render

namespace ProductSpec

structure CheckCommand where
  file : FilePath
  projects : List FilePath
  definition : Option FilePath
  verbosity : Verbosity
  /-- Whether parts of the file that the definition does not know are told. -/
  isClosed : Bool
deriving DecidableEq, Repr, Inhabited

inductive Command
  | check (c : CheckCommand)
  | register (project : FilePath) (conventions : String) (definitions : Option FilePath)
      (force : Bool)
  | createVersion (project : FilePath) (tag : String) (output : Option FilePath)
  | exampleData (project : Option FilePath) (definition output : FilePath)
  | init (directory : FilePath)
  | diff (output : Option FilePath) (old new : String) (strict text : Bool)
  | list (output : Option FilePath)
deriving DecidableEq, Repr, Inhabited

/-- A command and the configuration file that is named with it. -/
structure Invocation where
  config : Option FilePath
  command : Command
deriving DecidableEq, Repr, Inhabited

namespace Command

def flag (name : String) (letter : Option Char) : OptionSpec := ⟨name, letter, .flag, false⟩

def text (name : String) (letter : Option Char) : OptionSpec := ⟨name, letter, .text, false⟩

def path (name : String) (letter : Option Char) : OptionSpec := ⟨name, letter, .path, false⟩

/-- The option that may stand before and behind the name of a command. -/
def configOption : OptionSpec := path "config" none

def programOptions : List OptionSpec := [configOption, flag "version" (some 'V')]

def names : List String :=
  ["check", "register", "create-version", "eg-data", "init", "diff", "list"]

def options : String → List OptionSpec
  | "check" =>
    [⟨"project", some 'p', .path, true⟩, path "definition" (some 'd'), flag "errors" (some 'e'),
     flag "warnings" (some 'w'), flag "quiet" (some 'q'), flag "closed" none]
  | "register" =>
    [text "conventions" (some 'c'), path "definitions" (some 'd'), flag "force" (some 'f')]
  | "create-version" =>
    [path "project" (some 'd'), text "version" (some 'v'), path "output" (some 'o')]
  | "eg-data" =>
    [path "project" (some 'p'), path "definition" (some 'd'), path "output" (some 'o')]
  | "init" => [path "directory" (some 'd')]
  | "diff" =>
    [path "output" (some 'o'), text "from" none, text "to" none, flag "strict" none,
     flag "text" none]
  | "list" => [path "output" (some 'o')]
  | _ => []

/-- The name of a command that may also be written in another way. -/
def fullName : String → String
  | "create_version" => "create-version"
  | "eg_data" => "eg-data"
  | name => name

def pathOf (w : Words) (name : String) : Except Stop FilePath :=
  return .ofText (← w.required name)

def path? (w : Words) (name : String) : Option FilePath := (w.get? name).map .ofText

/-- The only plain word, which is a path. -/
def onlyPath (w : Words) : Except Stop FilePath :=
  match w.plain with
  | [word] => if word.isEmpty then .error .usage else .ok (.ofText word)
  | _ => .error .usage

def noPlain (w : Words) : Except Stop Unit := if w.plain.isEmpty then .ok () else .error .usage

/-- How much is shown. No more than one choice may be made. -/
def verbosity (w : Words) : Except Stop Verbosity :=
  match w.has "errors", w.has "warnings", w.has "quiet" with
  | false, false, false => .ok .all
  | true, false, false => .ok .errorsOnly
  | false, true, false => .ok .warningsAndErrors
  | false, false, true => .ok .quiet
  | _, _, _ => .error .usage

/-- The command of a name with its words. -/
def ofWords (name : String) (w : Words) : Except Stop Command := do
  match name with
  | "check" =>
    return .check ⟨← onlyPath w, (w.all "project").map .ofText, path? w "definition",
      ← verbosity w, w.has "closed"⟩
  | "register" =>
    return .register (← onlyPath w) (← w.required "conventions") (path? w "definitions")
      (w.has "force")
  | "create-version" =>
    noPlain w
    return .createVersion (← pathOf w "project") (← w.required "version") (path? w "output")
  | "eg-data" =>
    noPlain w
    return .exampleData (path? w "project") (← pathOf w "definition") (← pathOf w "output")
  | "init" =>
    noPlain w
    return .init (← pathOf w "directory")
  | "diff" =>
    noPlain w
    return .diff (path? w "output") (← w.required "from") ((w.get? "to").getD "latest")
      (w.has "strict") (w.has "text")
  | "list" =>
    noPlain w
    return .list (path? w "output")
  | _ => throw .usage

end Command

namespace Invocation

/-- What a command line asks for. -/
def ofArguments (arguments : List String) : Except Command.Stop Invocation := do
  let outer ← Command.checkWords Command.programOptions true arguments
  match outer.plain with
  | [] => throw .usage
  | name :: rest =>
    let name := Command.fullName name
    if name = "help" then throw .help
    if name ∉ Command.names then throw .usage
    let inner ← Command.checkWords (Command.configOption :: Command.options name) false rest
    let config := (Command.path? inner "config").or (Command.path? outer "config")
    return ⟨config, ← Command.ofWords name inner⟩

example : (ofArguments ["--config", "c.toml", "diff", "--from=1", "--strict"]).toOption =
    some ⟨some "c.toml", .diff none "1" "latest" true false⟩ := rfl
example : (ofArguments ["check", "x", "-pa", "-qp=b"]).toOption =
    some ⟨none, .check ⟨"x", ["a", "b"], none, .quiet, false⟩⟩ := rfl
example : (ofArguments ["check", "x", "-e", "-w"]).toOption = none ∧
    (ofArguments ["list", "-o", "-x"]).toOption = none := ⟨rfl, rfl⟩

end Invocation

end ProductSpec
