/-
  Where the configuration comes from: three files in the working directory, the user's file, a
  file that is named, and variables of the environment, each laid over those before it.
-/
import ProductSpec.Configuration.Basic
import ProductSpec.Json.Reader
import ProductSpec.Toml.Reader
import ProductSpec.Yaml.Decode
import ProductSpec.Yaml.Plain

namespace ProductSpec

open FileAction Number

/-- The variables of the environment by name. -/
abbrev Environment := List (String × String)

namespace Environment

/-- The user's directory for files of this program. It is found from the home directory. -/
def configDir? (e : Environment) : Option FilePath := do
  let home ← e.lookup "HOME"
  if home.isEmpty then none
  let config := match (e.lookup "XDG_CONFIG_HOME").map FilePath.ofText with
    | some path => if path.isAbsolute then path else FilePath.join home ".config"
    | none => FilePath.join home ".config"
  return config.join "ncvocab"

/-- A name with a point for every two underscores. -/
def withPoints : List Char → List Char
  | '_' :: '_' :: rest => '.' :: withPoints rest
  | c :: rest => c :: withPoints rest
  | [] => []

def splitSign : List Char → Bool × List Char
  | '-' :: rest => (true, rest)
  | '+' :: rest => (false, rest)
  | rest => (false, rest)

/-- An integer of 64 bits with sign. -/
def integer? (cs : List Char) : Option Int := do
  let (negative, digits) := splitSign cs
  let n ← Yaml.digits? 10 digits
  let n : Int := if negative then -(n : Int) else n
  if fitsInt64 n then some n else none

def float? (cs : List Char) : Option Number.Double :=
  let (negative, body) := splitSign cs
  match String.ofList (body.map Char.toLower) with
  | "nan" => some .nan
  | "inf" | "infinity" => some (.infinite negative)
  | _ => Yaml.decimal? negative body

/-- A variable's value: a truth value or a number if it can be read as one. -/
def valueOf (s : String) : Json :=
  match s.toLower, integer? s.toList, float? s.toList with
  | "true", _, _ => .bool true
  | "false", _, _ => .bool false
  | _, some n, _ => .int n
  | _, none, some x => .float x
  | _, none, none => .text s

/-- The settings in the environment: the variables whose names begin with the program's. -/
def settings (e : Environment) : List (String × Json) :=
  e.filterMap fun (name, value) =>
    (Text.dropStart? "ncvocab__".toList name.toLower.toList).map fun key =>
      (String.ofList (withPoints key), valueOf value)

example : (settings [("NCVOCAB__CHECK__ALLOW_UNKNOWN", "False"), ("PATH", "x")]).map (·.1) =
    ["check.allow_unknown"] := by decide +kernel

end Environment

/-- The forms in which a file may hold settings. -/
inductive SettingsFormat
  | toml
  | json
  | yaml
deriving DecidableEq, Repr

namespace SettingsFormat

def ofExtension? : String → Option SettingsFormat
  | "toml" => some toml
  | "json" => some json
  | "yaml" | "yml" => some yaml
  | _ => none

def extensions : List String := ["toml", "json", "yaml", "yml"]

def read? : SettingsFormat → String → Option Json
  | toml, text => Toml.read? text
  | json, text => (Json.read? text).map Json.sorted
  | yaml, text => do
    let node ← Yaml.Node.read? text
    if node.isEmpty then return .object [] else return (← Yaml.Value.ofNode? node).toJson

end SettingsFormat

namespace Configuration

/-- The file that a path stands for, and its form. An extension may be left out. -/
def findFile? (path : FilePath) : FileProgram (Option (FilePath × SettingsFormat)) := do
  if ← FileProgram.isFile path then
    return (path.extension?.bind SettingsFormat.ofExtension?).map fun format => (path, format)
  let candidates := SettingsFormat.extensions.filterMap fun extension =>
    (SettingsFormat.ofExtension? extension).map fun format =>
      (FilePath.ofText (path.text ++ "." ++ extension), format)
  firstFile candidates
where
  firstFile : List (FilePath × SettingsFormat) → FileProgram (Option (FilePath × SettingsFormat))
    | [] => return none
    | (path, format) :: rest => do
      if ← FileProgram.isFile path then return some (path, format) else firstFile rest

/-- The text of a settings file and its form, if it can be read. -/
def readFile? (path : FilePath) : FileProgram (Option (String × SettingsFormat)) := do
  match ← findFile? path with
  | none => return none
  | some (path, format) => return (← FileProgram.readText path).toOption.map (·, format)

/-- Lays the settings of a file over others. A file that need not be there may be missing, but a
file that is there must have the right form. -/
def overlayFile (isRequired : Bool) (path : FilePath) (settings : Json) : FileAction Json := do
  match ← ofProgram (readFile? path) with
  | none => if isRequired then throw .configuration else return settings
  | some (text, format) =>
    match format.read? text with
    | some (.object members) => return Setting.overlayAll settings members
    | _ => throw .configuration

def fileName : String := "ncvocab.toml"

/-- The files in the working directory that may hold settings. -/
def localFiles : List FilePath := [fileName, "." ++ fileName, "config/" ++ fileName]

def overlayFiles : List FilePath → Json → FileAction Json
  | [], settings => return settings
  | path :: rest, settings => do overlayFiles rest (← overlayFile false path settings)

/-- The user's settings file, if there is one. -/
def userFiles (e : Environment) : FileAction (List FilePath) := do
  match e.configDir? with
  | none => return []
  | some directory =>
    let path := directory.join fileName
    if ← exists? path then return [path] else return []

/-- The configuration from all that it comes from. -/
def load (e : Environment) (file : Option FilePath) : FileAction Configuration := do
  let settings ← overlayFiles (localFiles ++ (← userFiles e)) (.object [])
  let settings ← match file with
    | some path => overlayFile true path settings
    | none => pure settings
  match ofSettings (Setting.overlayAll settings e.settings) with
  | .ok c => return c
  | .error _ => throw .configuration

def save (c : Configuration) (path : FilePath) : FileAction Unit := do
  match c.text? with
  | some text => writeText path text
  | none => throw (.file (.system "a number is too great"))

/-- The project registry that the configuration names, else the user's. -/
def registryPath? (e : Environment) (c : Configuration) : Option FilePath :=
  c.project.registry.or (e.configDir?.map fun directory => directory.join "registry.yaml")

end Configuration

end ProductSpec
