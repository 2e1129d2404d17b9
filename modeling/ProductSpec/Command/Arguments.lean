/-
  The words of a command line: options, which begin with hyphens, and what is not an option. An
  option has a long name and perhaps a letter; it is a flag or it takes a value.
-/
import ProductSpec.Text.Split

namespace ProductSpec.Command

/-- Why a command line is not carried out. -/
inductive Stop
  /-- It cannot be understood. -/
  | usage
  /-- It asks for help. -/
  | help
  /-- It asks for the version of the program. -/
  | version
deriving DecidableEq, Repr, Inhabited

inductive OptionKind
  | flag
  | text
  /-- A text that must not be empty. -/
  | path
deriving DecidableEq, Repr

structure OptionSpec where
  name : String
  letter : Option Char
  kind : OptionKind
  isRepeatable : Bool
deriving Repr

/-- What a command line says: its options with their values and its other words. -/
structure Words where
  options : List (String × String)
  plain : List String
deriving DecidableEq, Repr, Inhabited

namespace Words

def none : Words := ⟨[], []⟩

def withOption (name value : String) (w : Words) : Words := ⟨(name, value) :: w.options, w.plain⟩

def withPlain (word : String) (w : Words) : Words := ⟨w.options, word :: w.plain⟩

def get? (w : Words) (name : String) : Option String := w.options.lookup name

def all (w : Words) (name : String) : List String :=
  w.options.filterMap fun o => if o.1 = name then some o.2 else .none

def has (w : Words) (name : String) : Bool := (w.get? name).isSome

def required (w : Words) (name : String) : Except Stop String :=
  match w.get? name with
  | some value => .ok value
  | .none => .error .usage

end Words

/-- An option out of a word with one hyphen: flags by their letters, and at the end perhaps an
option with its value behind it. A name without a value takes the next word. -/
def readLetters (specs : List OptionSpec) :
    List Char → Except Stop (List (String × String) × Option String)
  | [] => .ok ([], none)
  | c :: rest =>
    match specs.find? fun o => o.letter == some c with
    | none => .error (if c = 'h' then .help else .usage)
    | some o =>
      if o.name = "version" ∧ o.kind = .flag then .error .version
      else if o.kind = .flag then do
        let (options, waiting) ← readLetters specs rest
        return ((o.name, "") :: options, waiting)
      else if rest.isEmpty then .ok ([], some o.name)
      else .ok ([(o.name, String.ofList ((Text.dropStart? ['='] rest).getD rest))], none)

/-- An option out of a word with two hyphens. -/
def readLong (specs : List OptionSpec) (word : List Char) :
    Except Stop (List (String × String) × Option String) :=
  let (name, value) := match Text.splitFirst '=' word with
    | some (name, value) => (String.ofList name, some (String.ofList value))
    | none => (String.ofList word, none)
  match specs.find? fun o => o.name == name with
  | none => .error (if name = "help" ∧ value = none then .help else .usage)
  | some o =>
    match o.kind, value with
    | .flag, none => if name = "version" then .error .version else .ok ([(name, "")], none)
    | .flag, some _ => .error .usage
    | _, some value => .ok ([(name, value)], none)
    | _, none => .ok ([], some name)

/-- The options of a word that begins with a hyphen; `none` for any other word. -/
def readOption (specs : List OptionSpec) (word : String) :
    Option (Except Stop (List (String × String) × Option String)) :=
  match word.toList with
  | '-' :: '-' :: rest => some (readLong specs rest)
  | '-' :: c :: rest => some (readLetters specs (c :: rest))
  | _ => none

/-- The words of a command line. If there are commands, the first plain word names one and the
words behind it are its own. -/
def readWords (specs : List OptionSpec) (hasCommands : Bool) : List String → Except Stop Words
  | [] => .ok .none
  | word :: rest =>
    if word = "--" then if hasCommands then .error .usage else .ok ⟨[], rest⟩
    else
      match readOption specs word with
      | none =>
        if hasCommands then .ok ⟨[], word :: rest⟩
        else (readWords specs hasCommands rest).map (.withPlain word)
      | some (.error stop) => .error stop
      | some (.ok (options, none)) => do
        let w ← readWords specs hasCommands rest
        return ⟨options ++ w.options, w.plain⟩
      | some (.ok (options, some name)) =>
        match rest with
        | [] => .error .usage
        | value :: rest =>
          if value = "--" ∨ (readOption specs value).isSome then .error .usage
          else do
            let w ← readWords specs hasCommands rest
            return ⟨options ++ (name, value) :: w.options, w.plain⟩

/-- Whether an option occurs no more often than it may, and never with an empty path. -/
def OptionSpec.allows (o : OptionSpec) (w : Words) : Bool :=
  (o.isRepeatable || (w.all o.name).length ≤ 1) && (o.kind != .path || !(w.all o.name).contains "")

/-- The words of a command line that has the options in the way that they are specified. -/
def checkWords (specs : List OptionSpec) (hasCommands : Bool) (arguments : List String) :
    Except Stop Words := do
  let w ← readWords specs hasCommands arguments
  if specs.all (·.allows w) then return w else throw .usage

end ProductSpec.Command
