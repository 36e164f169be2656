import OperationLibrary.Disk.FileTree
import OperationLibrary.Text.Similarity

/-!
The arguments of a command line. Options have a long name, and some a short one; several short
ones may stand together behind one dash. The value of an option is the argument behind it, or what
follows an equals sign.
-/

namespace OperationLibrary.Command

/-! ### Rules -/

/-- What an option takes, and which values it accepts. -/
inductive ValueRule where
  | flag
  | text
  | path (mustExist : Bool) (kind : Option FileKind)
  | choice (words : List String)
  deriving DecidableEq

structure OptionRule where
  names : List String
  value : ValueRule
  isRequired : Bool := false
  /-- The value of an option that is not given. -/
  preset : Option String := none
  /-- What the option is for. -/
  about : String
  deriving DecidableEq

/-- An option without a value. -/
def OptionRule.flag (names : List String) (about : String) : OptionRule where
  names := names
  value := .flag
  about := about

def OptionRule.takesValue (rule : OptionRule) : Bool :=
  rule.value ≠ .flag

/-- All names of an option, as messages show them. -/
def OptionRule.hint (rule : OptionRule) : String :=
  " / ".intercalate (rule.names.map Text.quoted)

def isLongName (name : String) : Bool :=
  name.startsWith "--"

/-! ### Faults -/

/-- What is wrong with the arguments of a command line. -/
inductive ArgumentFault where
  | unknownOption (name : String) (similar : List String)
  | missingValue (name : String)
  | unwantedValue (name : String)
  | invalidValue (rule : OptionRule) (problem : String)
  | missingOption (rule : OptionRule)
  | unexpected (arguments : List String)
  | unknownCommand (name : String) (similar : List String)
  | missingCommand
  deriving DecidableEq

def suggestion : List String → String
  | [] => ""
  | [word] => " Did you mean " ++ Text.quoted word ++ "?"
  | words => " (Did you mean one of: " ++ ", ".intercalate (words.map Text.quoted) ++ "?)"

def ArgumentFault.message : ArgumentFault → String
  | .unknownOption name similar =>
    "No such option " ++ Text.quoted name ++ "." ++ suggestion similar
  | .missingValue name => "Option " ++ Text.quoted name ++ " requires an argument."
  | .unwantedValue name => "Option " ++ Text.quoted name ++ " does not take a value."
  | .invalidValue rule problem => "Invalid value for " ++ rule.hint ++ ": " ++ problem
  | .missingOption rule => "Missing option " ++ rule.hint ++ "."
  | .unexpected arguments =>
    "Got unexpected extra argument" ++ (if arguments.length = 1 then "" else "s") ++ " (" ++
      " ".intercalate arguments ++ ")"
  | .unknownCommand name similar =>
    "No such command " ++ Text.quoted name ++ "." ++ suggestion similar
  | .missingCommand => "Missing command."

/-- Whether the message comes with a reminder of how the command is used. -/
def ArgumentFault.remindsOfUsage : ArgumentFault → Bool
  | .missingValue _ | .unwantedValue _ => false
  | _ => true

/-! ### Reading -/

/-- What one argument says: the options in it, and the name of one whose value is yet to come. -/
structure ArgumentReading where
  given : List (OptionRule × String)
  awaited : Option (OptionRule × String)

def findRule? (rules : List OptionRule) (name : String) : Option OptionRule :=
  rules.find? (·.names.contains name)

/-- The options behind a single dash. What follows one that takes a value is that value. -/
def readShortOptions (rules : List OptionRule) : List Char → Except ArgumentFault ArgumentReading
  | [] => .ok ⟨[], none⟩
  | c :: rest =>
    let name := String.ofList ['-', c]
    match findRule? rules name with
    | none => .error (.unknownOption name [])
    | some rule =>
      if rule.takesValue then
        if rest.isEmpty then .ok ⟨[], some (rule, name)⟩
        else .ok ⟨[(rule, String.ofList rest)], none⟩
      else (readShortOptions rules rest).map fun r => { r with given := (rule, "") :: r.given }

/-- The name in an argument, and the value behind an equals sign. -/
def splitValue (argument : String) : String × Option String :=
  let name := argument.toList.takeWhile (· ≠ '=')
  match argument.toList.dropWhile (· ≠ '=') with
  | [] => (argument, none)
  | _ :: value => (String.ofList name, some (String.ofList value))

def readOption (rules : List OptionRule) (argument : String) :
    Except ArgumentFault ArgumentReading :=
  let (name, value) := splitValue argument
  match (findRule? rules name).filter (fun _ => isLongName name), value with
  | some rule, some value =>
    if rule.takesValue then .ok ⟨[(rule, value)], none⟩ else .error (.unwantedValue name)
  | some rule, none =>
    if rule.takesValue then .ok ⟨[], some (rule, name)⟩ else .ok ⟨[(rule, "")], none⟩
  | none, _ =>
    if isLongName argument then
      let names := (rules.flatMap OptionRule.names).filter isLongName
      .error (.unknownOption name (Text.similarWords names name))
    else readShortOptions rules (argument.toList.drop 1)

/-- The options of a command line in their order, and the arguments that are none. -/
structure Reading where
  given : List (OptionRule × String)
  loose : List String

def Reading.after (given : List (OptionRule × String)) (reading : Reading) : Reading :=
  { reading with given := given ++ reading.given }

def isOption (argument : String) : Bool :=
  argument.startsWith "-" && argument ≠ "-"

/-- Reads the arguments of a command line. Two dashes end the options; so does, unless `mixed`, the
first argument that is none. -/
def readArguments (rules : List OptionRule) (mixed : Bool) :
    List String → Except ArgumentFault Reading
  | [] => .ok ⟨[], []⟩
  | argument :: rest =>
    if argument = "--" then .ok ⟨[], rest⟩
    else if isOption argument then
      match readOption rules argument, rest with
      | .error fault, _ => .error fault
      | .ok ⟨given, none⟩, rest => (readArguments rules mixed rest).map (Reading.after given)
      | .ok ⟨_, some (_, name)⟩, [] => .error (.missingValue name)
      | .ok ⟨given, some (rule, _)⟩, value :: rest =>
        (readArguments rules mixed rest).map (Reading.after (given ++ [(rule, value)]))
    else if mixed then
      (readArguments rules mixed rest).map fun r => { r with loose := argument :: r.loose }
    else .ok ⟨[], argument :: rest⟩

/-! ### Checking -/

/-- What a path with this rule is called in messages. -/
def pathNoun : Option FileKind → String
  | none => "Path"
  | some .file => "File"
  | some .directory => "Directory"

/-- What is wrong with a value. -/
def ValueRule.problem? (workspace : Workspace) (value : String) : ValueRule → Option String
  | .flag | .text => none
  | .path mustExist kind =>
    let about := pathNoun kind ++ " " ++ Text.quoted value
    match workspace.kind? value, kind with
    | none, _ => if mustExist then some (about ++ " does not exist.") else none
    | some .file, some .directory => some (about ++ " is a file.")
    | some .directory, some .file => some (about ++ " is a directory.")
    | some _, _ => none
  | .choice words =>
    if words.contains value then none
    else some (Text.quoted value ++ " is not one of " ++
      ", ".intercalate (words.map Text.quoted) ++ ".")

/-- The values of options, by their first names. -/
abbrev OptionValues := List (String × String)

/-- Checks options in turn; of an option that is given several times the last value counts. -/
def checkGiven (workspace : Workspace) (given : List (OptionRule × String)) :
    List OptionRule → Except ArgumentFault OptionValues
  | [] => .ok []
  | rule :: rest =>
    match (given.reverse.lookup rule).or rule.preset with
    | none =>
      if rule.isRequired then .error (.missingOption rule) else checkGiven workspace given rest
    | some value =>
      match rule.value.problem? workspace value with
      | some problem => .error (.invalidValue rule problem)
      | none => (checkGiven workspace given rest).map ((rule.names.headD "", value) :: ·)

/-- The values of all options: first those that are given, in the order in which they are, then
the others in the order of the rules. Nothing else may be left. -/
def checkReading (workspace : Workspace) (rules : List OptionRule) (reading : Reading) :
    Except ArgumentFault OptionValues := do
  let given := (reading.given.map Prod.fst).eraseDups
  let values ← checkGiven workspace reading.given
    (given ++ rules.filter fun rule => !given.contains rule)
  if reading.loose.isEmpty then return values else .error (.unexpected reading.loose)

end OperationLibrary.Command
