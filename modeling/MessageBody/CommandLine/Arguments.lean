import MessageBody.Text.Numeral
import MessageBody.Text.Search

/-! # Arguments of the command line

    The first argument that is not an option names a command; the arguments after
    it are the command's own.  An option has a name with two dashes and may be
    given a value, after an equals sign or as the next argument.  A single dash
    stands for standard input, and two dashes end the options. -/

namespace MessageBody.CommandLine

/-- Why arguments cannot be understood. -/
inductive UsageError where
  | noCommand
  | unknownCommand (name : String)
  | unknownOption (name : String)
  | missingValue (name : String)
  | unexpectedValue (name : String)
  | notWhole (name value : String)
  | extraArgument (value : String)
  | unreadable (source : String)
  deriving DecidableEq

/-- The text of the error. -/
def UsageError.message : UsageError → String
  | .noCommand => "Error: Missing command."
  | .unknownCommand name => "Error: No such command: " ++ name
  | .unknownOption name => "Error: No such option: " ++ name
  | .missingValue name => "Error: Option requires an argument: " ++ name
  | .unexpectedValue name => "Error: Option does not take a value: " ++ name
  | .notWhole name value => "Error: Not a valid integer for " ++ name ++ ": " ++ value
  | .extraArgument value => "Error: Got unexpected extra argument: " ++ value
  | .unreadable source => "Error: No such file: " ++ source

/-! ## Scanning -/

/-- An option that a command knows. -/
structure OptionSpec where
  name : String
  takesValue : Bool

/-- Arguments sorted into options, with their values, and others. -/
structure Scanned where
  options : List (String × String)
  others : List String

/-- One more option in front. -/
def Scanned.addOption (name value : String) (s : Scanned) : Scanned :=
  { s with options := (name, value) :: s.options }

/-- One more other argument in front. -/
def Scanned.addOther (arg : String) (s : Scanned) : Scanned :=
  { s with others := arg :: s.others }

/-- Whether an argument has the form of an option. -/
def isOption (arg : String) : Bool :=
  match arg.toList with
  | '-' :: _ :: _ => true
  | _ => false

/-- The name of an option, and the value after its equals sign if there is one. -/
def cutValue (arg : String) : String × Option String :=
  match Text.cutAt? '=' arg.toList with
  | some (name, value) => (String.ofList name, some (String.ofList value))
  | none => (arg, none)

/-- The arguments sorted.  Options may come after other arguments if
    `interspersed` says so. -/
def scan (specs : List OptionSpec) (interspersed : Bool) :
    List String → Except UsageError Scanned
  | [] => .ok ⟨[], []⟩
  | arg :: args =>
      if arg = "--" then .ok ⟨[], args⟩
      else if isOption arg then
        let (name, value?) := cutValue arg
        match specs.find? fun spec => spec.name = name with
        | none => .error (.unknownOption name)
        | some spec =>
            if spec.takesValue then
              match value?, args with
              | some value, args => (scan specs interspersed args).map (.addOption name value)
              | none, [] => .error (.missingValue name)
              | none, value :: args =>
                  (scan specs interspersed args).map (.addOption name value)
            else if value?.isSome then .error (.unexpectedValue name)
            else (scan specs interspersed args).map (.addOption name "")
      else if interspersed then (scan specs interspersed args).map (.addOther arg)
      else .ok ⟨[], arg :: args⟩

/-- Whether an option is given. -/
def Scanned.has (s : Scanned) (name : String) : Bool :=
  s.options.any fun option => option.1 = name

/-- A value as a whole number. -/
def wholeValue (name value : String) : Except UsageError Int :=
  match Text.wholeNumeral value.toList with
  | .ok n => .ok n
  | .error _ => .error (.notWhole name value)

/-- Values as whole numbers, up to the first that is none. -/
def wholeValues (name : String) : List String → Except UsageError (List Int)
  | [] => .ok []
  | value :: values => do
      let first ← wholeValue name value
      let rest ← wholeValues name values
      .ok (first :: rest)

/-- The values that an option is given, in their order. -/
def Scanned.values (s : Scanned) (name : String) : List String :=
  (s.options.filter fun option => option.1 = name).map Prod.snd

/-- The whole number that an option is given last, or another one when it is not
    given. -/
def Scanned.wholeOr (s : Scanned) (default : Int) (name : String) : Except UsageError Int :=
  match (s.values name).getLast? with
  | none => .ok default
  | some value => wholeValue name value

/-! ## Commands -/

/-- How a body is printed as stored data. -/
structure ParseOptions where
  plaintext : Bool
  allowMention : Bool
  labelled : Bool
  indent : Int

/-- How a body is printed as it is displayed. -/
structure RenderOptions where
  expanded : List Int
  expandAll : Bool
  listRanges : Bool

/-- A command. -/
inductive Command where
  | parse (options : ParseOptions)
  | render (options : RenderOptions)

/-- What the arguments ask for. -/
inductive Request where
  /-- To be told about the commands, or about the one of this name. -/
  | help (command : Option String)
  /-- To run a command on a source. -/
  | run (command : Command) (source : String)

/-- The option that asks for help. -/
def helpOption : OptionSpec := ⟨"--help", false⟩

/-- The name of standard input as a source. -/
def standardInput : String := "-"

/-- The source among the arguments of a command. -/
def sourceOf : List String → Except UsageError String
  | [] => .ok standardInput
  | [source] => .ok source
  | _ :: extra :: _ => .error (.extraArgument extra)

/-- The request to the `parse` command. -/
def parseRequest (args : List String) : Except UsageError Request := do
  let scanned ← scan
    [helpOption, ⟨"--plaintext", false⟩, ⟨"--no-room-mention", false⟩,
      ⟨"--newline-debug", false⟩, ⟨"--indent", true⟩] true args
  if scanned.has "--help" then .ok (.help (some "parse"))
  else
    let indent ← scanned.wholeOr 2 "--indent"
    let source ← sourceOf scanned.others
    .ok (.run (.parse
      { plaintext := scanned.has "--plaintext"
        allowMention := !scanned.has "--no-room-mention"
        labelled := scanned.has "--newline-debug"
        indent := indent }) source)

/-- The request to the `render` command. -/
def renderRequest (args : List String) : Except UsageError Request := do
  let scanned ← scan
    [helpOption, ⟨"--expand", true⟩, ⟨"--expand-all", false⟩, ⟨"--ranges", false⟩] true args
  if scanned.has "--help" then .ok (.help (some "render"))
  else
    let expanded ← wholeValues "--expand" (scanned.values "--expand")
    let source ← sourceOf scanned.others
    .ok (.run (.render
      { expanded := expanded
        expandAll := scanned.has "--expand-all"
        listRanges := scanned.has "--ranges" }) source)

/-- What the arguments ask for. -/
def request (args : List String) : Except UsageError Request := do
  let scanned ← scan [helpOption] false args
  if scanned.has "--help" then .ok (.help none)
  else
    match scanned.others with
    | [] => .error .noCommand
    | "parse" :: args => parseRequest args
    | "render" :: args => renderRequest args
    | name :: _ => .error (.unknownCommand name)

end MessageBody.CommandLine
