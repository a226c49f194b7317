import MessageBody.CommandLine.Arguments
import MessageBody.CommandLine.Listing
import MessageBody.Display.Session
import MessageBody.Storage.Writing
import MessageBody.Text.LineBreak

/-! # Running commands

    A command turns the text of its source into an outcome: what is printed, and
    the exit code.  Control sequences for a terminal are left out of what is
    printed, and its line breaks are line feeds. -/

namespace MessageBody.CommandLine

/-- What running a command comes to. -/
structure Outcome where
  exitCode : UInt32
  output : String
  /-- What is said about an error. -/
  complaint : String
  deriving DecidableEq

/-- A command that has been carried out. -/
def Outcome.success (output : String) : Outcome := ⟨0, output, ""⟩

/-- A command that broke off. -/
def Outcome.failure (complaint : String) : Outcome := ⟨1, "", complaint⟩

/-- Arguments that could not be understood. -/
def Outcome.usage (e : UsageError) : Outcome := ⟨2, "", e.message⟩

/-! ## Printing -/

/-- A parameter of a control sequence: a digit, or one of `:;<=>?`. -/
def isParameter (c : Char) : Bool :=
  '0' ≤ c && c ≤ '?'

/-- A character between the parameters of a control sequence and its last one: a
    blank, or one of the marks below the digits. -/
def isIntermediate (c : Char) : Bool :=
  ' ' ≤ c && c ≤ '/'

/-- The last character of a control sequence. -/
def isFinal (c : Char) : Bool :=
  '@' ≤ c && c ≤ '~'

/-- The length of the control sequence for a terminal at the start of `s`, zero
    when there is none.  A sequence is an escape and a bracket, parameters,
    intermediate characters and a last one. -/
def sequenceLength : List Char → Nat
  | '\x1b' :: '[' :: s =>
      let parameters := s.takeWhile isParameter
      let rest := s.dropWhile isParameter
      let intermediates := rest.takeWhile isIntermediate
      match rest.dropWhile isIntermediate with
      | c :: _ => if isFinal c then 3 + parameters.length + intermediates.length else 0
      | [] => 0
  | _ => 0

/-- `s` without control sequences for a terminal, where `skip` more characters
    belong to the one at hand. -/
def withoutSequences : Nat → List Char → List Char
  | _, [] => []
  | skip + 1, _ :: cs => withoutSequences skip cs
  | 0, c :: cs =>
      match sequenceLength (c :: cs) with
      | 0 => c :: withoutSequences 0 cs
      | length + 1 => withoutSequences length cs

/-- A text as it is printed, on lines of its own. -/
def printed (s : String) : String :=
  String.ofList (Text.shortenLineBreaks (withoutSequences 0 s.toList ++ ['\n']))

/-! ## Commands -/

/-- The settings with which a body is read. -/
def ParseOptions.settings (options : ParseOptions) : Settings where
  allowMention := options.allowMention
  labelled := options.labelled

/-- A body printed as stored data. -/
def printBody (indent : Int) (body : Body) : Outcome :=
  match body.write (some indent) with
  | .ok data => .success (printed data)
  | .error e => .failure e.message

/-- The stored data of a body. -/
def runParse (options : ParseOptions) (source : List Char) : Outcome :=
  if options.plaintext then printBody options.indent (Body.ofPlain options.settings source)
  else
    match Body.parse options.settings source with
    | .ok (body, _) => printBody options.indent body
    | .error refusal => .failure refusal.message

/-- What the reader has expanded. -/
def RenderOptions.interaction (options : RenderOptions) (revealable : IdSet) : Interaction :=
  let fresh := Interaction.fresh revealable
  if options.expandAll then fresh.update .expandAll else fresh.update (.expand options.expanded)

/-- The list of ranges below a text. -/
def rangeList (ranges : List Range) : String :=
  printed "---" ++ String.join (ranges.map fun r => printed (rangeLine r))

/-- A body as it is displayed. -/
def runRender (options : RenderOptions) (source : List Char) : Outcome :=
  match Body.parse {} source with
  | .error refusal => .failure refusal.message
  | .ok (body, _) =>
      let session :=
        Session.start Formatter.standard body.text (options.interaction body.revealable)
      match session.display.2.outcome with
      | .error e => .failure e.message
      | .ok t =>
          .success (printed (String.ofList t.text)
            ++ (if options.listRanges then rangeList t.ranges else ""))

/-- The outcome of a command on the text of its source. -/
def Command.run (command : Command) (source : String) : Outcome :=
  let source := Text.unifyLineBreaks source.toList
  match command with
  | .parse options => runParse options source
  | .render options => runRender options source

/-! ## Help -/

/-- What is said about a command, or about all of them. -/
def helpText : Option String → String
  | some "parse" => "Usage: message-body parse [OPTIONS] [SOURCE]

  Print the parse result of SOURCE (a file, or - for stdin) as JSON.

Options:
  --plaintext        Treat the input as a plain body rather than HTML.
  --no-room-mention  Leave @room as literal text.
  --newline-debug    Prefix every newline the parser emits with a visible
                     [label] marker.
  --indent INTEGER   JSON indentation.  [default: 2]
  --help             Show this message and exit.
"
  | some "render" => "Usage: message-body render [OPTIONS] [SOURCE]

  Print the text of SOURCE as displayed, after styling and collapsing.

Options:
  --expand INTEGER  Reveal id of a spoiler or details block to expand; may be
                    repeated.
  --expand-all      Expand every spoiler and details block.
  --ranges          List the annotations and styles of the displayed text after
                    it.
  --help            Show this message and exit.
"
  | _ => "Usage: message-body [OPTIONS] COMMAND [ARGS]...

  Parse and render formatted message bodies.

Options:
  --help  Show this message and exit.

Commands:
  parse   Print the parse result of SOURCE (a file, or - for stdin) as JSON.
  render  Print the text of SOURCE as displayed, after styling and collapsing.
"

/-- The outcome of the arguments, where `read` gives the text of a source if there
    is one. -/
def run (read : String → Option String) (args : List String) : Outcome :=
  match request args with
  | .error e => .usage e
  | .ok (.help command) => .success (helpText command)
  | .ok (.run command source) =>
      match read source with
      | some text => command.run text
      | none => .usage (.unreadable source)

end MessageBody.CommandLine
