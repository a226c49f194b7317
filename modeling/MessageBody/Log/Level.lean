import MessageBody.Text.Blank

/-! # Levels of logging

    The level from which records are shown goes by a name, in any case of letters
    and with white space around it.  A name that is not known stands for the level
    of warnings. -/

namespace MessageBody

/-- The level from which records are shown. -/
inductive LogLevel where
  | unset
  | debug
  | detail
  | info
  | warning
  | error
  | critical
  deriving DecidableEq

namespace LogLevel

/-- The number of the level; more serious records have higher numbers. -/
def number : LogLevel → Nat
  | .unset => 0
  | .debug => 10
  | .detail => 15
  | .info => 20
  | .warning => 30
  | .error => 40
  | .critical => 50

/-- The names of the levels. -/
def names : List (String × LogLevel) :=
  [ ("CRITICAL", .critical), ("FATAL", .critical), ("ERROR", .error), ("WARN", .warning),
    ("WARNING", .warning), ("INFO", .info), ("DETAIL", .detail), ("DEBUG", .debug),
    ("NOTSET", .unset) ]

/-- The capital form of a character as far as it is an ASCII letter; the dotless i
    and the long s have one. -/
def capital (c : Char) : Char :=
  if c = '\u0131' then 'I'
  else if c = '\u017f' then 'S'
  else c.toUpper

/-- The level that goes by a name. -/
def ofName (name : String) : LogLevel :=
  let capitals := (Text.trim Text.isBlank name.toList).map capital
  (names.lookup (String.ofList capitals)).getD .warning

example : ofName " detail" = .detail := by decide

end LogLevel

end MessageBody
