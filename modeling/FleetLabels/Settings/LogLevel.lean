import FleetLabels.Text.Blank

/-!
# Log levels

How much the controller says. Levels are ordered: a line is printed when its level is at least as
serious as the one that is set.
-/

namespace FleetLabels

/-- How much is said. -/
inductive LogLevel where
  | debug
  | info
  | warning
  | error
  deriving DecidableEq, Repr

namespace LogLevel

/-- All levels, from the most talkative one on. -/
def supported : List LogLevel := [.debug, .info, .warning, .error]

/-- The name of a level. -/
def text : LogLevel → String
  | .debug => "DEBUG"
  | .info => "INFO"
  | .warning => "WARNING"
  | .error => "ERROR"

/-- The word by which output is filtered at a level. -/
def filter : LogLevel → String
  | .debug => "debug"
  | .info => "info"
  | .warning => "warn"
  | .error => "error"

/-- How serious a level is. -/
def severity : LogLevel → Nat
  | .debug => 0
  | .info => 1
  | .warning => 2
  | .error => 3

/-- The names of all levels, as messages list them. -/
def supportedText : String :=
  ", ".intercalate (supported.map text)

/-- The level of a name in upper-case letters. -/
def ofName? (name : List Char) : Option LogLevel :=
  supported.find? fun l => l.text.toList == name

/-- The level that a text names: without regard to case and to white space at the ends. -/
def parse? (s : String) : Option LogLevel :=
  ofName? ((Text.trimmed s.toList).map Char.toUpper)

end LogLevel

end FleetLabels
