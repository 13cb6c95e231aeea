import FleetLabels.Manifest.Definition
import FleetLabels.Manifest.Yaml
import FleetLabels.Settings.Basic
import FleetLabels.Settings.LogFilter
import FleetLabels.Text.Quoted

/-!
# The programs

What the two programs print: the one that writes the definition of policies, and the controller as
far as it gets without a cluster. The controller loads its settings, says that it starts, and gives
up when it finds no cluster to connect to.
-/

namespace FleetLabels.Program

/-- The lines that a program prints, and its exit code. -/
structure Report where
  exit : UInt32
  stdout : List String
  stderr : List String
  deriving DecidableEq, Repr

/-- The lines that a text takes up: it is broken at every line feed, and a carriage return in front
of one belongs to the break. The text itself is followed by a line feed. -/
def linesOf (s : String) : List String :=
  (s.splitOn "\n").map fun line =>
    match line.toList.reverse with
    | '\r' :: front => String.ofList front.reverse
    | _ => line

/-- The program that writes the definition of policies. -/
def definition : Report :=
  { exit := 0, stdout := Yaml.lines Manifest.definition, stderr := [] }

/-- The variable by which output is filtered, in place of the log level of the settings. -/
def filterVariable : String := "RUST_LOG"

/-- What is printed: as the variable says if it holds a filter, else as the log level says. -/
def filterOf (env : Environment) (settings : Settings) : LogFilter :=
  ((env.text? filterVariable).bind LogFilter.parse?).getD (.ofLevel settings.logLevel)

/-- The part of the program that a line comes from. -/
def target : String := "node_label_controller"

/-- The one field of a line. -/
def messageField : String := "message"

/-- How a character of a message is printed: one that a terminal would take for a command is written
out, with the exception of tabulators and line breaks. -/
def printed (c : Char) : List Char :=
  let n := c.toNat
  if n = 0x07 || n = 0x08 || n = 0x0C || n = 0x1B || n = 0x7F then
    ['\\', 'x', Nat.digitChar (n / 16), Nat.digitChar (n % 16)]
  else if 0x80 ≤ n && n ≤ 0x9F then ['\\', 'u', '\x7b'] ++ Text.hexDigits n ++ ['\x7d']
  else [c]

/-- The lines that a message takes up, none if the filter holds it back. -/
def logged (filter : LogFilter) (level : LogLevel) (message : String) : List String :=
  if filter.admits ⟨target.toList, [messageField.toList], level⟩ then
    linesOf (level.text ++ " " ++ target ++ ": " ++
      String.ofList (message.toList.flatMap printed))
  else []

/-- What is said about a log level that does not exist. -/
def invalidLogLevel (value : String) (used : LogLevel) : String :=
  "Invalid LOG_LEVEL '" ++ value ++ "', supported: " ++ LogLevel.supportedText ++ "; using " ++
    used.text

/-- What is said about the settings. -/
def loaded (settings : Settings) : String :=
  "Configuration loaded: reconcile_interval=" ++ toString settings.reconcileInterval ++
    "s, error_requeue=" ++ toString settings.errorRequeue ++ "s"

/-- The lines of an error with what it goes back to. -/
def errorLines (message : String) : Option String → List String
  | none => linesOf ("Error: " ++ message)
  | some cause => linesOf ("Error: " ++ message) ++ ["", "Caused by:", "    " ++ cause]

/-- What is said when there is no cluster. -/
def noCluster : String := "Failed to infer configuration"

/-- The controller, as far as it gets without a cluster. -/
def controller (env : Environment) : Report :=
  match Settings.load env with
  | .error e => { exit := 1, stdout := [], stderr := errorLines e.message e.cause? }
  | .ok settings =>
      let log := logged (filterOf env settings)
      let complaint :=
        match settings.invalidLogLevel with
        | some value => log .error (invalidLogLevel value settings.logLevel)
        | none => []
      { exit := 1
        stdout := complaint ++ log .info "Starting node label controller" ++
          log .info (loaded settings)
        stderr := errorLines noCluster none }

end FleetLabels.Program
