import FleetLabels.Decimal.Unsigned
import FleetLabels.KeyMap
import FleetLabels.Settings.LogLevel
import FleetLabels.Text.Utf8

/-!
# Settings

What the controller takes from its environment: two delays in seconds and a log level. A variable
that is not text counts as unset. A delay that is no whole number, or is zero, makes loading fail;
a log level that is not known is replaced by `INFO` and remembered.
-/

namespace FleetLabels

/-- The variables of a process. -/
abbrev Environment := KeyMap Text.Raw

/-- The text of a variable, if it is set to a text. -/
def Environment.text? (env : Environment) (name : String) : Option String :=
  match env.get? name with
  | some raw => raw.read.toOption
  | none => none

/-- The settings of the controller. -/
structure Settings where
  /-- Seconds between successful passes of a policy. -/
  reconcileInterval : Nat := 300
  /-- Seconds before a failed pass is tried again. -/
  errorRequeue : Nat := 60
  logLevel : LogLevel := .info
  /-- What was asked for instead of a log level. -/
  invalidLogLevel : Option String := none
  deriving DecidableEq, Repr

/-- Why settings cannot be loaded. -/
inductive SettingsError where
  /-- A variable that holds no whole number. -/
  | notSeconds (key value : String) (fault : Unsigned.Fault)
  /-- A variable that holds zero. -/
  | zero (key : String)
  deriving DecidableEq, Repr

namespace SettingsError

/-- The wording of an error. -/
def message : SettingsError → String
  | .notSeconds key value _ =>
      key ++ " must be a whole number of seconds, got '" ++ value ++ "'"
  | .zero key => key ++ " must be greater than zero"

/-- What an error goes back to, if anything. -/
def cause? : SettingsError → Option String
  | .notSeconds _ _ fault => some fault.message
  | .zero _ => none

end SettingsError

namespace Settings

/-- The variable with the seconds between successful passes. -/
def intervalVariable : String := "RECONCILE_INTERVAL_SECS"

/-- The variable with the seconds before a failed pass is tried again. -/
def errorRequeueVariable : String := "ERROR_REQUEUE_SECS"

/-- The variable with the log level. -/
def logLevelVariable : String := "LOG_LEVEL"

/-- The largest number of seconds. -/
def maxSeconds : Nat := 18446744073709551615

/-- The seconds that the value of a variable denotes. -/
def seconds (key value : String) : Except SettingsError Nat :=
  match Unsigned.parse maxSeconds (Text.trimmed value.toList) with
  | .ok n => if n = 0 then .error (.zero key) else .ok n
  | .error fault => .error (.notSeconds key value fault)

/-- The seconds that a variable denotes, or a default if it is not set. -/
def secondsOr (env : Environment) (key : String) (default : Nat) : Except SettingsError Nat :=
  match env.text? key with
  | some value => seconds key value
  | none => .ok default

/-- The log level that is asked for, and the text that asks for one that does not exist. An empty
text asks for nothing. -/
def logLevelOf : Option String → LogLevel × Option String
  | none => (.info, none)
  | some value =>
      if value.isEmpty then (.info, none)
      else
        match LogLevel.parse? value with
        | some level => (level, none)
        | none => (.info, some value)

/-- The settings that an environment asks for. -/
def load (env : Environment) : Except SettingsError Settings := do
  let defaults : Settings := {}
  let reconcileInterval ← secondsOr env intervalVariable defaults.reconcileInterval
  let errorRequeue ← secondsOr env errorRequeueVariable defaults.errorRequeue
  let (logLevel, invalidLogLevel) := logLevelOf (env.text? logLevelVariable)
  .ok { reconcileInterval, errorRequeue, logLevel, invalidLogLevel }

end Settings

end FleetLabels
