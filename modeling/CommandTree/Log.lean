import CommandTree.Fault

/-!
# Logs

What happens is logged by severity. A host sets the threshold under which nothing is shown, as a
number or by the name of a severity.
-/

namespace CommandTree

/-- How severe something is that is logged. -/
inductive Severity where
  | debug
  | warning
  | error
deriving DecidableEq

namespace Severity

/-- The name of a severity. -/
def word : Severity → String
  | .debug => "DEBUG"
  | .warning => "WARNING"
  | .error => "ERROR"

end Severity

namespace Log

/-- The thresholds that have names. -/
def namedThresholds : List (String × Int) :=
  [("CRITICAL", 50), ("FATAL", 50), ("ERROR", 40), ("WARN", 30), ("WARNING", 30), ("INFO", 20),
   ("DEBUG", 10), ("NOTSET", 0)]

/-- The threshold where none is given. -/
def usualThreshold : Datum := .integer 20

/-- The threshold that a host asks for; a truth value counts as a number. -/
def threshold (d : Datum) : Except Fault Datum :=
  match d with
  | .integer _ | .boolean _ => .ok d
  | .string s =>
    match namedThresholds.lookup s with
    | some level => .ok (.integer level)
    | none => .error (.use (.levelUnknown d.shown))
  | d => .error (.use (.levelExpected d.shown))

end Log

end CommandTree
