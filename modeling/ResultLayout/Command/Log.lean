import ResultLayout.Text.Blank
import ResultLayout.Text.Terminal
/-!
# Log messages

A message is written if its level is at least the level that was set. The level comes from the
command line or, if that says nothing, from the environment.
-/
namespace ResultLayout

inductive LogLevel where
  | trace
  | debug
  | info
  | warn
deriving DecidableEq, Repr

namespace LogLevel

def name : LogLevel → String
  | trace => "TRACE"
  | debug => "DEBUG"
  | info => "INFO"
  | warn => "WARN"

def rank : LogLevel → Nat
  | trace => 0
  | debug => 1
  | info => 2
  | warn => 3

/-- The level that a word of the environment sets. -/
def ofWord? (word : String) : Option LogLevel :=
  if word = "DEBUG" ∨ word = "debug" ∨ word = "VERBOSE" ∨ word = "verbose" then some debug
  else if word = "INFO" ∨ word = "info" then some info
  else if word = "TRACE" ∨ word = "trace" then some trace
  else none

end LogLevel

structure LogEntry where
  level : LogLevel
  text : String
deriving DecidableEq, Repr

namespace LogEntry

def trace (text : String) : LogEntry := ⟨.trace, text⟩
def debug (text : String) : LogEntry := ⟨.debug, text⟩
def info (text : String) : LogEntry := ⟨.info, text⟩
def warn (text : String) : LogEntry := ⟨.warn, text⟩

/-- The text as it is written. -/
def written (entry : LogEntry) : String := Text.forTerminal entry.text

end LogEntry

/-- The level that messages must have, and the messages about how it was set. -/
structure LogSetting where
  level : LogLevel
  entries : List LogEntry

namespace LogSetting

def setTo (level : LogLevel) (warnings : List String) : LogSetting :=
  ⟨level, .trace ("Initial logging level set to `" ++ level.name ++ "`.") :: warnings.map .warn⟩

/-- The setting for a run. `word` is what the environment says, with blanks around it dropped; a word
that is not known leaves the usual level and gives a warning. -/
def ofRun (verbose : Bool) (word : Option String) : LogSetting :=
  if verbose then setTo .debug []
  else
    match word with
    | none => setTo .info []
    | some word =>
      let trimmed := String.ofList (Text.trim word.toList)
      match LogLevel.ofWord? trimmed with
      | some level => setTo level []
      | none =>
        setTo .info ["Invalid `LOG_LEVEL` environment variable value: `" ++ trimmed ++ "`"]

/-- The messages that are written. -/
def select (setting : LogSetting) (entries : List LogEntry) : List LogEntry :=
  (setting.entries ++ entries).filter fun entry => setting.level.rank ≤ entry.level.rank

end LogSetting
end ResultLayout
