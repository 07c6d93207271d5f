import TraceLink.Text.Blank
import TraceLink.Text.Case

/-! # Severity of diagnostics

    Five grades, from errors to traces of every step. A threshold lets through
    the diagnostics that are at least as severe as itself. -/

namespace TraceLink

/-- **Severity** of a diagnostic, the most severe first. -/
inductive Severity where
  | error
  | warn
  | info
  | debug
  | trace
  deriving Repr, DecidableEq, Inhabited

namespace Severity

/-- How little severe: 1 for an error, 5 for a trace. -/
def grade : Severity → Nat
  | error => 1
  | warn => 2
  | info => 3
  | debug => 4
  | trace => 5

/-- A threshold lets a diagnostic of severity `s` through. -/
def admits (threshold s : Severity) : Bool := s.grade ≤ threshold.grade

/-- The name in small letters. -/
def name : Severity → String
  | error => "error"
  | warn => "warn"
  | info => "info"
  | debug => "debug"
  | trace => "trace"

/-- The name in capitals, as it stands in a log line. -/
def label : Severity → String
  | error => "ERROR"
  | warn => "WARN"
  | info => "INFO"
  | debug => "DEBUG"
  | trace => "TRACE"

/-- All severities, the most severe first. -/
def all : List Severity := [error, warn, info, debug, trace]

/-- Reads a name in any letter case, white space around it allowed. -/
def read? (s : String) : Option Severity :=
  let plain := Text.lowercased (Text.trimmed s)
  all.find? (·.name == plain)

/-- What is said of a text that names no severity. -/
def unknown (s : String) : String :=
  s!"Invalid log level: '{s}'. Valid levels are: error, warn, info, debug, trace"

end Severity

end TraceLink
