import TableCompiler.Issue
import TableCompiler.Json.Printing
import TableCompiler.Service

/-!
# The log

* `LogLevel`, `LogFormat` — how much is logged, and in what form;
* `LogLevel.ofVerbosity` — the level that repeated switches ask for;
* `LogLevel.directives` — the filter of a level;
* `LogEvent` — an entry of the log, as a line with `LogEvent.line`;
* `LogEvent.ofService`, `LogEvent.ofCompilation` — what is logged about metadata and about a
  compilation;
* `LogSettings.select`, `LogSettings.text` — the events that are logged, and their text.
-/

namespace TableCompiler

/-- How much is logged. -/
inductive LogLevel where
  | off
  | error
  | warn
  | info
  | debug
  | trace
deriving DecidableEq

namespace LogLevel

/-- Every level, the quietest first. -/
def all : List LogLevel := [.off, .error, .warn, .info, .debug, .trace]

def name : LogLevel → String
  | .off => "off"
  | .error => "error"
  | .warn => "warn"
  | .info => "info"
  | .debug => "debug"
  | .trace => "trace"

def rank : LogLevel → Nat
  | .off => 0
  | .error => 1
  | .warn => 2
  | .info => 3
  | .debug => 4
  | .trace => 5

def ofName? (name : String) : Option LogLevel :=
  all.find? (·.name == name)

/-- Whether events of a level are logged under a filter. -/
def allows (filter level : LogLevel) : Bool :=
  level.rank ≤ filter.rank

/-- The level for as many requests for more and for less as were made; without any it is
`warn`. -/
def ofVerbosity (more less : Nat) : LogLevel :=
  (all[2 + more - less]?).getD .trace

/-- The components that are logged at the level that was asked for; everything else is logged at
`warn` at most. -/
def components : List String := ["annotab_cli", "annotab_core", "annotab_expr", "annotab_model"]

def directives (level : LogLevel) : String :=
  let others := if level.allows .warn then LogLevel.warn else level
  ",".intercalate (others.name :: components.map (· ++ "=" ++ level.name))

end LogLevel

/-- The form of the log. -/
inductive LogFormat where
  | pretty
  | compact
  | json
deriving DecidableEq

namespace LogFormat

def all : List LogFormat := [.pretty, .compact, .json]

def name : LogFormat → String
  | .pretty => "pretty"
  | .compact => "compact"
  | .json => "json"

def ofName? (name : String) : Option LogFormat :=
  all.find? (·.name == name)

end LogFormat

/-- What is logged, where and how. -/
structure LogSettings where
  level : LogLevel := .warn
  format : LogFormat := .pretty
  /-- The file to which the log is appended; without one it goes to the error output. -/
  file : Option String := none

/-- An entry of the log. -/
structure LogEvent where
  level : LogLevel
  message : String

namespace LogEvent

def ofIssue (i : Issue) : LogEvent :=
  ⟨.warn, i.message ++ " category=" ++ i.category.name ++ " code=" ++ i.code.getD ""⟩

def line (format : LogFormat) (e : LogEvent) : String :=
  match format with
  | .json => (Json.obj [("level", .str e.level.name), ("message", .str e.message)]).compact
  | _ => e.level.name.toUpper ++ " " ++ e.message

def ofService (s : Service) : LogEvent :=
  ⟨.debug, "loaded metadata entity_sets=" ++ toString s.entitySets.length ++ " entity_types="
    ++ toString s.entityTypes.length ++ " actions=" ++ toString s.operations.length⟩

/-- What a compilation logs: its issues of at least medium severity and, in the form for
machines, its end. -/
def ofCompilation (format : LogFormat) (issues : List Issue) : List LogEvent :=
  let ends : List LogEvent := if format = .json then [⟨.info, "close"⟩] else []
  let severe := issues.filter fun i => IssueSeverity.medium.atLeast i.severity
  severe.map ofIssue ++ ends

end LogEvent

namespace LogSettings

def select (settings : LogSettings) (events : List LogEvent) : List LogEvent :=
  events.filter fun e => settings.level.allows e.level

/-- The text of events, a line for each. -/
def text (settings : LogSettings) (events : List LogEvent) : String :=
  String.join (events.map fun e => e.line settings.format ++ "\n")

end LogSettings

end TableCompiler
