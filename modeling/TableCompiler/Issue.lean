import TableCompiler.Json.Codec

/-!
# Issues

A problem that a compilation can live with is reported as an issue: an entry of the diagnostics
with a category, a severity, a code and a wording.

* `IssueCategory`, `IssueSeverity`, `Issue`;
* `IssueSeverity.rank` — severities are ordered;
* `Issue.count`, `Issue.anyAtLeast` — what is asked of a list of issues.
-/

namespace TableCompiler

/-- What an issue is about. -/
inductive IssueCategory where
  | annotations
  | manifest
  | configuration
deriving DecidableEq

namespace IssueCategory

def all : List IssueCategory := [.annotations, .manifest, .configuration]

def name : IssueCategory → String
  | .annotations => "annotation"
  | .manifest => "manifest"
  | .configuration => "configuration"

def codec : Codec IssueCategory := .enumeration all name

end IssueCategory

/-- How severe an issue is. -/
inductive IssueSeverity where
  | low
  | medium
  | high
deriving DecidableEq

namespace IssueSeverity

/-- Every severity, the lowest first. -/
def all : List IssueSeverity := [.low, .medium, .high]

def name : IssueSeverity → String
  | .low => "low"
  | .medium => "medium"
  | .high => "high"

def rank : IssueSeverity → Nat
  | .low => 0
  | .medium => 1
  | .high => 2

def atLeast (bound severity : IssueSeverity) : Bool :=
  bound.rank ≤ severity.rank

def codec : Codec IssueSeverity := .enumeration all name

end IssueSeverity

/-- An entry of the diagnostics. -/
structure Issue where
  category : IssueCategory
  severity : IssueSeverity
  message : String
  code : Option String
deriving DecidableEq

namespace Issue

def write (i : Issue) : Json :=
  .record [
    IssueCategory.codec.put "category" i.category,
    IssueSeverity.codec.put "severity" i.severity,
    Codec.text.put "message" i.message,
    Codec.text.putNullable "code" i.code]

def count (issues : List Issue) (severity : IssueSeverity) : Nat :=
  issues.countP (·.severity == severity)

/-- Whether some issue is at least as severe as a bound. -/
def anyAtLeast (issues : List Issue) (bound : IssueSeverity) : Bool :=
  issues.any fun i => bound.atLeast i.severity

end Issue

end TableCompiler
