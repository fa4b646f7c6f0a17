import TableCompiler.Creation
import TableCompiler.Expression.Binding

/-!
# Rows

* `NavigationSettings.rowTarget?` — where pressing a row leads: to a page, or to another
  application;
* `Scope.row` — what pressing a row does, and how rows are highlighted.
-/

namespace TableCompiler

namespace NavigationSettings

/-- Where pressing a row leads. -/
def rowTarget? (n : NavigationSettings) : Option (RowAction × String) :=
  match n.detail.bind (·.route) with
  | some route => some (.navigation, route)
  | none =>
    ((n.detail.bind (·.outbound)).or (n.display.bind (·.outbound))).map fun outbound =>
      (.outbound, outbound)

end NavigationSettings

namespace Scope

/-- The criticality by which rows are highlighted, as a binding or as a fixed value. -/
def rowHighlighting? (s : Scope) : Option String :=
  (s.entityType.annotations.lineItemCriticality.get? s.lineItemPath.qualifierKey).map fun
    | .path p => braced p
    | .literal criticality => criticality

/-- What pressing a row does, and how rows are highlighted. -/
def row (s : Scope) : RowConfiguration :=
  let target := s.navigation?.bind (·.rowTarget?)
  { action := target.map (·.1)
    navigationTarget := target.map (·.2)
    rowHighlighting := s.rowHighlighting? }

end Scope

end TableCompiler
