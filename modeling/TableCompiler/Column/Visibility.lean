import TableCompiler.Expression
import TableCompiler.DataField
import TableCompiler.Service

/-!
# Visibility of columns

* `hiddenFlag`, `shown` — an annotation that hides, as an expression;
* `DataField.visibility` — when the column of a record is visible;
* `DataField.groupVisibility` — when the column of a group is visible.
-/

namespace TableCompiler

open Expression

/-- The value of an annotation that hides; its path lies behind a navigation. -/
def hiddenFlag (hidden : Option (Dynamic Bool)) (navigation : String) : Expression :=
  match hidden with
  | none => ofBool false
  | some (.literal b) => ofBool b
  | some (.path p) => ofPath (navigation ++ p)

/-- True unless an annotation that hides is true. -/
def shown (hidden : Option (Dynamic Bool)) (navigation : String) : Expression :=
  (equal (hiddenFlag hidden navigation) (ofBool true)).not

/-- True unless the row is an expanded group header below the root. -/
def showsValue : Expression :=
  or [nodeExpanded.not, equal nodeLevel (ofNat 0)]

namespace DataField

/-- When the column of a record is visible: neither the record nor the property behind the
navigation may be hidden, and group headers of an analytical table show no values. -/
def visibility (field : DataField) (property : Option (Property × String)) (analytical : Bool) :
    Expression :=
  let ofProperty := property.toList.map fun (p, navigation) => shown p.annotations.hidden navigation
  let ofRow := if analytical then [showsValue] else []
  and (shown field.hidden? "" :: ofProperty ++ ofRow)

/-- When the column of a group is visible: as its own annotation says, or else when one of its
members is. -/
def groupVisibility (field : DataField) (members : Expression) : Expression :=
  match field.hidden? with
  | some hidden => shown (some hidden) ""
  | none => members

end DataField

end TableCompiler
