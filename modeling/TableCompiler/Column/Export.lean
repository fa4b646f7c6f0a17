import TableCompiler.Column.Typing
import TableCompiler.Service.Lookup
import TableCompiler.Expression.Binding

/-!
# Export to spreadsheets

* `PropertyTarget.exportSettings` — how the column of one property is exported;
* `ExportSettings.composite` — how a column of several properties is exported.
-/

namespace TableCompiler

namespace ExportSettings

/-! ### One property -/

/-- Format and digits, by the type of a property. -/
def ofType (p : Property) (label : Option String) : ExportSettings :=
  { exportType := exportTypeOf p.typeName
    label := label
    inputFormat := if p.typeName = "Edm.Date" then some "YYYY-MM-DD" else none
    scale := if p.typeName = "Edm.Decimal" then p.scale else none
    delimiter :=
      if p.typeName = "Edm.Decimal" ∨ p.typeName = "Edm.Int64" then some true else none }

/-- Adds a fixed unit or the property that holds it, behind a navigation. -/
def withUnit (navigation : String) (unit : Dynamic String) (s : ExportSettings) :
    ExportSettings :=
  match unit with
  | .path p => { s with unitProperty := some (navigation ++ p) }
  | .literal code => { s with unit := some code }

/-- Adds a fixed time zone or the property that holds it, behind a navigation. -/
def withTimezone (navigation : String) (timezone : Dynamic String) (s : ExportSettings) :
    ExportSettings :=
  match timezone with
  | .path p =>
    { s with exportType := .dateTime, timezoneProperty := some (navigation ++ p), utc := some false }
  | .literal zone => { s with exportType := .dateTime, timezone := some zone, utc := some false }

/-- Adds the template of a text arrangement, unless value and text are kept separate. -/
def withArrangement (arrangement : TextArrangement) (s : ExportSettings) : ExportSettings :=
  if arrangement = .textSeparate then s
  else { s with exportType := .string, template := some arrangement.exportTemplate }

/-! ### Several properties -/

def placeholder (index : Nat) : String := braced (toString index)

/-- One line for each of several properties. -/
def composite (label : Option String) (parts : Nat) : ExportSettings :=
  { exportType := .string
    label := label
    template := some ("\n".intercalate ((List.range parts).map placeholder))
    wrap := some true }

end ExportSettings

namespace PropertyTarget

/-- How the column of a property is exported.  A currency comes before a unit; a currency, a
time zone and a text arrangement each change the type, the last one of them deciding. -/
def exportSettings (t : PropertyTarget) (label : Option String) : ExportSettings :=
  let a := t.property.annotations
  let navigation := t.navigationPrefix
  let base := ExportSettings.ofType t.property label
  let measured := match a.isoCurrency, a.unit with
    | some currency, _ => { base.withUnit navigation currency with exportType := .currency }
    | none, some unit => base.withUnit navigation unit
    | none, none => base
  let zoned := match a.timezone with
    | some timezone => measured.withTimezone navigation timezone
    | none => measured
  match t.property.textArrangement? with
  | some arrangement => zoned.withArrangement arrangement
  | none => zoned

end PropertyTarget

end TableCompiler
