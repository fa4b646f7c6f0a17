import TableCompiler.Service.Lookup

/-!
# Dependencies of columns

A column that shows a property may also need its text partner, its currency or unit and its
time zone.  All paths are relative to the entity type of the rows: the partners of a property
behind a navigation lie behind the same navigation, and those that do not exist do not count.

* `Partners` and `Service.partners?` — the partners of a property;
* `RelatedProperties` — what was found for a column, each path once;
* `CollectMode` — how the property that has the partners is itself treated;
* `Service.collectProperty` — the dependencies of a property;
* `Service.collectField` — the dependencies of a record, through groups and data points.
-/

namespace TableCompiler

/-! ### Partners -/

/-- The partners of a property that exist. -/
structure Partners where
  /-- Currency and unit. -/
  units : List PropertyPath
  timezone : Option PropertyPath
  text : Option PropertyPath
  /-- The arrangement of value and text, if there is a text. -/
  arrangement : Option TextArrangement
deriving DecidableEq

namespace Partners

def isEmpty (p : Partners) : Bool :=
  p.units.isEmpty && p.timezone.isNone && p.text.isNone

/-- The text that is shown in place of the value. -/
def textOnly? (p : Partners) : Option PropertyPath :=
  if p.arrangement = some .textOnly then p.text else none

def technical (p : Partners) : List PropertyPath :=
  p.units ++ p.timezone.toList

end Partners

namespace Service

/-- The path of a partner behind a navigation, if there is such a property. -/
def partnerAt? (s : Service) (t : EntityType) (navigation : String) (partner : PropertyPath) :
    Option PropertyPath :=
  if (s.property? t (navigation ++ partner)).isSome then some (navigation ++ partner) else none

def partners? (s : Service) (t : EntityType) (path : PropertyPath) : Option Partners :=
  (s.property? t path).map fun target =>
    let p := target.property
    let resolve := s.partnerAt? t target.navigationPrefix
    let text := p.textPath?.bind resolve
    { units := (p.currencyPath?.toList ++ p.unitPath?.toList).filterMap resolve
      timezone := p.timezonePath?.bind resolve
      text := text
      arrangement := text.bind fun _ => p.textArrangement? }

end Service

/-! ### Related properties -/

/-- The properties found for a column. -/
structure RelatedProperties where
  /-- The properties that are shown, in the order in which they were found. -/
  properties : List PropertyPath := []
  /-- The properties that must be loaded besides. -/
  additional : List PropertyPath := []
  /-- The texts that are shown in place of a value. -/
  textOnly : List PropertyPath := []
  /-- Currencies and units. -/
  units : List PropertyPath := []
  /-- The template of the text arrangement found last. -/
  exportTemplate : Option String := none
deriving DecidableEq

/-- A list with a path at its end, unless the path is in it. -/
def addUnique (paths : List PropertyPath) (path : PropertyPath) : List PropertyPath :=
  if paths.contains path then paths else paths ++ [path]

namespace RelatedProperties

/-- Whether no property is shown or loaded. -/
def isEmpty (r : RelatedProperties) : Bool :=
  r.properties.isEmpty && r.additional.isEmpty

def addProperty (r : RelatedProperties) (path : PropertyPath) : RelatedProperties :=
  { r with properties := addUnique r.properties path }

/-- Adds a property that is loaded, unless it is shown anyway. -/
def addAdditional (r : RelatedProperties) (path : PropertyPath) : RelatedProperties :=
  if r.properties.contains path then r
  else { r with additional := addUnique r.additional path }

def addTextOnly (r : RelatedProperties) (path : PropertyPath) : RelatedProperties :=
  { r.addProperty path with textOnly := addUnique r.textOnly path }

/-- Notes the units and the template of partners. -/
def note (r : RelatedProperties) (p : Partners) : RelatedProperties :=
  { r with
    units := p.units.foldl addUnique r.units
    exportTemplate := (p.arrangement.map (·.exportTemplate)).or r.exportTemplate }

/-- Adds the partners of a property that is a column of its own: they are loaded with it, but a
text in place of the value is shown. -/
def addPartners (r : RelatedProperties) (p : Partners) : RelatedProperties :=
  let withText := match p.textOnly? with
    | some text => r.addTextOnly text
    | none => p.text.toList.foldl addAdditional r
  p.technical.foldl addAdditional withText

/-- Adds a property and its partners, all of which are shown but a value that a text stands
for. -/
def addShown (r : RelatedProperties) (path : PropertyPath) (p : Partners) : RelatedProperties :=
  match p.textOnly? with
  | some text => (p.technical.foldl addProperty (r.addTextOnly text)).addAdditional path
  | none => (p.text.toList ++ p.technical).foldl addProperty (r.addProperty path)

end RelatedProperties

/-! ### Collection -/

/-- How the property that has the partners is itself treated. -/
inductive CollectMode where
  /-- A record of a line item: the value joins its partners if there are any. -/
  | column
  /-- A member of a group or a data point: the value is shown in any case. -/
  | member
  /-- A bare property: the value is the column itself and not listed. -/
  | property
deriving DecidableEq

namespace CollectMode

def all : List CollectMode := [.column, .member, .property]

def name : CollectMode → String
  | .column => "Column"
  | .member => "Member"
  | .property => "Property"

end CollectMode

namespace Service

/-- Adds the dependencies of the property at a path. -/
def collectValue (s : Service) (t : EntityType) (mode : CollectMode) (path : PropertyPath)
    (r : RelatedProperties) : RelatedProperties :=
  match s.partners? t path with
  | none => r
  | some p =>
    match mode with
    | .property => (r.note p).addPartners p
    | .member => (r.note p).addShown path p
    | .column => if p.isEmpty then r.note p else (r.note p).addShown path p

def collectProperty (s : Service) (t : EntityType) (path : PropertyPath) (mode : CollectMode) :
    RelatedProperties :=
  s.collectValue t mode path {}

/-- Adds a property that is loaded, if there is one at the path. -/
def collectLoaded (s : Service) (t : EntityType) (path : PropertyPath) (r : RelatedProperties) :
    RelatedProperties :=
  if (s.property? t path).isSome then r.addAdditional path else r

/-- Adds the dependencies of a data point behind a navigation: its value, and the properties of
its criticality and target. -/
def collectDataPoint (s : Service) (t : EntityType) (navigation : String) (point : DataPoint)
    (r : RelatedProperties) : RelatedProperties :=
  let technical := (point.criticality.bind (·.path?)).toList
    ++ (point.targetValue.bind (·.path?)).toList
  technical.foldl (fun r path => s.collectLoaded t (navigation ++ path) r)
    (s.collectValue t .member (navigation ++ point.value) r)

/-- Adds the dependencies of a member of a group that stands on `host`, behind a navigation.
Of references, only those to data points count. -/
def collectMember (s : Service) (t host : EntityType) (navigation : String) (member : DataField)
    (r : RelatedProperties) : RelatedProperties :=
  match member with
  | .value field => s.collectValue t .member (navigation ++ field.value) r
  | .reference field =>
    match AnnotationPath.ofText field.target with
    | .error _ => r
    | .ok path =>
      match s.annotationAt? host path with
      | some ⟨.dataPoint point, _, further⟩ =>
        s.collectDataPoint t (navigation ++ further) point r
      | _ => r
  | _ => r

/-- The dependencies of a group or data point that a path leads to. -/
def collectTarget (s : Service) (t : EntityType) (resolved : ResolvedAnnotation) :
    RelatedProperties :=
  let navigation := resolved.navigationPrefix
  match resolved.target with
  | .fieldGroup group =>
    group.data.foldl (fun r member => s.collectMember t resolved.entityType navigation member r) {}
  | .dataPoint point => s.collectDataPoint t navigation point {}
  | _ => {}

def collectField (s : Service) (t : EntityType) : DataField → RelatedProperties
  | .value field => s.collectValue t .column field.value {}
  | .reference field =>
    match AnnotationPath.ofText field.target with
    | .error _ => {}
    | .ok path =>
      match s.annotationAt? t path with
      | some resolved => s.collectTarget t resolved
      | none => {}
  | _ => {}

end Service

end TableCompiler
