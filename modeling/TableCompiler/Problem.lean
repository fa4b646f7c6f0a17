import TableCompiler.AnnotationPath
import TableCompiler.Issue

/-!
# Problems

A compilation leaves out what it cannot resolve and says so.  Each cause is a constructor with
the texts that it is about; category, severity, code and wording are functions of the cause.

* `ConditionRole` — what a path of a presentation variant is used for;
* `Problem` — the causes;
* `Problem.issue` — how a problem appears among the diagnostics.
-/

namespace TableCompiler

/-- What a path of a presentation variant is used for. -/
inductive ConditionRole where
  | sorter
  | groupLevel
  | total
deriving DecidableEq

namespace ConditionRole

def name : ConditionRole → String
  | .sorter => "sorter"
  | .groupLevel => "group level"
  | .total => "total"

end ConditionRole

/-- Why an element was left out or a setting was not followed. -/
inductive Problem where
  /-- An analytical table of an entity type without aggregation. -/
  | noAggregation (entityType : String)
  /-- A tree table without a hierarchy of the entity type. -/
  | noHierarchy (entityType : String)
  /-- A record whose value is no property. -/
  | unresolvedValue (value entityType : String)
  /-- A record whose value is a complex property. -/
  | complexValue (value : String)
  /-- A record whose target is no annotation path. -/
  | invalidTarget (error : AnnotationPathError)
  /-- A record whose target does not exist. -/
  | unresolvedTarget (target entityType : String)
  /-- A data point whose value is no property. -/
  | unresolvedDataPoint (value entityType : String)
  /-- A manifest column that is no column and has no template. -/
  | unmatchedColumn (key : String)
  /-- A custom column with the name of another column. -/
  | clashingColumn (key : String)
  /-- A property of a custom column that has no column. -/
  | unknownColumnProperty (key property : String)
  /-- A custom element whose anchor does not exist. -/
  | unknownAnchor (anchor key : String)
  /-- A custom aggregate of a property that has no column. -/
  | unmatchedAggregate (property : String)
  /-- A record of an action that the service does not define. -/
  | unknownAction (action : String)
  /-- An outbound navigation that the manifest does not describe. -/
  | undeclaredOutbound (outbound : String)
  /-- External creation without an outbound navigation. -/
  | missingOutbound
  /-- Creation on a new page without a route to it. -/
  | missingRoute (key : String)
  /-- A presentation variant that does not exist. -/
  | unresolvedVariant (path : AnnotationPath)
  /-- A condition on a navigation property. -/
  | navigationCondition (path : String) (role : ConditionRole)
  /-- A condition on a property that has no column. -/
  | unmatchedCondition (path : String) (role : ConditionRole)
deriving DecidableEq

namespace Problem

def category : Problem → IssueCategory
  | .noAggregation _ | .noHierarchy _ => .configuration
  | .unmatchedColumn _ | .clashingColumn _ | .unknownColumnProperty _ _ | .unknownAnchor _ _
  | .undeclaredOutbound _ | .missingOutbound | .missingRoute _ => .manifest
  | _ => .annotations

/-- How severe a problem is: settings that were replaced by others weigh more than elements that
were left out. -/
def severity : Problem → IssueSeverity
  | .noHierarchy _ | .undeclaredOutbound _ | .missingOutbound | .missingRoute _ => .medium
  | _ => .low

def code : Problem → String
  | .noAggregation _ => "ANALYTICS_NOT_SUPPORTED"
  | .noHierarchy _ => "MISSING_HIERARCHY"
  | .unresolvedValue _ _ => "UNRESOLVED_FIELD_VALUE"
  | .complexValue _ => "COMPLEX_FIELD_VALUE"
  | .invalidTarget _ => "INVALID_ANNOTATION_PATH"
  | .unresolvedTarget _ _ => "UNRESOLVED_ANNOTATION"
  | .unresolvedDataPoint _ _ => "UNRESOLVED_DATA_POINT"
  | .unmatchedColumn _ => "UNMATCHED_MANIFEST_COLUMN"
  | .clashingColumn _ => "DUPLICATE_CUSTOM_COLUMN"
  | .unknownColumnProperty _ _ => "UNKNOWN_CUSTOM_COLUMN_PROPERTY"
  | .unknownAnchor _ _ => "UNKNOWN_ANCHOR"
  | .unmatchedAggregate _ => "UNMATCHED_AGGREGATE"
  | .unknownAction _ => "UNKNOWN_ACTION"
  | .undeclaredOutbound _ => "UNKNOWN_OUTBOUND"
  | .missingOutbound => "MISSING_OUTBOUND"
  | .missingRoute _ => "NEW_PAGE_WITHOUT_ROUTE"
  | .unresolvedVariant _ => "UNRESOLVED_PRESENTATION_VARIANT"
  | .navigationCondition _ _ => "NAVIGATION_PROPERTY_CONDITION"
  | .unmatchedCondition _ _ => "UNMATCHED_CONDITION"

def message : Problem → String
  | .noAggregation type => type ++ " does not support aggregation, using a grid table"
  | .noHierarchy type => "tree table on " ++ type ++ " needs a recursive hierarchy qualifier"
  | .unresolvedValue value type =>
    "line item value " ++ value ++ " does not resolve on " ++ type
  | .complexValue value => "line item value " ++ value ++ " is not a primitive property"
  | .invalidTarget error => error.message
  | .unresolvedTarget target type => "annotation " ++ target ++ " does not resolve on " ++ type
  | .unresolvedDataPoint value type =>
    "data point value " ++ value ++ " does not resolve on " ++ type
  | .unmatchedColumn key => "manifest column " ++ key ++ " matches no annotation column"
  | .clashingColumn key => "custom column " ++ key ++ " clashes with an existing column name"
  | .unknownColumnProperty key property =>
    "custom column " ++ key ++ " references unknown property " ++ property
  | .unknownAnchor anchor key => "anchor " ++ anchor ++ " of " ++ key ++ " does not exist"
  | .unmatchedAggregate property => "custom aggregate " ++ property ++ " matches no column"
  | .unknownAction action => "action " ++ action ++ " is not defined in the service"
  | .undeclaredOutbound outbound =>
    "outbound " ++ outbound ++ " is not declared in the manifest"
  | .missingOutbound => "external creation configured without an outbound"
  | .missingRoute key =>
    "creation mode NewPage on " ++ key ++ " has no target route, using Inline"
  | .unresolvedVariant path => "presentation variant " ++ path.text ++ " does not resolve"
  | .navigationCondition path role =>
    "navigation property " ++ path ++ " cannot be used as a " ++ role.name
  | .unmatchedCondition path role => role.name ++ " " ++ path ++ " matches no column"

/-- How a problem appears among the diagnostics. -/
def issue (p : Problem) : Issue :=
  ⟨p.category, p.severity, p.message, some p.code⟩

end Problem

end TableCompiler
