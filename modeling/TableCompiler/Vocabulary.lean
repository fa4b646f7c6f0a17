import TableCompiler.Json.Codec
import TableCompiler.Text

/-!
# Names of the vocabularies

The annotations, the manifest and the descriptor share a number of small closed vocabularies.
Each is an inductive type with the names of its members and a codec that writes them bare.

* `Importance`, `TextArrangement`, `TableType` — these also read the spellings of annotation
  files, `UI.ImportanceType/High` or `#TextOnly`, through `ofText`;
* `SelectionSetting`, `CreationMode`, `PageTemplate`, `VariantManagement`, `HorizontalAlign`,
  `Placement`, `RowCountMode`, `EnableOnSelect` — settings of the manifest;
* `Availability`, `ColumnKind`, `ExportType`, `ActionKind`, `RowAction`, `SelectionValue` —
  parts of the descriptor;
* `UnknownName` — a text that is no name of a vocabulary.
-/

namespace TableCompiler

/-! ### Spellings -/

/-- A text that is no name of a vocabulary. -/
structure UnknownName where
  vocabulary : String
  text : String
deriving DecidableEq

namespace UnknownName

def message (e : UnknownName) : String :=
  "unknown " ++ e.vocabulary ++ " value: " ++ e.text

end UnknownName

namespace Vocabulary

/-- The bare name in a spelling: without white space around it, the type before the last slash
and leading hash marks. -/
def bareName (text : String) : String :=
  Text.trimStart '#' (Text.afterLast '/' (Text.trim text))

/-- The member of a vocabulary that a spelling names. -/
def ofText {α : Type} (vocabulary : String) (all : List α) (name : α → String) (text : String) :
    Except UnknownName α :=
  match all.find? fun a => name a = bareName text with
  | some a => .ok a
  | none => .error ⟨vocabulary, text⟩

end Vocabulary

/-! ### Annotations -/

/-- How important a field or column is. -/
inductive Importance where
  | high
  | medium
  | low
  | none
deriving DecidableEq

namespace Importance

def all : List Importance := [.high, .medium, .low, .none]

def name : Importance → String
  | .high => "High"
  | .medium => "Medium"
  | .low => "Low"
  | .none => "None"

/-- The rank by which a group takes over the importance of its members. -/
def weight : Importance → Nat
  | .high => 3
  | .medium => 2
  | .low => 1
  | .none => 0

def ofText : String → Except UnknownName Importance :=
  Vocabulary.ofText "importance" all name

def codec : Codec Importance := .enumeration all name

end Importance

/-- How a value and its text partner are shown. -/
inductive TextArrangement where
  | textFirst
  | textLast
  | textOnly
  | textSeparate
deriving DecidableEq

namespace TextArrangement

def all : List TextArrangement := [.textFirst, .textLast, .textOnly, .textSeparate]

def name : TextArrangement → String
  | .textFirst => "TextFirst"
  | .textLast => "TextLast"
  | .textOnly => "TextOnly"
  | .textSeparate => "TextSeparate"

/-- The template that combines a value, placeholder 0, and its text, placeholder 1. -/
def exportTemplate : TextArrangement → String
  | .textFirst => "\x7b1\x7d (\x7b0\x7d)"
  | .textLast => "\x7b0\x7d (\x7b1\x7d)"
  | .textOnly => "\x7b1\x7d"
  | .textSeparate => "\x7b0\x7d"

def ofText : String → Except UnknownName TextArrangement :=
  Vocabulary.ofText "text arrangement" all name

def codec : Codec TextArrangement := .enumeration all name

end TextArrangement

/-! ### Manifest -/

/-- The kind of table control. -/
inductive TableType where
  | responsive
  | grid
  | analytical
  | tree
deriving DecidableEq

namespace TableType

def all : List TableType := [.responsive, .grid, .analytical, .tree]

def name : TableType → String
  | .responsive => "ResponsiveTable"
  | .grid => "GridTable"
  | .analytical => "AnalyticalTable"
  | .tree => "TreeTable"

def ofText : String → Except UnknownName TableType :=
  Vocabulary.ofText "table type" all name

def codec : Codec TableType := .enumeration all name

end TableType

/-- The selection mode that the manifest asks for. -/
inductive SelectionSetting where
  | none
  | single
  | multi
  | auto
deriving DecidableEq

namespace SelectionSetting

def all : List SelectionSetting := [.none, .single, .multi, .auto]

def name : SelectionSetting → String
  | .none => "None"
  | .single => "Single"
  | .multi => "Multi"
  | .auto => "Auto"

def codec : Codec SelectionSetting := .enumeration all name

end SelectionSetting

/-- How new rows are created. -/
inductive CreationMode where
  | newPage
  | inline
  | creationRow
  | inlineCreationRows
  | external
deriving DecidableEq

namespace CreationMode

def all : List CreationMode := [.newPage, .inline, .creationRow, .inlineCreationRows, .external]

def name : CreationMode → String
  | .newPage => "NewPage"
  | .inline => "Inline"
  | .creationRow => "CreationRow"
  | .inlineCreationRows => "InlineCreationRows"
  | .external => "External"

def codec : Codec CreationMode := .enumeration all name

/-- Creation modes inside a tagged record. -/
def taggedCodec : Codec CreationMode := .taggedEnumeration all name

end CreationMode

/-- The page that hosts the table. -/
inductive PageTemplate where
  | listReport
  | objectPage
  | analyticalListPage
deriving DecidableEq

namespace PageTemplate

def all : List PageTemplate := [.listReport, .objectPage, .analyticalListPage]

def name : PageTemplate → String
  | .listReport => "ListReport"
  | .objectPage => "ObjectPage"
  | .analyticalListPage => "AnalyticalListPage"

def codec : Codec PageTemplate := .enumeration all name

end PageTemplate

/-- The level on which variants are managed. -/
inductive VariantManagement where
  | none
  | page
  | control
deriving DecidableEq

namespace VariantManagement

def all : List VariantManagement := [.none, .page, .control]

def name : VariantManagement → String
  | .none => "None"
  | .page => "Page"
  | .control => "Control"

def codec : Codec VariantManagement := .enumeration all name

end VariantManagement

/-- The horizontal alignment of a column. -/
inductive HorizontalAlign where
  | atBegin
  | center
  | atEnd
deriving DecidableEq

namespace HorizontalAlign

def all : List HorizontalAlign := [.atBegin, .center, .atEnd]

def name : HorizontalAlign → String
  | .atBegin => "Begin"
  | .center => "Center"
  | .atEnd => "End"

def codec : Codec HorizontalAlign := .enumeration all name

end HorizontalAlign

/-- The side of its anchor on which a custom element stands. -/
inductive Placement where
  | before
  | after
deriving DecidableEq

namespace Placement

def all : List Placement := [.before, .after]

def name : Placement → String
  | .before => "Before"
  | .after => "After"

def codec : Codec Placement := .enumeration all name

end Placement

/-- How the number of visible rows is chosen. -/
inductive RowCountMode where
  | auto
  | fixed
  | interactive
deriving DecidableEq

namespace RowCountMode

def all : List RowCountMode := [.auto, .fixed, .interactive]

def name : RowCountMode → String
  | .auto => "Auto"
  | .fixed => "Fixed"
  | .interactive => "Interactive"

def codec : Codec RowCountMode := .enumeration all name

end RowCountMode

/-- How many selected rows enable an action. -/
inductive EnableOnSelect where
  | single
  | multi
deriving DecidableEq

namespace EnableOnSelect

def all : List EnableOnSelect := [.single, .multi]

def name : EnableOnSelect → String
  | .single => "Single"
  | .multi => "Multi"

def codec : Codec EnableOnSelect := .enumeration all name

end EnableOnSelect

/-! ### Descriptor -/

/-- Whether a column is shown, hidden or offered for adaptation. -/
inductive Availability where
  | shown
  | hidden
  | adaptation
deriving DecidableEq

namespace Availability

def all : List Availability := [.shown, .hidden, .adaptation]

def name : Availability → String
  | .shown => "Default"
  | .hidden => "Hidden"
  | .adaptation => "Adaptation"

def codec : Codec Availability := .enumeration all name

end Availability

/-- Where a column comes from: a line item record, a bare property or the manifest. -/
inductive ColumnKind where
  | lineItem
  | property
  | slot
deriving DecidableEq

namespace ColumnKind

def all : List ColumnKind := [.lineItem, .property, .slot]

def name : ColumnKind → String
  | .lineItem => "Annotation"
  | .property => "Default"
  | .slot => "Slot"

def codec : Codec ColumnKind := .enumeration all name

end ColumnKind

/-- The type of a column in a spreadsheet. -/
inductive ExportType where
  | string
  | number
  | date
  | dateTime
  | time
  | boolean
  | currency
deriving DecidableEq

namespace ExportType

def all : List ExportType := [.string, .number, .date, .dateTime, .time, .boolean, .currency]

def name : ExportType → String
  | .string => "String"
  | .number => "Number"
  | .date => "Date"
  | .dateTime => "DateTime"
  | .time => "Time"
  | .boolean => "Boolean"
  | .currency => "Currency"

def codec : Codec ExportType := .enumeration all name

end ExportType

/-- Where a toolbar action comes from. -/
inductive ActionKind where
  | copy
  | custom
  | forAction
  | forNavigation
deriving DecidableEq

namespace ActionKind

def all : List ActionKind := [.copy, .custom, .forAction, .forNavigation]

def name : ActionKind → String
  | .copy => "Copy"
  | .custom => "Default"
  | .forAction => "DataFieldForAction"
  | .forNavigation => "DataFieldForIntentBasedNavigation"

def codec : Codec ActionKind := .enumeration all name

end ActionKind

/-- What pressing a row does. -/
inductive RowAction where
  | navigation
  | outbound
deriving DecidableEq

namespace RowAction

def all : List RowAction := [.navigation, .outbound]

def name : RowAction → String
  | .navigation => "Navigation"
  | .outbound => "Outbound"

def codec : Codec RowAction := .enumeration all name

end RowAction

/-- How many rows can be selected. -/
inductive SelectionValue where
  | none
  | single
  | multi
deriving DecidableEq

namespace SelectionValue

def all : List SelectionValue := [.none, .single, .multi]

def name : SelectionValue → String
  | .none => "None"
  | .single => "Single"
  | .multi => "Multi"

def codec : Codec SelectionValue := .enumeration all name

end SelectionValue

end TableCompiler
