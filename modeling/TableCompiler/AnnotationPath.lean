import TableCompiler.Text

/-!
# Annotation paths

An annotation path such as `_Supplier/@UI.DataPoint#Rating` names an annotation of the entity
type that its navigation leads to.

* `Term` — the annotation terms from which tables are compiled, and all others;
* `AnnotationPath` — navigation segments, term and qualifier;
* `AnnotationPath.ofText` — reads a path; the vocabulary may be given by alias, in full or not
  at all;
* `AnnotationPath.text` — the path with the alias;
* `AnnotationPathError` — what is wrong with a text that is no path.
-/

namespace TableCompiler

/-- An annotation term. -/
inductive Term where
  | lineItem
  | fieldGroup
  | dataPoint
  | presentationVariant
  | other (name : String)
deriving DecidableEq

namespace Term

def name : Term → String
  | .lineItem => "LineItem"
  | .fieldGroup => "FieldGroup"
  | .dataPoint => "DataPoint"
  | .presentationVariant => "PresentationVariant"
  | .other name => name

def ofName (name : String) : Term :=
  if name = "LineItem" then .lineItem
  else if name = "FieldGroup" then .fieldGroup
  else if name = "DataPoint" then .dataPoint
  else if name = "PresentationVariant" then .presentationVariant
  else .other name

/-- Whether tables are compiled from annotations with the term. -/
def isKnown : Term → Bool
  | .other _ => false
  | _ => true

end Term

/-- A path to an annotation. -/
structure AnnotationPath where
  /-- The navigation segments that lead to the annotated entity type. -/
  navigation : List String
  term : Term
  qualifier : Option String
deriving DecidableEq

/-- Why a text is no annotation path. -/
inductive AnnotationPathFault where
  | missingMarker
  | emptyQualifier
  | emptyTerm
deriving DecidableEq

/-- A text that is no annotation path. -/
structure AnnotationPathError where
  text : String
  fault : AnnotationPathFault
deriving DecidableEq

namespace AnnotationPathError

def message (e : AnnotationPathError) : String :=
  "invalid annotation path '" ++ e.text ++ "': " ++
    match e.fault with
    | .missingMarker => "missing '@'"
    | .emptyQualifier => "empty qualifier"
    | .emptyTerm => "empty term"

end AnnotationPathError

/-- Navigation segments in front of what they lead to, each with a slash after it. -/
def navigationText (segments : List String) : String :=
  String.join (segments.map (· ++ "/"))

namespace AnnotationPath

/-- The unqualified path of a term without navigation. -/
def ofTerm (term : Term) : AnnotationPath := ⟨[], term, none⟩

/-- The key under which the annotation is stored: the qualifier, or the empty text. -/
def qualifierKey (p : AnnotationPath) : String :=
  p.qualifier.getD ""

/-- The navigation with a slash after each segment. -/
def navigationPrefix (p : AnnotationPath) : String :=
  navigationText p.navigation

/-- The navigation as a path of its own, with slashes between the segments only. -/
def navigationPath (p : AnnotationPath) : String :=
  "/".intercalate p.navigation

/-- The text of a path, with the alias of the vocabulary. -/
def text (p : AnnotationPath) : String :=
  p.navigationPrefix ++ "@UI." ++ p.term.name ++
    match p.qualifier with
    | some qualifier => "#" ++ qualifier
    | none => ""

/-- The full name of the vocabulary, as it stands before a term. -/
def vocabulary : String := "com.sap.vocabularies.UI.v1."

/-- The alias of the vocabulary, as it stands before a term. -/
def vocabularyAlias : String := "UI."

def termName (text : String) : String :=
  match Text.stripStart? vocabulary text with
  | some name => name
  | none => (Text.stripStart? vocabularyAlias text).getD text

def ofMarked (marked : String) : Except AnnotationPathFault (Term × Option String) :=
  match Text.cut? '#' marked with
  | some (_, "") => .error .emptyQualifier
  | some (term, qualifier) => ofTermText term (some qualifier)
  | none => ofTermText marked none
where
  /-- The term of a text that may hold its vocabulary. -/
  ofTermText (text : String) (qualifier : Option String) :
      Except AnnotationPathFault (Term × Option String) :=
    if termName text = "" then .error .emptyTerm
    else .ok (Term.ofName (termName text), qualifier)

/-- Reads a path: navigation segments before the first marker, term and qualifier after it. -/
def ofText (text : String) : Except AnnotationPathError AnnotationPath :=
  match Text.cut? '@' (Text.trim text) with
  | none => .error ⟨text, .missingMarker⟩
  | some (navigation, marked) =>
    match ofMarked marked with
    | .error fault => .error ⟨text, fault⟩
    | .ok (term, qualifier) => .ok ⟨Text.segments '/' navigation, term, qualifier⟩

end AnnotationPath

end TableCompiler
