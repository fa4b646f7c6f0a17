import TableCompiler.AnnotationPath

/-!
# Requests

* `TableRequest` — which table is to be compiled;
* `TableRequest.ofParts` — a request of which only the entity set must be given.
-/

namespace TableCompiler

/-- Which table is to be compiled. -/
structure TableRequest where
  entitySet : String
  /-- The navigation from the entity set to the rows, or the empty text. -/
  navigationPath : String := ""
  /-- The line item, relative to the entity type of the rows. -/
  lineItem : AnnotationPath := .ofTerm .lineItem
  presentationVariant : Option AnnotationPath := none
deriving DecidableEq

namespace TableRequest

/-- The request for a table of an entity set.  Slashes around the navigation do not count, and
the line item is the unqualified one unless another is named. -/
def ofParts (entitySet : String) (navigationPath : Option String)
    (lineItem presentationVariant : Option AnnotationPath) : TableRequest where
  entitySet := entitySet
  navigationPath := Text.trimBoth '/' (navigationPath.getD "")
  lineItem := lineItem.getD (.ofTerm .lineItem)
  presentationVariant := presentationVariant

end TableRequest

end TableCompiler
