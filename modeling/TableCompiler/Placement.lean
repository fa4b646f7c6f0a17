import TableCompiler.Manifest
import TableCompiler.Reported

/-!
# Placing custom elements

The manifest adds custom columns and actions at the end of a list or beside an element of it,
their anchor, which may be a custom element itself.

* `Placed` — an element with its anchor and side;
* `insertAt` — the list with an element beside another one;
* `settle` — places elements as long as anchors are found;
* `placeAll` — the list with all custom elements; those whose anchor never appears stand at the
  end and are reported.
-/

namespace TableCompiler

variable {α : Type}

/-- A custom element that is to stand beside another one. -/
structure Placed (α : Type) where
  element : α
  /-- The key of the other element. -/
  anchor : String
  side : Placement

namespace Placed

/-- The list with an element beside the first one that has the key of its anchor. -/
def insertAt (key : α → String) (p : Placed α) : List α → List α
  | [] => []
  | x :: rest =>
    if key x = p.anchor then
      match p.side with
      | .before => p.element :: x :: rest
      | .after => x :: p.element :: rest
    else x :: insertAt key p rest

def isAnchored (key : α → String) (p : Placed α) (items : List α) : Bool :=
  items.any fun x => key x == p.anchor

/-- Goes once through the waiting elements and places those whose anchor is there; the rest
keeps waiting, in order. -/
def pass (key : α → String) : List (Placed α) → List α → List α × List (Placed α)
  | [], items => (items, [])
  | p :: waiting, items =>
    if p.isAnchored key items then pass key waiting (p.insertAt key items)
    else
      let (items, left) := pass key waiting items
      (items, p :: left)

theorem length_pass_le (key : α → String) (waiting : List (Placed α)) (items : List α) :
    (pass key waiting items).2.length ≤ waiting.length := by
  induction waiting generalizing items with
  | nil => simp [pass]
  | cons p waiting ih =>
    simp only [pass]
    split
    · exact Nat.le_succ_of_le (ih _)
    · simpa using ih items

/-- Goes through the waiting elements as long as one of them can be placed. -/
def settle (key : α → String) (waiting : List (Placed α)) (items : List α) :
    List α × List (Placed α) :=
  let next := pass key waiting items
  if next.2.length < waiting.length then settle key next.2 next.1 else next
termination_by waiting.length

end Placed

/-- A custom element with its position in the list. -/
abbrev Custom (α : Type) := α × Option Position

namespace Custom

/-- The anchor and side of a custom element, if its position names one. -/
def placed? (c : Custom α) : Option (Placed α) :=
  c.2.bind fun position => position.anchor.map fun anchor => ⟨c.1, anchor, position.placement⟩

end Custom

/-- Puts the elements whose anchor never appeared at the end. -/
def appendLost (key : α → String) (items : List α) (lost : List (Placed α)) :
    Reported (List α) := do
  for p in lost do
    Reported.report (.unknownAnchor p.anchor (key p.element))
  return items ++ lost.map (·.element)

/-- The list with all custom elements: first those without an anchor, at the end, and then the
others beside theirs. -/
def placeAll (key : α → String) (items : List α) (custom : List (Custom α)) :
    Reported (List α) :=
  let free := custom.filterMap fun c => if c.placed?.isSome then none else some c.1
  let (items, lost) := Placed.settle key (custom.filterMap Custom.placed?) (items ++ free)
  appendLost key items lost

end TableCompiler
