import Retouch.Selection

/-!
# Highlights

A highlight ties a source range to the ranges bound to it, under one color.  Colors
are numbers given out in increasing order; a source that is highlighted again keeps
its color and only has its bindings replaced.  Highlights are bookkeeping beside the
text and never change it.
-/

set_option autoImplicit false

namespace Retouch

/-- A source range, the ranges bound to it, and their common color. -/
structure Highlight where
  source : Selection
  bindings : List Selection
  color : Nat
deriving DecidableEq

namespace Highlight

/-- The source and then the bindings. -/
def ranges (highlight : Highlight) : List Selection := highlight.source :: highlight.bindings

/-- Whether one of its ranges holds a selection. -/
def covers (highlight : Highlight) (selection : Selection) : Bool :=
  highlight.ranges.any selection.isInside

end Highlight

/-- The highlights of an editor, the oldest first, and the next color. -/
structure Highlights where
  groups : List Highlight
  nextColor : Nat
deriving DecidableEq

namespace Highlights

def empty : Highlights := ⟨[], 0⟩

instance : Inhabited Highlights := ⟨empty⟩

def isEmpty (highlights : Highlights) : Bool := highlights.groups.isEmpty

/-- The highlight whose source is a selection. -/
def ofSource? (highlights : Highlights) (source : Selection) : Option Highlight :=
  highlights.groups.find? (·.source = source)

def colorOf? (highlights : Highlights) (source : Selection) : Option Nat :=
  (highlights.ofSource? source).map Highlight.color

/-- Replaces the bindings of the first highlight with a given source. -/
def rebind (source : Selection) (bindings : List Selection) : List Highlight → List Highlight
  | [] => []
  | group :: rest =>
    if group.source = source then { group with bindings } :: rest
    else group :: rebind source bindings rest

/-- Highlights a source and its bindings, and tells the color in use. -/
def highlight (highlights : Highlights) (source : Selection) (bindings : List Selection) :
    Nat × Highlights :=
  match highlights.ofSource? source with
  | some group =>
    (group.color, { highlights with groups := rebind source bindings highlights.groups })
  | none =>
    (highlights.nextColor,
      { groups := highlights.groups ++ [⟨source, bindings, highlights.nextColor⟩]
        nextColor := highlights.nextColor + 1 })

/-- Takes away the highlight of a source, and tells whether there was one. -/
def remove (highlights : Highlights) (source : Selection) : Bool × Highlights :=
  let left := highlights.groups.filter (·.source ≠ source)
  (left.length ≠ highlights.groups.length, { highlights with groups := left })

/-- The source of the oldest highlight with a range that holds a selection. -/
def find? (highlights : Highlights) (selection : Selection) : Option Selection :=
  (highlights.groups.find? (·.covers selection)).map Highlight.source

/-- Every highlighted range with its color. -/
def decorations (highlights : Highlights) : List (Selection × Nat) :=
  highlights.groups.flatMap fun group => group.ranges.map (·, group.color)

end Highlights
end Retouch
