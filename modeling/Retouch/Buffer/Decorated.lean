import Retouch.Buffer.Highlight
import Retouch.Text.Lines

/-!
# Decorated code

Highlights are shown by markers written into a copy of the code: `[hN]` where a
range of color `N` starts and `[/hN]` where it stops.  At one position the closing
markers come before the opening ones, each kind in the order of the decorations; a
cursor is shown as a pair of markers among the opening ones.  A marker whose
position is not a place of the code is left out.
-/

set_option autoImplicit false

namespace Retouch
namespace Highlights

def openingMarker (color : Nat) : Text := "[h".toList ++ (toString color).toList ++ [']']

def closingMarker (color : Nat) : Text := "[/h".toList ++ (toString color).toList ++ [']']

/-- What a decoration shows at its start. -/
def markerAtStart (range : Selection) (color : Nat) : Text :=
  if range.isEmpty then openingMarker color ++ closingMarker color else openingMarker color

/-- The markers shown at a position. -/
def markersAt (decorations : List (Selection × Nat)) (position : Position) : Text :=
  let closing := decorations.filter fun (range, _) => !range.isEmpty && range.stop == position
  let opening := decorations.filter fun (range, _) => range.start == position
  closing.flatMap (fun (_, color) => closingMarker color) ++
    opening.flatMap fun (range, color) => markerAtStart range color

/-- Shows decorations on the rest of a code, which begins at a position. -/
def decorate (decorations : List (Selection × Nat)) (position : Position) : Text → Text
  | [] => markersAt decorations position
  | character :: rest =>
    markersAt decorations position ++
      character :: decorate decorations (position.after character) rest

/-- The code with its highlights shown. -/
def render (highlights : Highlights) (code : Text) : Text :=
  decorate highlights.decorations .zero code

end Highlights
end Retouch
