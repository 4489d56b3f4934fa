import Retouch.Proofs.Buffer.ReadBack
import Retouch.Proofs.Tree.Coordinates

/-!
# Replacing a range of bytes

An edit of the range between two byte offsets is accepted, and it replaces the bytes
between them (`Grid.apply_range`).
-/

set_option autoImplicit false

namespace Retouch

open Text

namespace Grid

/-- **An edit of a range of bytes replaces them.** -/
theorem apply_range {source before middle after : Text}
    (source_eq : source = before ++ (middle ++ after)) (fits : Fits source) (code : Text) :
    (ofText source).apply [⟨code, .between (Node.place source (byteLength before))
        (Node.place source (byteLength (before ++ middle)))⟩] =
      (.ok (), ofText (before ++ (code ++ after))) := by
  subst source_eq
  have begins : before <+: before ++ (middle ++ after) := List.prefix_append _ _
  have begins' : before ++ middle <+: before ++ (middle ++ after) := by
    rw [← List.append_assoc]
    exact List.prefix_append _ _
  have made := apply_part (fits.of_prefix begins).isCounted (fits.of_prefix begins').isCounted
    after code
  rwa [Node.place_byteLength begins, Node.place_byteLength begins', ← List.append_assoc,
    ← List.append_assoc]

end Grid
end Retouch
