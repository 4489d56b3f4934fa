import Retouch.Workspace.Files

/-!
# Files in the order of their paths

Components are compared by their kind and then by the code points of their names, and paths
component by component.  This is how lists of code points are compared in front of which the
kind stands (`Path.compareWith_eq`), so it is a total order in which two spellings are equal
exactly when they name the same path (`Path.compareWith_eq_eq_iff`).

Files are kept in this order, each path once (`Files.IsOrdered`).  Giving a file its text
changes what is found under its path and nothing else (`Files.find?_put`), and keeps the order
(`Files.IsOrdered.put`).  A path that is put in its place among other paths comes between those
before it and those after it (`Files.pairwise_placePath`).
-/

set_option autoImplicit false

namespace Retouch

open Std

/-! ## The order of paths -/

namespace Component

/-- The code points of a name. -/
def codePoints : Component → List Nat
  | name letters => letters.map Char.toNat
  | _ => []

/-- The list of numbers as which a component is compared. -/
def key (component : Component) : List Nat := component.rank :: component.codePoints

theorem compareNames_eq (first second : List Char) :
    compareNames first second = compare (first.map Char.toNat) (second.map Char.toNat) := by
  induction first generalizing second with
  | nil => cases second <;> rfl
  | cons head rest ih =>
    cases second with
    | nil => rfl
    | cons other others =>
      rw [compareNames, ih, List.map_cons, List.map_cons, List.compare_cons_cons]

theorem compareWith_eq (first second : Component) :
    first.compareWith second = compare first.key second.key := by
  rw [key, key, List.compare_cons_cons]
  cases first with
  | name letters =>
    cases second with
    | name others => exact compareNames_eq letters others
    | root | here | up => rfl
  | root | here | up => cases second <;> rfl

theorem key_injective {first second : Component} (same : first.key = second.key) :
    first = second := by
  obtain ⟨ranks, points⟩ := List.cons.inj same
  cases first with
  | name letters =>
    cases second with
    | name others =>
      exact congrArg name ((List.map_inj_right fun _ _ => Char.toNat_inj.1).1 points)
    | root | here | up => cases ranks
  | root | here | up =>
    cases second with
    | name others => cases ranks
    | root | here | up => first | rfl | cases ranks

end Component

namespace Path

/-- The lists of numbers as which a path is compared. -/
def key (path : Path) : List (List Nat) := path.components.map Component.key

theorem compareComponents_eq (first second : List Component) :
    compareComponents first second =
      compare (first.map Component.key) (second.map Component.key) := by
  induction first generalizing second with
  | nil => cases second <;> rfl
  | cons head rest ih =>
    cases second with
    | nil => rfl
    | cons other others =>
      rw [compareComponents, ih, Component.compareWith_eq, List.map_cons, List.map_cons,
        List.compare_cons_cons]

/-- **Paths are compared as lists of lists of numbers.** -/
theorem compareWith_eq (path other : Path) :
    path.compareWith other = compare path.key other.key :=
  compareComponents_eq path.components other.components

section Order

variable {path other third : Path}

theorem same_iff : path.same other = true ↔ path.components = other.components := by
  rw [same, beq_iff_eq]

theorem same_refl (path : Path) : path.same path = true := same_iff.2 rfl

theorem same_comm (path other : Path) : path.same other = other.same path := by
  rw [Bool.eq_iff_iff, same_iff, same_iff, eq_comm]

/-- What names the same path can stand for it. -/
theorem same_congr (same : path.same other = true) (third : Path) :
    path.same third = other.same third := by
  rw [Path.same, Path.same, same_iff.1 same]

theorem compareWith_eq_eq_iff : path.compareWith other = .eq ↔ path.same other = true := by
  rw [compareWith_eq, same_iff, LawfulEqCmp.compare_eq_iff_eq, key, key,
    List.map_inj_right fun _ _ => Component.key_injective]

/-- Whether a path stands before another. -/
def IsBefore (path other : Path) : Prop := path.compareWith other = .lt

instance (path other : Path) : Decidable (path.IsBefore other) :=
  inferInstanceAs (Decidable (_ = _))

theorem IsBefore.trans (first : path.IsBefore other) (second : other.IsBefore third) :
    path.IsBefore third := by
  rw [IsBefore, compareWith_eq] at *
  exact TransCmp.lt_trans first second

theorem IsBefore.not_same (before : path.IsBefore other) : path.same other = false := by
  rw [Bool.eq_false_iff, Ne, ← compareWith_eq_eq_iff, before]
  decide

theorem compareWith_eq_gt_iff : path.compareWith other = .gt ↔ other.IsBefore path := by
  rw [IsBefore, compareWith_eq, compareWith_eq, OrientedCmp.gt_iff_lt]

/-- A path that is neither before another nor the same stands after it. -/
theorem isBefore_of_not (different : path.same other = false) (notBefore : ¬ path.IsBefore other) :
    other.IsBefore path := by
  rw [← compareWith_eq_gt_iff]
  cases order : path.compareWith other with
  | lt => exact absurd order notBefore
  | eq =>
    rw [compareWith_eq_eq_iff.1 order] at different
    cases different
  | gt => rfl

end Order
end Path

/-! ## Files -/

namespace Files

variable {files : Files} {path : Path}

/-- **Whether files are in order**: their paths strictly increase. -/
def IsOrdered (files : Files) : Prop := files.paths.Pairwise Path.IsBefore

instance (files : Files) : Decidable files.IsOrdered :=
  inferInstanceAs (Decidable (List.Pairwise _ _))

/-- **Giving a file its text changes what is found under its path, and nothing else.** -/
theorem find?_put (files : Files) (path : Path) (text : Text) (other : Path) :
    (files.put path text).find? other =
      if path.same other then some text else files.find? other := by
  induction files with
  | nil => rfl
  | cons file rest ih =>
    obtain ⟨known, old⟩ := file
    rw [put]
    cases order : path.compareWith known with
    | lt => rfl
    | eq =>
      have same := Path.compareWith_eq_eq_iff.1 order
      simp only [find?, Path.same_congr same other]
      split <;> rfl
    | gt =>
      have different := (Path.compareWith_eq_gt_iff.1 order).not_same
      simp only [find?, ih]
      -- The path cannot be found both here and further on.
      by_cases here : known.same other = true
      · rw [if_pos here, if_pos here, Path.same_comm, ← Path.same_congr here, different]
        rfl
      · rw [if_neg here, if_neg here]

/-- What is found stands under a spelling of the path. -/
theorem find?_eq_none_iff :
    files.find? path = none ↔ ∀ known ∈ files.paths, known.same path = false := by
  induction files with
  | nil => exact iff_of_true rfl nofun
  | cons file rest ih =>
    obtain ⟨known, text⟩ := file
    rw [find?, paths, List.map_cons, List.forall_mem_cons, ← paths, ← ih]
    cases known.same path <;> simp

/-- Putting a file adds at most its own path. -/
theorem mem_paths_put {text : Text} {known : Path} (member : known ∈ (files.put path text).paths) :
    known = path ∨ known ∈ files.paths := by
  induction files with
  | nil => exact .inl (List.mem_singleton.1 member)
  | cons file rest ih =>
    obtain ⟨first, old⟩ := file
    rw [put] at member
    cases order : path.compareWith first with
    | lt =>
      rw [order] at member
      exact List.mem_cons.1 member
    | eq =>
      rw [order] at member
      exact .inr member
    | gt =>
      rw [order] at member
      rcases List.mem_cons.1 member with rfl | later
      · exact .inr (.head _)
      · exact (ih later).imp_right (.tail _)

/-- **Putting a file keeps the order.** -/
theorem IsOrdered.put (ordered : files.IsOrdered) (path : Path) (text : Text) :
    (files.put path text).IsOrdered := by
  induction files with
  | nil => exact List.pairwise_singleton _ _
  | cons file rest ih =>
    obtain ⟨first, old⟩ := file
    obtain ⟨beforeRest, restOrdered⟩ := List.pairwise_cons.1 ordered
    rw [Files.put]
    cases order : path.compareWith first with
    | lt =>
      refine List.pairwise_cons.2 ⟨?_, ordered⟩
      exact List.forall_mem_cons.2
        ⟨order, fun known member => Path.IsBefore.trans order (beforeRest known member)⟩
    | eq => exact ordered
    | gt =>
      refine List.pairwise_cons.2 ⟨fun known member => ?_, ih restOrdered⟩
      rcases mem_paths_put member with rfl | member
      · exact Path.compareWith_eq_gt_iff.1 order
      · exact beforeRest known member

theorem mem_placePath {paths : List Path} {known : Path} :
    known ∈ placePath path paths ↔ known = path ∨ known ∈ paths := by
  induction paths with
  | nil => rw [placePath, List.mem_singleton, List.mem_nil_iff, or_false]
  | cons first rest ih =>
    rw [placePath]
    split
    · rw [List.mem_cons]
    · rw [List.mem_cons, ih, List.mem_cons, or_left_comm]

/-- A path that stands in its place keeps a list of other paths in order. -/
theorem pairwise_placePath {paths : List Path} (ordered : paths.Pairwise Path.IsBefore)
    (fresh : ∀ known ∈ paths, known.same path = false) :
    (placePath path paths).Pairwise Path.IsBefore := by
  induction paths with
  | nil => exact List.pairwise_singleton _ _
  | cons first rest ih =>
    obtain ⟨beforeRest, restOrdered⟩ := List.pairwise_cons.1 ordered
    obtain ⟨freshFirst, freshRest⟩ := List.forall_mem_cons.1 fresh
    rw [placePath]
    split
    · rename_i before
      refine List.pairwise_cons.2 ⟨?_, ordered⟩
      exact List.forall_mem_cons.2
        ⟨before, fun known member => Path.IsBefore.trans before (beforeRest known member)⟩
    · rename_i notBefore
      refine List.pairwise_cons.2 ⟨fun known member => ?_, ih restOrdered freshRest⟩
      rcases mem_placePath.1 member with rfl | member
      · exact Path.isBefore_of_not (Path.same_comm _ _ ▸ freshFirst) notBefore
      · exact beforeRest known member

end Files
end Retouch
