import Retouch.Proofs.Grammar.Layout
import Retouch.Proofs.Tree.Sites

/-!
# The sites of phrases

Going down from the site of a phrase one comes to the sites of its parts, each with the
frames that stand around it (`Phrase.IsAt`).  Every site that is reached below the whole
is that of a phrase in its frames, or has nothing below it (`exists_isAt_of_mem_preorder`).
-/

set_option autoImplicit false

namespace Retouch

open Phrase

/-- **A part of the phrase of a whole, in its place**: with the frames around it and with
its site. -/
inductive Phrase.IsAt (root : Phrase) (whole : Site) (offset : Nat) :
    List Frame → Phrase → Site → Prop where
  | root : IsAt root whole offset [] root whole
  | part {frame : Frame} {frames : List Frame} {phrase : Phrase} {site : Site}
      {fields : List String} {number : Nat}
      (outer : IsAt root whole offset frames (frame.fill phrase) site) :
      IsAt root whole offset (frame :: frames) phrase
        (site.child (phrase.node
          (offset + (written (lexemesBefore (frame :: frames))).byteLength) fields) number)

namespace Phrase.IsAt

variable {root phrase : Phrase} {whole site : Site} {offset : Nat} {frames : List Frame}

theorem within_eq (isAt : IsAt root whole offset frames phrase site) :
    phrase.within frames = root := by
  induction isAt with
  | root => rfl
  | part outer ih => exact ih

theorem source_eq (isAt : IsAt root whole offset frames phrase site) :
    site.source = whole.source := by
  induction isAt with
  | root => rfl
  | part outer ih => exact ih

theorem exists_node_eq {fields : List String} (node : whole.node = root.node offset fields)
    (isAt : IsAt root whole offset frames phrase site) :
    ∃ fields, site.node =
      phrase.node (offset + (written (lexemesBefore frames)).byteLength) fields := by
  cases isAt with
  | root => exact ⟨fields, node⟩
  | part outer => exact ⟨_, rfl⟩

/-- A part stands where its frames end. -/
theorem standsAt {before after : Text} (source : whole.source = before ++ (root.text ++ after))
    (start : offset = before.byteLength) (isAt : IsAt root whole offset frames phrase site) :
    phrase.StandsAt site.source (offset + (written (lexemesBefore frames)).byteLength) := by
  refine ⟨before ++ written (lexemesBefore frames), written (lexemesAfter frames) ++ after, ?_, ?_⟩
  · rw [isAt.source_eq, source, ← isAt.within_eq, text_within]
    simp only [List.append_assoc]
  · rw [start, Text.byteLength_append]

/-- The range of a part is that of its text. -/
theorem range_eq {before : Text} {fields : List String}
    (node : whole.node = root.node before.byteLength fields)
    (isAt : IsAt root whole before.byteLength frames phrase site) (operand : phrase.role ≠ .token) :
    site.range =
      .between (Node.place whole.source (before ++ written (lexemesBefore frames)).byteLength)
        (Node.place whole.source
          (before ++ written (lexemesBefore frames) ++ phrase.text).byteLength) := by
  obtain ⟨fields, node_eq⟩ := isAt.exists_node_eq node
  obtain ⟨start, stop, -⟩ := label_node (ne_gap_of_role operand)
    (before.byteLength + (written (lexemesBefore frames)).byteLength) fields
  rw [Site.range, Node.rangeIn, isAt.source_eq, node_eq, start, stop]
  simp only [Text.byteLength_append]

end Phrase.IsAt

/-! ## Going down -/

/-- What a site below a whole may be: that of an operand, or one without children. -/
def Phrase.Reaches (root : Phrase) (whole : Site) (offset : Nat) (site : Site) : Prop :=
  (∃ frames phrase, IsAt root whole offset frames phrase site ∧ phrase.role ≠ .token) ∨
    (site.node.children = [] ∧ site.is "binary_expression" = false)

theorem Phrase.Reaches.child {root : Phrase} {whole site child : Site} {offset : Nat}
    {fields : List String} (grouped : root.Grouped) (node : whole.node = root.node offset fields)
    (reaches : root.Reaches whole offset site) (member : child ∈ site.namedChildren) :
    root.Reaches whole offset child := by
  obtain ⟨below, named⟩ := List.mem_filter.1 member
  obtain ⟨childNode, inNode, number, rfl⟩ := Site.exists_of_mem_childrenFrom below
  rcases reaches with ⟨frames, phrase, isAt, operand⟩ | ⟨nothing, -⟩
  · obtain ⟨fields, node_eq⟩ := isAt.exists_node_eq node
    rw [← isAt.within_eq] at grouped
    rw [node_eq] at inNode
    cases phrase with
    | gap => exact absurd rfl operand
    | mark => exact absurd rfl operand
    | name => exact absurd rfl operand
    | atom kind token below =>
      cases (grouped_within grouped operand).1 with
      | atom isAtom => exact .inr (isAtom.belowIsFlat childNode inNode)
    | apply production parts =>
      obtain ⟨before, part, after, fields, rfl, proper, rfl⟩ := exists_part_of_mem_nodesOf inNode
      by_cases partOperand : part.role = .token
      · cases part with
        | gap space => exact absurd rfl (proper space)
        | mark token => cases named
        | name token => exact .inr ⟨rfl, rfl⟩
        | atom kind token below => cases partOperand
        | apply inner parts => exact absurd partOperand inner.role_ne_token
      · let frame : Frame := ⟨production, before, after⟩
        have offset_eq : offset + (written (lexemesBefore frames)).byteLength +
            (written (lexemesOf before)).byteLength =
              offset + (written (lexemesBefore (frame :: frames))).byteLength := by
          rw [lexemesBefore, written_append, Text.byteLength_append, Nat.add_assoc]
        rw [offset_eq]
        have outer : IsAt root whole offset frames (frame.fill part) site := isAt
        exact .inl ⟨_, part, .part outer, partOperand⟩
  · rw [nothing] at inNode
    cases inNode

theorem exists_isAt_of_mem_preorder {root : Phrase} {whole : Site} {offset : Nat}
    {fields : List String} (grouped : root.Grouped) (node : whole.node = root.node offset fields)
    {pending : List Site} (reached : ∀ site ∈ pending, root.Reaches whole offset site) :
    ∀ site ∈ Site.preorder pending, root.Reaches whole offset site := by
  induction pending using Site.preorder.induct with
  | case1 => simp [Site.preorder]
  | case2 first rest ih =>
    intro site member
    rw [Site.preorder] at member
    rcases List.mem_cons.1 member with rfl | member
    · exact reached site (by simp)
    · refine ih (fun other pending => ?_) site member
      rcases List.mem_append.1 pending with child | later
      · exact (reached first (by simp)).child grouped node child
      · exact reached other (List.mem_cons_of_mem _ later)

end Retouch
