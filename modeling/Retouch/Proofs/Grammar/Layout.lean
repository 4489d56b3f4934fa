import Retouch.Proofs.Grammar.Frame
import Retouch.Tree.Site

/-!
# The nodes of phrases

A phrase that stands at a byte offset of a source has its text there, and so have its
parts (`Phrase.StandsAt`).  Its node finds them under the field names of the grammar.
-/

set_option autoImplicit false

namespace Retouch
namespace Phrase

/-- Whether the text of a phrase stands in a source from a byte offset on. -/
def StandsAt (phrase : Phrase) (source : Text) (offset : Nat) : Prop :=
  ∃ before after, source = before ++ (phrase.text ++ after) ∧ offset = before.byteLength

theorem StandsAt.part {production : Production} (before : List Phrase) {after : List Phrase}
    {part : Phrase} {source : Text} {offset : Nat}
    (stands : (apply production (before ++ part :: after)).StandsAt source offset) :
    part.StandsAt source (offset + (written (lexemesOf before)).byteLength) := by
  obtain ⟨earlier, later, rfl, rfl⟩ := stands
  refine ⟨earlier ++ written (lexemesOf before), written (lexemesOf after) ++ later, ?_, ?_⟩
  · simp only [text, lexemes, lexemesOf_append, lexemesOf, written_append, List.append_assoc]
  · rw [Text.byteLength_append]

/-! ## Labels -/

theorem ne_gap_of_role {phrase : Phrase} (operand : phrase.role ≠ .token) (text : Text) :
    phrase ≠ gap text := by
  rintro rfl
  exact operand rfl

theorem label_node {phrase : Phrase} (proper : ∀ text, phrase ≠ gap text) (offset : Nat)
    (fields : List String) :
    (phrase.node offset fields).label.start = offset ∧
      (phrase.node offset fields).label.stop = offset + phrase.text.byteLength ∧
      (phrase.node offset fields).label.fields = fields := by
  cases phrase with
  | gap space => exact absurd rfl (proper space)
  | mark token => simp [node, Node.label]
  | name token => simp [node, Node.label]
  | atom kind token below => simp [node, Node.label]
  | apply production parts => simp [node, Node.label]

/-- The text of a node is the text of its phrase. -/
theorem textIn_node {phrase : Phrase} (proper : ∀ text, phrase ≠ gap text) {source : Text}
    {offset : Nat} (stands : phrase.StandsAt source offset) (fields : List String) :
    (phrase.node offset fields).textIn source = phrase.text := by
  obtain ⟨start, stop, -⟩ := label_node proper offset fields
  obtain ⟨before, after, rfl, rfl⟩ := stands
  rw [Node.textIn, start, stop, ← Text.byteLength_append, ← List.append_assoc, Text.slice?_append]
  rfl

/-! ## Children -/

theorem nodesOf_gap (offset : Nat) (item : Item) (items : List Item) (text : Text)
    (rest : List Phrase) :
    nodesOf offset (item :: items) (gap text :: rest) =
      nodesOf (offset + text.byteLength) items rest := rfl

theorem nodesOf_mark (offset : Nat) (item : Item) (items : List Item) (token : String)
    (rest : List Phrase) :
    nodesOf offset (item :: items) (mark token :: rest) =
      (mark token).node offset item.fields ::
        nodesOf (offset + (mark token).text.byteLength) items rest := rfl

theorem nodesOf_nil (offset : Nat) (items : List Item) : nodesOf offset items [] = [] := by
  cases items <;> rfl

theorem nodesOf_cons {part : Phrase} (proper : ∀ text, part ≠ gap text) (offset : Nat)
    (item : Item) (items : List Item) (rest : List Phrase) :
    nodesOf offset (item :: items) (part :: rest) =
      part.node offset item.fields ::
        nodesOf (offset + part.text.byteLength) items rest := by
  cases part with
  | gap text => exact absurd rfl (proper text)
  | _ => rfl

/-- Every child is the node of a part. -/
theorem exists_part_of_mem_nodesOf {offset : Nat} {items : List Item} {parts : List Phrase}
    {child : Node} (member : child ∈ nodesOf offset items parts) :
    ∃ before part after fields, parts = before ++ part :: after ∧ (∀ text, part ≠ gap text) ∧
      child = part.node (offset + (written (lexemesOf before)).byteLength) fields := by
  induction parts generalizing offset items with
  | nil => cases items <;> cases member
  | cons first rest ih =>
    cases items with
    | nil => cases first <;> cases member
    | cons item items =>
      have later (following : child ∈ nodesOf (offset + first.text.byteLength) items rest) :
          ∃ before part after fields, first :: rest = before ++ part :: after ∧
            (∀ text, part ≠ gap text) ∧
            child = part.node (offset + (written (lexemesOf before)).byteLength) fields := by
        obtain ⟨before, part, after, fields, rfl, proper, child_eq⟩ := ih following
        refine ⟨first :: before, part, after, fields, rfl, proper, ?_⟩
        rw [written_lexemesOf_cons, Text.byteLength_append, ← Nat.add_assoc]
        exact child_eq
      by_cases proper : ∀ text, first ≠ gap text
      · rw [nodesOf_cons proper] at member
        rcases List.mem_cons.1 member with rfl | member
        · exact ⟨[], first, rest, item.fields, rfl, proper, rfl⟩
        · exact later member
      · simp only [ne_eq, not_forall, not_not] at proper
        obtain ⟨space, rfl⟩ := proper
        rw [nodesOf_gap] at member
        exact later (by rwa [text_gap])

/-- A node of a compound kind is that of an operation. -/
theorem exists_apply_of_is {phrase : Phrase} (grouped : phrase.Grouped)
    (operand : phrase.role ≠ .token) {offset : Nat} {fields : List String} {kind : String}
    (compound : kind ∈ compoundKinds) (is : (phrase.node offset fields).is kind = true) :
    ∃ production parts, phrase = apply production parts ∧ production.kind = kind := by
  cases grouped with
  | gap => exact absurd rfl operand
  | mark => exact absurd rfl operand
  | name => exact absurd rfl operand
  | atom isAtom =>
    rw [← beq_iff_eq.1 is] at compound
    exact absurd compound isAtom.notCompound
  | @apply production parts => exact ⟨production, parts, rfl, beq_iff_eq.1 is⟩

/-! ## Parts of operations -/

/-- The parts of a binary operation. -/
theorem exists_parts_binary {operator : String} {parts : List Phrase}
    (grouped : (apply (.binary operator) parts).Grouped) :
    ∃ fixity left space space' right, fixity? operator = some fixity ∧
      parts = [left, gap space, mark operator, gap space', right] ∧
      fixity.left.accepts left.role = true ∧
      (Slot.least fixity.right).accepts right.role = true ∧ left.Grouped ∧ right.Grouped ∧
      left.IsExpression ∧ right.IsExpression := by
  cases grouped with
  | apply valid fills grouped =>
    obtain ⟨fixity, found⟩ := Option.isSome_iff_exists.1 valid
    simp only [Production.items, Production.outline, found, List.intersperse,
      List.forall₂_cons_right_iff, List.forall₂_nil_right_iff] at fills
    obtain ⟨left, _, fillsLeft, ⟨_, _, ⟨⟩, ⟨_, _, ⟨⟩, ⟨_, _, ⟨⟩, ⟨right, _, fillsRight, rfl, rfl⟩,
      rfl⟩, rfl⟩, rfl⟩, rfl⟩ := fills
    cases fillsLeft with
    | operand acceptedLeft =>
      cases fillsRight with
      | operand acceptedRight =>
        have proper : ∀ entry ∈ binaryOperators, entry.2.left ≠ .arguments := by decide
        exact ⟨fixity, left, _, _, right, found, rfl, acceptedLeft, acceptedRight,
          grouped left (by simp), grouped right (by simp),
          isExpression_of_accepts acceptedLeft (proper _ (mem_binaryOperators found)),
          isExpression_of_accepts acceptedRight (by simp)⟩

/-- The parts of a prefix operation. -/
theorem exists_parts_unary {operator : String} {parts : List Phrase}
    (grouped : (apply (.unary operator) parts).Grouped) :
    ∃ space operand, parts = [mark operator, gap space, operand] ∧
      (Slot.least 15).accepts operand.role = true ∧ operand.Grouped := by
  cases grouped with
  | apply valid fills grouped =>
    simp only [Production.items, Production.outline, List.intersperse,
      List.forall₂_cons_right_iff, List.forall₂_nil_right_iff] at fills
    obtain ⟨_, _, ⟨⟩, ⟨_, _, ⟨⟩, ⟨operand, _, fillsOperand, rfl, rfl⟩, rfl⟩, rfl⟩ := fills
    cases fillsOperand with
    | operand accepted => exact ⟨_, operand, rfl, accepted, grouped operand (by simp)⟩

/-- The parts of an expression in parentheses. -/
theorem exists_parts_parentheses {parts : List Phrase}
    (grouped : (apply .parentheses parts).Grouped) :
    ∃ space inner space', parts = [mark "(", gap space, inner, gap space', mark ")"] ∧
      (Slot.least 0).accepts inner.role = true ∧ inner.Grouped := by
  cases grouped with
  | apply valid fills grouped =>
    simp only [Production.items, Production.outline, List.intersperse,
      List.forall₂_cons_right_iff, List.forall₂_nil_right_iff] at fills
    obtain ⟨_, _, ⟨⟩, ⟨_, _, ⟨⟩, ⟨inner, _, fillsInner, ⟨_, _, ⟨⟩, ⟨_, _, ⟨⟩, rfl, rfl⟩, rfl⟩,
      rfl⟩, rfl⟩, rfl⟩ := fills
    cases fillsInner with
    | operand accepted => exact ⟨_, inner, _, rfl, accepted, grouped inner (by simp)⟩

/-! ## Fields -/

theorem carries_node {phrase : Phrase} (proper : ∀ text, phrase ≠ gap text) (offset : Nat)
    (fields : List String) (name : String) :
    (phrase.node offset fields).carries name = fields.contains name := by
  rw [Node.carries, (label_node proper offset fields).2.2]

theorem kind_node_apply (production : Production) (parts : List Phrase) (offset : Nat)
    (fields : List String) : ((apply production parts).node offset fields).kind = production.kind :=
  rfl

theorem children_node_apply (production : Production) (parts : List Phrase) (offset : Nat)
    (fields : List String) :
    ((apply production parts).node offset fields).children =
      nodesOf offset production.items parts := rfl

/-- What the node of a binary operation finds. -/
theorem fields_binary {operator : String} {fixity : Fixity} {left right : Phrase}
    {space space' : Text} (found : fixity? operator = some fixity)
    (properLeft : ∀ text, left ≠ gap text) (properRight : ∀ text, right ≠ gap text) {offset : Nat}
    {fields : List String} {node : Node} (same : node = (apply (.binary operator)
      [left, gap space, mark operator, gap space', right]).node offset fields) :
    node.field? "left" = some (left.node offset ["left"]) ∧ node.operator? = some operator ∧
      node.field? "right" = some (right.node (offset + (written (lexemesOf
        [left, gap space, mark operator, gap space'])).byteLength) ["right"]) := by
  have children : node.children = [left.node offset ["left"],
      (mark operator).node (offset + (written (lexemesOf [left, gap space])).byteLength)
        ["operator"],
      right.node (offset + (written (lexemesOf
        [left, gap space, mark operator, gap space'])).byteLength) ["right"]] := by
    rw [same, children_node_apply, Production.items, Production.outline, found]
    simp only [List.intersperse, nodesOf_cons properLeft, nodesOf_gap, nodesOf_cons properRight,
      nodesOf_mark, nodesOf_nil, Item.fields, written_lexemesOf_cons, written_lexemesOf_nil,
      Text.byteLength_append, text_gap, text_mark, Nat.add_assoc, List.append_nil]
  have properMark : ∀ text, mark operator ≠ gap text := by simp
  simp [Node.operator?, Node.field?, children, carries_node properLeft, carries_node properRight,
    carries_node properMark]
  rfl

/-- What the node of a prefix operation finds. -/
theorem fields_unary {operator : String} {operand : Phrase} {space : Text}
    (proper : ∀ text, operand ≠ gap text) {offset : Nat} {fields : List String} {node : Node}
    (same : node = (apply (.unary operator) [mark operator, gap space, operand]).node
      offset fields) :
    node.operator? = some operator ∧ node.field? "argument" = some (operand.node
      (offset + (written (lexemesOf [mark operator, gap space])).byteLength) ["argument"]) := by
  have children : node.children = [(mark operator).node offset ["operator"],
      operand.node (offset + (written (lexemesOf [mark operator, gap space])).byteLength)
        ["argument"]] := by
    rw [same, children_node_apply, Production.items, Production.outline]
    simp only [List.intersperse, nodesOf_cons proper, nodesOf_gap, nodesOf_mark, nodesOf_nil,
      Item.fields, written_lexemesOf_cons, written_lexemesOf_nil, Text.byteLength_append, text_gap,
      text_mark, Nat.add_assoc, List.append_nil]
  have properMark : ∀ text, mark operator ≠ gap text := by simp
  simp [Node.operator?, Node.field?, children, carries_node proper, carries_node properMark]
  rfl

theorem operator?_binary {operator : String} {parts : List Phrase}
    (grouped : (apply (.binary operator) parts).Grouped) (offset : Nat) (fields : List String) :
    ((apply (.binary operator) parts).node offset fields).operator? = some operator := by
  obtain ⟨fixity, left, space, space', right, found, rfl, acceptedLeft, acceptedRight, -⟩ :=
    exists_parts_binary grouped
  exact (fields_binary found (ne_gap_of_role (role_ne_token_of_accepts acceptedLeft))
    (ne_gap_of_role (role_ne_token_of_accepts acceptedRight)) rfl).2.1

theorem operator?_unary {operator : String} {parts : List Phrase}
    (grouped : (apply (.unary operator) parts).Grouped) (offset : Nat) (fields : List String) :
    ((apply (.unary operator) parts).node offset fields).operator? = some operator := by
  obtain ⟨space, operand, rfl, accepted, -⟩ := exists_parts_unary grouped
  exact (fields_unary (ne_gap_of_role (role_ne_token_of_accepts accepted)) rfl).1

theorem isNamed_node {phrase : Phrase} (operand : phrase.role ≠ .token) (offset : Nat)
    (fields : List String) : (phrase.node offset fields).isNamed = true := by
  cases phrase with
  | atom kind text below => rfl
  | apply production parts => rfl
  | _ => exact absurd rfl operand

/-- The expression in parentheses is the first named child. -/
theorem namedChildren_parentheses {inner : Phrase} {space space' : Text}
    (operand : inner.role ≠ .token) {offset : Nat} {fields : List String} {node : Node}
    (same : node = (apply .parentheses
      [mark "(", gap space, inner, gap space', mark ")"]).node offset fields) :
    node.namedChildren.head? = some (inner.node
      (offset + (written (lexemesOf [mark "(", gap space])).byteLength) []) := by
  have children : node.children = [(mark "(").node offset [],
      inner.node (offset + (written (lexemesOf [mark "(", gap space])).byteLength) [],
      (mark ")").node (offset + (written (lexemesOf
        [mark "(", gap space, inner, gap space'])).byteLength) []] := by
    rw [same, children_node_apply, Production.items, Production.outline]
    simp only [List.intersperse, nodesOf_cons (ne_gap_of_role operand), nodesOf_gap,
      nodesOf_mark, nodesOf_nil, Item.fields, written_lexemesOf_cons, written_lexemesOf_nil,
      Text.byteLength_append, text_gap, text_mark, Nat.add_assoc, List.append_nil]
  have unnamed : ((mark "(").node offset []).isNamed = false := rfl
  rw [Node.namedChildren, children, List.filter_cons_of_neg (by simp [unnamed]),
    List.filter_cons_of_pos (isNamed_node operand _ _)]
  rfl

end Phrase
end Retouch
