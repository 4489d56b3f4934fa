import Mathlib.Data.List.Forall2
import Retouch.Proofs.Grammar.Production
import Retouch.Proofs.Text.Bytes
import Retouch.Tree.Node

/-!
# Phrases

A phrase is an expression as it stands in a text: a tree whose leaves, read in order, are
the gaps and tokens of the text.  It has a node, which is the tree that a parser makes of
it (`Phrase.node`), and it spells an expression, which forgets the gaps
(`Phrase.expression`).

A text *groups* to an expression (`Text.Groups`) when it is the text of a phrase that
spells the expression, that obeys precedence (`Phrase.Grouped`), and whose tokens are those
into which the text is cut (`Lexed`).
-/

set_option autoImplicit false

namespace Retouch

/-- An atom keeps the kind of its node and the nodes that the parser puts below it. -/
inductive Phrase where
  | gap (text : Text)
  | mark (text : String)
  | name (text : Text)
  | atom (kind : String) (text : Text) (below : List Node)
  | apply (production : Production) (parts : List Phrase)

/-- An expression without the accidents of its text. -/
inductive Expression where
  | atom (text : Text)
  | apply (production : Production) (operands : List Expression)

/-! ## Lexemes -/

/-- A part of a text. -/
inductive Lexeme where
  | gap (text : Text)
  | token (text : Text)

def Lexeme.text : Lexeme → Text
  | gap text => text
  | token text => text

/-- The text of lexemes in a row. -/
def written (lexemes : List Lexeme) : Text := lexemes.flatMap Lexeme.text

@[simp]
theorem written_nil : written [] = [] := rfl

@[simp]
theorem written_cons (lexeme : Lexeme) (lexemes : List Lexeme) :
    written (lexeme :: lexemes) = lexeme.text ++ written lexemes := rfl

@[simp]
theorem written_append (lexemes more : List Lexeme) :
    written (lexemes ++ more) = written lexemes ++ written more := List.flatMap_append

/-- Whether a text is cut into the given lexemes where another text follows it. -/
def Lexed : List Lexeme → Text → Prop
  | [], _ => True
  | .gap text :: rest, following =>
    (∀ character ∈ text, Text.isGap character = true) ∧ Lexed rest following
  | .token text :: rest, following =>
    text.isToken = true ∧ text.endsBefore (written rest ++ following) = true ∧
      Lexed rest following

theorem lexed_append {lexemes more : List Lexeme} {following : Text} :
    Lexed (lexemes ++ more) following ↔
      Lexed lexemes (written more ++ following) ∧ Lexed more following := by
  induction lexemes with
  | nil => simp [Lexed]
  | cons lexeme lexemes ih =>
    cases lexeme with
    | gap text => simp only [List.cons_append, Lexed, ih, and_assoc]
    | token text =>
      simp only [List.cons_append, Lexed, ih, and_assoc, written_append, List.append_assoc]

/-- Whether lexemes end with a token, but for empty gaps. -/
def EndsWith (lexemes : List Lexeme) (token : Text) : Prop :=
  ∃ before rest, lexemes = before ++ .token token :: rest ∧ written rest = []

/-- Only the last token depends on what follows. -/
theorem Lexed.of_endsWith {lexemes : List Lexeme} {following other : Text}
    (lexed : Lexed lexemes following)
    (ends : ∀ token, token.isToken = true → EndsWith lexemes token →
      token.endsBefore other = true) : Lexed lexemes other := by
  induction lexemes with
  | nil => trivial
  | cons lexeme lexemes ih =>
    have later : ∀ token, token.isToken = true → EndsWith lexemes token →
        token.endsBefore other = true := by
      rintro token isToken ⟨before, rest, rfl, nothing⟩
      exact ends token isToken ⟨lexeme :: before, rest, rfl, nothing⟩
    cases lexeme with
    | gap text => exact ⟨lexed.1, ih lexed.2 later⟩
    | token text =>
      obtain ⟨isToken, before, rest⟩ := lexed
      refine ⟨isToken, ?_, ih rest later⟩
      cases between : written lexemes with
      | nil => exact ends text isToken ⟨[], lexemes, rfl, between⟩
      | cons first more =>
        rw [between] at before
        exact before

/-- What separates may follow anything. -/
theorem Lexed.of_separates {lexemes : List Lexeme} {following other : Text}
    (lexed : Lexed lexemes following)
    (separator : ∀ character ∈ other.head?, Text.separates character = true) :
    Lexed lexemes other := by
  refine lexed.of_endsWith ?_
  intro token isToken _
  cases other with
  | nil => rfl
  | cons first rest =>
    have apart := Text.not_runsInto_of_separates (Text.ne_nil_of_isToken isToken)
      (separator first rfl)
    simp [Text.endsBefore, apart]

namespace Phrase

mutual

/-- The gaps and tokens of a phrase in order. -/
def lexemes : Phrase → List Lexeme
  | gap text => [.gap text]
  | mark text => [.token text.toList]
  | name text => [.token text]
  | atom _ text _ => [.token text]
  | apply _ parts => lexemesOf parts

def lexemesOf : List Phrase → List Lexeme
  | [] => []
  | part :: rest => lexemes part ++ lexemesOf rest

end

/-- The text of a phrase. -/
def text (phrase : Phrase) : Text := written phrase.lexemes

@[simp]
theorem text_gap (space : Text) : (gap space).text = space := List.append_nil space

@[simp]
theorem text_mark (token : String) : (mark token).text = token.toList := List.append_nil _

@[simp]
theorem text_name (token : Text) : (name token).text = token := List.append_nil token

@[simp]
theorem text_atom (kind : String) (token : Text) (below : List Node) :
    (atom kind token below).text = token := List.append_nil token

@[simp]
theorem text_apply (production : Production) (parts : List Phrase) :
    (apply production parts).text = written (lexemesOf parts) := rfl

@[simp]
theorem written_lexemesOf_nil : written (lexemesOf []) = [] := rfl

@[simp]
theorem written_lexemesOf_cons (part : Phrase) (parts : List Phrase) :
    written (lexemesOf (part :: parts)) = part.text ++ written (lexemesOf parts) := by
  rw [lexemesOf, written_append]
  rfl

@[simp]
theorem lexemesOf_append (parts more : List Phrase) :
    lexemesOf (parts ++ more) = lexemesOf parts ++ lexemesOf more := by
  induction parts with
  | nil => rfl
  | cons part parts ih => simp only [List.cons_append, lexemesOf, ih, List.append_assoc]

/-! ## Nodes -/

mutual

/-- The node of a phrase whose text begins at a byte offset. -/
def node (offset : Nat) (fields : List String) : Phrase → Node
  | gap _ => default
  | mark text =>
    .mk ⟨text, false, false, false, false, offset, offset + Text.byteLength text.toList, fields⟩ []
  | name text =>
    .mk ⟨"property_identifier", true, false, false, false, offset, offset + text.byteLength,
      fields⟩ []
  | atom kind text below =>
    .mk ⟨kind, true, false, false, false, offset, offset + text.byteLength, fields⟩ below
  | apply production parts =>
    .mk ⟨production.kind, true, false, false, false, offset,
      offset + (written (lexemesOf parts)).byteLength, fields⟩
      (nodesOf offset production.items parts)

/-- The nodes of parts in a row; a gap has none. -/
def nodesOf (offset : Nat) : List Item → List Phrase → List Node
  | _ :: items, gap text :: rest => nodesOf (offset + text.byteLength) items rest
  | item :: items, part :: rest =>
    node offset item.fields part :: nodesOf (offset + part.text.byteLength) items rest
  | _, _ => []

end

/-! ## Grouping -/

def role : Phrase → Role
  | atom _ _ _ => .expression 18
  | apply production _ => production.role
  | _ => .token

/-- The keywords among the marks of productions. -/
def keywords : List Text :=
  ["typeof", "void", "delete", "await", "in", "instanceof"].map String.toList

/-- The kinds of the nodes that productions make. -/
def compoundKinds : List String :=
  ["parenthesized_expression", "unary_expression", "await_expression", "binary_expression",
    "ternary_expression", "assignment_expression", "augmented_assignment_expression",
    "sequence_expression", "call_expression", "arguments", "member_expression",
    "subscript_expression"]

/-- Whether a token of a kind is an atom: a name, a number or a quoted literal, with at
most its pieces below it. -/
structure IsAtom (kind : String) (text : Text) (below : List Node) : Prop where
  isToken : text.isToken = true
  notMark : text.kind ≠ .mark
  notKeyword : text ∉ keywords
  notCompound : kind ∉ compoundKinds
  isTrue : kind = "true" ↔ text = "true".toList
  isFalse : kind = "false" ↔ text = "false".toList
  belowIsFlat : ∀ node ∈ below, node.children = [] ∧ node.is "binary_expression" = false

/-- Whether a part can stand for an item. -/
inductive Fills : Phrase → Item → Prop where
  | gap {text : Text} : Fills (gap text) .gap
  | mark {fields : List String} {text : String} : Fills (mark text) (.mark fields text)
  | name {text : Text} : Fills (name text) (.name text)
  | operand {phrase : Phrase} {fields : List String} {slot : Slot}
      (accepted : slot.accepts phrase.role = true) : Fills phrase (.operand fields slot)

/-- **Grouping by precedence**: the parts of each production fill its items, so that
every operand binds as tightly as its slot demands. -/
inductive Grouped : Phrase → Prop where
  | gap {text : Text} : Grouped (gap text)
  | mark {text : String} : Grouped (mark text)
  | name {text : Text} : Grouped (name text)
  | atom {kind : String} {text : Text} {below : List Node} (isAtom : IsAtom kind text below) :
      Grouped (atom kind text below)
  | apply {production : Production} {parts : List Phrase} (valid : production.isValid = true)
      (fills : List.Forall₂ Fills parts production.items)
      (grouped : ∀ part ∈ parts, Grouped part) : Grouped (apply production parts)

/-! ## Expressions -/

mutual

/-- The expression that a phrase spells. -/
def expression : Phrase → Expression
  | atom _ text _ => .atom text
  | apply production parts => .apply production (operandsOf parts)
  | _ => .atom []

def operandsOf : List Phrase → List Expression
  | [] => []
  | part :: rest =>
    match part.role with
    | .token => operandsOf rest
    | _ => expression part :: operandsOf rest

end

theorem operandsOf_gap (space : Text) (rest : List Phrase) :
    operandsOf (gap space :: rest) = operandsOf rest := rfl

theorem operandsOf_mark (token : String) (rest : List Phrase) :
    operandsOf (mark token :: rest) = operandsOf rest := rfl

theorem operandsOf_cons {part : Phrase} (operand : part.role ≠ .token) (rest : List Phrase) :
    operandsOf (part :: rest) = part.expression :: operandsOf rest := by
  rw [operandsOf]
  cases role_eq : part.role with
  | token => exact absurd role_eq operand
  | arguments => rfl
  | expression level => rfl

theorem operandsOf_append (parts more : List Phrase) :
    operandsOf (parts ++ more) = operandsOf parts ++ operandsOf more := by
  induction parts with
  | nil => rfl
  | cons part parts ih =>
    rw [List.cons_append, operandsOf, operandsOf, ih]
    cases part.role <;> rfl

/-- Whether a phrase is an expression. -/
def IsExpression (phrase : Phrase) : Prop := ∃ level, phrase.role = .expression level

theorem ne_token_of_expression {phrase : Phrase} {level : Nat}
    (expression : phrase.role = .expression level) : phrase.role ≠ .token := by
  rw [expression]
  exact nofun

theorem isExpression_of_accepts {phrase : Phrase} {slot : Slot}
    (accepted : slot.accepts phrase.role = true) (proper : slot ≠ .arguments) :
    phrase.IsExpression := by
  cases role_eq : phrase.role with
  | expression level => exact ⟨level, role_eq⟩
  | token => rw [role_eq] at accepted; cases slot <;> cases accepted
  | arguments =>
    rw [role_eq] at accepted
    cases slot with
    | arguments => exact absurd rfl proper
    | _ => cases accepted

theorem role_ne_token_of_accepts {phrase : Phrase} {slot : Slot}
    (accepted : slot.accepts phrase.role = true) : phrase.role ≠ .token := by
  intro role
  rw [role] at accepted
  cases slot <;> cases accepted

end Phrase

/-- **Whether a text groups to an expression.** -/
def Text.Groups (text : Text) (expression : Expression) : Prop :=
  ∃ phrase : Phrase, phrase.Grouped ∧ phrase.IsExpression ∧ Lexed phrase.lexemes [] ∧
    phrase.text = text ∧ phrase.expression = expression

end Retouch
