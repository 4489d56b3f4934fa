import Retouch.Tree.Fault
import Retouch.Workspace.Language

/-!
# Parsers

Texts are parsed by a library that is given.  It has grammars for some of the languages,
gets ready for a grammar unless that does not suit it, and makes a tree of every text,
faulty or not, unless it is cut short.  Each of these can fail, and a parser tells them
apart.  A parser is opened for one language and then reads text after text; no reading
depends on those before it.
-/

set_option autoImplicit false

namespace Retouch

/-- Reads a text into a tree without faults. -/
abbrev Parse := Text → Except ParseError Tree

/-- A library that parses texts by grammars. -/
structure Grammars (Grammar : Type) where
  /-- The grammar of a language, if it is at hand. -/
  grammar? : Language → Option Grammar
  /-- Gets ready for a grammar, or says why that does not suit. -/
  load : Grammar → Except String Unit
  /-- The tree of a text, unless parsing is cut short. -/
  tree? : Grammar → Text → Option Tree

/-- A parser of one language. -/
structure Parser (Grammar : Type) where
  language : Language
  grammar : Grammar

namespace Parser

variable {Grammar : Type}

/-- Opens a parser of a language. -/
def opened (grammars : Grammars Grammar) (language : Language) :
    Except ParseError (Parser Grammar) :=
  match grammars.grammar? language with
  | none => .error (.unavailable language.id)
  | some grammar =>
    match grammars.load grammar with
    | .error details => .error (.incompatible details)
    | .ok () => .ok ⟨language, grammar⟩

/-- The tree of a text, with its faults. -/
def read (grammars : Grammars Grammar) (parser : Parser Grammar) (code : Text) :
    Except ParseError Tree :=
  match grammars.tree? parser.grammar code with
  | some tree => .ok tree
  | none => .error .aborted

/-- The tree of a text, unless it has faults. -/
def parse (grammars : Grammars Grammar) (parser : Parser Grammar) : Parse := fun code =>
  match parser.read grammars code with
  | .ok tree => tree.accepted
  | .error error => .error error

/-! ## What is refused -/

variable {grammars : Grammars Grammar} {language : Language} {parser : Parser Grammar}
  {code : Text} {tree : Tree} {error : ParseError}

/-- A parser is opened exactly if there is a grammar of its language and it suits. -/
theorem opened_eq_ok_iff :
    opened grammars language = .ok parser ↔
      parser.language = language ∧ grammars.grammar? language = some parser.grammar ∧
        grammars.load parser.grammar = .ok () := by
  obtain ⟨language', grammar'⟩ := parser
  unfold opened
  cases grammars.grammar? language with
  | none => simp
  | some grammar =>
    cases loaded : grammars.load grammar with
    | error details =>
      simp only [loaded, reduceCtorEq, Option.some.injEq, false_iff, not_and]
      rintro - rfl
      simp [loaded]
    | ok =>
      simp only [loaded, Except.ok.injEq, mk.injEq, Option.some.injEq]
      constructor
      · rintro ⟨rfl, rfl⟩
        exact ⟨rfl, rfl, loaded⟩
      · rintro ⟨rfl, rfl, -⟩
        exact ⟨rfl, rfl⟩

/-- A language is refused if there is no grammar of it, or for what the library says. -/
theorem opened_eq_error_iff :
    opened grammars language = .error error ↔
      (grammars.grammar? language = none ∧ error = .unavailable language.id) ∨
        ∃ grammar details, grammars.grammar? language = some grammar ∧
          grammars.load grammar = .error details ∧ error = .incompatible details := by
  unfold opened
  cases grammars.grammar? language with
  | none => simp [eq_comm]
  | some grammar => cases loaded : grammars.load grammar <;> simp [loaded, eq_comm]

/-- A text is parsed exactly if it is read into a tree without faults. -/
theorem parse_eq_ok_iff :
    parser.parse grammars code = .ok tree ↔
      grammars.tree? parser.grammar code = some tree ∧ tree.root.label.hasError = false := by
  unfold parse read
  cases grammars.tree? parser.grammar code with
  | none => simp
  | some found =>
    simp only [Tree.accepted_eq_ok_iff, Option.some.injEq]
    constructor
    · rintro ⟨rfl, faultless⟩
      exact ⟨rfl, faultless⟩
    · rintro ⟨rfl, faultless⟩
      exact ⟨rfl, faultless⟩

/-- **A text is refused because parsing was cut short, or for its faults**, and never for its
language. -/
theorem parse_eq_error_iff :
    parser.parse grammars code = .error error ↔
      (grammars.tree? parser.grammar code = none ∧ error = .aborted) ∨
        ∃ tree message position, grammars.tree? parser.grammar code = some tree ∧
          tree.accepted = .error error ∧ error = .faulty message position := by
  unfold parse read
  cases grammars.tree? parser.grammar code with
  | none => simp [eq_comm]
  | some found =>
    simp only [reduceCtorEq, false_and, false_or, Option.some.injEq]
    constructor
    · intro refused
      obtain ⟨message, position, faulty⟩ := Tree.exists_faulty_of_accepted refused
      exact ⟨found, message, position, rfl, refused, faulty⟩
    · rintro ⟨tree, -, -, rfl, refused, -⟩
      exact refused

end Parser
end Retouch
