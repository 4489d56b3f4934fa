import Retouch.Proofs.Catalog.Concatenation
import Retouch.Proofs.Template.Contents

/-!
# Operands that are joined

A concatenation becomes a template literal operand by operand.  Each operand is read by itself,
a string as its letters, a template literal as its pieces, and everything else as a substitution
(`Concatenation.Brings`).  **The template literal has the elements of the operands in turn exactly
if no two neighbours clash** (`Concatenation.template_joins_iff`), that is, if no operand that
ends with a dollar sign is followed by one that begins with a brace, none that ends with an
escaped zero by one that begins with a digit, and none that ends with a carriage return by one that
begins with a newline.  Empty operands stand in nobody's way.

Nothing keeps neighbours from clashing.  Between `'a$'` and `'{b}'` a substitution begins, and so
does it in the code that the refactoring writes (`Concatenation.conversion_opens_substitution`).
-/

set_option autoImplicit false

namespace Retouch

open TemplateText

namespace Template
namespace Piece

/-- Whether pieces clash with others in the same cases as other pieces do. -/
structure Alike (kept reading : List Piece) : Prop where
  isEmpty : kept.isEmpty = reading.isEmpty
  first : ∀ before, clash before kept = clash before reading
  last : ∀ after, clash kept after = clash reading after

theorem Alike.refl (reading : List Piece) : Alike reading reading :=
  ⟨rfl, fun _ => rfl, fun _ => rfl⟩

variable {kept readings : List (List Piece)}

theorem isChain_of_alike (alike : List.Forall₂ Alike kept readings) :
    (kept.IsChain fun before after => clash before after = false) ↔
      readings.IsChain fun before after => clash before after = false := by
  induction alike with
  | nil => exact Iff.rfl
  | cons same rest ih =>
    cases rest with
    | nil => exact iff_of_true (List.isChain_singleton _) (List.isChain_singleton _)
    | cons same' rest =>
      rw [List.isChain_cons_cons, List.isChain_cons_cons, ih, same.last, same'.first]

theorem filter_alike (alike : List.Forall₂ Alike kept readings) :
    List.Forall₂ Alike (kept.filter (!·.isEmpty)) (readings.filter (!·.isEmpty)) :=
  List.rel_filter (fun {_ _} same => by simp only [same.isEmpty]) alike

section Transcribed

variable {quote : Char}

theorem not_clash_escaped (last : Piece) (character : Char) :
    (last.opens (.letter (.escaped character)) || last.disturbs (.letter (.escaped character))) =
      false := by
  cases last <;> simp [opens, disturbs]

/-- A mark clashes with nothing before it. -/
theorem not_clash_mark {mark : Char} (member : mark ∈ indifferentMarks) (last : Piece) :
    (last.opens (.letter (.plain mark)) || last.disturbs (.letter (.plain mark))) = false := by
  have plain : mark ≠ openingBrace ∧ mark.isDigit = false ∧ mark ≠ '\n' := by
    rcases eq_of_mem_indifferentMarks member with rfl | rfl | rfl | rfl <;> decide
  obtain ⟨noBrace, noDigit, noNewline⟩ := plain
  cases last <;> simp [opens, disturbs, noBrace, noDigit, noNewline]

/-- A transcribed letter clashes with what is before it as the letter does. -/
theorem clash_transcribed_first (isQuote : quote = '\'' ∨ quote = '"') (next : Option Letter)
    (letter : Letter) (last : Piece) :
    (last.opens (.letter (letter.transcribed quote next)) ||
      last.disturbs (.letter (letter.transcribed quote next))) =
    (last.opens (.letter letter) || last.disturbs (.letter letter)) := by
  rcases Letter.transcribed_eq_or isQuote next letter with
    same | ⟨mark, member, ⟨rfl, same⟩ | ⟨rfl, same⟩⟩
  · rw [same]
  · rw [same, not_clash_escaped, not_clash_mark member]
  · rw [same, not_clash_escaped, not_clash_mark member]

/-- Nothing clashes with a quote or a backtick before it, escaped or not. -/
theorem not_clash_after {mark : Char} (quoting : mark = '\'' ∨ mark = '"' ∨ mark = backtick)
    {letter : Letter}
    (same : letter = .plain mark ∨ letter = .escaped mark) (first : Piece) :
    (opens (.letter letter) first || disturbs (.letter letter) first) = false := by
  have other : mark ≠ '$' ∧ mark ≠ '0' ∧ mark ≠ '\r' := by
    rcases quoting with rfl | rfl | rfl <;> decide
  obtain ⟨noDollar, noZero, noReturn⟩ := other
  rw [Bool.or_eq_false_iff]
  constructor
  · rcases same with rfl | rfl <;> simp [opens, noDollar]
  · cases first with
    | substitution => rfl
    | letter first =>
      cases first with
      | escaped => rfl
      | plain => rcases same with rfl | rfl <;> simp [disturbs, noZero, noReturn]

/-- A transcribed letter at the end clashes with what is after it as the letter does. -/
theorem clash_transcribed_last (isQuote : quote = '\'' ∨ quote = '"') (letter : Letter)
    (first : Piece) :
    (opens (.letter (letter.transcribed quote none)) first ||
      disturbs (.letter (letter.transcribed quote none)) first) =
    (opens (.letter letter) first || disturbs (.letter letter) first) := by
  cases letter with
  | plain character =>
    by_cases tick : character = backtick
    · rw [Letter.transcribed, if_pos (.inl tick), not_clash_after (.inr (.inr tick)) (.inr rfl),
        not_clash_after (.inr (.inr tick)) (.inl rfl)]
    · rw [Letter.transcribed, if_neg (by simp [tick])]
  | escaped character =>
    by_cases same : character = quote
    · have quoting : character = '\'' ∨ character = '"' ∨ character = backtick := by
        rw [same]
        exact isQuote.imp_right .inl
      rw [Letter.transcribed, if_pos same, not_clash_after quoting (.inl rfl),
        not_clash_after quoting (.inr rfl)]
    · rw [Letter.transcribed, if_neg same]

/-- **Transcribed letters clash with the same pieces as the letters.** -/
theorem alike_transcribe (isQuote : quote = '\'' ∨ quote = '"') (letters : List Letter) :
    Alike ((Letter.transcribe quote letters).map .letter) (letters.map .letter) where
  isEmpty := by cases letters <;> rfl
  first before := by
    cases letters with
    | nil => rfl
    | cons first rest =>
      rw [clash, clash, atSeam, atSeam, atSeam, atSeam]
      cases before.getLast? with
      | none => rfl
      | some last => exact clash_transcribed_first isQuote _ first last
  last after := by
    rcases List.eq_nil_or_concat letters with rfl | ⟨earlier, last, rfl⟩
    · rfl
    · rw [clash, clash, atSeam, atSeam, atSeam, atSeam, List.getLast?_map, List.getLast?_map,
        Letter.getLast?_transcribe, List.concat_eq_append, List.getLast?_concat]
      cases after.head? with
      | none => rfl
      | some first => exact clash_transcribed_last isQuote last first

end Transcribed
end Piece
end Template

namespace Concatenation

open Template

/-- **What an operand brings, read by itself**: the letters of a string, the pieces of a template
literal, or another expression as a substitution. -/
inductive Brings (expressions : Expressions) (source : Text) (operand : Node) :
    List Template.Piece → Prop where
  | string {quote : Char} {body : Text} {letters : List Letter}
      (kind : operand.is "string" = true) (isQuote : quote = '\'' ∨ quote = '"')
      (text : operand.textIn source = quote :: body ++ [quote])
      (read : Letter.read? body = some letters) :
      Brings expressions source operand (letters.map .letter)
  | template {pieces : List Template.Piece} (kind : operand.is "template_string" = true)
      (isTemplate : IsTemplate expressions (operand.textIn source) pieces) :
      Brings expressions source operand pieces
  | other (kind : isString operand = false) (holds : expressions.holds (operand.textIn source)) :
      Brings expressions source operand [.substitution (operand.textIn source)]

section Joined

variable {expressions : Expressions} {source : Text} {operand : Node} {operands : List Node}
  {reading : List Template.Piece} {readings : List (List Template.Piece)} {elements : List Element}
  {meanings : List (List Element)}

theorem between_quoted (content : Text) : between backtick (quoted content) = content :=
  Letter.between_quotes backtick content

/-- **The contribution of an operand** is a content with the elements of the operand, which
clashes with what the operand clashes with. -/
theorem Brings.exists_content (brings : Brings expressions source operand reading)
    (means : Template.Piece.elements? reading = some elements) :
    ∃ content : Content expressions, content.text = contribution source operand ∧
      content.elements = elements ∧ Template.Piece.Alike content.pieces reading := by
  cases brings with
  | @string quote body letters kind isQuote text read =>
    obtain ⟨rfl, proper⟩ := Letter.read?_eq_some_iff.1 read
    have content_eq : contribution source operand =
        Letter.spelled (Letter.transcribe quote letters) := by
      rw [contribution, if_pos kind, text, Letter.ofLiteral_spelled quote proper]
    have value := Unescaping.standard.value_transcribe isQuote letters
    exact ⟨⟨_, _, elements, .of_isInert (Letter.isInert_transcribe isQuote proper),
      value.trans means⟩, content_eq.symm, rfl, Template.Piece.alike_transcribe isQuote letters⟩
  | template kind isTemplate =>
    obtain ⟨content, text, reads⟩ := isTemplate
    have content_eq : contribution source operand = content := by
      have noString : operand.is "string" = false := by
        rw [Node.is, eq_of_beq kind]
        rfl
      rw [contribution, if_neg (by rw [noString]; decide), if_pos kind, text, between_quoted]
    exact ⟨⟨content, reading, elements, reads, means⟩, content_eq.symm, rfl, .refl reading⟩
  | other kind holds =>
    rw [isString, Bool.or_eq_false_iff] at kind
    have content_eq : contribution source operand = substitution (operand.textIn source) := by
      rw [contribution, if_neg (by rw [kind.1]; decide), if_neg (by rw [kind.2]; decide)]
    exact ⟨⟨substitution (operand.textIn source), _, elements, .substitution holds .nil, means⟩,
      content_eq.symm, rfl, .refl _⟩

/-- The contents that operands contribute. -/
theorem exists_contents (brought : List.Forall₂ (Brings expressions source) operands readings)
    (meant : List.Forall₂ (fun reading elements => Template.Piece.elements? reading = some elements)
      readings meanings) :
    ∃ contents : List (Content expressions),
      Content.textOf contents = operands.flatMap (contribution source) ∧
      Content.elementsOf contents = meanings.flatten ∧
      List.Forall₂ Template.Piece.Alike (contents.map Content.pieces) readings := by
  induction brought generalizing meanings with
  | nil =>
    cases meant
    exact ⟨[], rfl, rfl, .nil⟩
  | cons brings rest ih =>
    cases meant with
    | cons means meant =>
      obtain ⟨content, text, elements, alike⟩ := brings.exists_content means
      obtain ⟨contents, texts, allElements, allAlike⟩ := ih meant
      refine ⟨content :: contents, ?_, ?_, .cons alike allAlike⟩
      · rw [Content.textOf_cons, text, texts, List.flatMap_cons]
      · rw [Content.elementsOf_cons, elements, allElements, List.flatten_cons]

/-- **The template literal for operands has their elements in turn exactly if no two neighbours
clash.**  The elements are the substitutions that the operands bring, with the code units of
their literal parts between them. -/
theorem template_joins_iff
    (brought : List.Forall₂ (Brings expressions source) operands readings)
    (meant : List.Forall₂ (fun reading elements => Template.Piece.elements? reading = some elements)
      readings meanings) :
    (∃ pieces, IsTemplate expressions (template source operands) pieces ∧
      Template.Piece.elements? pieces = some meanings.flatten) ↔
    (readings.filter (!·.isEmpty)).IsChain fun before after =>
      Template.Piece.clash before after = false := by
  obtain ⟨contents, text, elements, alike⟩ := exists_contents brought meant
  rw [template, ← text, ← elements, Content.joined_iff]
  exact Template.Piece.isChain_of_alike (Template.Piece.filter_alike alike)

end Joined

/-- The code `x = 'a$' + '{b}';`, parsed. -/
def dollarBrace : Tree where
  source := "x = 'a$' + '\x7bb\x7d';".toList
  root :=
    .named "program" 0 17 [] [.named "expression_statement" 0 17 []
      [.named "assignment_expression" 0 16 []
        [.named "identifier" 0 1 ["left"] [], .mark "=" 2 3 [],
          .named "binary_expression" 4 16 ["right"]
            [.named "string" 4 8 ["left"]
              [.mark "'" 4 5 [], .named "string_fragment" 5 7 [] [], .mark "'" 7 8 []],
              .mark "+" 9 10 ["operator"],
              .named "string" 11 16 ["right"]
                [.mark "'" 11 12 [], .named "string_fragment" 12 15 [] [], .mark "'" 15 16 []]]],
        .mark ";" 16 17 []]]

/-- The sum of the two strings. -/
def dollarBraceSite : Site :=
  let statement := dollarBrace.rootSite.child dollarBrace.root.children[0]! 0
  let assignment := statement.child statement.node.children[0]! 0
  assignment.child assignment.node.children[2]! 2

theorem operands_dollarBraceSite : operands dollarBraceSite.node =
    [dollarBraceSite.node.children[0]!, dollarBraceSite.node.children[2]!] := by
  rw [@operands_of_isSum dollarBraceSite.node dollarBraceSite.node.children[0]!
    dollarBraceSite.node.children[2]! rfl rfl rfl, operands_of_not_isSum rfl]
  rfl

theorem template_dollarBrace :
    template dollarBrace.source (operands dollarBraceSite.node) = "`a$\x7bb\x7d`".toList := by
  rw [operands_dollarBraceSite]
  decide +kernel

/-- The two strings clash, but not with a name between them. -/
theorem template_joins_iff_dollarBrace :
    let expressions := Expressions.braceless (· = ['x']) (by rintro _ rfl; decide)
    let first := dollarBraceSite.node.children[0]!
    let last := dollarBraceSite.node.children[2]!
    let name := (dollarBrace.root.children[0]!.children[0]!).children[0]!
    let letters := [Template.Piece.letter (.plain 'a'), .letter (.plain '$')]
    let letters' := [Template.Piece.letter (.plain openingBrace), .letter (.plain 'b'),
      .letter (.plain closingBrace)]
    operands dollarBraceSite.node = [first, last] ∧
      List.Forall₂ (Brings expressions dollarBrace.source) [first, last] [letters, letters'] ∧
      (¬ ∃ pieces, IsTemplate expressions (template dollarBrace.source [first, last]) pieces ∧
        Template.Piece.elements? pieces =
          some [.unit 97, .unit 36, .unit 123, .unit 98, .unit 125]) ∧
      ∃ pieces, IsTemplate expressions (template dollarBrace.source [first, name, last]) pieces ∧
        Template.Piece.elements? pieces =
          some [.unit 97, .unit 36, .substitution ['x'], .unit 123, .unit 98, .unit 125] := by
  intro expressions first last name letters letters'
  have brings : Brings expressions dollarBrace.source first letters :=
    .string rfl (.inl rfl)
      (by decide +kernel : first.textIn dollarBrace.source = '\'' :: ['a', '$'] ++ ['\''])
      (by decide +kernel : _ = some [.plain 'a', .plain '$'])
  have brings' : Brings expressions dollarBrace.source last letters' :=
    .string rfl (.inl rfl)
      (by decide +kernel : last.textIn dollarBrace.source =
        '\'' :: [openingBrace, 'b', closingBrace] ++ ['\''])
      (by decide +kernel : _ = some [.plain openingBrace, .plain 'b', .plain closingBrace])
  have inserted : Brings expressions dollarBrace.source name [.substitution ['x']] :=
    .other rfl (by decide +kernel : name.textIn dollarBrace.source = ['x'])
  have means : Template.Piece.elements? letters = some [.unit 97, .unit 36] := by decide +kernel
  have means' : Template.Piece.elements? letters' = some [.unit 123, .unit 98, .unit 125] := by
    decide +kernel
  have meansName : Template.Piece.elements? [.substitution ['x']] =
      some [.substitution ['x']] := rfl
  refine ⟨operands_dollarBraceSite, .cons brings (.cons brings' .nil), ?_, ?_⟩
  · exact mt (template_joins_iff (.cons brings (.cons brings' .nil))
      (.cons means (.cons means' .nil))).1 (by decide)
  · exact (template_joins_iff (.cons brings (.cons inserted (.cons brings' .nil)))
      (.cons means (.cons meansName (.cons means' .nil)))).2 (by decide)

/-- **A substitution begins between `'a$'` and `'{b}'`.**  There is no other way to read the
template literal that the refactoring writes. -/
theorem conversion_opens_substitution :
    let editor := Editor.ofCode dollarBrace.source (.cursorAt ⟨0, 9⟩)
    let service := Service.parsing dollarBrace
    (∃ after, (service.execute convertConcatenation.id).outcome editor = (.ok (), after) ∧
      after.code = "x = `a$\x7bb\x7d`;".toList) ∧
    ∀ expressions : Expressions, expressions.holds ['b'] → ∀ pieces,
      IsTemplate expressions (template dollarBrace.source (operands dollarBraceSite.node)) pieces ↔
        pieces = [.letter (.plain 'a'), .substitution ['b']] := by
  intro editor service
  have found : dollarBrace.innermost? (accepts editor.selection) = some dollarBraceSite := rfl
  have regular : dollarBrace.IsRegular := Tree.isRegular_of_isPlain (by decide)
  refine ⟨?_, ?_⟩
  · obtain ⟨inTree, accepted⟩ := Tree.mem_of_innermost? found
    obtain ⟨plan, planned, carried⟩ := @Refactoring.AimsAt.outcome_of_accepted _ _ _ _ _
      service.parse editor dollarBrace aimsAt (.ofText _) rfl rfl regular _ inTree accepted
    obtain rfl := Option.some.inj (planned.symm.trans (plan?_of_innermost found))
    have executed := @outcome_execute_builtIn service editor rfl convertConcatenation
      (by simp [builtIn]) rfl
    rw [carried] at executed
    refine ⟨_, executed, ?_⟩
    show Grid.text (.ofText (Plan.result _ editor.code)) = _
    rw [Grid.text_ofText, Plan.result_single, conversion, operands_dollarBraceSite]
    decide +kernel
  · intro expressions holds pieces
    rw [template_dollarBrace]
    have reads : Template.Reads expressions "a$\x7bb\x7d".toList
        [.letter (.plain 'a'), .substitution ['b']] :=
      .plain (by decide) (by decide) (by decide) (.substitution holds .nil)
    constructor
    · intro other
      exact (other.unique ⟨_, rfl, reads⟩ (rfl : _ ++ [] = _ ++ [])).2
    · rintro rfl
      exact ⟨_, rfl, reads⟩

end Concatenation
end Retouch
