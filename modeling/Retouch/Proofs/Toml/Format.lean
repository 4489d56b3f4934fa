import Retouch.Toml.Library

/-!
# The format of documents

TOML as a relation between what is written and what it means, as far as tables of strings and
arrays of strings go.  A string stands between marks, on a line or as a block, and is written
piece by piece (`IsPiece`).  In a block up to two marks may stand for themselves before every
piece, and at the end, where they stand next to the marks that end the block (`BlockBody`).
Between the elements of an array there may be blanks, and behind the last one a comma
(`IsElements`).  A document is a list of lines that give bare keys their values (`Line`).

The format leaves open in which notation a string is written, and where an array breaks lines.
Of a library it is assumed that it writes plainly, which settles both (`Library.WritesPlainly`),
and that it reads the format (`Library.ReadsFormat`).
-/

set_option autoImplicit false

namespace Retouch
namespace Toml

/-! ## Strings -/

/-- What stands behind a backslash for a character: a letter that is agreed on, or the four
hexadecimal digits of its code point. -/
inductive IsEscape : Text → Char → Prop
  | letter {letter character : Char} (agreed : shortEscape? letter = some character) :
      IsEscape [letter] character
  | digits {digits : Text} {values : List Nat} {character : Char} (four : digits.length = 4)
      (valued : digits.map hexValue? = values.map some)
      (point : values.foldl (fun number value => number * 16 + value) 0 = character.toNat) :
      IsEscape ('u' :: digits) character

/-- How a character is written in a string: as itself or, between quotation marks, behind a
backslash.  Neither the mark nor a control character other than the tab stands for itself; a
newline does in a block, and a backslash between apostrophes. -/
inductive IsPiece (mark : Char) (isBlock : Bool) : Text → Char → Prop
  | shown {character : Char} (other : character ≠ mark)
      (plain : mark = quotationMark → character ≠ '\\')
      (shown : isControl character = true → isBlock = true ∧ character = '\n') :
      IsPiece mark isBlock [character] character
  | escaped {code : Text} {character : Char} (escapes : mark = quotationMark)
      (escape : IsEscape code character) : IsPiece mark isBlock ('\\' :: code) character

/-- What stands between the marks of a string on a line. -/
inductive LineBody (mark : Char) : Text → Text → Prop
  | nil : LineBody mark [] []
  | cons {code body text : Text} {character : Char} (piece : IsPiece mark false code character)
      (later : LineBody mark body text) : LineBody mark (code ++ body) (character :: text)

/-- What stands between the marks of a block. -/
inductive BlockBody (mark : Char) : Text → Text → Prop
  | last {count : Nat} (few : count ≤ 2) :
      BlockBody mark (List.replicate count mark) (List.replicate count mark)
  | piece {count : Nat} {code body text : Text} {character : Char} (few : count ≤ 2)
      (piece : IsPiece mark true code character) (later : BlockBody mark body text) :
      BlockBody mark (List.replicate count mark ++ (code ++ body))
        (List.replicate count mark ++ character :: text)

/-- The four notations of a string.  A newline right behind the marks that open a block does not
belong to the string. -/
inductive IsString : Text → Text → Prop
  | line {mark : Char} {body text : Text} (marked : mark = quotationMark ∨ mark = apostrophe)
      (within : LineBody mark body text) : IsString (mark :: (body ++ [mark])) text
  | block {mark : Char} {opening body text : Text}
      (marked : mark = quotationMark ∨ mark = apostrophe)
      (opened : opening = ['\n'] ∨ opening = [] ∧ body.head? ≠ some '\n')
      (within : BlockBody mark body text) :
      IsString (List.replicate 3 mark ++ (opening ++ (body ++ List.replicate 3 mark))) text

/-! ## Values and documents -/

/-- Spaces and line ends between the elements of an array. -/
def IsGap (gap : Text) : Prop :=
  ∀ character ∈ gap, isSpace character = true ∨ character = '\n'

instance (gap : Text) : Decidable (IsGap gap) := List.decidableBAll _ gap

/-- What stands behind the opening bracket of an array of strings. -/
inductive IsElements : Text → List String → Prop
  | nil {gap : Text} (blank : IsGap gap) : IsElements (gap ++ [']']) []
  | last {gap written gap' : Text} {value : String} (blank : IsGap gap)
      (string : IsString written value.toList) (blank' : IsGap gap') :
      IsElements (gap ++ (written ++ (gap' ++ [']']))) [value]
  | next {gap written gap' others : Text} {value : String} {values : List String}
      (blank : IsGap gap) (string : IsString written value.toList) (blank' : IsGap gap')
      (later : IsElements others values) :
      IsElements (gap ++ (written ++ (gap' ++ ',' :: others))) (value :: values)

/-- A string or an array of strings. -/
inductive IsValue : Text → Value → Prop
  | text {written : Text} {value : String} (string : IsString written value.toList) :
      IsValue written (.text value)
  | array {written : Text} {values : List String} (elements : IsElements written values) :
      IsValue ('[' :: written) (.array (values.map .text))

/-- A line that gives a key its value.  The key needs no marks. -/
structure Line where
  key : String
  written : Text
  value : Value
  bare : isBareKey key = true
  isValue : IsValue written value

namespace Line

/-- The text of a line. -/
def text (line : Line) : Text := writeLine line.key line.written

def entry (line : Line) : String × Value := (line.key, line.value)

end Line

/-! ## What is assumed of a library -/

/-- **A library writes plainly** if it writes tables of strings and arrays of strings line by
line, with the notation of each string chosen by its characters. -/
def Library.WritesPlainly (library : Library) : Prop :=
  ∀ entries document, (entries.map Prod.fst).Nodup → write? (.table entries) = some document →
    library.write (.table entries) = some document

/-- **A library reads the format** if it reads a document of lines with different keys as the
table of their values, whatever the order of its entries. -/
def Library.ReadsFormat (library : Library) : Prop :=
  ∀ lines : List Line, (lines.map Line.key).Nodup →
    ∃ found, library.read (lines.flatMap Line.text) = some (.table found) ∧
      ∀ key, Value.find? found key = Value.find? (lines.map Line.entry) key

end Toml
end Retouch
