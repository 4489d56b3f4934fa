import Retouch.Text.Lines

/-!
# Text of template literals

A quoted string becomes the content of a template literal: its own quote need no
longer be escaped, but a backtick and the beginning of a substitution must be.
-/

set_option autoImplicit false

namespace Retouch
namespace TemplateText

/-- The character around a template literal. -/
def backtick : Char := '\x60'

/-- The character that with a dollar sign in front begins a substitution. -/
def openingBrace : Char := '\x7b'

def closingBrace : Char := '\x7d'

/-- The body of a literal without a mark before and after it, or the whole literal
if it does not have both. -/
def between (mark : Char) (literal : Text) : Text :=
  match literal with
  | [] => []
  | first :: body =>
    if first = mark && body.getLast? = some mark then body.dropLast else literal

/-- Escapes the body of a string for a template literal. -/
def escape (quote : Char) : Text → Text
  | [] => []
  | first :: rest =>
    if first = '\\' then
      match rest with
      | [] => ['\\']
      | next :: rest =>
        if next = quote then next :: escape quote rest else '\\' :: next :: escape quote rest
    else if first = backtick then '\\' :: backtick :: escape quote rest
    else if first = '$' && rest.head? = some openingBrace then '\\' :: '$' :: escape quote rest
    else first :: escape quote rest

/-- The content of a template literal with the value of a quoted string. -/
def ofLiteral (literal : Text) : Text :=
  match literal with
  | [] => []
  | quote :: _ => escape quote (between quote literal)

/-- Content between backticks. -/
def quoted (content : Text) : Text := backtick :: content ++ [backtick]

/-- The value of an expression put into a content. -/
def substitution (expression : Text) : Text :=
  '$' :: openingBrace :: expression ++ [closingBrace]

end TemplateText
end Retouch
