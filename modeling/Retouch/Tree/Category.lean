/-!
# Categories of nodes

Categories gather node kinds of the JavaScript and TypeScript grammars under a
common name, so that one can speak of any function or of any loop.  A kind may
belong to several categories.
-/

set_option autoImplicit false

namespace Retouch

/-- A group of node kinds. -/
inductive Category where
  | function
  | statement
  | expression
  | loop
  | conditional
  | literal
  | declaration
  | block
deriving DecidableEq

namespace Category

def all : List Category :=
  [function, statement, expression, loop, conditional, literal, declaration, block]

def name : Category → String
  | function => "Function"
  | statement => "Statement"
  | expression => "Expression"
  | loop => "Loop"
  | conditional => "Conditional"
  | literal => "Literal"
  | declaration => "Declaration"
  | block => "Block"

def ofName? (name : String) : Option Category := all.find? (·.name == name)

/-- The kinds of a category. -/
def members : Category → List String
  | function =>
    ["arrow_function", "function_declaration", "function_expression", "function",
      "generator_function", "generator_function_declaration", "method_definition"]
  | statement =>
    ["expression_statement", "if_statement", "for_statement", "for_in_statement",
      "while_statement", "do_statement", "return_statement", "break_statement",
      "continue_statement", "throw_statement", "try_statement", "switch_statement",
      "labeled_statement", "empty_statement", "debugger_statement", "statement_block",
      "lexical_declaration", "variable_declaration", "function_declaration",
      "generator_function_declaration", "class_declaration", "import_statement",
      "export_statement"]
  | expression =>
    ["identifier", "this", "super", "binary_expression", "unary_expression",
      "update_expression", "assignment_expression", "augmented_assignment_expression",
      "ternary_expression", "parenthesized_expression", "call_expression", "new_expression",
      "member_expression", "subscript_expression", "await_expression", "yield_expression",
      "sequence_expression", "arrow_function", "function_expression", "function",
      "generator_function", "class", "object", "array", "string", "template_string", "number",
      "regex", "true", "false", "null", "undefined", "as_expression", "non_null_expression",
      "satisfies_expression"]
  | loop => ["for_statement", "for_in_statement", "while_statement", "do_statement"]
  | conditional => ["if_statement", "ternary_expression", "switch_statement"]
  | literal =>
    ["string", "template_string", "number", "regex", "true", "false", "null", "undefined"]
  | declaration =>
    ["function_declaration", "generator_function_declaration", "class_declaration",
      "lexical_declaration", "variable_declaration", "interface_declaration",
      "type_alias_declaration", "enum_declaration"]
  | block => ["statement_block", "class_body", "switch_body", "program"]

/-- Whether a kind belongs to a category. -/
def contains (category : Category) (kind : String) : Bool := category.members.contains kind

/-- The categories of a kind. -/
def ofKind (kind : String) : List Category := all.filter (·.contains kind)

end Category
end Retouch
