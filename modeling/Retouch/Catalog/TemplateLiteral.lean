import Retouch.Catalog.TemplateText
import Retouch.Refactoring.Basic

/-!
# Strings as template literals

A quoted string becomes a template literal with the same value, except where the
grammar wants a plain string: in imports and exports, as the value of an attribute,
and as the name of a property.
-/

set_option autoImplicit false

namespace Retouch
namespace TemplateLiteral

/-- Whether a site is the child that its parent has under a field name. -/
def isFieldOf (site parent : Site) (name : String) : Bool :=
  (parent.field? name).any (·.isSameAs site)

/-- Whether only a plain string may stand at a site. -/
def mustStayPlain (site : Site) : Bool :=
  match site.parent? with
  | none => false
  | some parent =>
    if ["import_statement", "export_statement", "jsx_attribute",
        "import_require_clause"].contains parent.kind then true
    else if parent.is "pair" then isFieldOf site parent "key"
    else if parent.is "public_field_definition" || parent.is "method_definition" then
      isFieldOf site parent "name"
    else false

def accepts (selection : Selection) (site : Site) : Bool :=
  site.is "string" && selection.isInside site.range && !mustStayPlain site

def plan? (tree : Tree) (selection : Selection) : Option Plan := do
  let string ← tree.innermost? (accepts selection)
  return {
    scope := string.range
    edits := fun literal =>
      [⟨TemplateText.quoted (TemplateText.ofLiteral literal), string.range⟩] }

end TemplateLiteral

def convertToTemplateLiteral : Refactoring Unit where
  id := "convert-to-template-literal"
  title := "Convert to template literal"
  kind := .reshape
  isPreferred := false
  memory := ()
  visitor := ⟨[(.kind "string", .onEnter (Claiming.claimIf TemplateLiteral.accepts))]⟩
  execute := Plan.execution .noString TemplateLiteral.plan?

end Retouch
