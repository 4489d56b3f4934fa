import Retouch.Tree.Category
import Retouch.Tree.Traversal

/-!
# Visitors

A visitor is a table of handlers for node kinds and for categories.  A node is
handled by at most one entry: the first one for exactly its kind, and without one
the first one for a category of its kind.  A handler may be called when a node is
entered, when it is left, or both.

A visitor is used in two ways.  Running it over a tree calls the handlers along the
walk, so that a node is left after everything below it.  Dispatching it on a single
site makes both calls at once.
-/

set_option autoImplicit false

namespace Retouch

/-- The nodes that an entry is for. -/
inductive NodePattern where
  | kind (kind : String)
  | category (category : Category)
deriving DecidableEq

variable {m : Type → Type}

/-- What is done with a node: something when it is entered, or either or both of
two hooks. -/
inductive Handler (m : Type → Type) where
  | onEnter (act : Site → m Unit)
  | hooks (enter leave : Option (Site → m Unit))

namespace Handler

/-- What a handler does when a node is entered. -/
def entering? : Handler m → Option (Site → m Unit)
  | onEnter act => some act
  | hooks enter _ => enter

/-- What a handler does when a node is left. -/
def leaving? : Handler m → Option (Site → m Unit)
  | onEnter _ => none
  | hooks _ leave => leave

end Handler

/-- Handlers in the order in which they were declared. -/
structure Visitor (m : Type → Type) where
  entries : List (NodePattern × Handler m)

namespace Visitor

def isEmpty (visitor : Visitor m) : Bool := visitor.entries.isEmpty

/-- The handler of the first entry for a kind itself. -/
def ofKind? (visitor : Visitor m) (kind : String) : Option (Handler m) :=
  visitor.entries.findSome? fun (pattern, handler) =>
    match pattern with
    | .kind named => if named = kind then some handler else none
    | .category _ => none

/-- The handler of the first entry for a category of a kind. -/
def ofCategory? (visitor : Visitor m) (kind : String) : Option (Handler m) :=
  visitor.entries.findSome? fun (pattern, handler) =>
    match pattern with
    | .kind _ => none
    | .category category => if category.contains kind then some handler else none

/-- The handler of a kind. -/
def resolve? (visitor : Visitor m) (kind : String) : Option (Handler m) :=
  visitor.ofKind? kind <|> visitor.ofCategory? kind

/-- Calls a function on a site, if there is one. -/
def call [Monad m] (act : Option (Site → m Unit)) (site : Site) : m Unit :=
  match act with
  | some act => act site
  | none => pure ()

/-- Handles a site, entering and leaving it at once.  Tells whether there is a
handler for it. -/
def dispatch [Monad m] (visitor : Visitor m) (site : Site) : m Bool := do
  match visitor.resolve? site.kind with
  | some handler =>
    call handler.entering? site
    call handler.leaving? site
    return true
  | none => return false

/-- What a visitor does at an event of a walk. -/
def react [Monad m] (visitor : Visitor m) : Event → m Unit
  | .enter site => call (visitor.resolve? site.kind >>= Handler.entering?) site
  | .leave site => call (visitor.resolve? site.kind >>= Handler.leaving?) site

/-- Handles the named sites of a tree along a walk. -/
def run [Monad m] (visitor : Visitor m) (tree : Tree) : m Unit := tree.traverse visitor.react

end Visitor
end Retouch
