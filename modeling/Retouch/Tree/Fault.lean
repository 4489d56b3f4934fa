import Retouch.Tree.Traversal

/-!
# Faults of a tree

A parser that meets faulty code still makes a tree, in which it marks what it could
not read and what it had to supply.  The faults are listed by a walk in document
order, which does not go down where a node is known to hold none.  Only a tree
without faults is accepted for editing, and a refused one is reported by its first
fault.
-/

set_option autoImplicit false

namespace Retouch

/-- A faulty place of a text: what is wrong, between which bytes, and where. -/
structure Fault where
  message : String
  start : Nat
  stop : Nat
  position : Position
deriving DecidableEq

/-- Why there is no tree of a text: no grammar of its language is at hand, the grammar does not
suit the library that parses by it, parsing was cut short, or the text is faulty. -/
inductive ParseError where
  | unavailable (language : String)
  | incompatible (details : String)
  | aborted
  | faulty (message : String) (position : Position)
deriving DecidableEq

/-- What is said of a refusal; of a faulty text, what is wrong and where. -/
def ParseError.text : ParseError → String
  | unavailable language => "Language not available: " ++ language
  | incompatible details => "Parser rejected language: " ++ details
  | aborted => "Parsing was aborted"
  | faulty message position => message ++ " at " ++ position.text

/-- Whether a label marks what a parser could not read or had to supply. -/
def Label.isFaulty (label : Label) : Bool := label.isError || label.isMissing

namespace Fault

def unreadable : String := "Syntax error"

/-- The fault that a faulty label marks. -/
def ofLabel (source : Text) (label : Label) : Fault where
  message := if label.isMissing then "Missing " ++ label.kind else unreadable
  start := label.start
  stop := label.stop
  position := Node.place source label.start

end Fault

/-- The fault of a site itself, if it is faulty. -/
def Site.fault? (site : Site) : Option Fault :=
  if site.node.label.isFaulty then some (.ofLabel site.source site.node.label) else none

namespace Tree

mutual

/-- Goes on with a search for faults that comes to a site.  It goes down to the first child
only if there may be faults below the site. -/
def faultsFrom (site : Site) : List Fault :=
  site.fault?.toList ++
    if site.node.label.hasError then
      match _ : site.firstChild? with
      | some child => faultsFrom child
      | none => faultsAfter site
    else faultsAfter site
termination_by (site.nodesFrom, 0)
decreasing_by
  · exact Prod.Lex.left _ _ (Site.nodesFrom_firstChild ‹_›)
  · exact Prod.Lex.left _ _ site.nodesAfter_lt
  · exact Prod.Lex.left _ _ site.nodesAfter_lt

/-- Goes on with a search that is done with a site and everything below it: to its next
sibling, or further up. -/
def faultsAfter (site : Site) : List Fault :=
  match _ : site.nextSibling? with
  | some sibling => faultsFrom sibling
  | none =>
    match _ : site.parent? with
    | some parent => faultsAfter parent
    | none => []
termination_by (Site.nodesAfter site.above, site.above.length + 1)
decreasing_by
  · rw [Site.nodesFrom_nextSibling ‹_›]
    exact Prod.Lex.right _ (Nat.succ_pos _)
  · exact Site.lex_parent ‹_›

end

/-- The faults of a tree. -/
def faults (tree : Tree) : List Fault := faultsFrom tree.rootSite

/-- Accepts a tree without faults. -/
def accepted (tree : Tree) : Except ParseError Tree :=
  if tree.root.label.hasError then
    match tree.faults with
    | first :: _ => .error (.faulty first.message first.position)
    | [] => .error (.faulty Fault.unreadable .zero)
  else .ok tree

theorem accepted_eq_ok_iff {tree result : Tree} :
    tree.accepted = .ok result ↔ result = tree ∧ tree.root.label.hasError = false := by
  unfold accepted
  cases tree.root.label.hasError with
  | false => simp [eq_comm]
  | true => cases tree.faults <;> simp

/-- A tree is refused for its faults only. -/
theorem exists_faulty_of_accepted {tree : Tree} {error : ParseError}
    (refused : tree.accepted = .error error) :
    ∃ message position, error = .faulty message position := by
  unfold accepted at refused
  split at refused
  · split at refused <;> cases refused <;> exact ⟨_, _, rfl⟩
  · cases refused

end Tree
end Retouch
