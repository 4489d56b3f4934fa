import Retouch.Proofs.Catalog.Agreement

/-!
# The chain that is converted

A chain of `+` is claimed when it stands around the selection and, as long as no types are
known, has a string among its operands (`Concatenation.isSome_claim?_of_ignorant`).  What
is converted is the innermost chain around the selection, whatever its operands are.  So
**the converted chain was claimed exactly when it has a string among its operands, and
otherwise it is converted for the sake of a chain before it**
(`Concatenation.converts_innermost_chain`).

This does happen.  In `a + 'b' + (1 + 2)`, with the selection on the numbers, the chain of
the string is claimed and the sum of the numbers is made a template literal
(`Concatenation.converts_unclaimed_chain`).
-/

set_option autoImplicit false

namespace Retouch
namespace Concatenation

open Claiming

/-- **Without types a chain is claimed when a string is among its operands.** -/
theorem isSome_claim?_of_ignorant {inquiry : Inquiry} (ignorant : inquiry.typeChecker = .ignorant)
    (earlier : List Site) (site : Site) :
    (convertConcatenation.claim? inquiry earlier site).isSome =
      (accepts inquiry.selection site && (operands site.node).any isString) := by
  rw [claim?_eq, visit, outcome_bind_of_ok outcome_selection]
  cases accepted : accepts inquiry.selection site with
  | false => split <;> rfl
  | true =>
    have kind := accepted
    simp only [accepts, isSum, Bool.and_eq_true] at kind
    rw [if_pos (NodePattern.covers_of_is kind.1.1.1), Bool.true_and, if_pos rfl]
    generalize operands site.node = all
    show (standing ((if all.any isString then _ else _ : Claiming Unit Unit).outcome _ _)).isSome = _
    cases strings : all.any isString with
    | true => rfl
    | false =>
      cases all with
      | nil => rfl
      | cons first rest =>
        have untyped := @outcome_typeAt Unit inquiry ((), none)
          (first.rangeIn site.source).start
        rw [ignorant] at untyped
        rw [if_neg (by decide), outcome_bind_of_ok untyped]
        rfl

/-- What is no sum is its only operand. -/
theorem operands_of_not_isSum {node : Node} (other : isSum node = false) :
    operands node = [node] := by
  rw [operands]
  split
  · rw [if_neg (by rw [other]; decide)]
  · rfl

/-- A sum has the operands of its left side, if they build a string, and its right side. -/
theorem operands_of_isSum {node left right : Node} (sum : isSum node = true)
    (inLeft : node.field? "left" = some left) (inRight : node.field? "right" = some right) :
    operands node =
      (if (operands left).any isString then operands left else [left]) ++ [right] := by
  rw [operands]
  split
  · rename_i first last inLeft' inRight'
    obtain rfl := Option.some.inj (inLeft.symm.trans inLeft')
    obtain rfl := Option.some.inj (inRight.symm.trans inRight')
    rw [if_pos sum]
  · rename_i incomplete
    exact absurd inRight (incomplete left right inLeft)

/-- Of two places in a list one that is neither at the other nor after it is before it. -/
theorem exists_between {before after earlier later : List Site} {site other : Site}
    (same : before ++ site :: after = earlier ++ other :: later) (distinct : site ≠ other)
    (notLater : site ∉ later) : ∃ between, earlier = before ++ site :: between := by
  rcases List.append_eq_append_iff.1 same with ⟨between, rfl, rest⟩ | ⟨between, rfl, rest⟩
  · cases between with
    | nil => exact absurd (List.cons.inj rest).1 distinct
    | cons first between =>
      obtain ⟨rfl, -⟩ := List.cons.inj rest
      exact ⟨between, rfl⟩
  · cases between with
    | nil => exact absurd (List.cons.inj rest).1.symm distinct
    | cons first between =>
      obtain ⟨-, rfl⟩ := List.cons.inj rest
      exact absurd (by simp) notLater

section Service

variable {service : Service Unit} {editor : Editor} {tree : Tree}

/-- Converting is offered exactly where a chain with a string stands around the
selection. -/
theorem offered_iff (registered : service.refactorings = builtIn)
    (ignorant : service.typeChecker = .ignorant)
    (enabled : service.settings.isEnabled convertConcatenation.id = true)
    (parsed : service.parse editor.code = .ok tree) :
    convertConcatenation.id ∈ (service.codeActionsFor editor).map Action.id ↔
      ∃ earlier site later, tree.sites = earlier ++ site :: later ∧
        accepts editor.selection site = true ∧ (operands site.node).any isString = true := by
  have claims (earlier : List Site) (site : Site) :=
    @isSome_claim?_of_ignorant (tree.inquiry editor.selection service.typeChecker) ignorant
      earlier site
  rw [Service.mem_ids_codeActionsFor parsed, registered]
  constructor
  · rintro ⟨refactoring, member, same, -, earlier, site, later, split, claimed⟩
    obtain rfl := List.inj_on_of_nodup_map nodup_ids_builtIn member
      (show convertConcatenation ∈ builtIn by simp [builtIn]) same
    rw [claims, Bool.and_eq_true] at claimed
    exact ⟨earlier, site, later, split, claimed⟩
  · rintro ⟨earlier, site, later, split, accepted, strings⟩
    refine ⟨convertConcatenation, by simp [builtIn], rfl, enabled, earlier, site, later, split, ?_⟩
    rw [claims, Bool.and_eq_true]
    exact ⟨accepted, strings⟩

/-- **The innermost chain is converted, and it was claimed if it has a string.** -/
theorem converts_innermost_chain (registered : service.refactorings = builtIn)
    (ignorant : service.typeChecker = .ignorant) (reachable : editor.grid.Reachable)
    (parsed : service.parse editor.code = .ok tree) (source : tree.source = editor.code)
    (regular : tree.IsRegular)
    (offered : convertConcatenation.id ∈ (service.codeActionsFor editor).map Action.id) :
    ∃ earlier chain later, tree.sites = earlier ++ chain :: later ∧
      accepts editor.selection chain = true ∧
      (∀ site ∈ later, accepts editor.selection site = false) ∧
      (service.execute convertConcatenation.id).outcome editor =
        (.ok (), { editor with
          grid := .ofText ((Plan.single (conversion tree.source chain)).result
            editor.code) }.placeCursor none) ∧
      ((convertConcatenation.claim? (tree.inquiry editor.selection service.typeChecker) earlier
        chain).isSome = true ↔ (operands chain.node).any isString = true) ∧
      ((operands chain.node).any isString = false → ∃ before claimed between,
        earlier = before ++ claimed :: between ∧
        accepts editor.selection claimed = true ∧ (operands claimed.node).any isString = true ∧
        (convertConcatenation.claim? (tree.inquiry editor.selection service.typeChecker) before
          claimed).isSome = true) := by
  obtain ⟨refactoring, -, -, enabled, -⟩ := (Service.mem_ids_codeActionsFor parsed).1 offered
  obtain ⟨before, claimed, after, parted, accepted', strings'⟩ :=
    (offered_iff registered ignorant enabled parsed).1 offered
  have inTree : claimed ∈ tree.sites := by rw [parted]; simp
  have claims (earlier : List Site) (site : Site) :=
    @isSome_claim?_of_ignorant (tree.inquiry editor.selection service.typeChecker) ignorant
      earlier site
  obtain ⟨chain, found⟩ := Tree.exists_innermost? inTree accepted'
  obtain ⟨accepted, earlier, later, split, refused⟩ := Tree.innermost?_eq_some_iff.1 found
  obtain ⟨plan, planned, carried⟩ :=
    aimsAt.outcome_of_accepted reachable parsed source regular inTree accepted'
  obtain rfl := Option.some.inj (planned.symm.trans (plan?_of_innermost found))
  have executed := @outcome_execute_builtIn service editor registered convertConcatenation
    (by simp [builtIn]) enabled
  rw [carried] at executed
  refine ⟨earlier, chain, later, split, accepted, refused, executed, ?_, ?_⟩
  · rw [claims, show accepts (tree.inquiry editor.selection service.typeChecker).selection chain =
      true from accepted, Bool.true_and]
  · intro stringless
    obtain ⟨between, rfl⟩ := exists_between (parted.symm.trans split)
      (by rintro rfl; rw [strings'] at stringless; cases stringless)
      (fun inside => by rw [refused claimed inside] at accepted'; cases accepted')
    refine ⟨before, claimed, between, rfl, accepted', strings', ?_⟩
    rw [claims, Bool.and_eq_true]
    exact ⟨accepted', strings'⟩

end Service

/-- The code `x = a + 'b' + (1 + 2);`, parsed. -/
def nestedSum : Tree where
  source := "x = a + 'b' + (1 + 2);".toList
  root :=
    .named "program" 0 22 [] [.named "expression_statement" 0 22 []
      [.named "assignment_expression" 0 21 []
        [.named "identifier" 0 1 ["left"] [], .mark "=" 2 3 [],
          .named "binary_expression" 4 21 ["right"]
            [.named "binary_expression" 4 11 ["left"]
              [.named "identifier" 4 5 ["left"] [], .mark "+" 6 7 ["operator"],
                .named "string" 8 11 ["right"]
                  [.mark "'" 8 9 [], .named "string_fragment" 9 10 [] [], .mark "'" 10 11 []]],
              .mark "+" 12 13 ["operator"],
              .named "parenthesized_expression" 14 21 ["right"]
                [.mark "(" 14 15 [],
                  .named "binary_expression" 15 20 []
                    [.named "number" 15 16 ["left"] [], .mark "+" 17 18 ["operator"],
                      .named "number" 19 20 ["right"] []],
                  .mark ")" 20 21 []]]],
        .mark ";" 21 22 []]]

/-- The whole sum. -/
def sumSite : Site :=
  let statement := nestedSum.rootSite.child nestedSum.root.children[0]! 0
  let assignment := statement.child statement.node.children[0]! 0
  assignment.child assignment.node.children[2]! 2

/-- The sum of numbers within it. -/
def numbersSite : Site :=
  let parentheses := sumSite.child sumSite.node.children[2]! 2
  parentheses.child parentheses.node.children[1]! 1

theorem any_isString_operands_sumSite : (operands sumSite.node).any isString = true := by
  let left := sumSite.node.children[0]!
  have strings : (operands left).any isString = true := by
    rw [@operands_of_isSum left left.children[0]! left.children[2]! rfl rfl rfl,
      List.any_append, Bool.or_eq_true]
    exact .inr rfl
  rw [@operands_of_isSum sumSite.node left sumSite.node.children[2]! rfl rfl rfl, if_pos strings,
    List.any_append, strings]
  rfl

theorem operands_numbersSite :
    operands numbersSite.node = [numbersSite.node.children[0]!, numbersSite.node.children[2]!] := by
  rw [@operands_of_isSum numbersSite.node numbersSite.node.children[0]!
    numbersSite.node.children[2]! rfl rfl rfl, operands_of_not_isSum rfl]
  rfl

/-- With the selection on either sum the conversion is offered for the whole sum. -/
theorem offered_nestedSum {selection : Selection} (accepted : accepts selection sumSite = true) :
    convertConcatenation.id ∈ ((Service.parsing nestedSum).codeActionsFor
      (Editor.ofCode nestedSum.source selection)).map Action.id := by
  have found : nestedSum.innermost? (accepts (.cursorAt ⟨0, 5⟩)) = some sumSite := rfl
  obtain ⟨earlier, later, split⟩ := List.append_of_mem (Tree.mem_of_innermost? found).1
  have parsed : (Service.parsing nestedSum).parse (Editor.ofCode nestedSum.source selection).code =
    .ok nestedSum := rfl
  exact (offered_iff rfl rfl rfl parsed).2
    ⟨earlier, sumSite, later, split, accepted, any_isString_operands_sumSite⟩

theorem isRegular_nestedSum : nestedSum.IsRegular := Tree.isRegular_of_isPlain (by decide)

theorem converts_innermost_chain_nested :
    let editor := Editor.ofCode nestedSum.source (.cursorAt ⟨0, 5⟩)
    let service := Service.parsing nestedSum
    service.refactorings = builtIn ∧ service.typeChecker = .ignorant ∧
      editor.grid.Reachable ∧ service.parse editor.code = .ok nestedSum ∧
      nestedSum.source = editor.code ∧ nestedSum.IsRegular ∧
      convertConcatenation.id ∈ (service.codeActionsFor editor).map Action.id ∧
      (operands sumSite.node).any isString = true ∧
      ∃ earlier later, nestedSum.sites = earlier ++ sumSite :: later ∧
        (service.execute convertConcatenation.id).outcome editor =
          (.ok (), { editor with
            grid := .ofText ((Plan.single (conversion nestedSum.source sumSite)).result
              editor.code) }.placeCursor none) ∧
        (convertConcatenation.claim? (nestedSum.inquiry editor.selection .ignorant) earlier
          sumSite).isSome = true := by
  intro editor service
  have reachable : editor.grid.Reachable := .ofText _
  have parsed : service.parse editor.code = .ok nestedSum := rfl
  have offered := @offered_nestedSum (.cursorAt ⟨0, 5⟩) (by decide)
  have strings := any_isString_operands_sumSite
  obtain ⟨earlier, chain, later, split, accepted, refused, executed, claimed, -⟩ :=
    @converts_innermost_chain service editor nestedSum rfl rfl reachable parsed rfl
      isRegular_nestedSum offered
  have found : nestedSum.innermost? (accepts editor.selection) = some sumSite := rfl
  obtain rfl : sumSite = chain := Option.some.inj
    (found.symm.trans (Tree.innermost?_eq_some_iff.2 ⟨accepted, earlier, later, split, refused⟩))
  exact ⟨rfl, rfl, reachable, parsed, rfl, isRegular_nestedSum, offered, strings, earlier, later,
    split, executed, claimed.2 strings⟩

/-- **With the selection on the numbers their sum is converted**, although it has no string
and was not claimed. -/
theorem converts_unclaimed_chain :
    let editor := Editor.ofCode nestedSum.source (.cursorAt ⟨0, 19⟩)
    let service := Service.parsing nestedSum
    convertConcatenation.id ∈ (service.codeActionsFor editor).map Action.id ∧
      nestedSum.innermost? (accepts editor.selection) = some numbersSite ∧
      (operands numbersSite.node).any isString = false ∧
      (∀ earlier, convertConcatenation.claim? (nestedSum.inquiry editor.selection .ignorant) earlier
        numbersSite = none) ∧
      ∃ after, (service.execute convertConcatenation.id).outcome editor = (.ok (), after) ∧
        after.code = "x = a + 'b' + (`$\x7b1\x7d$\x7b2\x7d`);".toList := by
  intro editor service
  have found : nestedSum.innermost? (accepts editor.selection) = some numbersSite := rfl
  have stringless : (operands numbersSite.node).any isString = false := by
    rw [operands_numbersSite]
    rfl
  refine ⟨offered_nestedSum (by decide), found, stringless, ?_, ?_⟩
  · intro earlier
    have claims := @isSome_claim?_of_ignorant (nestedSum.inquiry editor.selection .ignorant) rfl
      earlier numbersSite
    rwa [stringless, Bool.and_false, Option.isSome_eq_false_iff, Option.isNone_iff_eq_none] at claims
  · obtain ⟨inTree, accepted⟩ := Tree.mem_of_innermost? found
    obtain ⟨plan, planned, carried⟩ := @Refactoring.AimsAt.outcome_of_accepted _ _ _ _ _
      service.parse editor nestedSum aimsAt (.ofText _) rfl rfl isRegular_nestedSum _ inTree accepted
    obtain rfl := Option.some.inj (planned.symm.trans (plan?_of_innermost found))
    have executed := @outcome_execute_builtIn service editor rfl convertConcatenation
      (by simp [builtIn]) rfl
    rw [carried] at executed
    refine ⟨_, executed, ?_⟩
    show Grid.text (.ofText (Plan.result _ editor.code)) = _
    rw [Grid.text_ofText, Plan.result_single, conversion, operands_numbersSite]
    decide

end Concatenation
end Retouch
