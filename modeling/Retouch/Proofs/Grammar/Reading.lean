import Retouch.Proofs.Grammar.Phrase

/-!
# Reading an expression

Tokens are read from left to right.  The token that an expression begins with says what
it is (`Opening`); after an expression the next token says what it becomes a part of
(`Joint`), if that binds tightly enough.  A reading never has a choice
(`Reads.unique`).
-/

set_option autoImplicit false

namespace Retouch

/-! ## What a token begins -/

/-- What an expression begins as. -/
inductive Opening where
  | parentheses
  | prefixed (production : Production)
  | atom (text : Text)
deriving DecidableEq

def Opening.level : Opening → Nat
  | parentheses => 18
  | prefixed _ => 15
  | atom _ => 18

/-- The tokens with which an expression begins that is no atom. -/
def openings : List (Text × Opening) :=
  ("(".toList, .parentheses) :: ("await".toList, .prefixed .await) ::
    unaryOperators.map fun operator => (operator.toList, .prefixed (.unary operator))

def opening? (token : Text) : Option Opening :=
  match openings.lookup token with
  | some opening => some opening
  | none =>
    if token.kind = .mark ∨ token ∈ Phrase.keywords then none else some (.atom token)

/-! ## What a token continues -/

/-- What an expression becomes a part of. -/
inductive Joint where
  | operator (production : Production) (fixity : Fixity)
  | conditional
  | comma
  | call
  | member
  | subscript
deriving DecidableEq

namespace Joint

def level : Joint → Nat
  | operator _ fixity => fixity.level
  | conditional => 2
  | comma => 0
  | _ => 17

/-- The place of the expression that is continued. -/
def left : Joint → Slot
  | operator _ fixity => fixity.left
  | conditional => .least 3
  | comma => .least 1
  | _ => .least 17

end Joint

/-- The tokens with which an expression continues. -/
def joints : List (Text × Joint) :=
  (binaryOperators.map fun (operator, fixity) =>
      (operator.toList, .operator (.binary operator) fixity)) ++
    (assignmentOperators.map fun operator =>
      (operator.toList, .operator (.assignment operator) ⟨1, .least 17, 1⟩)) ++
    [("?".toList, .conditional), (",".toList, .comma), ("(".toList, .call), (".".toList, .member),
      ("[".toList, .subscript)]

def joint? (token : Text) : Option Joint := joints.lookup token

theorem mem_joints {token : Text} {joint : Joint} (joins : joint? token = some joint) :
    (token, joint) ∈ joints := by
  obtain ⟨before, after, entries, -⟩ := List.lookup_eq_some_iff.1 joins
  rw [entries]
  exact List.mem_append_right _ (.head _)

/-- Whether an expression that binds as tightly as a bound ends before the tokens. -/
def Stops (bound : Nat) (tokens : List Text) : Prop :=
  ∀ token ∈ tokens.head?, ∀ joint ∈ joint? token, joint.level < bound

/-! ## Readings -/

/-- How far a reading has come, with the tokens that are left. -/
inductive Stage where
  /-- An expression is to be read that binds at least as tightly as a bound. -/
  | operand (bound : Nat) (tokens : List Text)
  | opened (opening : Opening) (tokens : List Text)
  /-- An expression of a level has been read and may be continued. -/
  | read (bound : Nat) (expression : Expression) (level : Nat) (tokens : List Text)
  | joined (joint : Joint) (expression : Expression) (tokens : List Text)
  /-- Expressions with commas between them are to be read. -/
  | list (tokens : List Text)

/-- **What is read from a stage**, and the tokens after it. -/
inductive Reads : Stage → List Expression → List Text → Prop where
  | operand {bound : Nat} {token : Text} {tokens rest rest' : List Text} {opening : Opening}
      {expression : Expression} {expressions : List Expression}
      (opens : opening? token = some opening)
      (opened : Reads (.opened opening tokens) [expression] rest)
      (more : Reads (.read bound expression opening.level rest) expressions rest') :
      Reads (.operand bound (token :: tokens)) expressions rest'
  | atom {text : Text} {tokens : List Text} :
      Reads (.opened (.atom text) tokens) [.atom text] tokens
  | prefixed {production : Production} {operand : Expression} {tokens rest : List Text}
      (reads : Reads (.operand 15 tokens) [operand] rest) :
      Reads (.opened (.prefixed production) tokens) [.apply production [operand]] rest
  | parentheses {inner : Expression} {tokens rest : List Text}
      (reads : Reads (.operand 0 tokens) [inner] (")".toList :: rest)) :
      Reads (.opened .parentheses tokens) [.apply .parentheses [inner]] rest
  | stop {bound level : Nat} {expression : Expression} {tokens : List Text}
      (stops : Stops bound tokens) :
      Reads (.read bound expression level tokens) [expression] tokens
  | extend {bound level : Nat} {token : Text} {tokens rest rest' : List Text} {joint : Joint}
      {expression longer : Expression} {expressions : List Expression}
      (joins : joint? token = some joint) (tight : bound ≤ joint.level)
      (accepted : joint.left.accepts (.expression level) = true)
      (joined : Reads (.joined joint expression tokens) [longer] rest)
      (more : Reads (.read bound longer joint.level rest) expressions rest') :
      Reads (.read bound expression level (token :: tokens)) expressions rest'
  | operator {production : Production} {fixity : Fixity} {left right : Expression}
      {tokens rest : List Text} (reads : Reads (.operand fixity.right tokens) [right] rest) :
      Reads (.joined (.operator production fixity) left tokens)
        [.apply production [left, right]] rest
  | conditional {condition consequence alternative : Expression} {tokens between rest : List Text}
      (first : Reads (.operand 1 tokens) [consequence] (":".toList :: between))
      (second : Reads (.operand 1 between) [alternative] rest) :
      Reads (.joined .conditional condition tokens)
        [.apply .conditional [condition, consequence, alternative]] rest
  | comma {first : Expression} {others : List Expression} {tokens rest : List Text}
      (reads : Reads (.list tokens) others rest) :
      Reads (.joined .comma first tokens)
        [.apply (.sequence (others.length + 1)) (first :: others)] rest
  | empty {function : Expression} {rest : List Text} :
      Reads (.joined .call function (")".toList :: rest))
        [.apply .call [function, .apply (.arguments 0) []]] rest
  | call {function : Expression} {arguments : List Expression} {tokens rest : List Text}
      (reads : Reads (.list tokens) arguments (")".toList :: rest)) :
      Reads (.joined .call function tokens)
        [.apply .call [function, .apply (.arguments arguments.length) arguments]] rest
  | member {object : Expression} {name : Text} {rest : List Text} :
      Reads (.joined .member object (name :: rest)) [.apply (.member name) [object]] rest
  | subscript {object index : Expression} {tokens rest : List Text}
      (reads : Reads (.operand 0 tokens) [index] ("]".toList :: rest)) :
      Reads (.joined .subscript object tokens) [.apply .subscript [object, index]] rest
  | single {expression : Expression} {tokens rest : List Text}
      (reads : Reads (.operand 1 tokens) [expression] rest)
      (last : rest.head? ≠ some ",".toList) : Reads (.list tokens) [expression] rest
  | several {first : Expression} {others : List Expression} {tokens between rest : List Text}
      (reads : Reads (.operand 1 tokens) [first] (",".toList :: between))
      (more : Reads (.list between) others rest) : Reads (.list tokens) (first :: others) rest

namespace Reads

/-- No expression begins with a closing parenthesis. -/
theorem not_list_closing {expressions : List Expression} {tokens rest : List Text}
    (reads : Reads (.list (")".toList :: tokens)) expressions rest) : False := by
  have closed : opening? ")".toList = none := by decide
  have none {bound : Nat} {expressions : List Expression} {rest : List Text}
      (reads : Reads (.operand bound (")".toList :: tokens)) expressions rest) : False := by
    cases reads with
    | operand opens =>
      rw [closed] at opens
      cases opens
  cases reads with
  | single reads => exact none reads
  | several reads => exact none reads

/-- **A reading has one result.** -/
theorem unique {stage : Stage} {expressions expressions' : List Expression}
    {rest rest' : List Text} (reads : Reads stage expressions rest)
    (reads' : Reads stage expressions' rest') : expressions = expressions' ∧ rest = rest' := by
  -- Two rules of one stage are told apart by a token: `stop` and `extend`, `empty` and `call`,
  -- `single` and `several`.
  induction reads generalizing expressions' rest' with
  | operand opens _ _ ihOpened ihMore =>
    cases reads' with
    | operand opens' opened' more' =>
      obtain rfl := Option.some.inj (opens.symm.trans opens')
      obtain ⟨same, rfl⟩ := ihOpened opened'
      obtain rfl := List.singleton_inj.1 same
      exact ihMore more'
  | atom =>
    cases reads' with
    | atom => exact ⟨rfl, rfl⟩
  | prefixed _ ih =>
    cases reads' with
    | prefixed reads' =>
      obtain ⟨same, rfl⟩ := ih reads'
      obtain rfl := List.singleton_inj.1 same
      exact ⟨rfl, rfl⟩
  | parentheses _ ih =>
    cases reads' with
    | parentheses reads' =>
      obtain ⟨same, rest⟩ := ih reads'
      obtain rfl := List.singleton_inj.1 same
      exact ⟨rfl, (List.cons.inj rest).2⟩
  | stop stops =>
    cases reads' with
    | stop => exact ⟨rfl, rfl⟩
    | extend joins tight => exact absurd (stops _ rfl _ joins) (Nat.not_lt_of_le tight)
  | extend joins tight _ _ _ ihJoined ihMore =>
    cases reads' with
    | stop stops => exact absurd (stops _ rfl _ joins) (Nat.not_lt_of_le tight)
    | extend joins' _ _ joined' more' =>
      obtain rfl := Option.some.inj (joins.symm.trans joins')
      obtain ⟨same, rfl⟩ := ihJoined joined'
      obtain rfl := List.singleton_inj.1 same
      exact ihMore more'
  | operator _ ih =>
    cases reads' with
    | operator reads' =>
      obtain ⟨same, rfl⟩ := ih reads'
      obtain rfl := List.singleton_inj.1 same
      exact ⟨rfl, rfl⟩
  | conditional _ _ ihFirst ihSecond =>
    cases reads' with
    | conditional first' second' =>
      obtain ⟨same, between⟩ := ihFirst first'
      obtain rfl := List.singleton_inj.1 same
      obtain rfl := (List.cons.inj between).2
      obtain ⟨same, rfl⟩ := ihSecond second'
      obtain rfl := List.singleton_inj.1 same
      exact ⟨rfl, rfl⟩
  | comma _ ih =>
    cases reads' with
    | comma reads' =>
      obtain ⟨rfl, rfl⟩ := ih reads'
      exact ⟨rfl, rfl⟩
  | empty =>
    cases reads' with
    | empty => exact ⟨rfl, rfl⟩
    | call reads' => exact reads'.not_list_closing.elim
  | call reads ih =>
    cases reads' with
    | empty => exact reads.not_list_closing.elim
    | call reads' =>
      obtain ⟨rfl, rest⟩ := ih reads'
      exact ⟨rfl, (List.cons.inj rest).2⟩
  | member =>
    cases reads' with
    | member => exact ⟨rfl, rfl⟩
  | subscript _ ih =>
    cases reads' with
    | subscript reads' =>
      obtain ⟨same, rest⟩ := ih reads'
      obtain rfl := List.singleton_inj.1 same
      exact ⟨rfl, (List.cons.inj rest).2⟩
  | single _ last ih =>
    cases reads' with
    | single reads' => exact ih reads'
    | several reads' =>
      obtain ⟨-, rfl⟩ := ih reads'
      exact absurd rfl last
  | several _ _ ih ihMore =>
    cases reads' with
    | single reads' last' =>
      obtain ⟨-, rfl⟩ := ih reads'
      exact absurd rfl last'
    | several reads' more' =>
      obtain ⟨same, between⟩ := ih reads'
      obtain rfl := List.singleton_inj.1 same
      obtain rfl := (List.cons.inj between).2
      obtain ⟨rfl, rfl⟩ := ihMore more'
      exact ⟨rfl, rfl⟩

end Reads
end Retouch
