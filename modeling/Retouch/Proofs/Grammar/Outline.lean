import Retouch.Proofs.Grammar.Production

/-!
# Places in an outline

An expression begins and ends with a token of few kinds or with an operand
(`exists_opening`, `exists_closing`).  A place that takes what binds no more tightly than
`&&` lies between dividers, such as brackets, commas and connectives, or at an end of what
itself binds no more tightly (`Production.isDivided_of_mustDivide`).
-/

set_option autoImplicit false

namespace Retouch

/-! ## Gaps between items -/

theorem intersperse_cons (first : Item) (rest : List Item) :
    (first :: rest).intersperse .gap = first :: rest.flatMap fun item => [.gap, item] := by
  induction rest generalizing first with
  | nil => rfl
  | cons second rest ih => simp [List.intersperse, ih second]

theorem intersperse_append_cons (earlier : List Item) (item : Item) (later : List Item) :
    (earlier ++ item :: later).intersperse .gap =
      earlier.flatMap (fun item => [item, .gap]) ++
        item :: later.flatMap fun item => [.gap, item] := by
  induction earlier with
  | nil => exact intersperse_cons item later
  | cons first earlier ih =>
    cases earlier with
    | nil => simp [intersperse_cons]
    | cons second earlier => simpa [List.intersperse] using ih

/-- A place among the items is a place in the outline. -/
theorem exists_outline {outline before after : List Item} {item : Item}
    (items : outline.intersperse .gap = before ++ item :: after) (proper : item ≠ .gap) :
    ∃ earlier later, outline = earlier ++ item :: later ∧
      before = earlier.flatMap (fun item => [item, .gap]) ∧
      after = later.flatMap fun item => [.gap, item] := by
  induction outline generalizing before with
  | nil => simp at items
  | cons first rest ih =>
    match before with
    | [] =>
      rw [intersperse_cons, List.nil_append, List.cons.injEq] at items
      obtain ⟨rfl, rfl⟩ := items
      exact ⟨[], rest, rfl, rfl, rfl⟩
    | [only] =>
      cases rest with
      | nil => simp at items
      | cons second rest =>
        simp only [List.intersperse, List.cons_append, List.nil_append, List.cons.injEq] at items
        exact absurd items.2.1.symm proper
    | one :: two :: before =>
      cases rest with
      | nil => simp at items
      | cons second rest =>
        simp only [List.intersperse, List.cons_append, List.cons.injEq] at items
        obtain ⟨rfl, rfl, items⟩ := items
        obtain ⟨earlier, later, outline, rfl, rfl⟩ := ih items
        exact ⟨first :: earlier, later, by rw [outline]; rfl, rfl, rfl⟩

/-! ## Beginnings and ends -/

/-- Whether an expression may begin with an item. -/
def Item.isOpening : Item → Bool
  | gap => false
  | mark _ text => text.toList.head?.any Text.opens
  | name _ => false
  | operand _ _ => true

/-- Whether an expression may end with an item. -/
def Item.isClosing : Item → Bool
  | gap => false
  | mark _ text => Text.closes text.toList
  | name text => text.closes
  | operand _ _ => true

theorem exists_commaSeparated {count : Nat} (some : 1 ≤ count) :
    (∃ fields slot rest, commaSeparated count = .operand fields slot :: rest) ∧
      ∃ rest fields slot, commaSeparated count = rest ++ [.operand fields slot] := by
  induction count with
  | zero => omega
  | succ count ih =>
    cases count with
    | zero => exact ⟨⟨_, _, [], rfl⟩, [], _, _, rfl⟩
    | succ count =>
      obtain ⟨-, rest, fields, slot, last⟩ := ih (by omega)
      refine ⟨⟨_, _, _, rfl⟩, .operand [] (.least 1) :: .mark [] "," :: rest, fields, slot, ?_⟩
      rw [commaSeparated, last]
      rfl

theorem exists_opening {production : Production} (valid : production.isValid = true) :
    ∃ item rest, production.outline = item :: rest ∧ item.isOpening = true := by
  cases production with
  | unary operator =>
    have opening : ∀ operator ∈ unaryOperators, operator.toList.head?.any Text.opens = true := by
      decide
    exact ⟨_, _, rfl, opening operator (List.contains_iff_mem.1 valid)⟩
  | binary operator =>
    obtain ⟨fixity, found⟩ := Option.isSome_iff_exists.1 valid
    exact ⟨_, _, by rw [Production.outline, found], rfl⟩
  | sequence count =>
    obtain ⟨⟨fields, slot, rest, first⟩, -⟩ :=
      exists_commaSeparated (Nat.le_of_succ_le (of_decide_eq_true valid))
    exact ⟨_, _, first, rfl⟩
  | parentheses => exact ⟨_, _, rfl, by decide⟩
  | await => exact ⟨_, _, rfl, by decide⟩
  | conditional => exact ⟨_, _, rfl, rfl⟩
  | assignment operator => exact ⟨_, _, rfl, rfl⟩
  | call => exact ⟨_, _, rfl, rfl⟩
  | arguments count => exact ⟨_, _, rfl, by decide⟩
  | member property => exact ⟨_, _, rfl, rfl⟩
  | subscript => exact ⟨_, _, rfl, rfl⟩

theorem exists_closing {production : Production} (valid : production.isValid = true) :
    ∃ rest item, production.outline = rest ++ [item] ∧ item.isClosing = true := by
  cases production with
  | binary operator =>
    obtain ⟨fixity, found⟩ := Option.isSome_iff_exists.1 valid
    exact ⟨[_, _], _, by rw [Production.outline, found]; rfl, rfl⟩
  | sequence count =>
    obtain ⟨-, rest, fields, slot, last⟩ :=
      exists_commaSeparated (Nat.le_of_succ_le (of_decide_eq_true valid))
    exact ⟨_, _, last, rfl⟩
  | member property =>
    refine ⟨[_, _], _, rfl, ?_⟩
    simp only [Production.isValid, Bool.and_eq_true, beq_iff_eq] at valid
    simp [Item.isClosing, Text.closes, valid.2]
  | parentheses => exact ⟨[_, _], _, rfl, by decide⟩
  | unary operator => exact ⟨[_], _, rfl, rfl⟩
  | await => exact ⟨[_], _, rfl, rfl⟩
  | conditional => exact ⟨[_, _, _, _], _, rfl, rfl⟩
  | assignment operator => exact ⟨[_, _], _, rfl, rfl⟩
  | call => exact ⟨[_], _, rfl, rfl⟩
  | arguments count => exact ⟨_ :: commaSeparated count, _, rfl, by decide⟩
  | subscript => exact ⟨[_, _, _], _, rfl, by decide⟩

/-! ## Dividers -/

/-- Whether an item is a mark after which an expression stands apart. -/
def Item.isDivider : Item → Bool
  | mark _ text => Text.dividers.contains text.toList
  | _ => false

/-- Whether an item is a mark that ends every expression before it. -/
def Item.isTerminator : Item → Bool
  | mark _ text => text.toList.head?.any fun first => Text.isMarkCharacter first && first != '.'
  | _ => false

/-- What binds no more tightly than `&&`. -/
def Role.isLoose : Role → Bool
  | .expression level => level ≤ 5
  | _ => false

namespace Production

/-- Whether a place in the outline of a production lies between dividers, except at an end
of what binds no more tightly than `&&`. -/
def isDivided (production : Production) (earlier later : List Item) : Bool :=
  earlier.getLast?.all Item.isDivider && later.head?.all Item.isTerminator &&
    ((!earlier.isEmpty && !later.isEmpty) || production.role.isLoose)

/-- The productions all of whose places are divided. -/
def divides : Production → Bool
  | parentheses | conditional | assignment _ | sequence _ | arguments _ => true
  | binary operator => ["&&", "||", "??"].contains operator
  | _ => false

/-- The productions of a fixed length, but for members. -/
def fixed : List Production :=
  [parentheses, await, conditional, call, subscript] ++ unaryOperators.map unary ++
    binaryOperators.map (fun (operator, _) => binary operator) ++ assignmentOperators.map assignment

/-- Whether a place in an outline must be divided. -/
def mustDivide (production : Production) : Item → Bool
  | .operand _ slot =>
    production.divides || (List.range 6).any fun level => slot.accepts (.expression level)
  | _ => false

theorem isDivided_of_mem_fixed : ∀ production ∈ fixed, ∀ index < production.outline.length,
    production.outline[index]?.any production.mustDivide = true →
      production.isDivided (production.outline.take index)
        (production.outline.drop (index + 1)) = true := by
  decide

end Production

theorem isDivider_comma : (Item.mark [] ",").isDivider = true := by decide

theorem isTerminator_comma : (Item.mark [] ",").isTerminator = true := by decide

/-- Beside an operand among others there are commas. -/
theorem commaSeparated_neighbours {count : Nat} {earlier later : List Item}
    {fields : List String} {slot : Slot}
    (outline : commaSeparated count = earlier ++ .operand fields slot :: later) :
    earlier.getLast?.all Item.isDivider = true ∧ later.head?.all Item.isTerminator = true := by
  induction count using commaSeparated.induct generalizing earlier with
  | case1 => simp [commaSeparated] at outline
  | case2 =>
    cases earlier with
    | nil => simp_all [commaSeparated]
    | cons first earlier => simp [commaSeparated] at outline
  | case3 count ih =>
    match earlier with
    | [] =>
      simp only [commaSeparated, List.nil_append, List.cons.injEq] at outline
      obtain ⟨-, rfl⟩ := outline
      simp [isTerminator_comma]
    | [only] => simp [commaSeparated] at outline
    | one :: two :: earlier =>
      simp only [commaSeparated, List.cons_append, List.cons.injEq] at outline
      obtain ⟨rfl, rfl, outline⟩ := outline
      obtain ⟨before, after⟩ := ih outline
      refine ⟨?_, after⟩
      cases earlier with
      | nil => simp [isDivider_comma]
      | cons third earlier => simpa [List.getLast?_cons_cons] using before

/-- Beside an argument there are commas or the parentheses. -/
theorem arguments_neighbours {count : Nat} {earlier later : List Item} {fields : List String}
    {slot : Slot}
    (outline : (Production.arguments count).outline = earlier ++ .operand fields slot :: later) :
    earlier ≠ [] ∧ later ≠ [] ∧ earlier.getLast?.all Item.isDivider = true ∧
      later.head?.all Item.isTerminator = true := by
  cases earlier with
  | nil => simp [Production.outline] at outline
  | cons first earlier =>
    simp only [Production.outline, List.cons_append, List.cons.injEq] at outline
    obtain ⟨rfl, outline⟩ := outline
    rcases List.append_eq_append_iff.1 outline with ⟨rest, -, closing⟩ | ⟨rest, inside, closing⟩
    · cases rest <;> simp at closing
    · cases rest with
      | nil => simp at closing
      | cons operand rest =>
        simp only [List.cons_append, List.cons.injEq] at closing
        obtain ⟨rfl, rfl⟩ := closing
        obtain ⟨before, after⟩ := commaSeparated_neighbours inside
        refine ⟨by simp, by simp, ?_, ?_⟩
        · cases earlier with
          | nil => decide
          | cons second earlier => simpa [List.getLast?_cons_cons] using before
        · cases rest with
          | nil => decide
          | cons next rest => simpa using after

namespace Production

theorem mem_fixed {production : Production} (valid : production.isValid = true) :
    production ∈ fixed ∨ (∃ count, production = sequence count) ∨
      (∃ count, production = arguments count) ∨ ∃ property, production = member property := by
  cases production with
  | unary operator =>
    have member := List.contains_iff_mem.1 valid
    simp [fixed, member]
  | assignment operator =>
    have member := List.contains_iff_mem.1 valid
    simp [fixed, member]
  | binary operator =>
    obtain ⟨fixity, found⟩ := Option.isSome_iff_exists.1 valid
    refine .inl (List.mem_append_left _ (List.mem_append_right _ ?_))
    exact List.mem_map.2 ⟨_, mem_binaryOperators found, rfl⟩
  | parentheses => simp [fixed]
  | await => simp [fixed]
  | conditional => simp [fixed]
  | call => simp [fixed]
  | subscript => simp [fixed]
  | sequence count => simp
  | arguments count => simp
  | member property => simp

/-- **A place for what binds loosely is divided.** -/
theorem isDivided_of_mustDivide {production : Production} (valid : production.isValid = true)
    {earlier later : List Item} {fields : List String} {slot : Slot}
    (outline : production.outline = earlier ++ .operand fields slot :: later)
    (must : production.mustDivide (.operand fields slot) = true) :
    production.isDivided earlier later = true := by
  rcases mem_fixed valid with fixed | ⟨count, rfl⟩ | ⟨count, rfl⟩ | ⟨property, rfl⟩
  · have divided := isDivided_of_mem_fixed production fixed earlier.length
      (by simp [outline]) (by simp [outline, must])
    simpa [outline] using divided
  · obtain ⟨before, after⟩ := commaSeparated_neighbours outline
    simp [isDivided, before, after, role, Role.isLoose]
  · obtain ⟨before, after, divider, terminator⟩ := arguments_neighbours outline
    simp [isDivided, divider, terminator, before, after]
  · cases earlier with
    | nil =>
      simp only [Production.outline, List.nil_append, List.cons.injEq,
        Item.operand.injEq] at outline
      obtain ⟨⟨-, rfl⟩, -⟩ := outline
      cases must
    | cons first earlier =>
      cases earlier with
      | nil => simp [Production.outline] at outline
      | cons second earlier => simp [Production.outline, List.cons_eq_append_iff] at outline

end Production

theorem slot_eq_of_mem_commaSeparated {count : Nat} {fields : List String} {slot : Slot}
    (member : .operand fields slot ∈ commaSeparated count) : slot = .least 1 := by
  induction count using commaSeparated.induct with
  | case1 => simp [commaSeparated] at member
  | case2 =>
    simp only [commaSeparated, List.mem_singleton, Item.operand.injEq] at member
    exact member.2
  | case3 count ih =>
    simp only [commaSeparated, List.mem_cons, Item.operand.injEq, reduceCtorEq, false_or] at member
    rcases member with ⟨-, same⟩ | member
    · exact same
    · exact ih member

/-- Between dividers what binds more tightly than `||` may stand in the place of a `!`, if
not an operand of a connective; there it has to bind more tightly than `&&`. -/
theorem Production.accepts_of_divides {production : Production} (valid : production.isValid = true)
    (divides : production.divides = true) {fields : List String} {slot : Slot}
    (member : .operand fields slot ∈ production.outline)
    (accepted : slot.accepts (.expression 15) = true) {level : Nat} (logical : 4 ≤ level)
    (connected : ∀ operator, production = .binary operator → 6 ≤ level) :
    slot.accepts (.expression level) = true := by
  have least {bound : Nat} (low : bound ≤ 4) :
      (Slot.least bound).accepts (.expression level) = true :=
    decide_eq_true (Nat.le_trans low logical)
  cases production with
  | parentheses =>
    simp only [outline, List.mem_cons, List.not_mem_nil, reduceCtorEq, Item.operand.injEq,
      false_or, or_false] at member
    rw [member.2]
    exact least (by decide)
  | conditional =>
    simp only [outline, List.mem_cons, List.not_mem_nil, reduceCtorEq, Item.operand.injEq,
      false_or, or_false] at member
    rcases member with ⟨-, rfl⟩ | ⟨-, rfl⟩ | ⟨-, rfl⟩
    · exact least (by decide)
    · exact least (by decide)
    · exact least (by decide)
  | assignment operator =>
    simp only [outline, List.mem_cons, List.not_mem_nil, reduceCtorEq, Item.operand.injEq,
      false_or, or_false] at member
    rcases member with ⟨-, rfl⟩ | ⟨-, rfl⟩
    · cases accepted
    · exact least (by decide)
  | sequence count =>
    rw [slot_eq_of_mem_commaSeparated member]
    exact least (by decide)
  | arguments count =>
    have inside : .operand fields slot ∈ commaSeparated count := by simpa [outline] using member
    rw [slot_eq_of_mem_commaSeparated inside]
    exact least (by decide)
  | binary operator =>
    have accepts : ∀ entry ∈ binaryOperators, (binary entry.1).divides = true →
        entry.2.left.accepts (.expression 6) = true ∧ entry.2.right ≤ 6 := by decide
    obtain ⟨fixity, found⟩ := Option.isSome_iff_exists.1 valid
    obtain ⟨left, right⟩ := accepts _ (mem_binaryOperators found) divides
    have tight := connected operator rfl
    simp only [outline, found, List.mem_cons, List.not_mem_nil, reduceCtorEq, Item.operand.injEq,
      false_or, or_false] at member
    rcases member with ⟨-, rfl⟩ | ⟨-, rfl⟩
    · exact Slot.accepts_of_le left (by decide) tight
    · exact decide_eq_true (Nat.le_trans right tight)
  | unary operator => cases divides
  | await => cases divides
  | call => cases divides
  | member property => cases divides
  | subscript => cases divides

end Retouch
