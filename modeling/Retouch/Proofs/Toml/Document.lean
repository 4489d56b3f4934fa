import Retouch.Proofs.Toml.Quoted

/-!
# Documents of the format are read

The plain reader leaves out the gaps between the elements of an array, and finds each element at
its first mark (`elements_of_isElements`).  Every line of a document gives a bare key its value
and begins with a character of the key, so that it is taken for nothing else
(`Line.statement?_text`).

**Result.**  A document of lines with different keys is read as the table of their values
(`Line.parse?_document`).  The plain library therefore is as libraries are assumed to be
(`Library.writesPlainly_plain`, `Library.readsFormat_plain`).
-/

set_option autoImplicit false

namespace Retouch
namespace Toml

variable {character : Char} {written rest : Text} {depth count : Nat}

/-- A list is not longer than its text, if something is written for each element. -/
theorem length_le_length_flatMap {α : Type} {write : α → Text} (some : ∀ each, write each ≠ [])
    (list : List α) : list.length ≤ (list.flatMap write).length := by
  induction list with
  | nil => exact Nat.le_refl 0
  | cons first list ih =>
    rw [List.flatMap_cons, List.length_append, List.length_cons, Nat.add_comm]
    exact Nat.add_le_add (List.length_pos_iff.2 (some first)) ih

theorem skipSpace_cons (shown : isSpace character = false) :
    skipSpace (character :: rest) = character :: rest := by
  rw [skipSpace, List.dropWhile_cons, shown]
  rfl

theorem skipBlank_cons (shown : isSpace character = false) (line : character ≠ '\n')
    (other : character ≠ '#') :
    skipBlank false (character :: rest) = some (character :: rest) := by
  simp [skipBlank, shown, line, other]

/-! ## Strings as values -/

section Strings

variable {content : Text} {value : String}

theorem skipBlank_of_isString (string : IsString written content) :
    skipBlank false (written ++ rest) = some (written ++ rest) := by
  obtain ⟨mark, tail, rfl, marked⟩ := string.exists_mark
  rcases marked with rfl | rfl <;> rfl

theorem head?_ne_bracket_of_isString (string : IsString written content) :
    (written ++ rest).head? ≠ some ']' := by
  obtain ⟨mark, tail, rfl, marked⟩ := string.exists_mark
  rcases marked with rfl | rfl <;> exact fun same => absurd (Option.some.inj same) (by decide)

theorem value?_of_isString (string : IsString written value.toList) (apart : IsApart rest) :
    value? depth (written ++ rest) = some (.text value, rest) := by
  have read : readString (written ++ rest) = some (value.toList, rest) :=
    readString_of_isString string apart
  obtain ⟨mark, tail, rfl, marked⟩ := string.exists_mark
  rw [List.cons_append] at read ⊢
  have plain : value? depth (mark :: (tail ++ rest)) =
      (readString (mark :: (tail ++ rest))).map
        fun found => (.text (String.ofList found.1), found.2) := by
    rcases marked with rfl | rfl <;> cases depth <;> rfl
  rw [plain, read]
  simp only [Option.map_some, String.ofList_toList]

end Strings

/-! ## Arrays -/

section Elements

variable {element : Reader Value} {value : Value} {text begun after : Text}

theorem elements_end (blank : skipBlank false text = some (']' :: rest)) :
    elements element (count + 1) text = some ([], rest) := by
  rw [elements, blank]
  rfl

theorem elements_last (blank : skipBlank false text = some begun)
    (goesOn : begun.head? ≠ some ']') (read : element begun = some (value, after))
    (ends : skipBlank false after = some (']' :: rest)) :
    elements element (count + 1) text = some ([value], rest) := by
  rw [elements, blank]
  simp only [Option.bind_eq_bind, Option.bind_some]
  split
  · exact absurd rfl goesOn
  · rw [read]
    simp only [Option.bind_some, ends]
    rfl

theorem elements_next {others : List Value} {further : Text}
    (blank : skipBlank false text = some begun) (goesOn : begun.head? ≠ some ']')
    (read : element begun = some (value, after))
    (follows : skipBlank false after = some (',' :: rest))
    (later : elements element count rest = some (others, further)) :
    elements element (count + 1) text = some (value :: others, further) := by
  rw [elements, blank]
  simp only [Option.bind_eq_bind, Option.bind_some]
  split
  · exact absurd rfl goesOn
  · rw [read]
    simp only [Option.bind_some, follows, later]
    rfl

end Elements

section Arrays

variable {gap text : Text} {values : List String}

theorem skipBlank_append (blank : IsGap gap) :
    skipBlank false (gap ++ text) = skipBlank false text := by
  induction gap with
  | nil => rfl
  | cons first gap ih =>
    have later := ih fun character member => blank character (List.mem_cons_of_mem _ member)
    rw [List.cons_append, skipBlank]
    by_cases newline : first = '\n'
    · rw [if_pos newline, later]
    · have space : isSpace first = true := (blank first List.mem_cons_self).resolve_right newline
      rw [if_neg newline, if_neg Bool.false_ne_true, if_pos space, later]

theorem IsGap.isApart (blank : IsGap gap) (apart : IsApart text) : IsApart (gap ++ text) := by
  cases gap with
  | nil => exact apart
  | cons first gap =>
    have other (mark : Char) (shown : isSpace mark = false) (line : mark ≠ '\n') :
        first ≠ mark := by
      rintro rfl
      rcases blank first List.mem_cons_self with space | newline
      · cases shown.symm.trans space
      · exact line newline
    exact isApart_cons (other _ rfl (by decide)) (other _ rfl (by decide))

/-- **The elements of an array are read**, if so many elements may be read. -/
theorem elements_of_isElements (listed : IsElements written values)
    (enough : values.length < count) :
    elements (value? depth) count (written ++ rest) = some (values.map .text, rest) := by
  induction listed generalizing count with
  | @nil gap blank =>
    obtain ⟨count, rfl⟩ := Nat.exists_eq_succ_of_ne_zero (Nat.ne_of_gt enough)
    refine elements_end ?_
    rw [List.append_assoc, skipBlank_append blank]
    rfl
  | last blank string blank' =>
    obtain ⟨count, rfl⟩ := Nat.exists_eq_succ_of_ne_zero (Nat.ne_of_gt (Nat.zero_lt_of_lt enough))
    have apart : IsApart (']' :: rest) := isApart_cons (by decide) (by decide)
    simp only [List.append_assoc, List.singleton_append]
    refine elements_last ?_ (head?_ne_bracket_of_isString string)
      (value?_of_isString string (blank'.isApart apart)) ?_
    · rw [skipBlank_append blank, skipBlank_of_isString string]
    · rw [skipBlank_append blank']
      rfl
  | @next _ _ _ others _ _ blank string blank' _ ih =>
    obtain ⟨count, rfl⟩ := Nat.exists_eq_succ_of_ne_zero (Nat.ne_of_gt (Nat.zero_lt_of_lt enough))
    have apart : IsApart (',' :: (others ++ rest)) := isApart_cons (by decide) (by decide)
    simp only [List.append_assoc, List.cons_append]
    refine elements_next ?_ (head?_ne_bracket_of_isString string)
      (value?_of_isString string (blank'.isApart apart)) ?_
      (ih (Nat.lt_of_succ_lt_succ enough))
    · rw [skipBlank_append blank, skipBlank_of_isString string]
    · rw [skipBlank_append blank']
      rfl

theorem value?_bracket {found : List Value}
    (read : elements (value? depth) ('[' :: text).length text = some (found, rest)) :
    value? (depth + 1) ('[' :: text) = some (.array found, rest) := by
  show (elements (value? depth) ('[' :: text).length text).map _ = _
  rw [read]
  rfl

theorem IsElements.length_le (listed : IsElements written values) :
    values.length ≤ written.length := by
  induction listed with
  | nil => exact Nat.zero_le _
  | last => simp only [List.length_append, List.length_cons, List.length_nil]; omega
  | next _ _ _ _ ih => simp only [List.length_append, List.length_cons]; omega

end Arrays

/-! ## Values of lines -/

section Values

variable {value : Value}

/-- A value is read up to the end of its line. -/
theorem IsValue.read (valued : IsValue written value) :
    value? greatestDepth (written ++ '\n' :: rest) = some (value, '\n' :: rest) := by
  cases valued with
  | text string => exact value?_of_isString string (isApart_cons (by decide) (by decide))
  | @array written values listed =>
    have enough : values.length < ('[' :: (written ++ '\n' :: rest)).length := by
      have few := listed.length_le
      simp only [List.length_cons, List.length_append]
      omega
    exact value?_bracket (elements_of_isElements listed enough)

theorem IsValue.skipSpace_append (valued : IsValue written value) :
    skipSpace (written ++ rest) = written ++ rest := by
  cases valued with
  | text string =>
    obtain ⟨mark, tail, rfl, marked⟩ := string.exists_mark
    exact skipSpace_cons (by rcases marked with rfl | rfl <;> rfl)
  | array => rfl

theorem IsGap.return_notMem {gap : Text} (blank : IsGap gap) : '\r' ∉ gap :=
  fun member => absurd (blank _ member) (by decide)

theorem IsElements.return_notMem {values : List String} (listed : IsElements written values) :
    '\r' ∉ written := by
  induction listed with
  | nil blank => simp [blank.return_notMem]
  | last blank string blank' =>
    simp [blank.return_notMem, string.return_notMem, blank'.return_notMem]
  | next blank string blank' _ ih =>
    simp [blank.return_notMem, string.return_notMem, blank'.return_notMem, ih]

theorem IsValue.return_notMem (valued : IsValue written value) : '\r' ∉ written := by
  cases valued with
  | text string => exact string.return_notMem
  | array listed => exact List.not_mem_cons_of_ne_of_not_mem (by decide) listed.return_notMem

end Values

/-! ## Lines -/

namespace Line

def statement (line : Line) : Statement := .entry [] line.key line.value

variable {line : Line}

theorem text_append : line.text ++ rest =
    line.key.toList ++ ' ' :: '=' :: ' ' :: (line.written ++ '\n' :: rest) := by
  simp [text, writeLine]

theorem text_ne_nil (line : Line) : line.text ≠ [] := by
  simp [text, writeLine]

theorem key_ne_nil (line : Line) : line.key.toList ≠ [] := by
  have bare := line.bare
  rw [isBareKey, Bool.and_eq_true] at bare
  simpa using bare.1

theorem isBare_of_mem (member : character ∈ line.key.toList) : isBare character = true := by
  have bare := line.bare
  rw [isBareKey, Bool.and_eq_true] at bare
  exact List.all_eq_true.1 bare.2 character member

/-- A key begins with a character that needs no marks, hence with no blank or bracket. -/
theorem exists_key (line : Line) : ∃ first tail, line.key.toList = first :: tail ∧
    isBare first = true := by
  obtain ⟨first, tail, begun⟩ := List.exists_cons_of_ne_nil line.key_ne_nil
  exact ⟨first, tail, begun, isBare_of_mem (begun ▸ List.mem_cons_self)⟩

theorem ne_of_isBare {other : Char} (bare : isBare character = true)
    (marked : isBare other = false) : character ≠ other := by
  rintro rfl
  cases bare.symm.trans marked

theorem isSpace_of_isBare (bare : isBare character = true) : isSpace character = false := by
  simp [isSpace, ne_of_isBare bare (show isBare ' ' = false from rfl),
    ne_of_isBare bare (show isBare '\t' = false from rfl)]

theorem keyPart?_key :
    keyPart? (line.key.toList ++ ' ' :: rest) = some (line.key, ' ' :: rest) := by
  have taken : (line.key.toList ++ ' ' :: rest).takeWhile isBare = line.key.toList := by
    rw [List.takeWhile_append_of_pos fun _ => isBare_of_mem]
    exact List.append_nil _
  have left : (line.key.toList ++ ' ' :: rest).dropWhile isBare = ' ' :: rest := by
    rw [List.dropWhile_append_of_pos fun _ => isBare_of_mem]
    rfl
  rw [keyPart?, taken, left, if_neg (by simpa using line.key_ne_nil), String.ofList_toList]

theorem key?_key :
    key? (line.key.toList ++ ' ' :: '=' :: rest) = some (([], line.key), '=' :: rest) := by
  have skipped : skipSpace (line.key.toList ++ ' ' :: '=' :: rest) =
      line.key.toList ++ ' ' :: '=' :: rest := by
    obtain ⟨first, tail, begun, bare⟩ := line.exists_key
    rw [begun]
    exact skipSpace_cons (isSpace_of_isBare bare)
  have single : keyParts? greatestDepth (line.key.toList ++ ' ' :: '=' :: rest) =
      some ([line.key], '=' :: rest) := by
    rw [greatestDepth, keyParts?, skipped, keyPart?_key]
    rfl
  rw [key?, single]
  rfl

theorem statement?_of_ne_bracket {text : Text} (other : text.head? ≠ some '[') :
    statement? text = (do
      let ((path, name), rest) ← key? text
      let rest ← expect? '=' rest
      let (value, rest) ← value? greatestDepth (skipSpace rest)
      return (.entry path name value, rest)) := by
  unfold statement?
  split
  · exact absurd rfl other
  · exact absurd rfl other
  · rfl

theorem head?_text_ne {other : Char} (marked : isBare other = false) :
    (line.text ++ rest).head? ≠ some other := by
  obtain ⟨first, tail, begun, bare⟩ := line.exists_key
  rw [text_append, begun]
  exact fun same => ne_of_isBare bare marked (Option.some.inj same)

/-- A line is read up to its end. -/
theorem statement?_text : statement? (line.text ++ rest) = some (line.statement, '\n' :: rest) := by
  have equals : expect? '=' ('=' :: ' ' :: (line.written ++ '\n' :: rest)) =
      some (' ' :: (line.written ++ '\n' :: rest)) := rfl
  have skipped : skipSpace (' ' :: (line.written ++ '\n' :: rest)) =
      line.written ++ '\n' :: rest := line.isValue.skipSpace_append
  rw [statement?_of_ne_bracket (head?_text_ne rfl), text_append, key?_key]
  simp only [Option.bind_eq_bind, Option.bind_some, equals, skipped, line.isValue.read]
  rfl

theorem skipBlank_text : skipBlank false (line.text ++ rest) = some (line.text ++ rest) := by
  obtain ⟨first, tail, begun, bare⟩ := line.exists_key
  rw [text_append, begun]
  exact skipBlank_cons (isSpace_of_isBare bare) (ne_of_isBare bare rfl) (ne_of_isBare bare rfl)

/-- **Lines are read one by one**, if so many statements may be read. -/
theorem statements?_lines {lines : List Line} (enough : lines.length < count) :
    statements? count (lines.flatMap text) = some (lines.map statement) := by
  induction lines generalizing count with
  | nil =>
    obtain ⟨count, rfl⟩ := Nat.exists_eq_succ_of_ne_zero (Nat.ne_of_gt enough)
    rfl
  | cons line lines ih =>
    obtain ⟨count, rfl⟩ := Nat.exists_eq_succ_of_ne_zero (Nat.ne_of_gt (Nat.zero_lt_of_lt enough))
    have later := ih (Nat.lt_of_succ_lt_succ enough)
    have ended : endLine ('\n' :: lines.flatMap text) = some (lines.flatMap text) := rfl
    rw [List.flatMap_cons, statements?, skipBlank_text]
    simp only [Option.bind_eq_bind, Option.bind_some]
    split
    · rename_i empty
      exact absurd (List.append_eq_nil_iff.1 empty).1 line.text_ne_nil
    · simp only [statement?_text, Option.bind_some, ended, later]
      rfl

/-! ## The table of a document -/

/-- What stands in the table under the key of a line. -/
def item (line : Line) : String × Item := (line.key, .value line.value)

/-- A free name is put behind the entries that are there. -/
theorem place_of_notMem {name : String} {value : Value} {entries : List (String × Item)}
    (free : name ∉ entries.map Prod.fst) :
    Table.place name value entries = some (entries ++ [(name, .value value)]) := by
  induction entries with
  | nil => rfl
  | cons first entries ih =>
    obtain ⟨known, item⟩ := first
    rw [List.map_cons, List.mem_cons, not_or] at free
    have later := ih free.2
    rw [Table.place] at later ⊢
    rw [Table.alter, if_neg (Ne.symm free.1), later]
    rfl

theorem step_statement {entries : List (String × Item)}
    (free : line.key ∉ entries.map Prod.fst) :
    Assembly.step ⟨[], ⟨entries⟩⟩ line.statement = some ⟨[], ⟨entries ++ [line.item]⟩⟩ := by
  have placed : Table.enterAt ⟨entries⟩ [] [] line.key line.value =
      (Table.place line.key line.value entries).map Table.mk := rfl
  rw [statement, Assembly.step, placed, place_of_notMem free]
  rfl

theorem foldlM_statements {lines : List Line} {entries : List (String × Item)}
    (distinct : (entries.map Prod.fst ++ lines.map key).Nodup) :
    (lines.map statement).foldlM Assembly.step ⟨[], ⟨entries⟩⟩ =
      some ⟨[], ⟨entries ++ lines.map item⟩⟩ := by
  induction lines generalizing entries with
  | nil =>
    rw [List.map_nil, List.map_nil, List.append_nil]
    rfl
  | cons line lines ih =>
    have free : line.key ∉ entries.map Prod.fst :=
      fun known => (List.nodup_append.1 distinct).2.2 _ known _ List.mem_cons_self rfl
    have later : ((entries ++ [line.item]).map Prod.fst ++ lines.map key).Nodup := by
      rw [List.map_append, List.append_assoc]
      exact distinct
    rw [List.map_cons, List.foldlM_cons, step_statement free]
    simp only [Option.bind_eq_bind, Option.bind_some]
    rw [ih later, List.append_assoc]
    rfl

theorem valuesOfEntries_items (lines : List Line) :
    Table.valuesOfEntries (lines.map item) = lines.map entry := by
  induction lines with
  | nil => rfl
  | cons line lines ih =>
    rw [List.map_cons, List.map_cons, item, Table.valuesOfEntries, ih]
    rfl

theorem plainNewlines_of_notMem {text : Text} (plain : '\r' ∉ text) :
    plainNewlines text = text := by
  induction text with
  | nil => rfl
  | cons first text ih =>
    rw [List.mem_cons, not_or] at plain
    rw [plainNewlines, if_neg (by simp [Ne.symm plain.1]), ih plain.2]

theorem return_notMem_text : '\r' ∉ line.text := by
  have key : '\r' ∉ line.key.toList := fun member => by cases isBare_of_mem member
  simp [text, writeLine, key, line.isValue.return_notMem]

/-- **A document of lines with different keys is read as the table of their values.** -/
theorem parse?_document {lines : List Line} (distinct : (lines.map key).Nodup) :
    parse? (lines.flatMap text) = some (.table (lines.map entry)) := by
  have unmarked : withoutEncodingMark (lines.flatMap text) = lines.flatMap text := by
    rw [withoutEncodingMark, if_neg]
    cases lines with
    | nil => exact nofun
    | cons line lines => exact head?_text_ne rfl
  have plain : plainNewlines (lines.flatMap text) = lines.flatMap text := by
    refine plainNewlines_of_notMem fun member => ?_
    obtain ⟨line, -, member⟩ := List.mem_flatMap.1 member
    exact return_notMem_text member
  have enough := Nat.lt_succ_of_le (length_le_length_flatMap text_ne_nil lines)
  rw [parse?, unmarked, plain]
  simp only [Option.bind_eq_bind, statements?_lines enough, Option.bind_some]
  have assembled : (lines.map statement).foldlM Assembly.step ⟨[], .empty⟩ =
      some ⟨[], ⟨[] ++ lines.map item⟩⟩ := foldlM_statements distinct
  rw [assembled]
  simp only [Option.bind_some, Table.toValue, List.nil_append, valuesOfEntries_items]
  rfl

end Line

/-! ## The plain library -/

theorem Library.writesPlainly_plain : Library.plain.WritesPlainly := fun _ _ _ plain => plain

theorem Library.readsFormat_plain : Library.plain.ReadsFormat :=
  fun _ distinct => ⟨_, Line.parse?_document distinct, fun _ => rfl⟩

end Toml
end Retouch
