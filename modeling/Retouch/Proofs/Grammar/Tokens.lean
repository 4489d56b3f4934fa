import Retouch.Proofs.Grammar.Phrase

/-!
# The tokens of a text

A text is cut into tokens in at most one way (`tokens_eq_of_written_eq`): gaps are told
from tokens by their characters, and each token is the longest one that begins where it
does.
-/

set_option autoImplicit false

namespace Retouch

/-- The tokens among lexemes. -/
def tokens : List Lexeme → List Text
  | [] => []
  | .gap _ :: rest => tokens rest
  | .token text :: rest => text :: tokens rest

@[simp]
theorem tokens_append (lexemes more : List Lexeme) :
    tokens (lexemes ++ more) = tokens lexemes ++ tokens more := by
  induction lexemes with
  | nil => rfl
  | cons lexeme lexemes ih =>
    cases lexeme with
    | gap text => exact ih
    | token text => simp only [List.cons_append, tokens, ih]

namespace Text

/-- No token begins with a gap. -/
theorem not_isGap_of_isToken {token : Text} (whole : token.isToken = true) :
    ∀ character ∈ token.head?, isGap character = false := by
  cases token with
  | nil => simp
  | cons first rest =>
    rintro _ ⟨⟩
    refine Bool.eq_false_iff.2 ?_
    intro gap
    have quotes : ("\"'`".toList.all fun quote => !isGap quote) = true := by decide
    have notQuote : isQuote first = false := Bool.eq_false_iff.2 fun quote => by
      simpa [gap] using List.all_eq_true.1 quotes first (List.contains_iff_mem.1 quote)
    have notDot : first ≠ '.' := by
      rintro rfl
      exact absurd gap (by decide)
    have mark : kind (first :: rest) = .mark := by
      simp [kind, notQuote, startsNumber, not_isDigit_of_isGap gap, notDot, isWordCharacter, gap]
    have heads : ∀ mark ∈ marks, (mark.head?.all fun head => !isGap head) = true := by decide
    rw [isToken, mark] at whole
    simpa [gap] using heads _ (List.contains_iff_mem.1 whole)

/-- What follows a gap begins where the gap ends. -/
theorem eq_of_gaps_append {space space' text text' : Text}
    (gaps : ∀ character ∈ space, isGap character = true)
    (gaps' : ∀ character ∈ space', isGap character = true)
    (head : ∀ character ∈ text.head?, isGap character = false)
    (head' : ∀ character ∈ text'.head?, isGap character = false)
    (same : space ++ text = space' ++ text') : text = text' := by
  have drop {text : Text} (head : ∀ character ∈ text.head?, isGap character = false) :
      text.dropWhile isGap = text := by
    cases text with
    | nil => rfl
    | cons first rest => rw [List.dropWhile_cons_of_neg (by simp [head first rfl])]
  have dropped := congrArg (List.dropWhile isGap) same
  rwa [List.dropWhile_append_of_pos gaps, List.dropWhile_append_of_pos gaps', drop head,
    drop head'] at dropped

/-- A token that ends where another text follows cannot be the beginning of a longer one. -/
theorem eq_nil_of_endsBefore {token more following : Text} (short : token.isToken = true)
    (long : (token ++ more).isToken = true) (ends : token.endsBefore (more ++ following) = true) :
    more = [] := by
  cases more with
  | nil => rfl
  | cons character more =>
    have runs := runsInto_of_isToken_append short long
    simp [endsBefore, runs] at ends

/-- **The first token of a text is the longest one.** -/
theorem token_eq {token token' following following' : Text} (isToken : token.isToken = true)
    (isToken' : token'.isToken = true) (ends : token.endsBefore following = true)
    (ends' : token'.endsBefore following' = true)
    (same : token ++ following = token' ++ following') :
    token = token' ∧ following = following' := by
  rcases List.append_eq_append_iff.1 same with ⟨more, rfl, rfl⟩ | ⟨more, rfl, rfl⟩
  · obtain rfl := eq_nil_of_endsBefore isToken isToken' ends
    simp
  · obtain rfl := eq_nil_of_endsBefore isToken' isToken ends'
    simp

end Text

/-- What is known of lexemes with a first token, behind a gap. -/
structure Begins (lexemes : List Lexeme) (following space token : Text) (rest : List Lexeme) :
    Prop where
  tokens_eq : tokens lexemes = token :: tokens rest
  written_eq : written lexemes = space ++ (token ++ written rest)
  gaps : ∀ character ∈ space, Text.isGap character = true
  isToken : token.isToken = true
  ends : token.endsBefore (written rest ++ following) = true
  lexed : Lexed rest following
  shorter : rest.length < lexemes.length

/-- Lexemes are gaps, or there is a first token among them. -/
theorem exists_begins {lexemes : List Lexeme} {following : Text} (lexed : Lexed lexemes following) :
    (tokens lexemes = [] ∧ ∀ character ∈ written lexemes, Text.isGap character = true) ∨
      ∃ space token rest, Begins lexemes following space token rest := by
  induction lexemes with
  | nil => exact .inl ⟨rfl, by simp⟩
  | cons lexeme lexemes ih =>
    cases lexeme with
    | token text =>
      obtain ⟨isToken, ends, rest⟩ := lexed
      exact .inr ⟨[], text, lexemes, rfl, rfl, by simp, isToken, ends, rest, by simp⟩
    | gap text =>
      obtain ⟨gaps, rest⟩ := lexed
      rcases ih rest with ⟨none, gaps'⟩ | ⟨space, token, rest, begins⟩
      · refine .inl ⟨none, ?_⟩
        intro character member
        rcases List.mem_append.1 member with member | member
        · exact gaps character member
        · exact gaps' character member
      · refine .inr ⟨text ++ space, token, rest, begins.tokens_eq, ?_, ?_, begins.isToken,
          begins.ends, begins.lexed, Nat.lt_succ_of_lt begins.shorter⟩
        · rw [written_cons, begins.written_eq, List.append_assoc]
          rfl
        · intro character member
          rcases List.mem_append.1 member with member | member
          · exact gaps character member
          · exact begins.gaps character member

/-- Where there is a token, there are not only gaps. -/
theorem Begins.not_gaps {lexemes rest : List Lexeme} {following space token : Text}
    (begins : Begins lexemes following space token rest) :
    ¬ ∀ character ∈ written lexemes, Text.isGap character = true := by
  intro gaps
  obtain ⟨first, more, rfl⟩ :=
    List.exists_cons_of_ne_nil (Text.ne_nil_of_isToken begins.isToken)
  have gap := gaps first (by simp [begins.written_eq])
  rw [Text.not_isGap_of_isToken begins.isToken first rfl] at gap
  cases gap

theorem Begins.head {lexemes rest : List Lexeme} {following space token : Text}
    (begins : Begins lexemes following space token rest) :
    ∀ character ∈ (token ++ written rest).head?, Text.isGap character = false := by
  obtain ⟨first, more, rfl⟩ :=
    List.exists_cons_of_ne_nil (Text.ne_nil_of_isToken begins.isToken)
  have head := Text.not_isGap_of_isToken begins.isToken
  exact head

/-- **A text has one list of tokens.** -/
theorem tokens_eq_of_written_eq {lexemes others : List Lexeme} (lexed : Lexed lexemes [])
    (lexed' : Lexed others []) (same : written lexemes = written others) :
    tokens lexemes = tokens others := by
  -- The two lists may split their gaps differently, so the recursion goes from token to token.
  rcases exists_begins lexed with ⟨none, gaps⟩ | ⟨space, token, rest, begins⟩
  · rcases exists_begins lexed' with ⟨none', -⟩ | ⟨space', token', rest', begins'⟩
    · rw [none, none']
    · rw [same] at gaps
      exact absurd gaps begins'.not_gaps
  · rcases exists_begins lexed' with ⟨-, gaps'⟩ | ⟨space', token', rest', begins'⟩
    · rw [← same] at gaps'
      exact absurd gaps' begins.not_gaps
    · rw [begins.written_eq, begins'.written_eq] at same
      have text_eq := Text.eq_of_gaps_append begins.gaps begins'.gaps begins.head begins'.head same
      have ends := begins.ends
      have ends' := begins'.ends
      rw [List.append_nil] at ends ends'
      obtain ⟨rfl, rest_eq⟩ := Text.token_eq begins.isToken begins'.isToken ends ends' text_eq
      have shorter := begins.shorter
      rw [begins.tokens_eq, begins'.tokens_eq,
        tokens_eq_of_written_eq begins.lexed begins'.lexed rest_eq]
termination_by lexemes.length

end Retouch
