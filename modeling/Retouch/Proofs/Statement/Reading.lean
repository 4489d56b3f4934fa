import Mathlib.Data.List.Basic
import Retouch.Text.Lines

/-!
# Reading statements

For the question which `if` an `else` belongs to, a statement is one of four things: an `if` with
or without an `else`, a statement like a loop that ends with another one, or anything else, which
has an end of its own (`Statement`).  Its words are the headings, the words `else` and the
statements without parts, in order.

Words are read as a statement by the rule that **an `else` belongs to the nearest `if` that has
none yet**: an `if` without an `else` is read only where no `else` follows (`Statement.Reads`).
Words are read in one way at most (`Statement.Reads.unique`).  The words of a statement are read as
this statement unless somewhere before an `else` there is an `if` that lacks one
(`Statement.reads_iff`).  Such an `if` at the end of a statement, which is left open
(`Statement.endsOpen`), takes an `else` that follows (`Statement.reads_takeElse`).
-/

set_option autoImplicit false

namespace Retouch

/-- A statement, with its text. -/
inductive Statement where
  | simple (text : Text)
  /-- A statement after a heading, such as the body of a loop. -/
  | nested (heading : Text) (body : Statement)
  | lone (heading : Text) (consequence : Statement)
  | choice (heading : Text) (consequence : Statement) (joint : Text) (alternative : Statement)
deriving DecidableEq

namespace Statement

/-- A word of a statement.  The heading of an `if` has its condition, and the text of an `else` may
have space around it. -/
inductive Word where
  | whole (text : Text)
  | heading (text : Text)
  | if_ (heading : Text)
  | else_ (joint : Text)
deriving DecidableEq

namespace Word

def text : Word → Text
  | whole text | heading text | if_ text | else_ text => text

def isElse : Word → Bool
  | else_ _ => true
  | _ => false

end Word

def words : Statement → List Word
  | simple text => [.whole text]
  | nested heading body => .heading heading :: body.words
  | lone heading consequence => .if_ heading :: consequence.words
  | choice heading consequence joint alternative =>
    .if_ heading :: (consequence.words ++ .else_ joint :: alternative.words)

def text : Statement → Text
  | simple text => text
  | nested heading body => heading ++ body.text
  | lone heading consequence => heading ++ consequence.text
  | choice heading consequence joint alternative =>
    heading ++ consequence.text ++ joint ++ alternative.text

/-- The text of a statement is the text of its words. -/
theorem flatMap_text_words (statement : Statement) :
    statement.words.flatMap Word.text = statement.text := by
  induction statement with
  | simple content => simp [words, text, Word.text]
  | nested heading body ih => simp [words, text, Word.text, ih]
  | lone heading consequence ih => simp [words, text, Word.text, ih]
  | choice heading consequence joint alternative ih ih' =>
    simp [words, text, Word.text, ih, ih', List.append_assoc]

/-- Whether words begin with an `else`. -/
def startsWithElse (words : List Word) : Bool := words.head?.any Word.isElse

/-- **Whether words begin with a statement**, with others after it. -/
inductive Reads : List Word → Statement → List Word → Prop where
  | simple (text : Text) (rest : List Word) : Reads (.whole text :: rest) (.simple text) rest
  | nested {words rest : List Word} {body : Statement} (heading : Text)
      (reads : Reads words body rest) :
      Reads (.heading heading :: words) (.nested heading body) rest
  | lone {words rest : List Word} {consequence : Statement} (heading : Text)
      (reads : Reads words consequence rest) (alone : startsWithElse rest = false) :
      Reads (.if_ heading :: words) (.lone heading consequence) rest
  | choice {words more rest : List Word} {consequence alternative : Statement}
      (heading joint : Text) (reads : Reads words consequence (.else_ joint :: more))
      (reads' : Reads more alternative rest) :
      Reads (.if_ heading :: words) (.choice heading consequence joint alternative) rest

/-- **Words begin with one statement at most.** -/
theorem Reads.unique {words rest rest' : List Word} {statement other : Statement}
    (reads : Reads words statement rest) (reads' : Reads words other rest') :
    statement = other ∧ rest = rest' := by
  induction reads generalizing other rest' with
  | simple text rest =>
    cases reads'
    exact ⟨rfl, rfl⟩
  | nested heading reads ih =>
    cases reads' with
    | nested _ other =>
      obtain ⟨rfl, rfl⟩ := ih other
      exact ⟨rfl, rfl⟩
  | lone heading reads alone ih =>
    cases reads' with
    | lone _ other alone' =>
      obtain ⟨rfl, rfl⟩ := ih other
      exact ⟨rfl, rfl⟩
    | choice _ joint other more =>
      obtain ⟨-, rfl⟩ := ih other
      cases alone
  | choice heading joint reads more ih ih' =>
    cases reads' with
    | lone _ other alone =>
      obtain ⟨-, rfl⟩ := ih other
      cases alone
    | choice _ _ other more' =>
      obtain ⟨rfl, same⟩ := ih other
      obtain ⟨same, rfl⟩ := List.cons.inj same
      cases same
      obtain ⟨rfl, rfl⟩ := ih' more'
      exact ⟨rfl, rfl⟩

/-- **Whether a statement ends with an `if` that lacks an `else`.** -/
def endsOpen : Statement → Bool
  | simple _ => false
  | nested _ body => body.endsOpen
  | lone _ _ => true
  | choice _ _ _ alternative => alternative.endsOpen

/-- Whether no statement within a statement is left open before an `else`. -/
def IsClosed : Statement → Prop
  | simple _ => True
  | nested _ body => body.IsClosed
  | lone _ consequence => consequence.IsClosed
  | choice _ consequence _ alternative =>
    consequence.IsClosed ∧ consequence.endsOpen = false ∧ alternative.IsClosed

/-- **The words of a statement are read as this statement** exactly if nothing is left open before
an `else`, be it within the statement or after it. -/
theorem reads_iff {words rest : List Word} {statement : Statement} :
    Reads words statement rest ↔ words = statement.words ++ rest ∧ statement.IsClosed ∧
      (statement.endsOpen = true → startsWithElse rest = false) := by
  constructor
  · intro reads
    induction reads with
    | simple text rest => exact ⟨rfl, trivial, nofun⟩
    | nested heading reads ih =>
      obtain ⟨rfl, closed, free⟩ := ih
      exact ⟨rfl, closed, free⟩
    | lone heading reads alone ih =>
      obtain ⟨rfl, closed, -⟩ := ih
      exact ⟨rfl, closed, fun _ => alone⟩
    | choice heading joint reads more ih ih' =>
      obtain ⟨rfl, closed, free⟩ := ih
      obtain ⟨rfl, closed', free'⟩ := ih'
      refine ⟨by simp [Statement.words], ⟨closed, ?_, closed'⟩, free'⟩
      by_contra open_
      cases free (by simpa using open_)
  · rintro ⟨rfl, closed, free⟩
    induction statement generalizing rest with
    | simple text => exact .simple text rest
    | nested heading body ih => exact .nested heading (ih closed free)
    | lone heading consequence ih =>
      exact .lone heading (ih closed fun _ => free rfl) (free rfl)
    | choice heading consequence joint alternative ih ih' =>
      obtain ⟨closed, ended, closed'⟩ := closed
      have first : Reads (consequence.words ++ .else_ joint :: (alternative.words ++ rest))
          consequence (.else_ joint :: (alternative.words ++ rest)) :=
        ih closed fun open_ => by rw [ended] at open_; cases open_
      have whole : (choice heading consequence joint alternative).words ++ rest =
          .if_ heading :: (consequence.words ++ .else_ joint :: (alternative.words ++ rest)) := by
        simp [Statement.words]
      rw [whole]
      exact .choice heading joint first (ih' closed' free)

/-- A statement whose last open `if`, if there is one, has been given an `else`. -/
def takeElse (statement : Statement) (joint : Text) (other : Statement) : Statement :=
  match statement with
  | simple text => simple text
  | nested heading body => nested heading (body.takeElse joint other)
  | lone heading consequence =>
    if consequence.endsOpen then lone heading (consequence.takeElse joint other)
    else choice heading consequence joint other
  | choice heading consequence joint' alternative =>
    choice heading consequence joint' (alternative.takeElse joint other)

section TakeElse

variable {statement other : Statement} {joint : Text}

theorem words_takeElse (open_ : statement.endsOpen = true) :
    (statement.takeElse joint other).words = statement.words ++ .else_ joint :: other.words := by
  induction statement with
  | simple => cases open_
  | nested heading body ih => simp [takeElse, words, ih open_]
  | lone heading consequence ih =>
    rw [takeElse]
    split
    · rename_i inner
      simp [words, ih inner]
    · simp [words]
  | choice heading consequence joint' alternative ih ih' => simp [takeElse, words, ih' open_]

theorem isClosed_takeElse (closed : statement.IsClosed) (closed' : other.IsClosed) :
    (statement.takeElse joint other).IsClosed := by
  induction statement with
  | simple => trivial
  | nested heading body ih => exact ih closed
  | lone heading consequence ih =>
    rw [takeElse]
    split
    · exact ih closed
    · rename_i ended
      exact ⟨closed, by simpa using ended, closed'⟩
  | choice heading consequence joint' alternative ih ih' =>
    exact ⟨closed.1, closed.2.1, ih' closed.2.2⟩

/-- **A statement that is left open takes the `else` that follows it.** -/
theorem reads_takeElse (open_ : statement.endsOpen = true) (closed : statement.IsClosed)
    (closed' : other.IsClosed) {rest : List Word} (alone : startsWithElse rest = false) :
    Reads (statement.words ++ .else_ joint :: other.words ++ rest)
      (statement.takeElse joint other) rest :=
  reads_iff.2 ⟨by rw [words_takeElse open_], isClosed_takeElse closed closed', fun _ => alone⟩

end TakeElse

/-! ## Changing the branches -/

section Flip

variable {heading heading' joint : Text} {consequence alternative : Statement}
  {following : List Word}

/-- **With its branches in each other's place a statement is read as such exactly if the branch that
has come before the `else` is not left open.**  Otherwise the `else` goes to that branch, and the
statement has none. -/
theorem reads_flipped
    (reads : Reads ((choice heading consequence joint alternative).words ++ following)
      (choice heading consequence joint alternative) following) :
    (Reads ((choice heading' alternative joint consequence).words ++ following)
      (choice heading' alternative joint consequence) following ↔ alternative.endsOpen = false) ∧
    (alternative.endsOpen = true →
      Reads ((choice heading' alternative joint consequence).words ++ following)
        (lone heading' (alternative.takeElse joint consequence)) following) := by
  obtain ⟨-, ⟨closed, ended, closed'⟩, free⟩ := reads_iff.1 reads
  refine ⟨?_, ?_⟩
  · constructor
    · intro flipped
      exact (reads_iff.1 flipped).2.1.2.1
    · intro ended'
      refine reads_iff.2 ⟨rfl, ⟨closed', ended', closed⟩, ?_⟩
      intro open_
      rw [endsOpen, ended] at open_
      cases open_
  · intro open_
    have alone := free open_
    have taken := @reads_takeElse alternative consequence joint open_ closed' closed following alone
    exact .lone heading' taken alone

end Flip
end Statement
end Retouch
