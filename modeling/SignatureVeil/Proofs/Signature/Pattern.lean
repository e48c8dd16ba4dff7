import SignatureVeil.Proofs.Text.Places
import SignatureVeil.Signature.Matcher

/-!
# Search patterns

A search pattern is a sequence of pieces, and a backtracking search tries the
ways to match each piece in order of preference: a greedy run prefers more
characters, a lazy one fewer.  The first match in that order is the one that
is reported.  This file writes both kinds of signatures as search patterns and
proves that the matcher reports what a backtracking search reports.
-/

namespace SignatureVeil

namespace Signature

inductive Piece where
  | lineStart
  | lineEnd
  | letter (expected : Char)
  /-- As many of the allowed characters as possible. -/
  | greedy (allowed : Char → Bool)
  /-- As few of the allowed characters as possible. -/
  | lazy (allowed : Char → Bool)

abbrev Pattern := List Piece

/-- The places to which a run of allowed characters can lead, the nearest one
first. -/
def runs (allowed : Char → Bool) (before : List Char) : List Char → List Place
  | [] => [⟨before, []⟩]
  | character :: rest =>
      ⟨before, character :: rest⟩ ::
        if allowed character then
          runs allowed (character :: before) rest
        else
          []

/-- The places to which a piece can lead, in order of preference. -/
def Piece.ways (piece : Piece) (place : Place) : List Place :=
  match piece with
  | .lineStart => if place.atLineStart then [place] else []
  | .lineEnd => if place.atLineEnd then [place] else []
  | .letter expected => (place.skipWord? [expected]).toList
  | .greedy allowed => (runs allowed place.before place.after).reverse
  | .lazy allowed => runs allowed place.before place.after

/-- The ends of all matches of a pattern from a place on, in the order in
which a backtracking search meets them. -/
def Pattern.ends : Pattern → Place → List Place
  | [], place => [place]
  | piece :: rest, place => (piece.ways place).flatMap (Pattern.ends rest)

def Pattern.first? (pattern : Pattern) (place : Place) : Option Place :=
  (pattern.ends place).head?

def Pattern.word (letters : List Char) : Pattern :=
  letters.map .letter

/-- The pattern of an opening: `^[ \t]*sig do[ \t]*$` or `^[ \t]*sig \{`. -/
def Kind.openPattern : Kind → Pattern
  | .block =>
      .lineStart :: .greedy isBlank ::
        (Pattern.word ['s', 'i', 'g', ' ', 'd', 'o'] ++
          [.greedy isBlank, .lineEnd])
  | .inline =>
      .lineStart :: .greedy isBlank ::
        Pattern.word ['s', 'i', 'g', ' ', '{']

/-- The pattern of a closing: `^[ \t]*end[ \t]*$` or `\}[ \t]*?$`. -/
def Kind.closePattern : Kind → Pattern
  | .block =>
      .lineStart :: .greedy isBlank ::
        (Pattern.word ['e', 'n', 'd'] ++ [.greedy isBlank, .lineEnd])
  | .inline => Pattern.word ['}'] ++ [.lazy isBlank, .lineEnd]

/-- The pattern of a signature: an opening, `.*?`, and a closing. -/
def Kind.pattern (kind : Kind) : Pattern :=
  kind.openPattern ++ .lazy (fun _ => true) :: kind.closePattern

namespace Pattern

/-- The match that is preferred takes the first way for which the rest
matches. -/
theorem first?_cons (piece : Piece) (rest : Pattern) (place : Place) :
    first? (piece :: rest) place =
      (piece.ways place).findSome? (first? rest) := by
  rw [first?, ends, List.head?_flatMap]
  rfl

theorem first?_lineStart (rest : Pattern) (place : Place) :
    first? (.lineStart :: rest) place =
      if place.atLineStart then first? rest place else none := by
  rw [first?_cons]
  cases lineStart : place.atLineStart <;> simp [Piece.ways, lineStart]

theorem first?_lineEnd (rest : Pattern) (place : Place) :
    first? (.lineEnd :: rest) place =
      if place.atLineEnd then first? rest place else none := by
  rw [first?_cons]
  cases lineEnd : place.atLineEnd <;> simp [Piece.ways, lineEnd]

theorem first?_word (letters : List Char) (rest : Pattern) (place : Place) :
    first? (word letters ++ rest) place =
      (place.skipWord? letters).bind (first? rest) := by
  induction letters generalizing place with
  | nil => simp [word, Place.skipWord?]
  | cons expected letters ih =>
      have step : word (expected :: letters) ++ rest =
          .letter expected :: (word letters ++ rest) := rfl
      rw [step, first?_cons]
      obtain ⟨before, after⟩ := place
      cases after with
      | nil => simp [Piece.ways, Place.skipWord?]
      | cons character after =>
          by_cases same : character = expected <;>
            simp [Piece.ways, Place.skipWord?, same, ih]

/-- A lazy run over all characters seeks the first place from which the rest
matches. -/
theorem first?_lazy_any (rest : Pattern) (place : Place) :
    first? (.lazy (fun _ => true) :: rest) place =
      place.seek (first? rest) := by
  obtain ⟨before, after⟩ := place
  simp only [first?_cons, Piece.ways, Place.seek]
  induction after generalizing before with
  | nil => cases first? rest ⟨before, []⟩ <;> simp [runs, Place.seekFrom, *]
  | cons character after ih =>
      cases here : first? rest ⟨before, character :: after⟩ <;>
        simp [runs, Place.seekFrom, here, ih]

/-- Nothing matches where a blank follows. -/
def MissesBlanks (pattern : Pattern) : Prop :=
  ∀ before character after, isBlank character = true →
    pattern.first? ⟨before, character :: after⟩ = none

theorem missesBlanks_word {initial : Char} (letters : List Char)
    (rest : Pattern) (ink : isBlank initial = false) :
    MissesBlanks (word (initial :: letters) ++ rest) := by
  intro before character after blank
  have differs : character ≠ initial := by
    rintro rfl
    simp [ink] at blank
  simp [first?_word, Place.skipWord?, differs]

theorem missesBlanks_lineEnd (rest : Pattern) :
    MissesBlanks (.lineEnd :: rest) := by
  intro before character after blank
  have inLine : Place.atLineEnd ⟨before, character :: after⟩ = false := by
    by_contra lineEnd
    have ink := Place.not_blank_of_atLineEnd (Bool.not_eq_false _ ▸ lineEnd)
      character rfl
    simp [ink] at blank
  simp [first?_lineEnd, inLine]

/-- A run over blanks goes over all of them if the rest does not match before
a blank, and it does not matter whether it is greedy or lazy. -/
theorem first?_blanks {rest : Pattern} (misses : MissesBlanks rest)
    (place : Place) :
    first? (.lazy isBlank :: rest) place = first? rest place.skipBlanks ∧
      first? (.greedy isBlank :: rest) place =
        first? rest place.skipBlanks := by
  obtain ⟨before, after⟩ := place
  simp only [first?_cons, Piece.ways, Place.skipBlanks]
  induction after generalizing before with
  | nil => simp [runs, Place.pastBlanks]
  | cons character after ih =>
      cases blank : isBlank character with
      | false => simp [runs, Place.pastBlanks, blank]
      | true =>
          have missed := misses before character after blank
          simpa [runs, Place.pastBlanks, blank, missed,
            List.findSome?_append] using ih (character :: before)

theorem first?_finishLine (rest : Pattern) :
    (first? (.lazy isBlank :: .lineEnd :: rest) =
        fun place => place.finishLine?.bind (first? rest)) ∧
      first? (.greedy isBlank :: .lineEnd :: rest) =
        fun place => place.finishLine?.bind (first? rest) := by
  have skip (place : Place) := first?_blanks (missesBlanks_lineEnd rest) place
  simp only [first?_lineEnd] at skip
  constructor <;>
  · funext place
    unfold Place.finishLine?
    split <;> simp_all

end Pattern

namespace Kind

open Pattern

theorem first?_closePattern (kind : Kind) :
    first? kind.closePattern = kind.close? := by
  have finish := first?_finishLine []
  have done (found? : Option Place) : found?.bind (first? []) = found? := by
    cases found? <;> rfl
  simp only [done] at finish
  funext place
  cases kind with
  | block =>
      have skip := first?_blanks (missesBlanks_word ['n', 'd']
        [.greedy isBlank, .lineEnd] (by decide : isBlank 'e' = false)) place
      rw [closePattern, first?_lineStart, skip.2, first?_word, finish.2]
      rfl
  | inline =>
      rw [closePattern, first?_word, finish.1]
      rfl

theorem first?_openPattern (kind : Kind) (rest : Pattern) :
    first? (kind.openPattern ++ rest) =
      fun place => (kind.open? place).bind (first? rest) := by
  funext place
  cases kind with
  | block =>
      have skip := first?_blanks (missesBlanks_word ['i', 'g', ' ', 'd', 'o']
        (.greedy isBlank :: .lineEnd :: rest)
        (by decide : isBlank 's' = false)) place
      simp only [openPattern, List.cons_append, List.append_assoc,
        List.nil_append, first?_lineStart]
      rw [skip.2, first?_word, (first?_finishLine rest).2]
      unfold open?
      split <;> simp [Option.bind_assoc]
  | inline =>
      have skip := first?_blanks (missesBlanks_word ['i', 'g', ' ', '{'] rest
        (by decide : isBlank 's' = false)) place
      simp only [openPattern, List.cons_append, first?_lineStart]
      rw [skip.2, first?_word]
      unfold open?
      split <;> simp

/-- The matcher reports the match that a backtracking search prefers. -/
theorem first?_pattern (kind : Kind) :
    first? kind.pattern = kind.match? := by
  have seeks : first? (.lazy (fun _ => true) :: kind.closePattern) =
      fun opened => opened.seek kind.close? := by
    funext opened
    rw [first?_lazy_any, first?_closePattern]
  rw [pattern, first?_openPattern, seeks]
  rfl

end Kind

end Signature

end SignatureVeil
