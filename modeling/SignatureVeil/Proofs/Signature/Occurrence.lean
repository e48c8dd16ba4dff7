import SignatureVeil.Proofs.Text.Places
import SignatureVeil.Signature.Matcher

/-!
# Where signatures occur

An occurrence of a signature is described without a search: an opening, any
characters, and a closing.  This file proves that the matcher recognizes
openings and closings exactly, and that it ends a signature at the nearest
place at which an occurrence with the same start ends.
-/

namespace SignatureVeil

namespace Signature

namespace Kind

/-- An opening leads from `start` to `opened`.  An opening of a block is a
whole line, and an inline signature opens at the beginning of a line. -/
def Opens (kind : Kind) (start opened : Place) : Prop :=
  start.atLineStart = true ∧
    match kind with
    | .block =>
        opened.atLineEnd = true ∧
          ∃ lead trail, Blanks lead ∧ Blanks trail ∧
            start.Reads (lead ++ ['s', 'i', 'g', ' ', 'd', 'o'] ++ trail)
              opened
    | .inline =>
        ∃ lead, Blanks lead ∧
          start.Reads (lead ++ ['s', 'i', 'g', ' ', '{']) opened

/-- A closing leads from `closing` to `stop`.  A closing of a block is a whole
line, and an inline signature closes at the end of a line. -/
def Closes (kind : Kind) (closing stop : Place) : Prop :=
  stop.atLineEnd = true ∧
    match kind with
    | .block =>
        closing.atLineStart = true ∧
          ∃ lead trail, Blanks lead ∧ Blanks trail ∧
            closing.Reads (lead ++ ['e', 'n', 'd'] ++ trail) stop
    | .inline => ∃ trail, Blanks trail ∧ closing.Reads ('}' :: trail) stop

/-- A signature reaches from `start` to `stop`: an opening, any characters,
and a closing. -/
def Occurs (kind : Kind) (start stop : Place) : Prop :=
  ∃ opened inner closing, kind.Opens start opened ∧
    opened.Reads inner closing ∧ kind.Closes closing stop

/-- Blanks are moved over up to a word that does not begin with one. -/
theorem skipBlanks_eq_of_word {place ahead next : Place}
    {lead word : List Char} {initial : Char} (toAhead : place.Reads lead ahead)
    (leadBlank : Blanks lead) (fromAhead : ahead.Reads (initial :: word) next)
    (ink : isBlank initial = false) : place.skipBlanks = ahead := by
  apply Place.skipBlanks_eq toAhead leadBlank
  intro character follows
  have : initial = character := by simpa [fromAhead.after_eq] using follows
  rwa [← this]

/-- Moving over blanks and then over a word reads the blanks and the word. -/
theorem skipBlanks_skipWord?_eq_some_iff {place next : Place}
    {word : List Char} {initial : Char} (ink : isBlank initial = false) :
    place.skipBlanks.skipWord? (initial :: word) = some next ↔
      ∃ lead, Blanks lead ∧ place.Reads (lead ++ initial :: word) next := by
  rw [Place.skipWord?_eq_some_iff]
  constructor
  · intro reads
    obtain ⟨lead, leadBlank, toAhead, -⟩ :=
      Place.exists_reads_skipBlanks place
    exact ⟨lead, leadBlank, toAhead.trans reads⟩
  · rintro ⟨lead, leadBlank, reads⟩
    obtain ⟨ahead, toAhead, fromAhead⟩ := reads.split
    rwa [skipBlanks_eq_of_word toAhead leadBlank fromAhead ink]

/-- Going on to the end of a line reads blanks only. -/
theorem bind_finishLine?_eq_some_iff {behind? : Option Place}
    {next : Place} :
    behind?.bind Place.finishLine? = some next ↔
      next.atLineEnd = true ∧ ∃ behind trail, behind? = some behind ∧
        Blanks trail ∧ behind.Reads trail next := by
  rw [Option.bind_eq_some_iff]
  constructor
  · rintro ⟨behind, found, finished⟩
    obtain ⟨trail, trailBlank, reads, -⟩ :=
      Place.exists_reads_skipBlanks behind
    unfold Place.finishLine? at finished
    split at finished
    case isTrue lineEnd =>
      obtain rfl := Option.some.inj finished
      exact ⟨lineEnd, behind, trail, found, trailBlank, reads⟩
    case isFalse => simp at finished
  · rintro ⟨lineEnd, behind, trail, found, trailBlank, reads⟩
    have skipped := Place.skipBlanks_eq reads trailBlank
      (Place.not_blank_of_atLineEnd lineEnd)
    exact ⟨behind, found, by simp [Place.finishLine?, skipped, lineEnd]⟩

/-- A word between blanks that ends a line is recognized exactly. -/
theorem wholeLine_eq_some_iff {place next : Place} {word : List Char}
    {initial : Char} (ink : isBlank initial = false) :
    (place.skipBlanks.skipWord? (initial :: word)).bind Place.finishLine? =
        some next ↔
      next.atLineEnd = true ∧ ∃ lead trail, Blanks lead ∧ Blanks trail ∧
        place.Reads (lead ++ initial :: word ++ trail) next := by
  rw [bind_finishLine?_eq_some_iff]
  refine and_congr_right fun _ => ?_
  constructor
  · rintro ⟨behind, trail, found, trailBlank, reads⟩
    obtain ⟨lead, leadBlank, reads'⟩ :=
      (skipBlanks_skipWord?_eq_some_iff ink).mp found
    exact ⟨lead, trail, leadBlank, trailBlank, reads'.trans reads⟩
  · rintro ⟨lead, trail, leadBlank, trailBlank, reads⟩
    obtain ⟨behind, toBehind, fromBehind⟩ := reads.split
    exact ⟨behind, trail, (skipBlanks_skipWord?_eq_some_iff ink).mpr
      ⟨lead, leadBlank, toBehind⟩, trailBlank, fromBehind⟩

theorem open?_eq_some_iff {kind : Kind} {start opened : Place} :
    kind.open? start = some opened ↔ kind.Opens start opened := by
  cases lineStart : start.atLineStart with
  | false => simp [open?, Opens, lineStart]
  | true =>
      simp only [open?, Opens, lineStart, if_true, true_and]
      cases kind with
      | block => exact wholeLine_eq_some_iff (by decide)
      | inline => exact skipBlanks_skipWord?_eq_some_iff (by decide)

theorem close?_eq_some_iff {kind : Kind} {closing stop : Place} :
    kind.close? closing = some stop ↔ kind.Closes closing stop := by
  cases kind with
  | block =>
      cases lineStart : closing.atLineStart with
      | false => simp [close?, Closes, lineStart]
      | true =>
          simp only [close?, Closes, lineStart, if_true, true_and]
          exact wholeLine_eq_some_iff (by decide)
  | inline =>
      simp only [close?, Closes, bind_finishLine?_eq_some_iff,
        Place.skipWord?_eq_some_iff]
      refine and_congr_right fun _ => ?_
      constructor
      · rintro ⟨behind, trail, toBehind, trailBlank, reads⟩
        exact ⟨trail, trailBlank, toBehind.trans reads⟩
      · rintro ⟨trail, trailBlank, reads⟩
        have reads' : closing.Reads (['}'] ++ trail) stop := reads
        obtain ⟨behind, toBehind, fromBehind⟩ := reads'.split
        exact ⟨behind, trail, toBehind, trailBlank, fromBehind⟩

/-! ## The nearest closing -/

/-- An opening is a word without a line break. -/
theorem Opens.reads {kind : Kind} {start opened : Place}
    (opens : kind.Opens start opened) :
    ∃ word, word ≠ [] ∧ Unbroken word ∧ start.Reads word opened := by
  cases kind with
  | block =>
      obtain ⟨-, -, lead, trail, leadBlank, trailBlank, line⟩ := opens
      have word : Unbroken ['s', 'i', 'g', ' ', 'd', 'o'] := by
        simp [Unbroken]
      exact ⟨_, by simp,
        (leadBlank.unbroken.append word).append trailBlank.unbroken, line⟩
  | inline =>
      obtain ⟨-, lead, leadBlank, line⟩ := opens
      have word : Unbroken ['s', 'i', 'g', ' ', '{'] := by simp [Unbroken]
      exact ⟨_, by simp, leadBlank.unbroken.append word, line⟩

/-- A closing is a word without a line break. -/
theorem Closes.reads {kind : Kind} {closing stop : Place}
    (closes : kind.Closes closing stop) :
    ∃ word, word ≠ [] ∧ Unbroken word ∧ closing.Reads word stop := by
  cases kind with
  | block =>
      obtain ⟨-, -, lead, trail, leadBlank, trailBlank, line⟩ := closes
      have word : Unbroken ['e', 'n', 'd'] := by simp [Unbroken]
      exact ⟨_, by simp,
        (leadBlank.unbroken.append word).append trailBlank.unbroken, line⟩
  | inline =>
      obtain ⟨-, trail, trailBlank, line⟩ := closes
      exact ⟨_, by simp, trailBlank.unbroken.cons (by decide) (by decide),
        line⟩

/-- A closing ends before any later one begins. -/
theorem Closes.offset_le {kind : Kind} {closing stop closing' stop' : Place}
    {more : List Char} (closes : kind.Closes closing stop)
    (closes' : kind.Closes closing' stop')
    (reads : closing.Reads more closing') (later : more ≠ []) :
    stop.offset ≤ closing'.offset := by
  cases kind with
  | block =>
      obtain ⟨word, -, unbroken, line⟩ := closes.reads
      obtain ⟨-, lineStart, -⟩ := closes'
      rcases line.compare reads with
        ⟨rest, -, fromStop⟩ | ⟨rest, -, rfl, -⟩
      · exact fromStop.offset_le
      · -- The later closing would begin within the line of the first one.
        have inLine := reads.atLineStart_eq_false unbroken.left later
        simp [lineStart] at inLine
  | inline =>
      obtain ⟨-, trail, trailBlank, line⟩ := closes
      obtain ⟨-, trail', -, line'⟩ := closes'
      rcases line.compare reads with
        ⟨rest, -, fromStop⟩ | ⟨rest, nonempty, lineEq, fromClosing⟩
      · exact fromStop.offset_le
      · -- The later closing would begin with a blank.
        obtain ⟨character, member, follows⟩ :=
          fromClosing.exists_next nonempty
        have inTrail : character ∈ trail := by
          cases more with
          | nil => exact absurd rfl later
          | cons initial more =>
              have : trail = more ++ rest := by simp_all
              simp [this, member]
        have closingBrace : '}' = character := by
          simpa [line'.after_eq] using follows
        have blank := trailBlank _ inTrail
        rw [← closingBrace] at blank
        exact absurd blank (by decide)

theorem Opens.unique {kind : Kind} {start opened opened' : Place}
    (opens : kind.Opens start opened) (opens' : kind.Opens start opened') :
    opened = opened' :=
  Option.some.inj ((open?_eq_some_iff.mpr opens).symm.trans
    (open?_eq_some_iff.mpr opens'))

theorem Closes.unique {kind : Kind} {closing stop stop' : Place}
    (closes : kind.Closes closing stop) (closes' : kind.Closes closing stop') :
    stop = stop' :=
  Option.some.inj ((close?_eq_some_iff.mpr closes).symm.trans
    (close?_eq_some_iff.mpr closes'))

theorem close?_eq_none_of_break (kind : Kind) {before rest : List Char}
    {character : Char} (isBreak : character = '\n' ∨ character = '\r') :
    kind.close? ⟨before, character :: rest⟩ = none := by
  by_contra found
  obtain ⟨stop, found⟩ := Option.ne_none_iff_exists'.mp found
  obtain ⟨word, nonempty, unbroken, reads⟩ :=
    (close?_eq_some_iff.mp found).reads
  obtain ⟨other, member, follows⟩ := reads.exists_next nonempty
  obtain rfl := Option.some.inj follows
  exact unbroken _ member isBreak

/-! ## The matcher finds the nearest end -/

theorem Occurs.atLineStart {kind : Kind} {start stop : Place}
    (occurs : kind.Occurs start stop) : start.atLineStart = true := by
  obtain ⟨_, _, _, opens, _, _⟩ := occurs
  exact opens.1

/-- A signature ends within a line. -/
theorem Occurs.atLineStart_stop {kind : Kind} {start stop : Place}
    (occurs : kind.Occurs start stop) : stop.atLineStart = false := by
  obtain ⟨_, _, _, _, _, closes⟩ := occurs
  obtain ⟨ending, nonempty, unbroken, toStop⟩ := closes.reads
  exact toStop.atLineStart_eq_false unbroken nonempty

theorem Occurs.reads {kind : Kind} {start stop : Place}
    (occurs : kind.Occurs start stop) :
    ∃ word, word ≠ [] ∧ start.Reads word stop := by
  obtain ⟨opened, inner, closing, opens, between, closes⟩ := occurs
  obtain ⟨opening, nonempty, -, toOpened⟩ := opens.reads
  obtain ⟨ending, -, -, toStop⟩ := closes.reads
  exact ⟨opening ++ inner ++ ending, by simp [nonempty],
    (toOpened.trans between).trans toStop⟩

theorem match?_eq_none_iff {kind : Kind} {start : Place} :
    kind.match? start = none ↔ ∀ stop, ¬ kind.Occurs start stop := by
  simp only [match?, Option.bind_eq_none_iff, Place.seek_eq_none_iff]
  constructor
  · rintro nothing stop ⟨opened, inner, closing, opens, reads, closes⟩
    have := nothing opened (open?_eq_some_iff.mpr opens) inner closing reads
    simp [close?_eq_some_iff.mpr closes] at this
  · intro nothing opened opens inner closing reads
    cases closes : kind.close? closing with
    | none => rfl
    | some stop =>
        exact absurd ⟨opened, inner, closing, open?_eq_some_iff.mp opens,
          reads, close?_eq_some_iff.mp closes⟩ (nothing stop)

theorem match?_eq_none_of_atLineStart (kind : Kind) {place : Place}
    (inLine : place.atLineStart = false) : kind.match? place = none := by
  rw [match?_eq_none_iff]
  intro stop occurs
  simp [occurs.atLineStart] at inLine

theorem match?_eq_none_of_break (kind : Kind) {before rest : List Char}
    {character : Char} (isBreak : character = '\n' ∨ character = '\r') :
    kind.match? ⟨before, character :: rest⟩ = none := by
  rw [match?_eq_none_iff]
  rintro stop ⟨opened, inner, closing, opens, -⟩
  obtain ⟨word, nonempty, unbroken, reads⟩ := opens.reads
  obtain ⟨other, member, follows⟩ := reads.exists_next nonempty
  obtain rfl := Option.some.inj follows
  exact unbroken _ member isBreak

theorem match?_atEnd (kind : Kind) (before : List Char) :
    kind.match? ⟨before, []⟩ = none := by
  rw [match?_eq_none_iff]
  intro stop occurs
  obtain ⟨word, nonempty, reads⟩ := occurs.reads
  obtain ⟨character, -, follows⟩ := reads.exists_next nonempty
  simp at follows

theorem occurs_of_match? {kind : Kind} {start stop : Place}
    (found : kind.match? start = some stop) : kind.Occurs start stop := by
  obtain ⟨opened, opens, sought⟩ := Option.bind_eq_some_iff.mp found
  obtain ⟨inner, closing, reads, closes, -⟩ :=
    Place.seek_eq_some_iff.mp sought
  exact ⟨opened, inner, closing, open?_eq_some_iff.mp opens, reads,
    close?_eq_some_iff.mp closes⟩

theorem offset_le_of_match? {kind : Kind} {start stop other : Place}
    (found : kind.match? start = some stop) (occurs : kind.Occurs start other) :
    stop.offset ≤ other.offset := by
  obtain ⟨opened, opens, sought⟩ := Option.bind_eq_some_iff.mp found
  obtain ⟨inner, closing, reads, closes, nothing⟩ :=
    Place.seek_eq_some_iff.mp sought
  obtain ⟨opened', inner', closing', opens', reads', closes'⟩ := occurs
  obtain rfl := (open?_eq_some_iff.mp opens).unique opens'
  have closes := close?_eq_some_iff.mp closes
  rcases reads.compare reads' with
    ⟨more, -, later⟩ | ⟨more, nonempty, -, earlier⟩
  · by_cases same : more = []
    · subst same
      obtain rfl := later.eq_of_nil
      exact Nat.le_of_eq (congrArg Place.offset (closes.unique closes'))
    · obtain ⟨ending, -, -, toOther⟩ := closes'.reads
      have := closes.offset_le closes' later same
      have := toOther.offset_le
      omega
  · have missed := nothing inner' closing' more reads' earlier nonempty
    simp [close?_eq_some_iff.mpr closes'] at missed

/-- The matcher yields the nearest end of the occurrences that start at a
place. -/
theorem match?_eq_some_iff {kind : Kind} {start stop : Place} :
    kind.match? start = some stop ↔ kind.Occurs start stop ∧
      ∀ other, kind.Occurs start other → stop.offset ≤ other.offset := by
  constructor
  · intro found
    exact ⟨occurs_of_match? found, fun other => offset_le_of_match? found⟩
  · rintro ⟨occurs, nearest⟩
    cases found : kind.match? start with
    | none => exact absurd occurs (match?_eq_none_iff.mp found stop)
    | some other =>
        have occurs' := occurs_of_match? found
        obtain ⟨word, -, reads⟩ := occurs.reads
        obtain ⟨word', -, reads'⟩ := occurs'.reads
        have := offset_le_of_match? found occurs
        have := nearest other occurs'
        rw [reads.eq_of_offset_eq reads' (by omega)]

section Walk

variable {kind : Kind} {resume : Nat} {before rest : List Char}
  {character : Char}

/-- The walk goes on to the next place if the last region is not over, or if
no signature starts at the present one. -/
theorem regionsFrom_cons_of_passed
    (passed : ¬ resume ≤ utf8Width before ∨
      kind.match? ⟨before, character :: rest⟩ = none) :
    kind.regionsFrom resume (utf8Width before) before (character :: rest) =
      kind.regionsFrom resume (utf8Width (character :: before))
        (character :: before) rest := by
  simp only [regionsFrom, utf8Width, Nat.add_comm character.utf8Size]
  rcases passed with lasting | missed
  · simp only [lasting, if_false]
  · simp only [missed, ite_self]

/-- A signature that starts behind the last region is the next region. -/
theorem regionsFrom_cons_of_match? {stop : Place}
    (resumed : resume ≤ utf8Width before)
    (found : kind.match? ⟨before, character :: rest⟩ = some stop) :
    kind.regionsFrom resume (utf8Width before) before (character :: rest) =
      ⟨kind, utf8Width before, stop.offset⟩ ::
        kind.regionsFrom stop.offset (utf8Width (character :: before))
          (character :: before) rest := by
  simp only [regionsFrom, utf8Width, Nat.add_comm character.utf8Size, resumed,
    found, if_true]

end Walk

end Kind

end Signature

end SignatureVeil
