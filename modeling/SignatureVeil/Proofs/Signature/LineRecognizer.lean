import SignatureVeil.Proofs.Signature.Occurrence
import SignatureVeil.Proofs.Text.Lines

/-!
# Lines that open and close a signature

Whether a line opens a signature, and whether it closes one, can be said from
its content alone.  The matcher looks at places and at what stands next to
them; at the start of a line it finds an opening or a closing exactly when the
line is of that sort.
-/

namespace SignatureVeil

/-- A word without the blanks at its ends. -/
def trimBlanks (word : List Char) : List Char :=
  ((word.dropWhile isBlank).reverse.dropWhile isBlank).reverse

namespace Signature

namespace Kind

/-- What a line goes on with behind the opening at its beginning.  A block
opens with a whole line, so nothing is left of it. -/
def opener? (kind : Kind) (content : List Char) : Option (List Char) :=
  match kind with
  | .block =>
      if trimBlanks content = ['s', 'i', 'g', ' ', 'd', 'o'] then
        some []
      else
        none
  | .inline =>
      (content.dropWhile isBlank).dropPrefix? ['s', 'i', 'g', ' ', '{']

/-- Whether a line closes a signature.  A block closes with a whole line, and
an inline signature with the last character that is no blank. -/
def isCloser (kind : Kind) (content : List Char) : Bool :=
  match kind with
  | .block => trimBlanks content = ['e', 'n', 'd']
  | .inline => (content.reverse.dropWhile isBlank).head? = some '}'

end Kind

/-! ## Openers and closers are recognized -/

theorem dropWhile_isBlank_append {lead rest : List Char} (blank : Blanks lead)
    (stopped : ∀ character ∈ rest.head?, isBlank character = false) :
    (lead ++ rest).dropWhile isBlank = rest := by
  rw [List.dropWhile_append_of_pos blank]
  cases rest with
  | nil => rfl
  | cons character rest =>
      exact List.dropWhile_cons_of_neg (by simp [stopped character rfl])

theorem exists_blanks_dropWhile (word : List Char) :
    ∃ lead, Blanks lead ∧ word = lead ++ word.dropWhile isBlank := by
  refine ⟨word.takeWhile isBlank, ?_, List.takeWhile_append_dropWhile.symm⟩
  intro character member
  exact List.all_eq_true.mp List.all_takeWhile character member

theorem exists_blanks_around (content : List Char) :
    ∃ lead trail, Blanks lead ∧ Blanks trail ∧
      content = lead ++ trimBlanks content ++ trail := by
  obtain ⟨lead, leadBlank, contentEq⟩ := exists_blanks_dropWhile content
  obtain ⟨trail, trailBlank, restEq⟩ :=
    exists_blanks_dropWhile (content.dropWhile isBlank).reverse
  refine ⟨lead, trail.reverse, leadBlank, trailBlank.reverse, ?_⟩
  have restEq' := congrArg List.reverse restEq
  rw [List.reverse_reverse, List.reverse_append] at restEq'
  rw [List.append_assoc, trimBlanks, ← restEq']
  exact contentEq

theorem trimBlanks_eq_iff (content : List Char) {word : List Char}
    (begins : ∀ character ∈ word.head?, isBlank character = false)
    (ends : ∀ character ∈ word.getLast?, isBlank character = false)
    (nonempty : word ≠ []) :
    trimBlanks content = word ↔ ∃ lead trail, Blanks lead ∧ Blanks trail ∧
      content = lead ++ word ++ trail := by
  constructor
  · rintro rfl
    exact exists_blanks_around content
  · rintro ⟨lead, trail, leadBlank, trailBlank, rfl⟩
    have wordBegins :
        ∀ character ∈ (word ++ trail).head?, isBlank character = false := by
      rwa [List.head?_append_of_ne_nil _ nonempty]
    have wordEnds :
        ∀ character ∈ word.reverse.head?, isBlank character = false := by
      rwa [List.head?_reverse]
    rw [trimBlanks, List.append_assoc,
      dropWhile_isBlank_append leadBlank wordBegins, List.reverse_append,
      dropWhile_isBlank_append trailBlank.reverse wordEnds,
      List.reverse_reverse]

namespace Kind

theorem opener?_eq_some_iff {kind : Kind} {content remainder : List Char} :
    kind.opener? content = some remainder ↔
      match kind with
      | .block => remainder = [] ∧ ∃ lead trail, Blanks lead ∧ Blanks trail ∧
          content = lead ++ ['s', 'i', 'g', ' ', 'd', 'o'] ++ trail
      | .inline => ∃ lead, Blanks lead ∧
          content = lead ++ ['s', 'i', 'g', ' ', '{'] ++ remainder := by
  cases kind with
  | block =>
      have trimmed : trimBlanks content = ['s', 'i', 'g', ' ', 'd', 'o'] ↔ _ :=
        trimBlanks_eq_iff content (by simp [isBlank]) (by simp [isBlank])
          (by simp)
      simp only [opener?, ← trimmed]
      split <;> simp_all [eq_comm]
  | inline =>
      simp only [opener?, List.dropPrefix?_eq_some_iff, beq_iff_eq]
      constructor
      · rintro ⟨_, restEq, rfl⟩
        obtain ⟨lead, leadBlank, contentEq⟩ := exists_blanks_dropWhile content
        refine ⟨lead, leadBlank, ?_⟩
        rw [List.append_assoc, ← restEq]
        exact contentEq
      · rintro ⟨lead, leadBlank, rfl⟩
        refine ⟨_, ?_, rfl⟩
        rw [List.append_assoc, dropWhile_isBlank_append leadBlank]
        intro character follows
        obtain rfl : 's' = character := by simpa using follows
        decide

theorem isCloser_iff {kind : Kind} {content : List Char} :
    kind.isCloser content = true ↔
      match kind with
      | .block => ∃ lead trail, Blanks lead ∧ Blanks trail ∧
          content = lead ++ ['e', 'n', 'd'] ++ trail
      | .inline => ∃ inner trail, Blanks trail ∧
          content = inner ++ '}' :: trail := by
  cases kind with
  | block =>
      simp only [isCloser, decide_eq_true_eq]
      exact trimBlanks_eq_iff content (by simp [isBlank]) (by simp [isBlank])
        (by simp)
  | inline =>
      simp only [isCloser, decide_eq_true_eq, List.head?_eq_some_iff]
      constructor
      · rintro ⟨inner, restEq⟩
        obtain ⟨trail, trailBlank, contentEq⟩ :=
          exists_blanks_dropWhile content.reverse
        refine ⟨inner.reverse, trail.reverse, trailBlank.reverse, ?_⟩
        rw [restEq] at contentEq
        simpa using congrArg List.reverse contentEq
      · rintro ⟨inner, trail, trailBlank, rfl⟩
        refine ⟨inner.reverse, ?_⟩
        rw [List.reverse_append, List.reverse_cons, List.append_assoc,
          dropWhile_isBlank_append trailBlank.reverse]
        · rfl
        · intro character follows
          obtain rfl : '}' = character := by simpa using follows
          decide

/-! ## The matcher in one line -/

section Line

variable {kind : Kind} {before content ending rest remainder : List Char}

theorem open?_eq_none_of_opener? (ends : Ending ending rest)
    (unbroken : Unbroken content) (noOpener : kind.opener? content = none) :
    kind.open? ⟨before, content ++ (ending ++ rest)⟩ = none := by
  by_contra found
  obtain ⟨opened, found⟩ := Option.ne_none_iff_exists'.mp found
  have opens := open?_eq_some_iff.mp found
  have isOpener : ∃ remainder, kind.opener? content = some remainder := by
    cases kind with
    | block =>
        obtain ⟨-, lineEnd, lead, trail, leadBlank, trailBlank, reads⟩ := opens
        have word : Unbroken ['s', 'i', 'g', ' ', 'd', 'o'] := by
          simp [Unbroken]
        obtain ⟨remainder, rfl, rfl⟩ := exists_remainder ends
          ((leadBlank.unbroken.append word).append trailBlank.unbroken) reads
        obtain rfl := eq_nil_of_atLineEnd unbroken.right lineEnd
        exact ⟨[], opener?_eq_some_iff.mpr
          ⟨rfl, lead, trail, leadBlank, trailBlank, by simp⟩⟩
    | inline =>
        obtain ⟨-, lead, leadBlank, reads⟩ := opens
        have word : Unbroken ['s', 'i', 'g', ' ', '{'] := by simp [Unbroken]
        obtain ⟨remainder, rfl, -⟩ := exists_remainder ends
          (leadBlank.unbroken.append word) reads
        exact ⟨remainder, opener?_eq_some_iff.mpr ⟨lead, leadBlank, rfl⟩⟩
  obtain ⟨remainder, isOpener⟩ := isOpener
  simp [noOpener] at isOpener

theorem exists_open?_of_opener? (ends : Ending ending rest)
    (unbroken : Unbroken content)
    (lineStart :
      Place.atLineStart ⟨before, content ++ (ending ++ rest)⟩ = true)
    (isOpener : kind.opener? content = some remainder) :
    ∃ opening, opening ≠ [] ∧ content = opening ++ remainder ∧
      kind.open? ⟨before, content ++ (ending ++ rest)⟩ =
        some ⟨opening.reverse ++ before, remainder ++ (ending ++ rest)⟩ := by
  cases kind with
  | block =>
      obtain ⟨rfl, lead, trail, leadBlank, trailBlank, rfl⟩ :=
        opener?_eq_some_iff.mp isOpener
      have lineEnd := atLineEnd_of_ending before ends unbroken (by simp)
      exact ⟨_, by simp, (List.append_nil _).symm, open?_eq_some_iff.mpr
        ⟨lineStart, lineEnd, lead, trail, leadBlank, trailBlank, rfl, rfl⟩⟩
  | inline =>
      obtain ⟨lead, leadBlank, rfl⟩ := opener?_eq_some_iff.mp isOpener
      exact ⟨_, by simp, rfl, open?_eq_some_iff.mpr
        ⟨lineStart, lead, leadBlank, by simp, rfl⟩⟩

/-- A closing in a line ends with the line, and makes it a closer. -/
theorem Closes.in_line {inner : List Char} {closing stop : Place}
    (closes : kind.Closes closing stop) (ends : Ending ending rest)
    (unbroken : Unbroken content) (innerUnbroken : Unbroken inner)
    (reads : Place.Reads ⟨before, content ++ (ending ++ rest)⟩ inner closing) :
    stop = ⟨content.reverse ++ before, ending ++ rest⟩ ∧
      kind.isCloser content = true := by
  obtain ⟨word, -, wordUnbroken, toStop⟩ := closes.reads
  obtain ⟨left, rfl, rfl⟩ := exists_remainder ends
    (innerUnbroken.append wordUnbroken) (reads.trans toStop)
  obtain rfl := eq_nil_of_atLineEnd unbroken.right closes.1
  refine ⟨by simp, isCloser_iff.mpr ?_⟩
  cases kind with
  | block =>
      obtain ⟨-, lineStart, lead, trail, leadBlank, trailBlank, toStop'⟩ :=
        closes
      have startsLine : inner = [] := by
        by_contra nonempty
        have := reads.atLineStart_eq_false innerUnbroken nonempty
        simp [lineStart] at this
      subst startsLine
      have wordEq := toStop.word_unique toStop'
      exact ⟨lead, trail, leadBlank, trailBlank, by simpa using wordEq⟩
  | inline =>
      obtain ⟨-, trail, trailBlank, toStop'⟩ := closes
      have wordEq := toStop.word_unique toStop'
      exact ⟨inner, trail, trailBlank, by simp [wordEq]⟩

/-- A closer holds a closing.  A block must close with the whole line. -/
theorem exists_closes_of_isCloser (ends : Ending ending rest)
    (unbroken : Unbroken content) (isCloser : kind.isCloser content = true)
    (wholeLine : kind = .block →
      Place.atLineStart ⟨before, content ++ (ending ++ rest)⟩ = true) :
    ∃ inner closing, Unbroken inner ∧
      Place.Reads ⟨before, content ++ (ending ++ rest)⟩ inner closing ∧
      kind.Closes closing ⟨content.reverse ++ before, ending ++ rest⟩ := by
  cases kind with
  | block =>
      obtain ⟨lead, trail, leadBlank, trailBlank, rfl⟩ :=
        isCloser_iff.mp isCloser
      exact ⟨[], _, by simp [Unbroken], .refl _,
        atLineEnd_of_ending before ends unbroken (by simp), wholeLine rfl,
        lead, trail, leadBlank, trailBlank, rfl, rfl⟩
  | inline =>
      obtain ⟨inner, trail, trailBlank, rfl⟩ := isCloser_iff.mp isCloser
      refine ⟨inner,
        ⟨inner.reverse ++ before, '}' :: trail ++ (ending ++ rest)⟩,
        unbroken.left, ⟨by simp, rfl⟩,
        atLineEnd_of_ending before ends unbroken (by simp),
        trail, trailBlank, rfl, by simp⟩

/-- In a line that is a closer the nearest closing ends with the line. -/
theorem seek_of_isCloser (ends : Ending ending rest)
    (unbroken : Unbroken content) (isCloser : kind.isCloser content = true)
    (wholeLine : kind = .block →
      Place.atLineStart ⟨before, content ++ (ending ++ rest)⟩ = true) :
    Place.seek kind.close? ⟨before, content ++ (ending ++ rest)⟩ =
      some ⟨content.reverse ++ before, ending ++ rest⟩ := by
  obtain ⟨inner, closing, innerUnbroken, reads, closes⟩ :=
    exists_closes_of_isCloser ends unbroken isCloser wholeLine
  have closes? := close?_eq_some_iff.mpr closes
  cases sought : Place.seek kind.close?
      ⟨before, content ++ (ending ++ rest)⟩ with
  | none =>
      have := Place.seek_eq_none_iff.mp sought inner closing reads
      simp [closes?] at this
  | some stop =>
      obtain ⟨inner', closing', reads', found, nothing⟩ :=
        Place.seek_eq_some_iff.mp sought
      rcases reads'.compare reads with
        ⟨more, rfl, -⟩ | ⟨more, nonempty, -, earlier⟩
      · have stopEq := ((close?_eq_some_iff.mp found).in_line ends unbroken
          innerUnbroken.left reads').1
        rw [stopEq]
      · have := nothing inner closing more reads earlier nonempty
        simp [closes?] at this

/-- A line that is no closer is passed over. -/
theorem seek_of_not_isCloser (ends : Ending ending rest)
    (unbroken : Unbroken content)
    (noCloser : kind.isCloser content = false) :
    Place.seek kind.close? ⟨before, content ++ (ending ++ rest)⟩ =
      Place.seek kind.close?
        ⟨ending.reverse ++ (content.reverse ++ before), rest⟩ := by
  rw [← List.append_assoc, Place.seek_append, List.reverse_append,
    List.append_assoc]
  intro earlier more inside unfinished
  rcases ends.place_in_line inside unfinished with
    ⟨left, -, rfl⟩ | ⟨character, left, rfl, isBreak⟩
  · by_contra found
    obtain ⟨stop, found⟩ := Option.ne_none_iff_exists'.mp found
    have lineEq : earlier ++ left ++ (ending ++ rest) =
        earlier ++ (more ++ rest) := by
      rw [← List.append_assoc, inside, List.append_assoc]
    have isCloser := ((close?_eq_some_iff.mp found).in_line ends unbroken
      unbroken.left ⟨lineEq, rfl⟩).2
    simp [noCloser] at isCloser
  · exact close?_eq_none_of_break kind isBreak

end Line

end Kind

end Signature

end SignatureVeil
