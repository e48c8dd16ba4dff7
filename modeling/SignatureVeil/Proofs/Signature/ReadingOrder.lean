import SignatureVeil.Proofs.Coordinator.Course
import SignatureVeil.Proofs.Signature.Composition
import SignatureVeil.Proofs.Signature.FoldTargets

/-!
# Ranges in reading order

Positions are in the same order as the boundaries of a text that their offsets
stand for, so two offsets have the same position only if they stand for the
same boundary.  A signature never starts where another one of its kind ends.
So the ranges of one kind are not empty and follow each other with something
in between, and none of them is lost when they are drawn.
-/

namespace SignatureVeil

/-! ## The order of positions -/

namespace Position

/-- Reading order. -/
instance : LT Position where
  lt first second := first.compare second = .lt

instance : LE Position where
  le first second := (first.compare second).isLE = true

theorem compare_eq (first second : Position) :
    first.compare second =
      (Ord.compare first.line.toNat second.line.toNat).then
        (Ord.compare first.character.toNat second.character.toNat) := by
  rw [compare, UInt32.compare_eq_toNat_compare_toNat,
    UInt32.compare_eq_toNat_compare_toNat]

theorem compare_self (position : Position) :
    position.compare position = .eq := by
  rw [compare_eq, Nat.compare_eq_eq.mpr rfl, Nat.compare_eq_eq.mpr rfl]
  rfl

theorem compare_swap (first second : Position) :
    (first.compare second).swap = second.compare first := by
  rw [compare_eq, compare_eq, Ordering.swap_then, Nat.compare_swap,
    Nat.compare_swap]

theorem compare_eq_eq_iff {first second : Position} :
    first.compare second = .eq ↔ first = second := by
  constructor
  · intro same
    rw [compare_eq, Ordering.then_eq_eq, Nat.compare_eq_eq,
      Nat.compare_eq_eq, UInt32.toNat_inj, UInt32.toNat_inj] at same
    cases first
    cases second
    rw [mk.injEq]
    exact same
  · rintro rfl
    exact compare_self first

theorem lt_of_line_lt {first second : Position}
    (above : first.line.toNat < second.line.toNat) : first < second := by
  change first.compare second = .lt
  rw [compare_eq, Nat.compare_eq_lt.mpr above]
  rfl

theorem lt_of_character_lt {first second : Position}
    (sameLine : first.line.toNat = second.line.toNat)
    (left : first.character.toNat < second.character.toNat) :
    first < second := by
  change first.compare second = .lt
  rw [compare_eq, Nat.compare_eq_eq.mpr sameLine, Nat.compare_eq_lt.mpr left]
  rfl

end Position

/-! ## Positions and boundaries -/

/-- A boundary is the last one of a text at or before an offset, where an
offset behind the text counts as its end. -/
def StandsFor (text : List Char) (offset boundary : Nat) : Prop :=
  IsGreatest {cut | IsCut text cut ∧ cut ≤ min offset (utf8Width text)}
    boundary

theorem exists_standsFor (text : List Char) (offset : Nat) :
    ∃ boundary, StandsFor text offset boundary := by
  obtain ⟨boundary, -, greatest⟩ :=
    snapBack_spec text (min offset (utf8Width text))
  exact ⟨boundary, greatest⟩

section Boundaries

variable {text : List Char} {offset offset' boundary boundary' : Nat}

theorem IsCut.le_utf8Width (isCut : IsCut text offset) :
    offset ≤ utf8Width text := by
  obtain ⟨front, back, rfl, rfl⟩ := isCut
  rw [utf8Width_append]
  exact Nat.le_add_right _ _

/-- A boundary stands for itself. -/
theorem IsCut.standsFor (isCut : IsCut text offset) :
    StandsFor text offset offset :=
  ⟨⟨isCut, Nat.le_min.mpr ⟨Nat.le_refl _, isCut.le_utf8Width⟩⟩,
    fun _ inside => inside.2.trans (Nat.min_le_left _ _)⟩

theorem StandsFor.unique (stands : StandsFor text offset boundary)
    (stands' : StandsFor text offset boundary') : boundary = boundary' :=
  IsGreatest.unique stands stands'

theorem StandsFor.mono (stands : StandsFor text offset boundary)
    (stands' : StandsFor text offset' boundary') (inOrder : offset ≤ offset') :
    boundary ≤ boundary' :=
  stands'.2 ⟨stands.1.1, Nat.le_min.mpr
    ⟨(Nat.le_min.mp stands.1.2).1.trans inOrder,
      (Nat.le_min.mp stands.1.2).2⟩⟩

end Boundaries

theorem utf16Width_append (first second : List Char) :
    utf16Width (first ++ second) = utf16Width first + utf16Width second := by
  induction first with
  | nil => simp [utf16Width]
  | cons character rest ih => simp [utf16Width, ih, Nat.add_assoc]

/-- Whatever is read moves the position: behind a `\n` to a lower line, and
otherwise to a later column. -/
theorem endPosition_lt_append {front more : List Char}
    (small : utf8Width (front ++ more) < 2 ^ 32) (nonempty : more ≠ []) :
    endPosition front < endPosition (front ++ more) := by
  have smallFront : utf8Width front < 2 ^ 32 := by
    rw [utf8Width_append] at small
    omega
  have line := endPosition_line small
  rw [List.count_append] at line
  by_cases newline : '\n' ∈ more
  · have counted := List.count_pos_iff.mpr newline
    apply Position.lt_of_line_lt
    rw [line, endPosition_line smallFront]
    omega
  · have units : utf16Width more ≠ 0 := mt utf16Width_eq_zero_iff.mp nonempty
    apply Position.lt_of_character_lt
    · rw [line, endPosition_line smallFront,
        List.count_eq_zero.mpr newline, Nat.add_zero]
    · rw [endPosition_character small, endPosition_character smallFront,
        lastLine_append_of_notMem newline, utf16Width_append]
      omega

theorem compare_endPosition_append {front more : List Char}
    (small : utf8Width (front ++ more) < 2 ^ 32) :
    (endPosition front).compare (endPosition (front ++ more)) =
      compare (utf8Width front) (utf8Width (front ++ more)) := by
  by_cases empty : more = []
  · rw [empty, List.append_nil, Position.compare_self,
      Nat.compare_eq_eq.mpr rfl]
  · have bytes := length_le_utf8Width more
    have length := List.length_pos_iff.mpr empty
    have wider : utf8Width front < utf8Width (front ++ more) := by
      rw [utf8Width_append]
      omega
    rw [Nat.compare_eq_lt.mpr wider]
    exact endPosition_lt_append small empty

namespace LineIndex

variable {text : String} {offset offset' boundary boundary' : Nat}

/-- Positions are ordered as the boundaries that their offsets stand for. -/
theorem compare_position (small : utf8Width text.toList < 2 ^ 32)
    (stands : StandsFor text.toList offset boundary)
    (stands' : StandsFor text.toList offset' boundary') :
    ((ofText text).position offset).compare
        ((ofText text).position offset') =
      compare boundary boundary' := by
  obtain ⟨front, back, cut, greatest, position⟩ :=
    position_isPositionAt text offset
  obtain ⟨front', back', cut', greatest', position'⟩ :=
    position_isPositionAt text offset'
  obtain rfl := stands.unique greatest
  obtain rfl := stands'.unique greatest'
  rw [position, position']
  have smallFront : utf8Width front < 2 ^ 32 := by
    rw [cut, utf8Width_append] at small
    omega
  have smallFront' : utf8Width front' < 2 ^ 32 := by
    rw [cut', utf8Width_append] at small
    omega
  rcases List.append_eq_append_iff.mp (cut.symm.trans cut') with
    ⟨more, rfl, -⟩ | ⟨more, rfl, -⟩
  · exact compare_endPosition_append smallFront'
  · rw [← Position.compare_swap, compare_endPosition_append smallFront,
      Nat.compare_swap]

theorem position_le (small : utf8Width text.toList < 2 ^ 32)
    (inOrder : offset ≤ offset') :
    (ofText text).position offset ≤ (ofText text).position offset' := by
  obtain ⟨boundary, stands⟩ := exists_standsFor text.toList offset
  obtain ⟨boundary', stands'⟩ := exists_standsFor text.toList offset'
  change Ordering.isLE _ = true
  rw [compare_position small stands stands', Nat.isLE_compare]
  exact stands.mono stands' inOrder

theorem position_lt (small : utf8Width text.toList < 2 ^ 32)
    (isCut : IsCut text.toList offset) (isCut' : IsCut text.toList offset')
    (inOrder : offset < offset') :
    (ofText text).position offset < (ofText text).position offset' := by
  change Position.compare _ _ = .lt
  rw [compare_position small isCut.standsFor isCut'.standsFor]
  exact Nat.compare_eq_lt.mpr inOrder

theorem position_eq_iff (small : utf8Width text.toList < 2 ^ 32) :
    (ofText text).position offset = (ofText text).position offset' ↔
      ∃ boundary, StandsFor text.toList offset boundary ∧
        StandsFor text.toList offset' boundary := by
  obtain ⟨boundary, stands⟩ := exists_standsFor text.toList offset
  obtain ⟨boundary', stands'⟩ := exists_standsFor text.toList offset'
  rw [← Position.compare_eq_eq_iff, compare_position small stands stands',
    Nat.compare_eq_eq]
  constructor
  · rintro rfl
    exact ⟨boundary, stands, stands'⟩
  · rintro ⟨common, first, second⟩
    rw [stands.unique first, stands'.unique second]

end LineIndex

namespace Signature

section Ranges

variable {text : String} {kind : Kind}

theorem isCut_of_mem_regions {region : Region}
    (member : region ∈ regions kind text) :
    IsCut text.toList region.start ∧ IsCut text.toList region.stop := by
  have walked :
      region ∈ kind.regionsFrom 0 (utf8Width []) [] text.toList :=
    member
  exact kind.isCut_of_mem_regionsFrom walked

theorem Region.range_start_lt_stop {region : Region}
    (small : utf8Width text.toList < 2 ^ 32)
    (member : region ∈ regions kind text) :
    (region.range text).start < (region.range text).stop := by
  obtain ⟨startIsCut, stopIsCut⟩ := isCut_of_mem_regions member
  have nonempty := ((kind.scan_regions text).nearest region member).2.1
  exact LineIndex.position_lt small startIsCut stopIsCut nonempty

/-- Between two signatures of one kind there is at least the line break behind
the first one. -/
theorem Kind.OccursAt.stop_lt {start stop start' stop' : Nat}
    (occurs : kind.OccursAt text start stop)
    (occurs' : kind.OccursAt text start' stop') (inOrder : stop ≤ start') :
    stop < start' := by
  obtain ⟨place, next, between, -, -, rfl, rfl, reads, apart⟩ :=
    occurs.exists_between occurs' inOrder
  exact reads.offset_lt apart

theorem pairwise_range_lt (small : utf8Width text.toList < 2 ^ 32) :
    (regions kind text).Pairwise fun first second =>
      (first.range text).stop < (second.range text).start := by
  have scan := kind.scan_regions text
  refine scan.pairwise.imp_of_mem fun {_ _} member member' inOrder => ?_
  have apart := (scan.occursAt _ member).stop_lt (scan.occursAt _ member')
    inOrder
  exact LineIndex.position_lt small (isCut_of_mem_regions member).2
    (isCut_of_mem_regions member').1 apart

theorem ranges_eq (text : String) :
    ranges text = (regions .block text).map (Region.range text) ++
      (regions .inline text).map (Region.range text) := by
  rw [ranges, Kind.all, List.flatMap_cons, List.flatMap_singleton]
  rfl

/-- What is asked to be drawn, if anything, are these ranges. -/
def Draws (ranges : List Range) (request : Request) : Prop :=
  ∀ token drawn, request = .applyDecorations token drawn → drawn = ranges

/-- Decorating draws the ranges of the document and no others. -/
theorem asks_apply_draws (visibility : Visibility) (document : Document)
    (settings : Settings) :
    (visibility.apply (some document) settings).Asks
      (Draws (ranges document.text)) fun _ => True := by
  have log (entry : LogRecord) : (Interaction.log entry).Asks
      (Draws (ranges document.text)) fun _ => True := by
    refine ⟨?_, fun _ => trivial⟩
    rintro _ _ ⟨⟩
  have found : (Interaction.target (some document)).Asks
      (Draws (ranges document.text))
      fun found => ∀ other ∈ found, other = document := by
    simp only [Interaction.target]
    split
    · exact fun _ same => (Option.some.inj same).symm
    · refine ⟨?_, fun _ other missing =>
        absurd missing (Option.not_mem_none other)⟩
      rintro _ _ ⟨⟩
  apply found.bind
  rintro (_ | other) same
  · exact trivial
  obtain rfl := same other rfl
  have restyles : (visibility.restyle settings).Asks
      (Draws (ranges other.text)) fun _ => True := by
    refine (asks_teardown fun _ => ?_).bind fun _ _ => ⟨?_, fun _ => trivial⟩
    all_goals rintro _ _ ⟨⟩
  apply restyles.bind
  intro token _
  simp only []
  split
  · apply (log _).bind
    refine fun _ _ => ⟨?_, fun _ => trivial⟩
    rintro _ drawn same
    exact (Request.applyDecorations.inj same).2.symm
  · exact (log _).bind fun _ _ => trivial

/-- In a document of the target language the ranges are drawn with the new
token, unless hiding is disabled, and that is done last. -/
theorem apply_draws {visibility changed : Visibility} {document : Document}
    {settings : Settings} {exchanges : List Exchange} {outcome : Outcome}
    (target : document.isTarget = true) (enabled : settings.enabled = true)
    (applied : (visibility.apply (some document) settings).Yields exchanges
      (changed, outcome)) :
    ∃ token before, changed = ⟨some token⟩ ∧ exchanges = before ++
      [⟨.applyDecorations token (ranges document.text), outcome⟩] := by
  obtain ⟨lead, _, _, sought, restyling, rfl⟩ := applied.bind_inv
  obtain ⟨-, rfl⟩ := sought.target_inv
  rw [Option.filter_some, if_pos target] at restyling
  obtain ⟨fresh, token, _, -, drawing, rfl⟩ := restyling.bind_inv
  simp only [if_pos enabled] at drawing
  obtain ⟨logs, _, _, -, drawn, rfl⟩ := drawing.bind_inv
  obtain ⟨_, _, rfl, ended⟩ := drawn.ask_inv
  obtain ⟨rfl, ⟨⟩⟩ := ended.done_inv
  exact ⟨token, lead ++ (fresh ++ logs), rfl, by simp⟩

end Ranges

/-- In a text of fewer than `2 ^ 32` bytes a later offset has no earlier
position, a later boundary has a later one, and two offsets have the same
position only if they stand for the same boundary.  So the regions of a kind
have ranges that are not empty and follow each other without touching.  It is
these ranges, blocks first, that are drawn, and drawn they are if the document
is in the target language and hiding is enabled. -/
theorem ranges_in_reading_order {text : String}
    (small : utf8Width text.toList < 2 ^ 32) :
    (∀ offset offset', offset ≤ offset' →
      offsetToPosition text offset ≤ offsetToPosition text offset') ∧
    (∀ offset offset', IsCut text.toList offset → IsCut text.toList offset' →
      offset < offset' →
        offsetToPosition text offset < offsetToPosition text offset') ∧
    (∀ offset offset',
      offsetToPosition text offset = offsetToPosition text offset' ↔
        ∃ boundary, StandsFor text.toList offset boundary ∧
          StandsFor text.toList offset' boundary) ∧
    (∀ kind, ∀ region ∈ regions kind text,
      IsCut text.toList region.start ∧ IsCut text.toList region.stop ∧
        (region.range text).start < (region.range text).stop) ∧
    (∀ kind, (regions kind text).Pairwise fun first second =>
      (first.range text).stop < (second.range text).start) ∧
    ranges text = (regions .block text).map (Region.range text) ++
      (regions .inline text).map (Region.range text) ∧
    ∀ (visibility : Visibility) (document : Document) (settings : Settings),
      document.text = text →
        ((visibility.apply (some document) settings).Asks
          (Draws (ranges text)) fun _ => True) ∧
        (document.isTarget = true → settings.enabled = true →
          ∀ exchanges changed outcome,
            (visibility.apply (some document) settings).Yields exchanges
              (changed, outcome) →
            ∃ token before, changed = ⟨some token⟩ ∧
              exchanges = before ++
                [⟨.applyDecorations token (ranges text), outcome⟩]) := by
  refine ⟨fun _ _ => LineIndex.position_le small,
    fun _ _ => LineIndex.position_lt small,
    fun _ _ => LineIndex.position_eq_iff small, fun kind region member => ?_,
    fun _ => pairwise_range_lt small, ranges_eq text, ?_⟩
  · obtain ⟨startIsCut, stopIsCut⟩ := isCut_of_mem_regions member
    exact ⟨startIsCut, stopIsCut, Region.range_start_lt_stop small member⟩
  · rintro visibility document settings rfl
    exact ⟨asks_apply_draws visibility document settings,
      fun target enabled _ _ _ applied =>
        apply_draws target enabled applied⟩

/-- Two blocks with nothing but a lone `\r` between them, one of them with a
character of four bytes, and an inline signature. -/
def touchingSignatures : String :=
  "é\rsig do\r😀\rend\rsig do\rend\r\n sig \x7b x \x7d"

/-- All three signatures are drawn.  One of the offsets is within a character
of two bytes. -/
theorem ranges_in_reading_order_touching :
    utf8Width touchingSignatures.toList < 2 ^ 32 ∧
      offsetToPosition touchingSignatures 0 ≤
        offsetToPosition touchingSignatures 1 ∧
      offsetToPosition touchingSignatures 0 <
        offsetToPosition touchingSignatures 2 ∧
      (regions .block touchingSignatures).map
          (Region.range touchingSignatures) =
        [⟨⟨0, 2⟩, ⟨0, 15⟩⟩, ⟨⟨0, 16⟩, ⟨0, 26⟩⟩] ∧
      (regions .block touchingSignatures).Pairwise (fun first second =>
        (first.range touchingSignatures).stop <
          (second.range touchingSignatures).start) ∧
      ranges touchingSignatures = [⟨⟨0, 2⟩, ⟨0, 15⟩⟩, ⟨⟨0, 16⟩, ⟨0, 26⟩⟩,
        ⟨⟨1, 0⟩, ⟨1, 10⟩⟩] ∧
      ∃ before, (Visibility.apply {}
        (some ⟨1, "ruby", touchingSignatures, []⟩) Settings.default).Yields
          (before ++ [⟨.applyDecorations 2 [⟨⟨0, 2⟩, ⟨0, 15⟩⟩,
            ⟨⟨0, 16⟩, ⟨0, 26⟩⟩, ⟨⟨1, 0⟩, ⟨1, 10⟩⟩], .ok ()⟩])
          (⟨some 2⟩, .ok ()) := by
  have small : utf8Width touchingSignatures.toList < 2 ^ 32 := by
    decide +kernel
  have written : ranges touchingSignatures = [⟨⟨0, 2⟩, ⟨0, 15⟩⟩,
      ⟨⟨0, 16⟩, ⟨0, 26⟩⟩, ⟨⟨1, 0⟩, ⟨1, 10⟩⟩] := by
    decide +kernel
  obtain ⟨monotone, strict, -, -, apart, -, draws⟩ :=
    ranges_in_reading_order small
  have applied : (Visibility.apply {}
      (some ⟨1, "ruby", touchingSignatures, []⟩) Settings.default).Yields _
        (⟨some 2⟩, .ok ()) :=
    Interaction.yields_transcript
      (answering ⟨1, "ruby", touchingSignatures, []⟩ 2) rfl
  obtain ⟨token, before, same, drawn⟩ :=
    (draws _ _ Settings.default rfl).2 rfl rfl _ _ _ applied
  obtain rfl : 2 = token := by simpa using same
  rw [drawn, written] at applied
  refine ⟨small, monotone 0 1 (by decide), ?_, by decide +kernel, apart .block,
    written, before, applied⟩
  refine strict 0 2 (isCut_zero _) ?_ (by decide)
  exact ⟨['é'], _, rfl, rfl⟩

end Signature

end SignatureVeil
