import SignatureVeil.Proofs.Signature.Occurrence
import SignatureVeil.Proofs.Signature.Pattern

/-!
# The regions of a text

The regions that the matcher collects are the matches that a leftmost search
with the pattern of the kind finds, each search starting where the previous
match ended.  They are also described without a search: the next region is the
occurrence that starts first, and among those the one that ends first.
-/

namespace SignatureVeil

namespace Signature

/-- The leftmost match behind a place, as a backtracking search finds it. -/
def Pattern.find? (pattern : Pattern) (place : Place) :
    Option (Place × Place) :=
  place.seek fun start => (pattern.first? start).map fun stop => (start, stop)

/-- The matches that are found one after the other, each search starting where
the previous match ended. -/
inductive Pattern.FindsAll (pattern : Pattern) :
    Place → List (Place × Place) → Prop where
  | nil {place : Place} (nothing : pattern.find? place = none) :
      pattern.FindsAll place []
  | cons {place start stop : Place} {later : List (Place × Place)}
      (found : pattern.find? place = some (start, stop))
      (findsLater : pattern.FindsAll stop later) :
      pattern.FindsAll place ((start, stop) :: later)

namespace Kind

def region (kind : Kind) (span : Place × Place) : Region :=
  ⟨kind, span.1.offset, span.2.offset⟩

/-- A signature reaches from one byte offset of a text to another. -/
def OccursAt (kind : Kind) (text : String) (start stop : Nat) : Prop :=
  ∃ first last : Place, first.LiesIn text.toList ∧
    first.offset = start ∧ last.offset = stop ∧ kind.Occurs first last

/-- The regions that are taken one after the other from a byte offset on: each
time the occurrence that starts first, and among those the one that ends
first. -/
inductive Scan (kind : Kind) (text : String) : Nat → List Region → Prop where
  | nil {resume : Nat}
      (nothing : ∀ start stop, resume ≤ start →
        ¬ kind.OccursAt text start stop) :
      kind.Scan text resume []
  | cons {resume start stop : Nat} {later : List Region}
      (behind : resume ≤ start)
      (occurs : kind.OccursAt text start stop)
      (leftmost : ∀ other otherStop, resume ≤ other →
        kind.OccursAt text other otherStop → start ≤ other)
      (nearest : ∀ other, kind.OccursAt text start other → stop ≤ other)
      (scansLater : kind.Scan text stop later) :
      kind.Scan text resume (⟨kind, start, stop⟩ :: later)

theorem find?_eq_none_iff {kind : Kind} {place : Place} :
    kind.pattern.find? place = none ↔
      ∀ word start, place.Reads word start → kind.match? start = none := by
  simp [Pattern.find?, Place.seek_eq_none_iff, first?_pattern]

theorem find?_eq_some_iff {kind : Kind} {place start stop : Place} :
    kind.pattern.find? place = some (start, stop) ↔
      (∃ word, place.Reads word start) ∧ kind.match? start = some stop ∧
        Place.NothingBefore kind.match? place start := by
  simp only [Pattern.find?, Place.seek_eq_some_iff, first?_pattern,
    Place.NothingBefore, Option.map_eq_some_iff, Option.map_eq_none_iff,
    Prod.mk.injEq]
  constructor
  · rintro ⟨word, next, reads, ⟨_, found, rfl, rfl⟩, nothing⟩
    exact ⟨⟨word, reads⟩, found, nothing⟩
  · rintro ⟨⟨word, reads⟩, found, nothing⟩
    exact ⟨word, start, reads, ⟨stop, found, rfl, rfl⟩, nothing⟩

theorem findsAll_of_match?_eq_none {kind : Kind} {before rest : List Char}
    {character : Char} {spans : List (Place × Place)}
    (missed : kind.match? ⟨before, character :: rest⟩ = none)
    (finds : kind.pattern.FindsAll ⟨character :: before, rest⟩ spans) :
    kind.pattern.FindsAll ⟨before, character :: rest⟩ spans := by
  have same : kind.pattern.find? ⟨before, character :: rest⟩ =
      kind.pattern.find? ⟨character :: before, rest⟩ :=
    Place.seek_cons_of_eq_none (by simp [first?_pattern, missed])
  cases finds with
  | nil nothing => exact .nil (same.trans nothing)
  | cons found findsLater => exact .cons (same.trans found) findsLater

/-- The matcher walks over the text once.  While it walks, `place` is the
place from which the next match is to be found: the present one, or the end of
the last match. -/
theorem exists_findsAll_regionsFrom (kind : Kind) {before after : List Char}
    {resume : Nat} {word : List Char} {place : Place}
    (reads : Place.Reads ⟨before, after⟩ word place)
    (reached : resume ≤ place.offset)
    (isFirst : word = [] ∨ resume = place.offset) :
    ∃ spans, kind.pattern.FindsAll place spans ∧
      kind.regionsFrom resume (utf8Width before) before after =
        spans.map kind.region := by
  induction after generalizing before resume word place with
  | nil =>
      obtain rfl := reads.eq_of_atEnd
      refine ⟨[], .nil (find?_eq_none_iff.mpr ?_), rfl⟩
      intro word start reads'
      rw [reads'.eq_of_atEnd, match?_atEnd]
  | cons character rest ih =>
      rcases reads.cons_cases with ⟨-, rfl⟩ | ⟨more, rfl, later⟩
      · have here : resume ≤ utf8Width before := reached
        cases found : kind.match? ⟨before, character :: rest⟩ with
        | none =>
            have reached' : resume ≤
                Place.offset ⟨character :: before, rest⟩ :=
              Nat.le_trans here (Nat.le_add_left _ _)
            obtain ⟨spans, finds, regions⟩ :=
              ih (.refl _) reached' (.inl rfl)
            rw [regionsFrom_cons_of_passed (.inr found), regions]
            exact ⟨spans, findsAll_of_match?_eq_none found finds, rfl⟩
        | some stop =>
            obtain ⟨word, nonempty, toStop⟩ := (occurs_of_match? found).reads
            rcases toStop.cons_cases with ⟨empty, -⟩ | ⟨more, -, toStop⟩
            · exact absurd empty nonempty
            · obtain ⟨spans, finds, regions⟩ :=
                ih toStop (Nat.le_refl _) (.inr rfl)
              have first := find?_eq_some_iff.mpr
                ⟨⟨[], .refl _⟩, found, .self _⟩
              rw [regionsFrom_cons_of_match? here found, regions]
              exact ⟨_, .cons first finds, rfl⟩
      · have resumed : resume = place.offset := by simpa using isFirst
        have lasting : ¬ resume ≤ utf8Width before := by
          have behind := reads.offset_lt (by simp)
          rw [resumed]
          exact Nat.not_le_of_gt behind
        obtain ⟨spans, finds, regions⟩ := ih later reached (.inr resumed)
        rw [regionsFrom_cons_of_passed (.inl lasting), regions]
        exact ⟨spans, finds, rfl⟩

/-- The match that is found leftmost and first is the occurrence that starts
first and ends first. -/
theorem scan_of_findsAll {kind : Kind} {text : String} {place : Place}
    {spans : List (Place × Place)} (lies : place.LiesIn text.toList)
    (finds : kind.pattern.FindsAll place spans) :
    kind.Scan text place.offset (spans.map kind.region) := by
  induction finds with
  | nil nothing =>
      refine .nil ?_
      rintro _ _ behind ⟨first, last, firstLies, rfl, rfl, occurs⟩
      obtain ⟨word, reads⟩ := lies.exists_reads firstLies behind
      have missed := find?_eq_none_iff.mp nothing word first reads
      exact match?_eq_none_iff.mp missed last occurs
  | @cons place start stop later found findsLater ih =>
      obtain ⟨⟨word, reads⟩, found, nothing⟩ := find?_eq_some_iff.mp found
      have occurs := occurs_of_match? found
      have startLies := lies.reads reads
      obtain ⟨span, -, toStop⟩ := occurs.reads
      refine .cons reads.offset_le ⟨start, stop, startLies, rfl, rfl, occurs⟩
        ?_ ?_ (ih (startLies.reads toStop))
      · rintro _ _ behind ⟨first, last, firstLies, rfl, rfl, occurs'⟩
        obtain ⟨word', reads'⟩ := lies.exists_reads firstLies behind
        rcases reads.compare reads' with
          ⟨more, -, fromStart⟩ | ⟨more, nonempty, -, toStart⟩
        · exact fromStart.offset_le
        · have missed := nothing word' first more reads' toStart nonempty
          exact absurd occurs' (match?_eq_none_iff.mp missed last)
      · rintro _ ⟨first, last, firstLies, sameStart, rfl, occurs'⟩
        obtain rfl := firstLies.eq_of_offset_eq startLies sameStart
        exact offset_le_of_match? found occurs'

namespace Scan

variable {kind : Kind} {text : String} {resume : Nat}
  {found found' : List Region}

theorem unique (scan : kind.Scan text resume found)
    (scan' : kind.Scan text resume found') : found = found' := by
  induction scan generalizing found' with
  | nil nothing =>
      cases scan' with
      | nil => rfl
      | cons behind occurs => exact absurd occurs (nothing _ _ behind)
  | cons behind occurs leftmost nearest _ ih =>
      cases scan' with
      | nil nothing => exact absurd occurs (nothing _ _ behind)
      | cons behind' occurs' leftmost' nearest' scansLater' =>
          obtain rfl := Nat.le_antisymm (leftmost _ _ behind' occurs')
            (leftmost' _ _ behind occurs)
          obtain rfl := Nat.le_antisymm (nearest _ occurs')
            (nearest' _ occurs)
          rw [ih scansLater']

/-- Every occurrence starts within a region. -/
theorem covers (scan : kind.Scan text resume found) {start stop : Nat}
    (behind : resume ≤ start) (occurs : kind.OccursAt text start stop) :
    ∃ region ∈ found, region.start ≤ start ∧ start < region.stop := by
  induction scan with
  | nil nothing => exact absurd occurs (nothing _ _ behind)
  | @cons resume first last later _ _ leftmost _ _ ih =>
      by_cases inside : start < last
      · exact ⟨⟨kind, first, last⟩, by simp, leftmost _ _ behind occurs,
          inside⟩
      · obtain ⟨region, member, within⟩ := ih (by omega)
        exact ⟨region, by simp [member], within⟩

theorem nearest (scan : kind.Scan text resume found) :
    ∀ region ∈ found, resume ≤ region.start ∧ region.start < region.stop ∧
      ∀ stop, kind.OccursAt text region.start stop → region.stop ≤ stop := by
  induction scan with
  | nil => simp
  | @cons resume start stop later behind occurs _ nearest _ ih =>
      have nonempty : start < stop := by
        obtain ⟨first, last, -, rfl, rfl, occurs⟩ := occurs
        obtain ⟨word, nonempty, reads⟩ := occurs.reads
        exact reads.offset_lt nonempty
      intro region member
      rcases List.mem_cons.mp member with rfl | member
      · exact ⟨behind, nonempty, nearest⟩
      · obtain ⟨afterStop, facts⟩ := ih region member
        exact ⟨by omega, facts⟩

theorem pairwise (scan : kind.Scan text resume found) :
    found.Pairwise fun first second => first.stop ≤ second.start := by
  induction scan with
  | nil => exact .nil
  | cons _ _ _ _ scansLater ih =>
      exact .cons (fun region member => (scansLater.nearest region member).1)
        ih

end Scan

end Kind

/-- The regions of a text are found by leftmost searches with the pattern, and
they are the only list that takes, from the end of the previous region on, the
occurrence that starts first and of those the one that ends first.  So no
occurrence is missed, none reaches beyond its nearest end, and regions are not
empty and do not overlap. -/
theorem regions_scan (kind : Kind) (text : String) :
    (∃ spans, kind.pattern.FindsAll (.start text.toList) spans ∧
      regions kind text = spans.map kind.region) ∧
    (∀ found, kind.Scan text 0 found ↔ found = regions kind text) ∧
    (∀ start stop, kind.OccursAt text start stop →
      ∃ region ∈ regions kind text,
        region.start ≤ start ∧ start < region.stop) ∧
    (∀ region ∈ regions kind text, region.start < region.stop ∧
      ∀ stop, kind.OccursAt text region.start stop → region.stop ≤ stop) ∧
    (regions kind text).Pairwise fun first second =>
      first.stop ≤ second.start := by
  obtain ⟨spans, finds, regionsEq⟩ := Kind.exists_findsAll_regionsFrom kind
    (.refl (.start text.toList)) (Nat.zero_le _) (.inl rfl)
  replace regionsEq : regions kind text = spans.map kind.region := regionsEq
  have scan : kind.Scan text 0 (regions kind text) := by
    rw [regionsEq]
    exact Kind.scan_of_findsAll (Place.start_liesIn _) finds
  refine ⟨⟨spans, finds, regionsEq⟩, ?_, ?_, ?_, scan.pairwise⟩
  · intro found
    constructor
    · exact fun scan' => scan'.unique scan
    · rintro rfl
      exact scan
  · intro start stop occurs
    exact scan.covers (Nat.zero_le _) occurs
  · intro region member
    exact (scan.nearest region member).2

end Signature

end SignatureVeil
