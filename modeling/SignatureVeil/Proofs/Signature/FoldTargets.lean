import Mathlib.Algebra.Order.Ring.Nat
import SignatureVeil.Proofs.Signature.LineBreaks
import SignatureVeil.Proofs.Signature.Scan

/-!
# Blocks in the lines of an editor

The matcher breaks lines at `\n`, at `\r\n` and at a lone `\r`, and an editor
breaks them at `\n` only.  In the order of a text the blocks still take up
lines of the editor one after the other, but two blocks share a line when
nothing but a lone `\r` stands between them.  If every block starts where a
line of the editor starts, no two blocks share a line, and the cursor can lie
in one of them only.
-/

namespace SignatureVeil

/-! ## Lines and columns of a place -/

/-- A line of an editor starts at a byte offset: the text starts there, or the
offset stands behind a `\n`. -/
def StartsLine (text : List Char) (offset : Nat) : Prop :=
  ∃ front back, text = front ++ back ∧ utf8Width front = offset ∧
    ∀ last ∈ front.getLast?, last = '\n'

theorem lastLine_eq_nil_iff {front : List Char} :
    lastLine front = [] ↔ ∀ last ∈ front.getLast?, last = '\n' := by
  rw [lastLine, List.rtakeWhile_eq_nil_iff]
  constructor
  · intro ends last isLast
    obtain ⟨nonempty, rfl⟩ := List.mem_getLast?_eq_getLast isLast
    simpa using ends nonempty
  · intro ends nonempty
    simpa using ends _ (List.getLast?_eq_some_getLast nonempty)

theorem utf16Width_le_utf8Width (word : List Char) :
    utf16Width word ≤ utf8Width word := by
  induction word with
  | nil => exact Nat.le_refl _
  | cons character rest ih =>
      have size : utf16Size character ≤ character.utf8Size := by
        have := character.utf8Size_pos
        unfold utf16Size
        split
        case isTrue => exact this
        case isFalse above =>
            rw [UInt32.lt_iff_toNat_lt] at above
            simp only [Char.utf8Size, UInt32.le_iff_toNat_le,
              UInt32.toNat_ofNatLT, UInt32.reduceToNat] at above ⊢
            split_ifs <;> omega
      simp only [utf16Width, utf8Width]
      omega

theorem utf16Width_eq_zero_iff {word : List Char} :
    utf16Width word = 0 ↔ word = [] := by
  cases word with
  | nil => simp [utf16Width]
  | cons character rest =>
      simp only [utf16Width, utf16Size]
      split <;> simp

/-- In a text of fewer than `2 ^ 32` bytes no line number is cut off. -/
theorem endPosition_line {front : List Char}
    (small : utf8Width front < 2 ^ 32) :
    (endPosition front).line.toNat = front.count '\n' := by
  have bytes := length_le_utf8Width front
  have lines := List.count_le_length (a := '\n') (l := front)
  rw [endPosition, UInt32.toNat_ofNat', Nat.mod_eq_of_lt (by omega)]

/-- In a text of fewer than `2 ^ 32` bytes no column is cut off. -/
theorem endPosition_character {front : List Char}
    (small : utf8Width front < 2 ^ 32) :
    (endPosition front).character.toNat = utf16Width (lastLine front) := by
  have units := utf16Width_le_utf8Width (lastLine front)
  have parts := congrArg utf8Width (wholeLines_append_lastLine front)
  rw [utf8Width_append] at parts
  rw [endPosition, UInt32.toNat_ofNat', Nat.mod_eq_of_lt (by omega)]

section Places

variable {text : String} {place next : Place} {word : List Char}

theorem Place.LiesIn.width_lt {limit : Nat} (lies : place.LiesIn text.toList)
    (small : utf8Width text.toList < limit) :
    utf8Width place.before.reverse < limit := by
  have parts := congrArg utf8Width lies
  rw [utf8Width_append] at parts
  omega

theorem LineIndex.position_of_liesIn (lies : place.LiesIn text.toList) :
    (ofText text).position place.offset =
      endPosition place.before.reverse := by
  rw [Place.offset, ← utf8Width_reverse]
  exact position_of_cut lies.symm

theorem Place.LiesIn.startsLine_iff (lies : place.LiesIn text.toList) :
    StartsLine text.toList place.offset ↔
      lastLine place.before.reverse = [] := by
  rw [lastLine_eq_nil_iff]
  constructor
  · rintro ⟨front, back, cut, width, ends⟩
    obtain ⟨rfl, -⟩ := append_inj_of_utf8Width (cut.symm.trans lies.symm)
      (by rw [width, utf8Width_reverse, Place.offset])
    exact ends
  · intro ends
    exact ⟨_, _, lies.symm, utf8Width_reverse _, ends⟩

theorem LineIndex.line_of_liesIn (lies : place.LiesIn text.toList)
    (small : utf8Width text.toList < 2 ^ 32) :
    ((ofText text).position place.offset).line.toNat =
      place.before.count '\n' := by
  rw [position_of_liesIn lies, endPosition_line (lies.width_lt small),
    List.count_reverse]

theorem LineIndex.character_eq_zero_iff (lies : place.LiesIn text.toList)
    (small : utf8Width text.toList < 2 ^ 32) :
    ((ofText text).position place.offset).character = 0 ↔
      StartsLine text.toList place.offset := by
  rw [position_of_liesIn lies, lies.startsLine_iff, ← UInt32.toNat_inj,
    endPosition_character (lies.width_lt small)]
  exact utf16Width_eq_zero_iff

/-- Lines are counted in reading order. -/
theorem Place.Reads.count_le (reads : place.Reads word next) :
    place.before.count '\n' ≤ next.before.count '\n' := by
  rw [reads.before_eq, List.count_append]
  exact Nat.le_add_left _ _

/-- Where an editor starts a line, the count has gone up since any place
before. -/
theorem Place.Reads.count_lt (reads : place.Reads word next)
    (nonempty : word ≠ []) (starts : lastLine next.before.reverse = []) :
    place.before.count '\n' < next.before.count '\n' := by
  obtain ⟨last, member, isLast⟩ := reads.exists_previous nonempty
  rw [lastLine_eq_nil_iff, List.getLast?_reverse] at starts
  obtain rfl := starts last isLast
  have counted := List.count_pos_iff.mpr member
  rw [reads.before_eq, List.count_append, List.count_reverse]
  omega

end Places

/-! ## Ranges that do not share a line -/

/-- Of ranges that follow each other without a common line, at most one
contains a given line. -/
theorem filter_not_containsLine {ranges : List Range} (line : UInt32)
    (forward : ∀ range ∈ ranges, range.start.line ≤ range.stop.line)
    (apart : ranges.Pairwise fun first second =>
      first.stop.line < second.start.line) :
    ranges.filter (fun range => !range.containsLine line) = ranges ∨
      ∃ before range after, ranges = before ++ range :: after ∧
        range.containsLine line = true ∧
        ranges.filter (fun range => !range.containsLine line) =
          before ++ after := by
  induction ranges with
  | nil => exact .inl rfl
  | cons first rest ih =>
      obtain ⟨behind, apart⟩ := List.pairwise_cons.mp apart
      cases contains : first.containsLine line with
      | true =>
          refine .inr ⟨[], first, rest, rfl, contains, ?_⟩
          have others : ∀ range ∈ rest, (!range.containsLine line) = true := by
            intro range member
            have := behind range member
            simp only [Range.containsLine, Bool.and_eq_true,
              decide_eq_true_eq] at contains
            simp only [Range.containsLine, Bool.not_eq_true',
              Bool.and_eq_false_iff, decide_eq_false_iff_not]
            exact .inl (UInt32.not_le.mpr
              (UInt32.lt_of_le_of_lt contains.2 this))
          rw [List.filter_cons_of_neg (by simp [contains]),
            List.filter_eq_self.mpr others]
          rfl
      | false =>
          rw [List.filter_cons_of_pos (by simp [contains])]
          rcases ih (fun range member => forward range (.tail _ member)) apart
            with all | ⟨before, range, after, parts, holds, others⟩
          · exact .inl (by rw [all])
          · exact .inr ⟨first :: before, range, after, by rw [parts]; rfl,
              holds, by rw [others]; rfl⟩

namespace Signature

/-! ## Blocks in reading order -/

namespace Kind

theorem scan_regions (kind : Kind) (text : String) :
    kind.Scan text 0 (regions kind text) := by
  obtain ⟨spans, finds, regionsEq⟩ := exists_findsAll_regionsFrom kind
    (.refl (.start text.toList)) (Nat.zero_le _) (.inl rfl)
  rw [regions, show kind.regionsFrom 0 0 [] text.toList = _ from regionsEq]
  exact scan_of_findsAll (Place.start_liesIn _) finds

theorem Scan.occursAt {kind : Kind} {text : String} {resume : Nat}
    {found : List Region} (scan : kind.Scan text resume found) :
    ∀ region ∈ found, kind.OccursAt text region.start region.stop := by
  induction scan with
  | nil => simp
  | cons _ occurs _ _ _ ih =>
      intro region member
      rcases List.mem_cons.mp member with rfl | member
      · exact occurs
      · exact ih region member

/-- Behind a signature its last line goes on, so the next signature does not
start where it stops. -/
theorem OccursAt.exists_between {kind : Kind} {text : String}
    {start stop start' stop' : Nat} (occurs : kind.OccursAt text start stop)
    (occurs' : kind.OccursAt text start' stop') (inOrder : stop ≤ start') :
    ∃ place next between, place.LiesIn text.toList ∧
      next.LiesIn text.toList ∧ place.offset = stop ∧ next.offset = start' ∧
      Place.Reads place between next ∧ between ≠ [] := by
  obtain ⟨first, place, lies, -, atStop, occurs⟩ := occurs
  obtain ⟨next, last, lies', atStart', -, occurs'⟩ := occurs'
  obtain ⟨word, -, toStop⟩ := occurs.reads
  have stopLies := lies.reads toStop
  obtain ⟨between, reads⟩ := stopLies.exists_reads lies' (by omega)
  refine ⟨place, next, between, stopLies, lies', atStop, atStart', reads, ?_⟩
  rintro rfl
  have inLine := occurs.atLineStart_stop
  rw [← reads.eq_of_nil, occurs'.atLineStart] at inLine
  contradiction

end Kind

/-- The ranges of the blocks of a text, in reading order. -/
def blockRanges (text : String) : List Range :=
  (regions .block text).map (Region.range text)

section Blocks

variable {text : String}

/-- A block that follows another one starts on the line where that ends or
below, and below if it starts where a line of the editor does. -/
structure Follows (text : String) (first second : Region) : Prop where
  line_le : (first.range text).stop.line ≤ (second.range text).start.line
  line_lt : StartsLine text.toList second.start →
    (first.range text).stop.line < (second.range text).start.line

theorem Region.range_forward {kind : Kind} {region : Region}
    (small : utf8Width text.toList < 2 ^ 32)
    (member : region ∈ regions kind text) :
    (region.range text).start.line ≤ (region.range text).stop.line := by
  obtain ⟨first, last, lies, atStart, atStop, occurs⟩ :=
    (kind.scan_regions text).occursAt region member
  obtain ⟨word, -, reads⟩ := occurs.reads
  rw [Region.range, LineIndex.range, ← atStart, ← atStop,
    UInt32.le_iff_toNat_le, LineIndex.line_of_liesIn lies small,
    LineIndex.line_of_liesIn (lies.reads reads) small]
  exact reads.count_le

theorem Region.character_eq_zero_iff {kind : Kind} {region : Region}
    (small : utf8Width text.toList < 2 ^ 32)
    (member : region ∈ regions kind text) :
    (region.range text).start.character = 0 ↔
      StartsLine text.toList region.start := by
  obtain ⟨first, last, lies, atStart, -, -⟩ :=
    (kind.scan_regions text).occursAt region member
  rw [Region.range, LineIndex.range, ← atStart]
  exact LineIndex.character_eq_zero_iff lies small

theorem Follows.of_occurs {first second : Region}
    (small : utf8Width text.toList < 2 ^ 32)
    (inOrder : first.stop ≤ second.start)
    (occurs : Kind.block.OccursAt text first.start first.stop)
    (occurs' : Kind.block.OccursAt text second.start second.stop) :
    Follows text first second := by
  obtain ⟨stop, start', between, stopLies, lies', atStop, atStart', reads,
    apart⟩ := occurs.exists_between occurs' inOrder
  have stopLine := LineIndex.line_of_liesIn stopLies small
  have startLine := LineIndex.line_of_liesIn lies' small
  rw [atStop] at stopLine
  rw [atStart'] at startLine
  constructor
  · rw [UInt32.le_iff_toNat_le]
    exact stopLine.trans_le (reads.count_le.trans_eq startLine.symm)
  · intro starts
    rw [← atStart', lies'.startsLine_iff] at starts
    rw [UInt32.lt_iff_toNat_lt]
    exact stopLine.trans_lt
      ((reads.count_lt apart starts).trans_eq startLine.symm)

theorem pairwise_follows (small : utf8Width text.toList < 2 ^ 32) :
    (regions .block text).Pairwise (Follows text) := by
  have scan := Kind.block.scan_regions text
  refine scan.pairwise.imp_of_mem fun first second inOrder => ?_
  exact .of_occurs small inOrder (scan.occursAt _ first)
    (scan.occursAt _ second)

end Blocks

end Signature

open Signature

def Range.foldTarget (range : Range) : Selection :=
  .caret ⟨range.start.line, 0⟩

namespace Document

section Carets

variable (document : Document)

theorem foldTargets_eq :
    document.foldTargets = ((blockRanges document.text).filter fun block =>
      !block.containsLine document.cursorLine).map Range.foldTarget :=
  rfl

/-- The carets stand on the lines on which their blocks start, in the same
order. -/
theorem pairwise_foldTargets {InOrder : UInt32 → UInt32 → Prop}
    (blocks : (blockRanges document.text).Pairwise fun first second =>
      InOrder first.start.line second.start.line) :
    document.foldTargets.Pairwise fun first second =>
      InOrder first.active.line second.active.line := by
  rw [foldTargets_eq]
  exact List.pairwise_map.mpr (blocks.sublist List.filter_sublist)

/-- The blocks of a document take up its lines in order, and there is one
caret for each block that does not contain the cursor line.  If each block
starts a line of the editor, as it does unless it stands right behind a lone
`\r`, then no two blocks share a line, each range starts at column zero, and
at most one block gets no caret. -/
theorem foldTargets_apart (small : utf8Width document.text.toList < 2 ^ 32) :
    (∀ block ∈ regions .block document.text,
      ((block.range document.text).start.character = 0 ↔
        StartsLine document.text.toList block.start)) ∧
    (∀ block ∈ blockRanges document.text,
      block.start.line ≤ block.stop.line) ∧
    (regions .block document.text).Pairwise (Follows document.text) ∧
    document.foldTargets = ((blockRanges document.text).filter fun block =>
      !block.containsLine document.cursorLine).map Range.foldTarget ∧
    document.foldTargets.Pairwise (fun first second =>
      first.active.line ≤ second.active.line) ∧
    ((∀ block ∈ regions .block document.text,
        StartsLine document.text.toList block.start) →
      (∀ block ∈ blockRanges document.text, block.start.character = 0) ∧
      (blockRanges document.text).Pairwise (fun first second =>
        first.stop.line < second.start.line) ∧
      document.foldTargets.Pairwise (fun first second =>
        first.active.line < second.active.line) ∧
      (document.foldTargets =
          (blockRanges document.text).map Range.foldTarget ∨
        ∃ before block after,
          blockRanges document.text = before ++ block :: after ∧
          block.containsLine document.cursorLine = true ∧
          document.foldTargets = (before ++ after).map Range.foldTarget)) := by
  have column : ∀ block ∈ regions .block document.text,
      ((block.range document.text).start.character = 0 ↔
        StartsLine document.text.toList block.start) :=
    fun _ => Region.character_eq_zero_iff small
  have forward : ∀ block ∈ blockRanges document.text,
      block.start.line ≤ block.stop.line :=
    List.forall_mem_map.mpr fun _ => Region.range_forward small
  have follows := pairwise_follows small
  refine ⟨column, forward, follows, document.foldTargets_eq, ?_, ?_⟩
  · have inOrder : (blockRanges document.text).Pairwise fun first second =>
        first.stop.line ≤ second.start.line :=
      List.pairwise_map.mpr (follows.imp Follows.line_le)
    exact document.pairwise_foldTargets (inOrder.imp_of_mem
      fun first _ later => UInt32.le_trans (forward _ first) later)
  · intro starts
    have apart : (blockRanges document.text).Pairwise fun first second =>
        first.stop.line < second.start.line :=
      List.pairwise_map.mpr (follows.imp_of_mem
        fun _ second follows => follows.line_lt (starts _ second))
    refine ⟨?_, apart, ?_, ?_⟩
    · exact List.forall_mem_map.mpr fun block member =>
        (column block member).mpr (starts block member)
    · exact document.pairwise_foldTargets (apart.imp_of_mem
        fun first _ later => UInt32.lt_of_le_of_lt (forward _ first) later)
    · rw [foldTargets_eq]
      rcases filter_not_containsLine document.cursorLine forward apart with
        all | ⟨before, block, after, parts, contains, others⟩
      · exact .inl (by rw [all])
      · exact .inr ⟨before, block, after, parts, contains, by rw [others]⟩

/-- The cursor is in the second of three blocks, one of them indented. -/
theorem foldTargets_apart_cursor :
    let document : Document := ⟨0, "ruby",
      "sig do\nend\r\n  sig do\n end\nsig do\nx\nend\n", [.caret ⟨3, 1⟩]⟩
    (∀ block ∈ regions .block document.text,
      StartsLine document.text.toList block.start) ∧
    document.foldTargets = [.caret ⟨0, 0⟩, .caret ⟨4, 0⟩] ∧
    document.foldTargets.Pairwise fun first second =>
      first.active.line < second.active.line := by
  intro document
  have small : utf8Width document.text.toList < 2 ^ 32 := by decide +kernel
  have apart := document.foldTargets_apart small
  have columns : ∀ block ∈ regions .block document.text,
      (block.range document.text).start.character = 0 := by decide +kernel
  have starts : ∀ block ∈ regions .block document.text,
      StartsLine document.text.toList block.start :=
    fun block member => (apart.1 block member).mp (columns block member)
  exact ⟨starts, by decide +kernel, (apart.2.2.2.2.2 starts).2.2.1⟩

/-- Two blocks with nothing but a lone `\r` between them are on one line, the
second of them not at column zero, and the same caret stands for both. -/
theorem foldTargets_shared :
    let document : Document := ⟨0, "ruby", "sig do\rend\rsig do\rend",
      [.caret ⟨5, 0⟩]⟩
    utf8Width document.text.toList < 2 ^ 32 ∧
    blockRanges document.text =
      [⟨⟨0, 0⟩, ⟨0, 10⟩⟩, ⟨⟨0, 11⟩, ⟨0, 21⟩⟩] ∧
    ¬ ((blockRanges document.text).Pairwise fun first second =>
      first.stop.line < second.start.line ∨
        second.stop.line < first.start.line) ∧
    ¬ (∀ block ∈ blockRanges document.text, block.start.character = 0) ∧
    document.foldTargets = [.caret ⟨0, 0⟩, .caret ⟨0, 0⟩] ∧
    ¬ document.foldTargets.Pairwise fun first second =>
      first.active.line < second.active.line := by
  decide +kernel

end Carets

end Document

end SignatureVeil
