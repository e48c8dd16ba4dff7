import Mathlib.Tactic.ByContra
import SignatureVeil.LineIndex

/-!
# Bisection finds where a table changes

A test that holds for the entries at the front of a table and for no others
splits the table in two.  Bisection finds the number of entries in front, since
every step keeps that number between the two ends of the stretch that is left.
-/

namespace SignatureVeil

/-- A test holds for the given number of entries at the front of a table, and
for none behind them. -/
structure SplitsAt (isBefore : Nat → Bool) (table : Array Nat) (count : Nat) :
    Prop where
  le_size : count ≤ table.size
  front : ∀ number value, number < count → table[number]? = some value →
    isBefore value = true
  back : ∀ number value, count ≤ number → table[number]? = some value →
    isBefore value = false

variable {isBefore : Nat → Bool} {table : Array Nat} {count low high : Nat}

/-- One look into a table tells on which side of the entry it splits. -/
theorem SplitsAt.any_iff (splits : SplitsAt isBefore table count)
    {number : Nat} (inTable : number < table.size) :
    table[number]?.any isBefore = true ↔ number < count := by
  have found : table[number]? = some table[number] :=
    Array.getElem?_eq_getElem inTable
  rw [found, Option.any_some]
  constructor
  · intro holds
    by_contra behind
    have fails := splits.back number _ (Nat.not_lt.mp behind) found
    simp [fails] at holds
  · exact fun inFront => splits.front number _ inFront found

theorem bisect_eq (splits : SplitsAt isBefore table count)
    (lowBound : low ≤ count) (highBound : count ≤ high)
    (highInTable : high ≤ table.size) :
    bisect isBefore table low high = count := by
  induction low, high using bisect.induct isBefore table with
  | case1 low high unfinished middle holds ih =>
      have middleInTable : middle < table.size := by
        simp only [middle]
        omega
      have inFront := (splits.any_iff middleInTable).mp holds
      rw [bisect, if_pos unfinished]
      simp only [middle] at holds
      simp only [holds, if_true]
      exact ih inFront highBound highInTable
  | case2 low high unfinished middle fails ih =>
      have middleInTable : middle < table.size := by
        simp only [middle]
        omega
      have behind : count ≤ middle :=
        Nat.not_lt.mp fun inFront => fails ((splits.any_iff middleInTable).mpr
          inFront)
      rw [bisect, if_pos unfinished]
      simp only [middle] at fails
      simp only [fails, Bool.false_eq_true, if_false]
      exact ih lowBound behind (Nat.le_of_lt middleInTable)
  | case3 low high finished =>
      rw [bisect, if_neg finished]
      omega

theorem partitionPoint_eq (splits : SplitsAt isBefore table count) :
    partitionPoint isBefore table = count :=
  bisect_eq splits (Nat.zero_le _) splits.le_size (Nat.le_refl _)

end SignatureVeil
