import ProgressiveSearch.Score

/-! # The order of scores

The place of a score (`Score.rank`) is one number, so that two scores are compared by
one comparison.  It is the place in the total order that IEEE 754 lays down for the bits
of floating-point numbers: first the sign decides, and among scores of one sign the
magnitude (`precedes_iff_rank_le`).  Different scores are never level in it
(`Precedes.antisymm`).

A number that was confined is one of the bounds, or compares with neither of them
(`confined_ofFloat_confine`).
-/
namespace ProgressiveSearch.Score

section Order
variable {a b s : Score}

/-- The number that all bits but the sign spell. -/
def magnitude (s : Score) : Nat := s.bits.toNat % Word.size63

/-- **The total order of IEEE 754.**  What is negative precedes what is not.  Of scores
that are not negative the one of the smaller magnitude precedes, of negative ones that of
the greater. -/
def Precedes (a b : Score) : Prop :=
  match a.isNegative, b.isNegative with
  | true, false => True
  | false, true => False
  | false, false => a.magnitude ≤ b.magnitude
  | true, true => b.magnitude ≤ a.magnitude

theorem rank_of_isNegative (h : s.isNegative = true) : s.rank = Word.max63 - s.magnitude := by
  have hs := s.bits.toNat_lt
  simp only [isNegative, decide_eq_true_eq] at h
  simp only [rank, magnitude, Word.size63, Word.max63, Word.max64] at *
  rw [if_neg (by omega)]
  omega

theorem rank_of_not_isNegative (h : s.isNegative = false) :
    s.rank = Word.size63 + s.magnitude := by
  have hs := s.bits.toNat_lt
  simp only [isNegative, decide_eq_false_iff_not] at h
  simp only [rank, magnitude, Word.size63] at *
  rw [if_pos (by omega)]
  omega

theorem magnitude_le (s : Score) : s.magnitude ≤ Word.max63 :=
  Nat.le_of_lt_succ (Nat.mod_lt _ (by decide))

/-- **Places are taken in the total order.** -/
theorem precedes_iff_rank_le : a.Precedes b ↔ a.rank ≤ b.rank := by
  have ha : a.magnitude ≤ 9223372036854775807 := a.magnitude_le
  have hb : b.magnitude ≤ 9223372036854775807 := b.magnitude_le
  unfold Precedes
  cases hna : a.isNegative <;> cases hnb : b.isNegative <;>
    simp only [hna, hnb, rank_of_isNegative, rank_of_not_isNegative, Word.size63, Word.max63,
      true_iff, false_iff] <;>
    omega

instance (a b : Score) : Decidable (a.Precedes b) :=
  decidable_of_iff _ precedes_iff_rank_le.symm

/-- The zeros are told apart. -/
example : Precedes ⟨0x8000000000000000⟩ zero ∧ ¬ Precedes zero ⟨0x8000000000000000⟩ := by
  decide

end Order

/-! ## Confinement -/

/-- The score is the constant 0.0, or the constant 1.0, or that of a number which compares
neither below 0.0 nor above 1.0. -/
def Confined (s : Score) : Prop :=
  s = ofFloat 0.0 ∨ s = ofFloat 1.0 ∨ ∃ x : Float, s = ofFloat x ∧ ¬ x < 0.0 ∧ ¬ 1.0 < x

theorem confined_ofFloat_confine (x : Float) : (ofFloat (confine x)).Confined := by
  have hzero : (0 : Float) = 0.0 := by decide
  have hone : (1 : Float) = 1.0 := by decide
  unfold confine
  rw [hzero, hone]
  split
  · exact .inl rfl
  · rename_i hlow
    split
    · exact .inr (.inl rfl)
    · rename_i hhigh
      exact .inr (.inr ⟨x, rfl, hlow, hhigh⟩)

end ProgressiveSearch.Score
