import ProgressiveSearch.Random.Source

/-! # Uniform draws stay in their range, and reach all of it

A whole number is drawn from a closed range by the high half of a product, to which a
second word may carry once.  Neither leads out of the range: the high half of a product
with `range` is less than `range` (`highHalf_lt`), and there is nothing to carry when it
is the greatest that it can be (`carried_lt`).  So there is a number to draw exactly if
the bounds are in order (`Source.uniform?_eq_none`), and it is between them
(`Source.uniform?_bounds`).

Each number of the range is drawn from some source (`Source.uniform?_reaches`): one that
begins with the least word whose product has the high half wanted, and in which zeros
follow, so that nothing carries.
-/
namespace ProgressiveSearch.Random

section Halves
variable {w : Width} {range x y : Nat}

theorem highHalf_lt (hx : x < w.size) (hr : 0 < range) : highHalf w range x < range :=
  Nat.div_lt_of_lt_mul (Nat.mul_lt_mul_of_pos_right hx hr)

/-- The two halves make up the product. -/
theorem highHalf_add_lowHalf (w : Width) (range x : Nat) :
    w.size * highHalf w range x + lowHalf w range x = x * range :=
  Nat.div_add_mod _ _

/-- If the high half is the greatest that it can be, too little is cut off to carry. -/
theorem lowHalf_le (hx : x < w.size) (hh : highHalf w range x + 1 = range) :
    lowHalf w range x + range ≤ w.size := by
  have hparts := highHalf_add_lowHalf w range x
  have hbound : (x + 1) * range ≤ w.size * range := Nat.mul_le_mul_right _ hx
  have hproduct : w.size * range = w.size * highHalf w range x + w.size := by
    rw [← hh, Nat.mul_succ, hh]
  rw [Nat.succ_mul] at hbound
  omega

/-- **The carry does not lead out of the range.** -/
theorem carried_lt (hx : x < w.size) (hy : y < w.size) (hr : 0 < range) :
    carried w range x y < range := by
  have hhigh := highHalf_lt hx hr
  have hcarry := highHalf_lt hy hr
  unfold carried
  split
  · rename_i hover
    have hnot : highHalf w range x + 1 ≠ range := by
      intro hh
      have hlow := lowHalf_le hx hh
      omega
    omega
  · exact hhigh

end Halves

section Draws
variable {s rest : Source} {w : Width} {lo hi n : Nat}

theorem Source.next_lt (s : Source) (w : Width) : (s.next w).1 < w.size := by
  cases w with
  | bits32 => exact UInt32.toNat_lt _
  | bits64 => exact UInt64.toNat_lt _

/-- **There is nothing to draw exactly if the bounds are not in order.** -/
theorem Source.uniform?_eq_none : s.uniform? w lo hi = none ↔ hi < lo := by
  unfold Source.uniform?
  split
  · rename_i h
    exact ⟨fun _ => h, fun _ => rfl⟩
  · rename_i h
    refine ⟨fun hn => ?_, fun hlt => absurd hlt h⟩
    dsimp only at hn
    split at hn
    · cases hn
    · split at hn <;> cases hn

/-- **What is drawn is between the bounds**, if they are words of the width. -/
theorem Source.uniform?_bounds (hhi : hi < w.size) (h : s.uniform? w lo hi = some (n, rest)) :
    lo ≤ n ∧ n ≤ hi := by
  unfold Source.uniform? at h
  split at h
  · cases h
  · dsimp only at h
    have hx := s.next_lt w
    split at h
    · -- the range is as wide as the word, so the bounds exclude nothing
      rename_i hfull
      obtain ⟨rfl, -⟩ := Prod.mk.inj (Option.some.inj h)
      have hwide : w.size ∣ hi - lo + 1 := Nat.dvd_of_mod_eq_zero hfull
      have hsize := Nat.le_of_dvd (Nat.succ_pos _) hwide
      have hlt := Nat.mod_lt (lo + (s.next w).1) (by omega : 0 < w.size)
      omega
    · rename_i hr
      have hrange : (hi - lo + 1) % w.size = hi - lo + 1 := by
        refine Nat.mod_eq_of_lt (Nat.lt_of_le_of_ne (by omega) fun heq => hr ?_)
        rw [heq, Nat.mod_self]
      have hpos : 0 < hi - lo + 1 := Nat.succ_pos _
      rw [hrange] at h
      split at h
      · obtain ⟨rfl, -⟩ := Prod.mk.inj (Option.some.inj h)
        have hlt := carried_lt hx ((s.next w).2.next_lt w) hpos
        omega
      · obtain ⟨rfl, -⟩ := Prod.mk.inj (Option.some.inj h)
        have hlt := highHalf_lt hx hpos
        omega

end Draws

/-! ## A source for every number -/

section Reach
variable {w : Width} {range offset x : Nat}

theorem Width.size_pos (w : Width) : 0 < w.size := by
  cases w <;> decide

/-- The least word whose product with `range` has the high half `offset`. -/
def leastWord (w : Width) (range offset : Nat) : Nat :=
  (offset * w.size + (range - 1)) / range

/-- The product with the least word is the first one from `offset * w.size` on. -/
theorem leastWord_mul (h : offset < range) :
    offset * w.size ≤ leastWord w range offset * range ∧
      leastWord w range offset * range < offset * w.size + range := by
  have hparts := Nat.div_add_mod (offset * w.size + (range - 1)) range
  have hrest := Nat.mod_lt (offset * w.size + (range - 1)) (by omega : range > 0)
  rw [Nat.mul_comm] at hparts
  unfold leastWord
  omega

theorem leastWord_lt (h : offset < range) (hr : range ≤ w.size) :
    leastWord w range offset < w.size := by
  obtain ⟨-, hlt⟩ := leastWord_mul (w := w) h
  have hoffset : (offset + 1) * w.size ≤ range * w.size := Nat.mul_le_mul_right _ h
  rw [Nat.succ_mul] at hoffset
  refine Nat.lt_of_mul_lt_mul_right (a := range) ?_
  rw [Nat.mul_comm w.size]
  omega

theorem highHalf_leastWord (h : offset < range) (hr : range ≤ w.size) :
    highHalf w range (leastWord w range offset) = offset := by
  obtain ⟨hle, hlt⟩ := leastWord_mul (w := w) h
  refine Nat.div_eq_of_lt_le hle ?_
  rw [Nat.succ_mul]
  omega

/-- A second word that is zero does not carry. -/
theorem carried_zero (w : Width) (range x : Nat) :
    carried w range x 0 = highHalf w range x := by
  have hhigh : highHalf w range 0 = 0 := by simp [highHalf]
  have hlow : lowHalf w range x < w.size := Nat.mod_lt _ w.size_pos
  unfold carried
  rw [hhigh, if_neg (by omega)]

/-- The source that spells a number in two words, the lower one first, and goes on with
zeros. -/
def Source.spelling (x : Nat) : Source where
  word
    | 0 => UInt32.ofNat x
    | 1 => UInt32.ofNat (x / Word.size32)
    | _ => 0
  position := 0

/-- A 64-bit word is its two halves. -/
theorem Source.toNat_next64 (s : Source) :
    s.next64.1.toNat =
      Word.size32 * (s.word (s.position + 1)).toNat + (s.word s.position).toNat := by
  have hlow := (s.word s.position).toNat_lt
  have hhigh := (s.word (s.position + 1)).toNat_lt
  have hsum := Nat.two_pow_add_eq_or_of_lt hlow (s.word (s.position + 1)).toNat
  simp only [Source.next64, UInt64.toNat_or, UInt64.toNat_shiftLeft, UInt32.toNat_toUInt64]
  rw [show (32 : UInt64).toNat % 64 = 32 from rfl, Nat.shiftLeft_eq, Nat.mod_eq_of_lt (by omega),
    Nat.or_comm, Nat.mul_comm, ← hsum]

theorem Source.next_spelling (h : x < w.size) : ((spelling x).next w).1 = x := by
  cases w with
  | bits32 => exact UInt32.toNat_ofNat_of_lt' h
  | bits64 =>
    have hx : x < 18446744073709551616 := h
    simp only [next, toNat_next64, spelling, UInt32.toNat_ofNat', Word.size32]
    omega

/-- The number takes no more words than the width has. -/
theorem Source.next_next_spelling (h : x < w.size) :
    (((spelling x).next w).2.next w).1 = 0 := by
  cases w with
  | bits32 =>
    have hrest : x / Word.size32 = 0 := Nat.div_eq_of_lt h
    show (UInt32.ofNat (x / Word.size32)).toNat = 0
    rw [hrest]
    rfl
  | bits64 => exact toNat_next64 ((spelling x).next .bits64).2

/-- **Every number of the range is drawn from some source.** -/
theorem Source.uniform?_reaches {lo hi n : Nat} (hlo : lo ≤ n) (hn : n ≤ hi) (hhi : hi < w.size) :
    ∃ s rest : Source, s.uniform? w lo hi = some (n, rest) := by
  by_cases hfull : hi - lo + 1 = w.size
  · -- the bounds are those of the word itself, which is taken as it is
    refine ⟨spelling n, ((spelling n).next w).2, ?_⟩
    have hdrawn := next_spelling (w := w) (x := n) (by omega)
    have hn' : (lo + n) % w.size = n := by
      rw [show lo = 0 by omega, Nat.zero_add, Nat.mod_eq_of_lt (by omega)]
    simp only [uniform?, if_neg (by omega : ¬ hi < lo), hfull, Nat.mod_self, if_true, hdrawn, hn']
  · have hrange : (hi - lo + 1) % w.size = hi - lo + 1 := Nat.mod_eq_of_lt (by omega)
    have hoffset : n - lo < hi - lo + 1 := by omega
    have hword := leastWord_lt (w := w) hoffset (by omega)
    have hhigh := highHalf_leastWord (w := w) hoffset (by omega)
    have hdrawn := next_spelling hword
    have hsecond := next_next_spelling hword
    refine ⟨spelling (leastWord w (hi - lo + 1) (n - lo)), ?_⟩
    simp only [uniform?, if_neg (by omega : ¬ hi < lo), hrange, if_neg (Nat.succ_ne_zero (hi - lo)),
      hdrawn, hsecond, carried_zero, hhigh, Nat.add_sub_cancel' hlo]
    split
    · exact ⟨_, rfl⟩
    · exact ⟨_, rfl⟩

end Reach
end ProgressiveSearch.Random
