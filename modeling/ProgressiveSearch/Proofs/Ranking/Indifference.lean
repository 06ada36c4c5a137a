import Mathlib.Data.List.Forall2
import ProgressiveSearch.Proofs.Ranking.Standings

/-! # What refinement and revision touch

A batch is made from random words, base scores, a boost and a factor.  The words and the
base scores come from query and subject alone, the boost from the refinement and the
factor from the revision.  So two contexts of one query and one subject have batches of
the same length, whatever their refinements and revisions (`drawCount_congr`); and if the
boosts and the factors agree too, the batches list the same scores under the same numbers
(`standings_congr`), and differ only in where the revision is written
(`batches_alike`).
-/
namespace ProgressiveSearch.Ranking

/-- Two refinements that raise scores by the same: both are empty, or neither is and their
hashes agree in the two hundred steps of a boost. -/
def SameBoost (a b : String) : Prop :=
  a = "" ∧ b = "" ∨
    a ≠ "" ∧ b ≠ "" ∧
      SipHash.digest (SipHash.textBytes a) % 200 = SipHash.digest (SipHash.textBytes b) % 200

instance (a b : String) : Decidable (SameBoost a b) :=
  inferInstanceAs (Decidable (_ ∨ _))

/-- Two revisions that scale scores by the same: they are the same, or neither is one of
the three that are scaled. -/
def SameScale (q r : UInt32) : Prop :=
  q = r ∨ ¬ (1 ≤ q ∧ q ≤ 3) ∧ ¬ (1 ≤ r ∧ r ≤ 3)

instance (q r : UInt32) : Decidable (SameScale q r) :=
  inferInstanceAs (Decidable (_ ∨ _))

/-- Two items that differ at most in the revision at the end of their names. -/
structure Alike (q r : UInt32) (x y : Item) : Prop where
  subjectId : x.subjectId = y.subjectId
  score : x.score = y.score
  stem : ∃ stem, x.itemId = stem ++ "_r" ++ toString q.toNat ∧
    y.itemId = stem ++ "_r" ++ toString r.toNat

section Sources
variable {c d : Context} {q r : UInt32}

theorem boost_eq {a b : String} (h : SameBoost a b) : boost a = boost b := by
  unfold boost thousandths
  rcases h with ⟨rfl, rfl⟩ | ⟨ha, hb, hhash⟩
  · rfl
  · rw [if_neg (by simpa using ha), if_neg (by simpa using hb), hhash]

/-- A revision that is none of the three is not scaled. -/
theorem multiplier_outside (h : ¬ (1 ≤ r ∧ r ≤ 3)) : multiplier r = 1.0 := by
  have hone : r ≠ 1 := by rintro rfl; exact h (by decide)
  have htwo : r ≠ 2 := by rintro rfl; exact h (by decide)
  have hthree : r ≠ 3 := by rintro rfl; exact h (by decide)
  rw [multiplier, if_neg hone, if_neg htwo, if_neg hthree]

theorem multiplier_eq (h : SameScale q r) : multiplier q = multiplier r := by
  rcases h with rfl | ⟨hq, hr⟩
  · rfl
  · rw [multiplier_outside hq, multiplier_outside hr]

/-- The number of items, and the words that are left, depend on query and subject alone. -/
theorem drawCount_congr (hquery : c.query = d.query) (hsubject : c.subjectId = d.subjectId) :
    drawCount c = drawCount d := by
  simp only [drawCount, seed, hquery, hsubject]

/-- The refinement counts by its boost only, the revision by its factor. -/
theorem scores_congr (hquery : c.query = d.query) (hsubject : c.subjectId = d.subjectId)
    (hboost : boost c.refinement = boost d.refinement) (hscale : multiplier q = multiplier r) :
    scores c q = scores d r := by
  simp only [scores, jitters, score, base, drawCount_congr hquery hsubject, hquery, hsubject,
    hboost, hscale]

theorem standings_congr (hquery : c.query = d.query) (hsubject : c.subjectId = d.subjectId)
    (hboost : boost c.refinement = boost d.refinement) (hscale : multiplier q = multiplier r) :
    standings c q = standings d r := by
  rw [standings, standings, scores_congr hquery hsubject hboost hscale]

/-- The items with one score and one number. -/
theorem alike_numbered (subjectId : String) (q r : UInt32) (entry : Score × Nat) :
    Alike q r (numbered subjectId q entry) (numbered subjectId r entry) where
  subjectId := rfl
  score := rfl
  stem := ⟨"item_" ++ subjectId ++ "_" ++ toString entry.2, rfl, rfl⟩

/-- **Refinement and revision touch nothing but what they are to.**  Two contexts of one
query and one subject have batches of the same length, whatever their refinements and
revisions.  If the refinements raise scores by the same and the revisions scale them by
the same, the batches agree in each position in subject and score, and in the name but for
the revision at its end. -/
theorem batches_alike (hquery : c.query = d.query) (hsubject : c.subjectId = d.subjectId)
    (q r : UInt32) :
    (batch c q).items.length = (batch d r).items.length ∧
      (SameBoost c.refinement d.refinement → SameScale q r →
        List.Forall₂ (Alike q r) (batch c q).items (batch d r).items) := by
  constructor
  · rw [length_items_batch, length_items_batch, drawCount_congr hquery hsubject]
  · intro hrefinement hrevision
    have hstandings : standings c q = standings d r :=
      standings_congr hquery hsubject (boost_eq hrefinement) (multiplier_eq hrevision)
    rw [items_batch, items_batch, hstandings, hsubject, List.forall₂_map_left_iff,
      List.forall₂_map_right_iff, List.forall₂_same]
    exact fun entry _ => alike_numbered d.subjectId q r entry

/-- Two refinements whose boosts coincide, and two revisions beyond the last. -/
theorem batches_alike_coincidence :
    let c : Context := ⟨"mug", "B1", "large"⟩
    let d : Context := ⟨"mug", "B1", "cheap and thick"⟩
    SameBoost c.refinement d.refinement ∧ SameScale 0 4 ∧
      (batch c 0).items.length = (batch d 4).items.length ∧
      List.Forall₂ (Alike 0 4) (batch c 0).items (batch d 4).items := by
  intro c d
  have hboost : SameBoost c.refinement d.refinement := by decide +kernel
  have hscale : SameScale 0 4 := by decide
  obtain ⟨hlength, halike⟩ := batches_alike (c := c) (d := d) rfl rfl 0 4
  exact ⟨hboost, hscale, hlength, halike hboost hscale⟩

end Sources
end ProgressiveSearch.Ranking
