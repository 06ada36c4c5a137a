import ProgressiveSearch.Proofs.Ranking.Items
import ProgressiveSearch.Proofs.Score

/-! # What a batch lists

A batch lists the items of its context by their scores.  The **standings** are the scores
with the numbers of the items that have them, the best first and those of one score by
number; a batch lists the items in the order of the standings (`items_batch`).

So a batch has a definite shape (`Shape`, `shape_batch`): each number from 1 on occurs
once, scores fall, and where they do not fall numbers rise.
-/
namespace ProgressiveSearch.Ranking

/-- The scores of a context's items, in the order of their indices. -/
def scores (c : Context) (revision : UInt32) : List Score :=
  (jitters c).zipIdx.map fun entry => score c revision entry.2 entry.1

/-- The better score first. -/
def falling (a b : Score) : Bool := b.rank ≤ a.rank

/-- The scores with the numbers of their items, the best first, those of one score by number. -/
def standings (c : Context) (revision : UInt32) : List (Score × Nat) :=
  ((scores c revision).zipIdx.mergeSort (List.zipIdxLE falling)).map fun entry =>
    (entry.1, entry.2 + 1)

/-- The item with a score and a number. -/
def numbered (subjectId : String) (revision : UInt32) (entry : Score × Nat) : Item where
  subjectId := subjectId
  itemId := itemId subjectId entry.2 revision
  score := entry.1

@[simp] theorem length_scores (c : Context) (revision : UInt32) :
    (scores c revision).length = (drawCount c).1 := by
  simp [scores, jitters]

theorem zipIdx_items (c : Context) (revision : UInt32) :
    (items c revision).zipIdx = (scores c revision).zipIdx.map fun entry =>
      (numbered c.subjectId revision (entry.1, entry.2 + 1), entry.2) := by
  refine List.ext_getElem (by simp) fun k _ _ => ?_
  simp [items, scores, item, numbered]

/-- **A batch lists its items in the order of the standings.** -/
theorem items_batch (c : Context) (revision : UInt32) :
    (batch c revision).items = (standings c revision).map (numbered c.subjectId revision) := by
  -- items are compared by their scores only, so the scores can be sorted in their place
  have hsorted : ((items c revision).zipIdx).mergeSort (List.zipIdxLE byFallingScore) =
      ((scores c revision).zipIdx.mergeSort (List.zipIdxLE falling)).map fun entry =>
        (numbered c.subjectId revision (entry.1, entry.2 + 1), entry.2) := by
    rw [zipIdx_items]
    refine (List.map_mergeSort ?_).symm
    intro a _ b _
    rfl
  rw [batch, ← List.mergeSort_zipIdx, hsorted, standings, List.map_map, List.map_map]
  rfl

/-- Each number from 1 on stands once. -/
theorem perm_standings (c : Context) (revision : UInt32) :
    ((standings c revision).map Prod.snd).Perm (List.range' 1 (drawCount c).1) := by
  have hnumbers : (scores c revision).zipIdx.map (fun entry => entry.2 + 1) =
      List.range' 1 (drawCount c).1 :=
    List.ext_getElem (by simp) fun k _ _ => by simp [Nat.add_comm]
  rw [standings, List.map_map, ← hnumbers]
  exact (List.mergeSort_perm _ _).map _

theorem falling_trans (x y z : Score) (hxy : falling x y = true) (hyz : falling y z = true) :
    falling x z = true :=
  decide_eq_true (Nat.le_trans (of_decide_eq_true hyz) (of_decide_eq_true hxy))

theorem falling_total (x y : Score) : (falling x y || falling y x) = true := by
  simp only [falling, Bool.or_eq_true, decide_eq_true_eq]
  exact Nat.le_total _ _

/-- A score that may stand before another is not lower, and if it is the same its index is
not higher. -/
theorem le_of_zipIdxLE {a b : Score × Nat} (h : List.zipIdxLE falling a b = true) :
    b.1.Precedes a.1 ∧ (a.1 = b.1 → a.2 ≤ b.2) := by
  unfold List.zipIdxLE at h
  split at h
  · rename_i hab
    refine ⟨Score.precedes_iff_rank_le.mpr (of_decide_eq_true hab), fun heq => ?_⟩
    have hba : falling b.1 a.1 = true := by
      rw [heq] at hab ⊢
      exact hab
    rw [if_pos hba] at h
    exact of_decide_eq_true h
  · cases h

/-- **In the standings scores do not rise, and where they stay the same numbers rise.** -/
theorem pairwise_standings (c : Context) (revision : UInt32) :
    (standings c revision).Pairwise fun x y =>
      y.1.Precedes x.1 ∧ (x.1 = y.1 → x.2 < y.2) := by
  have hdistinct : (standings c revision).Pairwise fun x y => x.2 ≠ y.2 :=
    List.pairwise_map.mp ((perm_standings c revision).nodup_iff.mpr (List.nodup_range' 1))
  have hsorted := List.pairwise_mergeSort (List.zipIdxLE_trans falling_trans)
    (List.zipIdxLE_total falling_total) (scores c revision).zipIdx
  have hranked : (standings c revision).Pairwise fun x y =>
      y.1.Precedes x.1 ∧ (x.1 = y.1 → x.2 ≤ y.2) := by
    refine List.pairwise_map.mpr (hsorted.imp fun {a b} h => ?_)
    obtain ⟨hprecedes, hlevel⟩ := le_of_zipIdxLE h
    exact ⟨hprecedes, fun heq => Nat.succ_le_succ (hlevel heq)⟩
  refine (hranked.and hdistinct).imp fun {x y} h => ?_
  exact ⟨h.1.1, fun heq => Nat.lt_of_le_of_ne (h.1.2 heq) h.2⟩

theorem confined_of_mem {c : Context} {revision : UInt32} {x : Item}
    (h : x ∈ items c revision) : x.score.Confined := by
  obtain ⟨entry, -, rfl⟩ := List.mem_map.mp h
  exact Score.confined_ofFloat_confine _

/-! ## The shape of a batch -/

/-- What a batch of a context and a revision looks like, whatever its scores are. -/
structure Shape (c : Context) (revision : UInt32) (b : Batch) : Prop where
  revision_eq : b.revision = revision
  fewest : Contract.minItems ≤ b.items.length
  most : b.items.length ≤ Contract.maxItems
  /-- The items are those of some scores with numbers.  Each number from 1 to the number of
  items occurs once and is in the name of its item; scores do not rise in the total order,
  and where they stay the same numbers rise. -/
  listing : ∃ ranked : List (Score × Nat),
    (b.items = ranked.map fun entry =>
      { subjectId := c.subjectId
        itemId := "item_" ++ c.subjectId ++ "_" ++ toString entry.2 ++ "_r" ++
          toString revision.toNat
        score := entry.1 }) ∧
    (ranked.map Prod.snd).Perm (List.range' 1 b.items.length) ∧
    ranked.Pairwise fun x y => y.1.Precedes x.1 ∧ (x.1 = y.1 → x.2 < y.2)
  distinct : (b.items.map Item.itemId).Nodup
  confined : ∀ x ∈ b.items, x.score.Confined

/-- **Every batch has its shape**, for every context and every revision. -/
theorem shape_batch (c : Context) (revision : UInt32) :
    Shape c revision (batch c revision) := by
  have hlength := length_items_batch c revision
  obtain ⟨hfewest, hmost⟩ := drawCount_bounds c
  have hnames : ((batch c revision).items.map Item.itemId).Perm
      ((items c revision).map Item.itemId) :=
    (List.mergeSort_perm _ _).map _
  refine
    { revision_eq := rfl
      fewest := hlength ▸ hfewest
      most := hlength ▸ hmost
      listing := ⟨standings c revision, items_batch c revision, ?_, pairwise_standings c revision⟩
      distinct := hnames.nodup_iff.mpr (nodup_itemIds c revision)
      confined := fun x hx => confined_of_mem (mem_items_batch.mp hx) }
  rw [hlength]
  exact perm_standings c revision

end ProgressiveSearch.Ranking
