import Mathlib.Data.List.Nodup
import ProgressiveSearch.Proofs.Random.Uniform
import ProgressiveSearch.Ranking

/-! # The items of a context

A context has from five to ten items (`drawCount_bounds`), which differ in their scores
and in their names.  A name is made of the subject, the number of the item and the
revision.  The subject may be any text, also one that looks like the rest of a name, so
that a name tells its parts only from its end: the digits there are the revision, and
those before the mark of the revision are the number (`push_append_toString_inj`).

So a name belongs to one subject, one number and one revision (`itemId_inj`).  This holds
for the items of all contexts and revisions together (`itemId_eq_iff`).
-/
namespace ProgressiveSearch.Ranking

/-- **How many items a context has.** -/
theorem drawCount_bounds (c : Context) :
    Contract.minItems ≤ (drawCount c).1 ∧ (drawCount c).1 ≤ Contract.maxItems := by
  have hmax : Contract.maxItems < Random.Width.bits32.size := by decide
  simp only [drawCount]
  cases hn : (Random.Source.ofSeed (seed c)).uniform? .bits32 Contract.minItems
      Contract.maxItems with
  | none => exact ⟨Nat.le_refl _, (by decide : Contract.minItems ≤ Contract.maxItems)⟩
  | some drawn => exact Random.Source.uniform?_bounds hmax hn

theorem length_items_batch (c : Context) (revision : UInt32) :
    (batch c revision).items.length = (drawCount c).1 := by
  rw [batch, List.length_mergeSort, length_items]

/-! ## Names -/

section Names

/-- Digits are told apart from what is before them by a mark that is no digit. -/
theorem append_mark_inj {front back ds es : List Char} {mark : Char}
    (hmark : mark.isDigit = false) (hds : ∀ x ∈ ds, x.isDigit = true)
    (hes : ∀ x ∈ es, x.isDigit = true) (h : front ++ mark :: ds = back ++ mark :: es) :
    front = back ∧ ds = es := by
  -- if one front is shorter, the other mark is among the digits
  rcases List.append_eq_append_iff.mp h with ⟨more, rfl, hmore⟩ | ⟨more, rfl, hmore⟩
  · cases more with
    | nil => simpa using hmore
    | cons x more =>
      obtain ⟨rfl, rfl⟩ := List.cons.inj hmore
      exact absurd (hds mark (by simp)) (by simp [hmark])
  · cases more with
    | nil => simpa [eq_comm] using hmore
    | cons x more =>
      obtain ⟨rfl, rfl⟩ := List.cons.inj hmore
      exact absurd (hes mark (by simp)) (by simp [hmark])

/-- A number is read back from its digits. -/
theorem toDigits_inj {m n : Nat} (h : Nat.toDigits 10 m = Nat.toDigits 10 n) : m = n := by
  have hread := congrArg (Nat.ofDigitChars 10 · 0) h
  simpa only [Nat.ofDigitChars_ten_toDigits] using hread

/-- **A number at the end of a text, behind a mark, is told apart from the rest.** -/
theorem push_append_toString_inj {s t : String} {mark : Char} {m n : Nat}
    (hmark : mark.isDigit = false) :
    s.push mark ++ toString m = t.push mark ++ toString n ↔ s = t ∧ m = n := by
  constructor
  · intro h
    have hchars := congrArg String.toList h
    simp only [String.toList_append, String.toList_push, List.append_assoc,
      List.singleton_append, Nat.toString_eq_ofList_toDigits, String.toList_ofList] at hchars
    have hdigits : ∀ k, ∀ x ∈ Nat.toDigits 10 k, x.isDigit = true := fun _ _ hx =>
      Nat.isDigit_of_mem_toDigits (by decide) (by decide) hx
    obtain ⟨hfront, hend⟩ := append_mark_inj hmark (hdigits m) (hdigits n) hchars
    exact ⟨String.ext hfront, toDigits_inj hend⟩
  · rintro ⟨rfl, rfl⟩
    rfl

/-- A name as it is read from its end: two numbers, each behind its mark. -/
theorem itemId_eq_push (subjectId : String) (number : Nat) (revision : UInt32) :
    itemId subjectId number revision =
      ((("item_" ++ subjectId).push '_' ++ toString number) ++ "_").push 'r' ++
        toString revision.toNat := by
  simp [itemId, String.ext_iff]

/-- **A name tells its parts**, whatever the subject looks like. -/
theorem itemId_inj {s t : String} {m n : Nat} {q r : UInt32} :
    itemId s m q = itemId t n r ↔ s = t ∧ m = n ∧ q = r := by
  rw [itemId_eq_push, itemId_eq_push, push_append_toString_inj (by decide),
    String.append_left_inj, push_append_toString_inj (by decide), String.append_right_inj,
    UInt32.toNat_inj, and_assoc]

end Names

/-! ## Numbers -/

section Numbers
variable {c d : Context} {q r revision : UInt32} {x y : Item}

theorem itemId_getElem {k : Nat} (hk : k < (items c revision).length) :
    (items c revision)[k].itemId = itemId c.subjectId (k + 1) revision := by
  simp [items, item]

theorem itemIds_items (c : Context) (revision : UInt32) :
    (items c revision).map Item.itemId =
      (List.range' 1 (drawCount c).1).map (itemId c.subjectId · revision) := by
  refine List.ext_getElem (by simp) fun k _ _ => ?_
  simp [itemId_getElem, Nat.add_comm]

theorem nodup_itemIds (c : Context) (revision : UInt32) :
    ((items c revision).map Item.itemId).Nodup := by
  rw [itemIds_items]
  exact (List.nodup_range' 1).map fun m n h => (itemId_inj.mp h).2.1

/-- The number of an item among the items of its context, which are counted from 1. -/
def number (c : Context) (revision : UInt32) (x : Item) : Nat :=
  (items c revision).idxOf x + 1

/-- Each item has one number. -/
theorem number_getElem {k : Nat} (hk : k < (items c revision).length) :
    number c revision (items c revision)[k] = k + 1 := by
  rw [number, (nodup_itemIds c revision).of_map.idxOf_getElem]

theorem mem_items_batch : x ∈ (batch c revision).items ↔ x ∈ items c revision :=
  List.mem_mergeSort

/-- An item is named by its number. -/
theorem itemId_of_mem (h : x ∈ items c revision) :
    x.itemId = itemId c.subjectId (number c revision x) revision := by
  have hk := List.idxOf_lt_length_iff.mpr h
  calc x.itemId = ((items c revision)[(items c revision).idxOf x]).itemId := by
        rw [List.getElem_idxOf]
    _ = itemId c.subjectId (number c revision x) revision := itemId_getElem hk

theorem subjectId_of_mem (h : x ∈ items c revision) : x.subjectId = c.subjectId := by
  obtain ⟨entry, -, rfl⟩ := List.mem_map.mp h
  rfl

/-- **Names are unambiguous.**  Of whatever contexts and revisions two items are, and
whatever their subjects look like: they have the same name exactly if they have the same
subject, the same number and the same revision. -/
theorem itemId_eq_iff (hx : x ∈ (batch c q).items) (hy : y ∈ (batch d r).items) :
    x.itemId = y.itemId ↔
      x.subjectId = y.subjectId ∧ number c q x = number d r y ∧ q = r := by
  rw [mem_items_batch] at hx hy
  rw [itemId_of_mem hx, itemId_of_mem hy, subjectId_of_mem hx, subjectId_of_mem hy, itemId_inj]

/-- The first items of two contexts whose common subject looks like the end of a name. -/
theorem itemId_eq_iff_lookalike :
    let c : Context := ⟨"mug", "B_1_r3", ""⟩
    let d : Context := ⟨"cup", "B_1_r3", "large"⟩
    ∃ x ∈ (batch c 3).items, ∃ y ∈ (batch d 3).items,
      (number c 3 x = 1 ∧ number d 3 y = 1) ∧
        (x.itemId = y.itemId ↔
          x.subjectId = y.subjectId ∧ number c 3 x = number d 3 y ∧ (3 : UInt32) = 3) := by
  intro c d
  have hfirst : ∀ c : Context, 0 < (items c 3).length := fun c => by
    rw [length_items]
    exact Nat.lt_of_lt_of_le (by decide) (drawCount_bounds c).1
  have hx := mem_items_batch.mpr (List.getElem_mem (hfirst c))
  have hy := mem_items_batch.mpr (List.getElem_mem (hfirst d))
  exact ⟨_, hx, _, hy, ⟨number_getElem _, number_getElem _⟩, itemId_eq_iff hx hy⟩

end Numbers
end ProgressiveSearch.Ranking
