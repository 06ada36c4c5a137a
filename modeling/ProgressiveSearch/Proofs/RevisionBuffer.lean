import Mathlib.Data.List.Induction
import ProgressiveSearch.RevisionBuffer

/-! # What a buffer holds

What is put at its place among entries in order takes the place of what was there
under its revision, and nothing else is touched (`mem_put`).  So whatever comes, and
in whatever order, a buffer holds under each revision the batch that was written last
under it (`mem_ofList`), in ascending order (`ascending_ofList`).  Its latest batch is
the one that came last among those of the greatest revision (`latest?_ofList`).

Batches that come in ascending order of their revisions are kept as they come: the
buffer is the list of them.

So whatever can be asked of a buffer is answered by the history of what was written
to it: what a revision leads to, what the next batch replaces, which revisions there
are and which of them is the highest (`refines_ofList`).
-/
namespace ProgressiveSearch.RevisionBuffer

/-- Entries in strictly ascending order of their revisions. -/
def Ascending (entries : List Entry) : Prop :=
  entries.Pairwise fun a b => a.revision < b.revision

/-! ## One batch more -/

section Put
variable {e x : Entry} {entries : List Entry}

/-- An entry of a higher revision than all others is put last. -/
theorem put_last (h : ∀ x ∈ entries, x.revision < e.revision) :
    put e entries = (none, entries ++ [e]) := by
  induction entries with
  | nil => rfl
  | cons x rest ih =>
    obtain ⟨hx, hrest⟩ := List.forall_mem_cons.mp h
    have hnot : ¬ e.revision < x.revision := UInt32.lt_asymm hx
    have hne : e.revision ≠ x.revision := (UInt32.ne_of_lt hx).symm
    rw [put, if_neg hnot, if_neg hne, ih hrest]
    rfl

/-- What is there after an entry has been put. -/
theorem mem_put (h : Ascending entries) :
    x ∈ (put e entries).2 ↔ x = e ∨ x ∈ entries ∧ x.revision ≠ e.revision := by
  induction entries with
  | nil => simp [put]
  | cons y rest ih =>
    obtain ⟨hy, hrest⟩ := List.pairwise_cons.mp h
    unfold put
    split
    · -- all that is there is of a higher revision
      rename_i hlt
      have hne : ∀ z ∈ y :: rest, z.revision ≠ e.revision := by
        intro z hz
        rcases List.mem_cons.mp hz with rfl | hz
        · exact (UInt32.ne_of_lt hlt).symm
        · exact (UInt32.ne_of_lt (UInt32.lt_trans hlt (hy z hz))).symm
      rw [List.mem_cons]
      exact or_congr_right ⟨fun hx => ⟨hx, hne x hx⟩, fun hx => hx.1⟩
    · split
      · -- the entry takes the place of another
        rename_i heq
        have hne : ∀ z ∈ rest, z.revision ≠ e.revision := by
          intro z hz
          rw [heq]
          exact (UInt32.ne_of_lt (hy z hz)).symm
        simp only [List.mem_cons]
        constructor
        · rintro (hx | hx)
          · exact .inl hx
          · exact .inr ⟨.inr hx, hne x hx⟩
        · rintro (hx | ⟨rfl | hx, hr⟩)
          · exact .inl hx
          · exact absurd heq.symm hr
          · exact .inr hx
      · rename_i hne
        simp only [Prod.map_snd, List.mem_cons, ih hrest]
        constructor
        · rintro (rfl | hx | ⟨hx, hr⟩)
          · exact .inr ⟨.inl rfl, Ne.symm hne⟩
          · exact .inl hx
          · exact .inr ⟨.inr hx, hr⟩
        · rintro (hx | ⟨rfl | hx, hr⟩)
          · exact .inr (.inl hx)
          · exact .inl rfl
          · exact .inr (.inr ⟨hx, hr⟩)

theorem ascending_put (h : Ascending entries) : Ascending (put e entries).2 := by
  induction entries with
  | nil => exact List.pairwise_singleton _ e
  | cons y rest ih =>
    obtain ⟨hy, hrest⟩ := List.pairwise_cons.mp h
    unfold put
    split
    · rename_i hlt
      refine List.pairwise_cons.mpr ⟨fun z hz => ?_, h⟩
      rcases List.mem_cons.mp hz with rfl | hz
      · exact hlt
      · exact UInt32.lt_trans hlt (hy z hz)
    · split
      · rename_i heq
        refine List.pairwise_cons.mpr ⟨fun z hz => ?_, hrest⟩
        rw [heq]
        exact hy z hz
      · rename_i hnot hne
        refine List.pairwise_cons.mpr ⟨fun z hz => ?_, ih hrest⟩
        rcases (mem_put hrest).mp hz with rfl | ⟨hz, -⟩
        · exact UInt32.lt_of_le_of_ne (UInt32.not_lt.mp hnot) (Ne.symm hne)
        · exact hy z hz

/-- What comes out is what a search for the revision finds. -/
theorem put_fst (h : Ascending entries) :
    (put e entries).1 = (entries.find? (·.revision = e.revision)).map Entry.batch := by
  induction entries with
  | nil => rfl
  | cons x rest ih =>
    obtain ⟨hx, hrest⟩ := List.pairwise_cons.mp h
    by_cases hlt : e.revision < x.revision
    · -- all that is there is of a higher revision
      have hnone : (x :: rest).find? (·.revision = e.revision) = none := by
        refine List.find?_eq_none.mpr fun y hy => ?_
        have hey : e.revision < y.revision := by
          rcases List.mem_cons.mp hy with rfl | hy
          · exact hlt
          · exact UInt32.lt_trans hlt (hx y hy)
        simpa using (UInt32.ne_of_lt hey).symm
      rw [put, if_pos hlt, hnone]
      rfl
    · by_cases heq : e.revision = x.revision
      · simp [put, heq]
      · rw [put, if_neg hlt, if_neg heq, List.find?_cons_of_neg]
        · exact ih hrest
        · simpa using Ne.symm heq

theorem length_put (e : Entry) (entries : List Entry) :
    (put e entries).2.length = entries.length + if (put e entries).1.isSome then 0 else 1 := by
  induction entries with
  | nil => rfl
  | cons x rest ih =>
    unfold put
    split
    · rfl
    · split
      · rfl
      · simp only [Prod.map_fst, Prod.map_snd, id_eq, List.length_cons, ih]
        omega

end Put

/-- A batch that replaces another leaves the number of revisions alone. -/
theorem size_insert (buffer : RevisionBuffer) (b : Batch) :
    (buffer.insert b).size = buffer.size + if (buffer.replaced? b).isSome then 0 else 1 :=
  length_put (.of b) buffer.entries

theorem foldl_insert_ascending (front : List Batch) {rest : List Batch}
    (h : (front ++ rest).Pairwise fun a b => a.revision < b.revision) :
    rest.foldl insert ⟨front.map .of⟩ = ⟨(front ++ rest).map .of⟩ := by
  induction rest generalizing front with
  | nil => simp
  | cons b rest ih =>
    have hb : ∀ x ∈ front.map Entry.of, x.revision < (Entry.of b).revision := by
      intro x hx
      obtain ⟨y, hy, rfl⟩ := List.mem_map.mp hx
      exact (List.pairwise_append.mp h).2.2 y hy b List.mem_cons_self
    have hinsert : (⟨front.map .of⟩ : RevisionBuffer).insert b = ⟨(front ++ [b]).map .of⟩ := by
      rw [insert, store, put_last hb, List.map_append]
      rfl
    rw [List.foldl_cons, hinsert, ih _ (by simpa using h), List.append_assoc, List.singleton_append]

/-- **Batches in ascending order are kept as they come.** -/
theorem ofList_ascending {batches : List Batch}
    (h : batches.Pairwise fun a b => a.revision < b.revision) :
    ofList batches = ⟨batches.map .of⟩ :=
  foldl_insert_ascending [] h

/-! ## The history of writes -/

/-- The batch that was written last under a revision. -/
def lastWrite? (history : List Batch) (revision : UInt32) : Option Batch :=
  (history.filter fun b => b.revision = revision).getLast?

theorem lastWrite?_concat (history : List Batch) (b : Batch) (revision : UInt32) :
    lastWrite? (history ++ [b]) revision =
      if b.revision = revision then some b else lastWrite? history revision := by
  by_cases hr : b.revision = revision
  · simp [lastWrite?, hr]
  · simp [lastWrite?, hr]

section History
variable {history : List Batch} {b : Batch} {x : Entry} {revision : UInt32}

/-- Nothing leads to a revision under which nothing was written. -/
theorem lastWrite?_eq_none :
    lastWrite? history revision = none ↔ ∀ b ∈ history, b.revision ≠ revision := by
  simp [lastWrite?]

/-- What was written last under a revision is of that revision, -/
theorem revision_lastWrite? (h : lastWrite? history revision = some b) : b.revision = revision := by
  have hmem := List.mem_of_getLast? h
  simpa using (List.mem_filter.mp hmem).2

/-- and what came after it is not. -/
theorem split_lastWrite? (h : lastWrite? history revision = some b) :
    ∃ front rest, history = front ++ b :: rest ∧ ∀ x ∈ rest, x.revision ≠ revision := by
  induction history using List.reverseRecOn with
  | nil => cases h
  | append_singleton history c ih =>
    rw [lastWrite?_concat] at h
    split at h
    · obtain rfl := Option.some.inj h
      exact ⟨history, [], rfl, by simp⟩
    · rename_i hne
      obtain ⟨front, rest, rfl, hrest⟩ := ih h
      refine ⟨front, rest ++ [c], by simp, fun x hx => ?_⟩
      rcases List.mem_append.mp hx with hx | hx
      · exact hrest x hx
      · rw [List.mem_singleton.mp hx]
        exact hne

/-! ## Buffers filled in any order -/

theorem ascending_ofList (history : List Batch) : Ascending (ofList history).entries := by
  induction history using List.reverseRecOn with
  | nil => exact List.Pairwise.nil
  | append_singleton history b ih =>
    rw [ofList_concat]
    exact ascending_put ih

/-- **A buffer holds under each revision what was written last under it.** -/
theorem mem_ofList :
    x ∈ (ofList history).entries ↔ lastWrite? history x.revision = some x.batch := by
  induction history using List.reverseRecOn with
  | nil => simp [ofList, empty, lastWrite?]
  | append_singleton history c ih =>
    rw [ofList_concat, lastWrite?_concat]
    refine (mem_put (ascending_ofList history)).trans ?_
    rw [ih]
    by_cases hr : c.revision = x.revision
    · rw [if_pos hr, Option.some.injEq]
      constructor
      · rintro (rfl | ⟨-, hne⟩)
        · rfl
        · exact absurd hr.symm hne
      · rintro rfl
        exact .inl (by rw [Entry.of, hr])
    · rw [if_neg hr]
      constructor
      · rintro (rfl | ⟨hx, -⟩)
        · exact absurd rfl hr
        · exact hx
      · exact fun hx => .inr ⟨hx, Ne.symm hr⟩

/-- So it stores each batch under its own revision. -/
theorem keyed_ofList (h : x ∈ (ofList history).entries) : x.batch.revision = x.revision :=
  revision_lastWrite? (mem_ofList.mp h)

/-- The revisions of a buffer are those that came. -/
theorem mem_revisions_ofList :
    revision ∈ (ofList history).revisions ↔ ∃ b ∈ history, b.revision = revision := by
  unfold revisions
  rw [List.mem_map]
  constructor
  · rintro ⟨x, hx, rfl⟩
    obtain ⟨front, rest, rfl, -⟩ := split_lastWrite? (mem_ofList.mp hx)
    exact ⟨x.batch, by simp, keyed_ofList hx⟩
  · rintro ⟨b, hb, rfl⟩
    cases hw : lastWrite? history b.revision with
    | none => exact absurd rfl (lastWrite?_eq_none.mp hw b hb)
    | some c => exact ⟨⟨b.revision, c⟩, mem_ofList.mpr hw, rfl⟩

theorem ascending_revisions (history : List Batch) :
    (ofList history).revisions.Pairwise (· < ·) :=
  List.pairwise_map.mpr (ascending_ofList history)

/-! ## The latest batch -/

/-- `b` came last among the batches of the greatest revision. -/
def Newest (history : List Batch) (b : Batch) : Prop :=
  ∃ front rest, history = front ++ b :: rest ∧ (∀ x ∈ front, x.revision ≤ b.revision) ∧
    ∀ x ∈ rest, x.revision < b.revision

/-- The last of entries in order is of the greatest revision. -/
theorem le_of_getLast? {entries : List Entry} {last : Entry} (h : Ascending entries)
    (hl : entries.getLast? = some last) : ∀ x ∈ entries, x.revision ≤ last.revision := by
  obtain ⟨front, rfl⟩ := List.getLast?_eq_some_iff.mp hl
  intro x hx
  rcases List.mem_append.mp hx with hx | hx
  · exact UInt32.le_of_lt ((List.pairwise_append.mp h).2.2 x hx last (List.mem_singleton_self _))
  · rw [List.mem_singleton.mp hx]
    exact UInt32.le_refl _

theorem newest_of_latest? (h : (ofList history).latest? = some b) : Newest history b := by
  obtain ⟨last, hlast, rfl⟩ := Option.map_eq_some_iff.mp h
  have hmem := List.mem_of_getLast? hlast
  have hkey := keyed_ofList hmem
  have hall : ∀ x ∈ history, x.revision ≤ last.batch.revision := by
    intro x hx
    obtain ⟨y, hy, hxy⟩ := List.mem_map.mp (mem_revisions_ofList.mpr ⟨x, hx, rfl⟩)
    rw [hkey, ← hxy]
    exact le_of_getLast? (ascending_ofList history) hlast y hy
  obtain ⟨front, rest, rfl, hrest⟩ := split_lastWrite? (mem_ofList.mp hmem)
  refine ⟨front, rest, rfl, fun x hx => hall x (by simp [hx]), fun x hx => ?_⟩
  exact UInt32.lt_of_le_of_ne (hall x (by simp [hx])) (hkey ▸ hrest x hx)

/-- No batch has a greater revision. -/
theorem Newest.le (h : Newest history b) : ∀ x ∈ history, x.revision ≤ b.revision := by
  obtain ⟨front, rest, rfl, hfront, hrest⟩ := h
  intro x hx
  rcases List.mem_append.mp hx with hx | hx
  · exact hfront x hx
  · rcases List.mem_cons.mp hx with rfl | hx
    · exact UInt32.le_refl _
    · exact UInt32.le_of_lt (hrest x hx)

/-- There is only one such batch. -/
theorem Newest.unique {b' : Batch} (h : Newest history b) (h' : Newest history b') : b = b' := by
  obtain ⟨front, rest, rfl, hfront, hrest⟩ := h
  obtain ⟨front', rest', heq, hfront', hrest'⟩ := h'
  rcases List.append_eq_append_iff.mp heq with ⟨more, rfl, hmore⟩ | ⟨more, rfl, hmore⟩
  · cases more with
    | nil => exact (List.cons.inj hmore).1
    | cons x more =>
      -- `b` is before `b'`, so its revision is lower and not lower
      obtain ⟨rfl, rfl⟩ := List.cons.inj hmore
      have hlt := hrest b' (by simp)
      have hle := hfront' b (by simp)
      exact absurd hlt (UInt32.not_lt.mpr hle)
  · cases more with
    | nil => exact (List.cons.inj hmore).1.symm
    | cons x more =>
      obtain ⟨rfl, rfl⟩ := List.cons.inj hmore
      have hlt := hrest' b (by simp)
      have hle := hfront b' (by simp)
      exact absurd hlt (UInt32.not_lt.mpr hle)

/-- Only a buffer that nothing came to has no entries, -/
theorem entries_ofList_eq_nil : (ofList history).entries = [] ↔ history = [] := by
  constructor
  · intro h
    refine List.eq_nil_iff_forall_not_mem.mpr fun b hb => ?_
    obtain ⟨x, hx, -⟩ := List.mem_map.mp (mem_revisions_ofList.mpr ⟨b, hb, rfl⟩)
    rw [h] at hx
    cases hx
  · rintro rfl
    rfl

/-- and no latest batch. -/
theorem latest?_ofList_eq_none : (ofList history).latest? = none ↔ history = [] := by
  rw [latest?, Option.map_eq_none_iff, List.getLast?_eq_none_iff, entries_ofList_eq_nil]

/-- **The latest batch is the one that came last among those of the greatest
revision.** -/
theorem latest?_ofList : (ofList history).latest? = some b ↔ Newest history b := by
  refine ⟨newest_of_latest?, fun h => ?_⟩
  cases hl : (ofList history).latest? with
  | none =>
    obtain ⟨front, rest, heq, -⟩ := h
    rw [latest?_ofList_eq_none.mp hl] at heq
    simp at heq
  | some b' => rw [(newest_of_latest? hl).unique h]

/-- The last of the revisions is the highest, -/
theorem getLast?_revisions (buffer : RevisionBuffer) :
    buffer.revisions.getLast? = buffer.highest? :=
  List.getLast?_map

/-- and that of the latest batch. -/
theorem highest?_ofList (history : List Batch) :
    (ofList history).highest? = (ofList history).latest?.map Batch.revision := by
  unfold highest? latest?
  cases hl : (ofList history).entries.getLast? with
  | none => rfl
  | some last => exact congrArg some (keyed_ofList (List.mem_of_getLast? hl)).symm

end History

/-! ## What can be asked of a buffer -/

section Lookup
variable {buffer : RevisionBuffer} {b : Batch} {revision : UInt32}

/-- In a buffer in order, what a revision leads to is what is stored under it. -/
theorem get?_eq_some (h : Ascending buffer.entries) :
    buffer.get? revision = some b ↔ ⟨revision, b⟩ ∈ buffer.entries := by
  unfold get?
  constructor
  · intro hb
    obtain ⟨x, hx, rfl⟩ := Option.map_eq_some_iff.mp hb
    have hr : x.revision = revision := by simpa using List.find?_some hx
    exact hr ▸ List.mem_of_find?_eq_some hx
  · intro hb
    -- no entry before this one is of its revision
    obtain ⟨front, rest, hsplit⟩ := List.append_of_mem hb
    rw [Ascending, hsplit, List.pairwise_append] at h
    have hfront : front.find? (·.revision = revision) = none := by
      refine List.find?_eq_none.mpr fun x hx => ?_
      have hlt : x.revision < revision := h.2.2 x hx _ List.mem_cons_self
      simpa using UInt32.ne_of_lt hlt
    rw [hsplit, List.find?_append, hfront]
    simp

/-- What is replaced is what was there under the revision. -/
theorem replaced?_eq_get? (h : Ascending buffer.entries) (b : Batch) :
    buffer.replaced? b = buffer.get? b.revision :=
  put_fst h

/-- The highest revision of a buffer in order is the greatest of its revisions. -/
theorem highest?_eq_some (h : Ascending buffer.entries) :
    buffer.highest? = some revision ↔
      revision ∈ buffer.revisions ∧ ∀ other ∈ buffer.revisions, other ≤ revision := by
  unfold highest? revisions
  constructor
  · intro hr
    obtain ⟨last, hl, rfl⟩ := Option.map_eq_some_iff.mp hr
    refine ⟨List.mem_map_of_mem (List.mem_of_getLast? hl), fun other ho => ?_⟩
    obtain ⟨x, hx, rfl⟩ := List.mem_map.mp ho
    exact le_of_getLast? h hl x hx
  · rintro ⟨hr, hmax⟩
    obtain ⟨x, hx, rfl⟩ := List.mem_map.mp hr
    cases hl : buffer.entries.getLast? with
    | none => simp [List.getLast?_eq_none_iff.mp hl] at hx
    | some last =>
      have hle : last.revision ≤ x.revision :=
        hmax _ (List.mem_map_of_mem (List.mem_of_getLast? hl))
      exact congrArg some (UInt32.le_antisymm hle (le_of_getLast? h hl x hx))

/-- In a buffer in order the latest batch is the one under the highest revision. -/
theorem latest?_eq_bind (h : Ascending buffer.entries) :
    buffer.latest? = buffer.highest?.bind buffer.get? := by
  unfold highest? latest?
  cases hl : buffer.entries.getLast? with
  | none => rfl
  | some last => exact ((get?_eq_some h).mpr (List.mem_of_getLast? hl)).symm

end Lookup

/-- **A revision leads to what was written last under it.** -/
theorem get?_ofList (history : List Batch) (revision : UInt32) :
    (ofList history).get? revision = lastWrite? history revision :=
  Option.ext fun _ => (get?_eq_some (ascending_ofList history)).trans mem_ofList

/-- All that can be asked of a buffer, answered from a history of writes. -/
structure Refines (history : List Batch) (buffer : RevisionBuffer) : Prop where
  get (revision : UInt32) : buffer.get? revision = lastWrite? history revision
  /-- The next batch replaces what its revision leads to. -/
  replaced (b : Batch) : buffer.replaced? b = buffer.get? b.revision
  ascending : buffer.revisions.Pairwise (· < ·)
  revisions (revision : UInt32) :
    revision ∈ buffer.revisions ↔ ∃ b ∈ history, b.revision = revision
  size : buffer.size = buffer.revisions.length
  isEmpty : buffer.isEmpty = true ↔ history = []
  highest (revision : UInt32) : buffer.highest? = some revision ↔
    revision ∈ buffer.revisions ∧ ∀ other ∈ buffer.revisions, other ≤ revision
  latest : buffer.latest? = buffer.highest?.bind (lastWrite? history)
  /-- Whoever gives the buffer up for its latest batch gets the same. -/
  taken : buffer.takeLatest?.map Prod.fst = buffer.latest?
  /-- Each batch is stored under its own revision, -/
  filed (e : Entry) : e ∈ buffer.entries → e.batch.revision = e.revision
  /-- and nothing else is. -/
  keyed (b : Batch) : b ∈ buffer.batches ↔ buffer.get? b.revision = some b

/-- **A buffer refines its history of writes**, whatever was written and in whatever
order, after each of the writes. -/
theorem refines_ofList (history : List Batch) : Refines history (ofList history) where
  get := get?_ofList history
  replaced := replaced?_eq_get? (ascending_ofList history)
  ascending := ascending_revisions history
  revisions _ := mem_revisions_ofList
  size := (length_revisions _).symm
  isEmpty := by rw [isEmpty, List.isEmpty_iff, entries_ofList_eq_nil]
  highest _ := highest?_eq_some (ascending_ofList history)
  latest := by
    rw [latest?_eq_bind (ascending_ofList history), funext (get?_ofList history)]
  taken := by
    rw [takeLatest?, Option.map_map, latest?]
    rfl
  filed _ := keyed_ofList
  keyed b := by
    rw [get?_eq_some (ascending_ofList history), batches, List.mem_map]
    constructor
    · rintro ⟨x, hx, rfl⟩
      rw [keyed_ofList hx]
      exact hx
    · exact fun hb => ⟨_, hb, rfl⟩

end ProgressiveSearch.RevisionBuffer
