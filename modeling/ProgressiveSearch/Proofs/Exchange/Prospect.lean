import ProgressiveSearch.Proofs.Clock
import ProgressiveSearch.Proofs.Exchange.Setting

/-! # What can end an exchange, and when

A `Script` says what happens around an exchange and when.  Two things in it can cut
a wait of the caller short: that the call is given up, and that the receiver comes
to its end, at the first reply that is not a batch or when the replies are closed
(`Prospect`).  From them, the moments at which the waits elapse, and whether the
requests are refused by then, one can tell how and when an exchange ends
(`foretold`).

One thing is left open.  The receiver is a task of its own: if it can come to its
end at the very moment at which a wait elapses, then it depends on which of the two
tasks goes first whether the caller hears of that end.
-/
namespace ProgressiveSearch.Exchange

/-- What happens around an exchange, and when. -/
abbrev Script := List (Instant × Cue)

/-- The moments of a script are in order, and none is before `t`. -/
def InOrder (t : Instant) (script : Script) : Prop :=
  (t :: script.map Prod.fst).Pairwise (· ≤ ·)

instance (t : Instant) (script : Script) : Decidable (InOrder t script) :=
  inferInstanceAs (Decidable (List.Pairwise _ _))

section Order
variable {t u : Instant} {c : Cue} {rest script : Script}

theorem InOrder.all (h : InOrder t script) : ∀ entry ∈ script, t ≤ entry.1 := by
  intro entry hm
  exact (List.pairwise_cons.mp h).1 _ (List.mem_map_of_mem hm)

theorem InOrder.tail (h : InOrder t ((u, c) :: rest)) : t ≤ u ∧ InOrder u rest :=
  ⟨h.all _ List.mem_cons_self, (List.pairwise_cons.mp h).2⟩

/-- A script in order is in order from any moment on that it does not precede. -/
theorem InOrder.of_all (h : InOrder t script) (hu : ∀ entry ∈ script, u ≤ entry.1) :
    InOrder u script := by
  refine List.pairwise_cons.mpr ⟨fun v hv => ?_, (List.pairwise_cons.mp h).2⟩
  obtain ⟨entry, hm, rfl⟩ := List.mem_map.mp hv
  exact hu entry hm

end Order

/-! ## The receiver's end -/

/-- How a reply ends the receiver, if it does. -/
def ending? : Reply → Option ReceiveEnd
  | .batch _ => none
  | .failed status => some (.failed status.code)
  | .fault => some .stopped

/-- How a cue ends the receiver, if it does. -/
def Cue.ending? : Cue → Option ReceiveEnd
  | .bring r => Exchange.ending? r
  | .close => some .completed
  | .cancel | .pick | .refuse => none

/-- When a cue comes for the first time. -/
def momentOf (c : Cue) (script : Script) : Option Instant :=
  (script.find? fun entry => entry.2 = c).map Prod.fst

/-- When and how the receiver ends if it is left alone. -/
def endOf (script : Script) : Option (Instant × ReceiveEnd) :=
  script.findSome? fun entry => entry.2.ending?.map (entry.1, ·)

section Moments
variable {t : Instant} {c : Cue} {script : Script}

theorem momentOf_cons (c' : Cue) (t : Instant) (c : Cue) (rest : Script) :
    momentOf c' ((t, c) :: rest) = if c = c' then some t else momentOf c' rest := by
  by_cases h : c = c'
  · simp [momentOf, h]
  · simp [momentOf, h]

theorem endOf_cons (t : Instant) (c : Cue) (rest : Script) :
    endOf ((t, c) :: rest) = (c.ending?.map (t, ·)).or (endOf rest) := by
  cases h : c.ending? with
  | none => simp [endOf, h]
  | some e => simp [endOf, h]

theorem mem_of_momentOf (h : momentOf c script = some t) : (t, c) ∈ script := by
  obtain ⟨⟨u, c'⟩, hf, rfl⟩ := Option.map_eq_some_iff.mp h
  have hmem := List.mem_of_find?_eq_some hf
  obtain rfl : c' = c := by simpa using List.find?_some hf
  exact hmem

theorem mem_of_endOf {e : ReceiveEnd} (h : endOf script = some (t, e)) :
    ∃ c, (t, c) ∈ script ∧ c.ending? = some e := by
  obtain ⟨⟨u, c⟩, hm, hc⟩ := List.exists_of_findSome?_eq_some h
  obtain ⟨e', he, hp⟩ := Option.map_eq_some_iff.mp hc
  obtain ⟨rfl, rfl⟩ := Prod.mk.inj hp
  exact ⟨c, hm, he⟩

end Moments

/-! ## What cuts a wait short -/

/-- When the call will be given up, and when and how the receiver will end. -/
structure Prospect where
  cancel : Option Instant
  ending : Option (Instant × ReceiveEnd)

namespace Prospect

/-- When the call is given up, if it is by `u`. -/
def cancelledBy (x : Prospect) (u : Instant) : Option Instant := x.cancel.filter (· ≤ u)

/-- When and how the receiver ends, if the caller hears of it by `u`.  Of an end at
`u` it hears if the receiver is prompt. -/
def endedBy (x : Prospect) (prompt : Bool) (u : Instant) : Option (Instant × ReceiveEnd) :=
  x.ending.filter fun e => e.1 < u ∨ e.1 = u ∧ prompt

/-- What cuts short a wait that would elapse at `u`, and when. -/
def cut? (x : Prospect) (prompt : Bool) (u : Instant) : Option (Instant × Termination) :=
  match x.cancelledBy u, x.endedBy prompt u with
  | none, none => none
  | some t, none => some (t, .cancelled)
  | none, some (t, e) => some (t, e.termination)
  | some t, some (t', e) => some (if t ≤ t' then (t, .cancelled) else (t', e.termination))

end Prospect

section Cut
variable {x : Prospect} {prompt : Bool} {t u : Instant} {e : ReceiveEnd}

theorem cancelledBy_eq_some : x.cancelledBy u = some t ↔ x.cancel = some t ∧ t ≤ u := by
  simp [Prospect.cancelledBy, Option.filter_eq_some_iff]

theorem endedBy_eq_some : x.endedBy prompt u = some (t, e) ↔
    x.ending = some (t, e) ∧ (t < u ∨ t = u ∧ prompt = true) := by
  simp [Prospect.endedBy, Option.filter_eq_some_iff]

/-- A call given up is seen first, -/
theorem cut?_cancelled (hc : x.cancel = some t) (ht : t ≤ u) (he : ∀ e ∈ x.ending, t ≤ e.1) :
    x.cut? prompt u = some (t, .cancelled) := by
  unfold Prospect.cut?
  rw [cancelledBy_eq_some.mpr ⟨hc, ht⟩]
  cases hends : x.endedBy prompt u with
  | none => rfl
  | some end' =>
    have hle : t ≤ end'.1 := he _ (endedBy_eq_some.mp hends).1
    simp [hle]

/-- then the end of the receiver, -/
theorem cut?_ended (he : x.ending = some (t, e)) (ht : t ≤ u) (hc : ∀ v ∈ x.cancel, t < v) :
    x.cut? true u = some (t, e.termination) := by
  have hby : t < u ∨ t = u ∧ true = true := by
    rcases Nat.lt_or_eq_of_le ht with hlt | heq
    · exact .inl hlt
    · exact .inr ⟨Instant.le_antisymm ht (Nat.le_of_eq heq.symm), rfl⟩
  unfold Prospect.cut?
  rw [endedBy_eq_some.mpr ⟨he, hby⟩]
  cases hcancel : x.cancelledBy u with
  | none => rfl
  | some v =>
    have hlt : ¬ v ≤ t := Nat.not_le.mpr (hc v (cancelledBy_eq_some.mp hcancel).1)
    simp [hlt]

/-- and last that the moment has come. -/
theorem cut?_none (hc : ∀ v ∈ x.cancel, u < v) (hle : ∀ e ∈ x.ending, u ≤ e.1)
    (hlt : prompt = true → ∀ e ∈ x.ending, u < e.1) : x.cut? prompt u = none := by
  have hcancel : x.cancelledBy u = none := by
    refine Option.eq_none_iff_forall_ne_some.mpr fun v hv => ?_
    obtain ⟨hmem, hby⟩ := cancelledBy_eq_some.mp hv
    exact Nat.not_le.mpr (hc v hmem) hby
  have hends : x.endedBy prompt u = none := by
    refine Option.eq_none_iff_forall_ne_some.mpr fun end' hend => ?_
    obtain ⟨hmem, hbefore | ⟨hat, hp⟩⟩ := endedBy_eq_some.mp hend
    · exact Nat.not_lt.mpr (hle _ hmem) hbefore
    · exact Nat.lt_irrefl _ (hat ▸ hlt hp _ hmem)
  unfold Prospect.cut?
  rw [hcancel, hends]

/-- Who hears that the call was given up gave it up, unless the receiver was lost. -/
theorem cancelled_of_cut? (h : x.cut? prompt u = some (t, .cancelled)) :
    x.cancel = some t ∨ x.ending = some (t, .stopped) := by
  have hstopped : ∀ {e : ReceiveEnd}, e.termination = .cancelled → e = .stopped := by
    intro e he
    cases e with
    | stopped => rfl
    | completed | failed _ => cases he
  unfold Prospect.cut? at h
  split at h
  · cases h
  · rename_i hcancel _
    obtain ⟨rfl, -⟩ := Prod.mk.inj (Option.some.inj h)
    exact .inl (cancelledBy_eq_some.mp hcancel).1
  · rename_i hends
    obtain ⟨rfl, he⟩ := Prod.mk.inj (Option.some.inj h)
    exact .inr (hstopped he ▸ (endedBy_eq_some.mp hends).1)
  · rename_i hcancel hends
    split at h
    · obtain ⟨rfl, -⟩ := Prod.mk.inj (Option.some.inj h)
      exact .inl (cancelledBy_eq_some.mp hcancel).1
    · obtain ⟨rfl, he⟩ := Prod.mk.inj (Option.some.inj h)
      exact .inr (hstopped he ▸ (endedBy_eq_some.mp hends).1)

end Cut

/-! ## What comes of it -/

/-- When an exchange ends, and why; it breaks down if there is no reason. -/
abbrev Forecast := Instant × Option Termination

/-- The decision timeout that a caller would draw. -/
def timeout? (e : Exchange) : Option Duration :=
  (e.params.window.sample? e.source).map Prod.fst

namespace Prospect
variable (x : Prospect) (clock : Clock) (timeout : Option Duration) (first second : Bool)

/-- What is ahead of a caller who waits for the moment of the decision, which is `u`. -/
def afterDeciding (u : Instant) : Forecast :=
  match x.cut? second u with
  | some (t, termination) => (t, some termination)
  | none => (u, some .decisionTimeout)

/-- What is ahead of a caller who is about to send the second context at `u`. -/
def afterOffering (refused : Bool) (u : Instant) : Forecast :=
  if refused then (u, some .sendFailed)
  else
    match timeout.bind u.after? with
    | none => (u, none)
    | some deadline => x.afterDeciding second (clock.wakes u deadline)

/-- What is ahead of a caller who waits for the moment of the second context, which
is `u`. -/
def afterPausing (refused : Instant → Bool) (u : Instant) : Forecast :=
  match x.cut? first u with
  | some (t, termination) => (t, some termination)
  | none => x.afterOffering clock timeout second (refused u) u

/-- What is ahead of a caller who is done with the first context at `start`. -/
def afterResuming (delay : Duration) (firstSent : Option Instant) (refused : Instant → Bool)
    (start : Instant) : Forecast :=
  match firstSent with
  | none => (start, some .sendFailed)
  | some sent =>
    match sent.after? delay with
    | none => (start, none)
    | some deadline =>
      x.afterPausing clock timeout first second refused (clock.wakes start deadline)

end Prospect

/-- What a script has in store. -/
def prospect (script : Script) : Prospect := ⟨momentOf .cancel script, endOf script⟩

/-- The requests are refused by `t`. -/
def refusedBy (script : Script) (t : Instant) : Bool := (momentOf .refuse script).any (· ≤ t)

/-- **When and why an exchange ends** that goes on from its first context at `start`
and meets this script.  The receiver may be prompt in the first wait, and in the
second. -/
def foretold (clock : Clock) (e : Exchange) (start : Instant) (script : Script)
    (first second : Bool) : Forecast :=
  (prospect script).afterResuming clock e.timeout? first second e.params.contextDelay e.firstSent
    (refusedBy script) start

section Forecast
variable {x : Prospect} {clock : Clock} {timeout : Option Duration} {first second : Bool}
  {t u : Instant}

/-- A caller who waits for the decision concludes that it was given up only if so it
was, or its receiver was lost. -/
theorem cancelled_afterDeciding (h : x.afterDeciding second u = (t, some .cancelled)) :
    x.cancel = some t ∨ x.ending = some (t, .stopped) := by
  unfold Prospect.afterDeciding at h
  split at h
  · rename_i hcut
    obtain ⟨rfl, ht⟩ := Prod.mk.inj h
    obtain rfl := Option.some.inj ht
    exact cancelled_of_cut? hcut
  · cases h

theorem cancelled_afterOffering {refused : Bool}
    (h : x.afterOffering clock timeout second refused u = (t, some .cancelled)) :
    x.cancel = some t ∨ x.ending = some (t, .stopped) := by
  unfold Prospect.afterOffering at h
  split at h
  · cases h
  · split at h
    · cases h
    · exact cancelled_afterDeciding h

/-- **Cancelled is reported only of a call that was given up**, or whose receiver was
lost. -/
theorem cancelled_foretold {e : Exchange} {start : Instant} {script : Script}
    (h : foretold clock e start script first second = (t, some .cancelled)) :
    momentOf .cancel script = some t ∨ endOf script = some (t, .stopped) := by
  unfold foretold Prospect.afterResuming at h
  split at h
  · cases h
  · split at h
    · cases h
    · unfold Prospect.afterPausing at h
      split at h
      · rename_i hcut
        obtain ⟨rfl, ht⟩ := Prod.mk.inj h
        obtain rfl := Option.some.inj ht
        exact cancelled_of_cut? hcut
      · exact cancelled_afterOffering h

end Forecast

end ProgressiveSearch.Exchange
