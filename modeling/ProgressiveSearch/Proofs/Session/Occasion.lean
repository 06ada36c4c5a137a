import ProgressiveSearch.Proofs.Session.Scene

/-! # What can end a session, and when

A `Script` says what happens around a session and when.  From it one can read, in
the order in which a session looks for them, the occasions at which the session
could end (`occasions`):

* its begin, if the clock cannot name the idle deadline;
* the service stops, or the reader goes away;
* the final moment, a fixed delay after the second context was read;
* the idle deadline, after the begin or after the first context;
* the first thing on the requests that decides (`decisive`): a failure, a
  half-close before the second context, a third context if the session is strict, or
  a context that starts a wait the clock cannot name.

A context is read when it comes, unless the idle deadline comes first (`readBy`).
What ends the session is the first of the earliest occasions (`earliest`).
-/
namespace ProgressiveSearch.Session

/-- What happens around a session, and when. -/
abbrev Script := List (Instant × Cue)

/-- The moments of a script are in order, and none is before `t`. -/
def Chronological : Instant → Script → Prop
  | _, [] => True
  | t, (t', _) :: rest => t ≤ t' ∧ Chronological t' rest

instance : (t : Instant) → (script : Script) → Decidable (Chronological t script)
  | _, [] => .isTrue trivial
  | t, (t', _) :: rest =>
    have := instDecidableChronological t' rest
    inferInstanceAs (Decidable (t ≤ t' ∧ Chronological t' rest))

/-- A script in order is in order from any earlier moment on. -/
theorem Chronological.of_le {t u : Instant} {script : Script} (h : Chronological u script)
    (hle : t ≤ u) : Chronological t script := by
  cases script with
  | nil => trivial
  | cons entry rest => exact ⟨Nat.le_trans hle h.1, h.2⟩

theorem Chronological.all {t : Instant} {script : Script} (h : Chronological t script) :
    ∀ entry ∈ script, t ≤ entry.1 := by
  induction script generalizing t with
  | nil => simp
  | cons first rest ih =>
    intro entry hm
    rcases List.mem_cons.mp hm with rfl | hm
    · exact h.1
    · exact Nat.le_trans h.1 (ih h.2 entry hm)

/-- What is to be said about the end of a session: how, and of what. -/
inductive Verdict where
  | reported (ending : Ending)
  | failed (failure : Failure)
  | brokenDown
  deriving DecidableEq

/-- The verdict of a result. -/
def Result.verdict : Result → Verdict
  | .reported report => .reported report.ending
  | .failed failure => .failed failure
  | .brokenDown => .brokenDown

/-! ## The earliest -/

section Earliest
variable {α : Type}

/-- The first of those that come earliest. -/
def earliest : List (Instant × α) → Option (Instant × α)
  | [] => none
  | x :: rest =>
    match earliest rest with
    | none => some x
    | some y => if x.1 ≤ y.1 then some x else some y

theorem mem_of_earliest {l : List (Instant × α)} {x : Instant × α} (h : earliest l = some x) :
    x ∈ l := by
  induction l with
  | nil => cases h
  | cons y rest ih =>
    unfold earliest at h
    cases hr : earliest rest with
    | none =>
      rw [hr] at h
      obtain rfl := Option.some.inj h
      exact List.mem_cons_self
    | some z =>
      simp only [hr] at h
      split at h
      · obtain rfl := Option.some.inj h
        exact List.mem_cons_self
      · exact List.mem_cons_of_mem _ (ih (hr.trans h))

theorem earliest_eq_none {l : List (Instant × α)} : earliest l = none ↔ l = [] := by
  cases l with
  | nil => exact ⟨fun _ => rfl, fun _ => rfl⟩
  | cons x rest =>
    unfold earliest
    split
    · simp
    · split <;> simp

theorem earliest_le {l : List (Instant × α)} {x : Instant × α} (h : earliest l = some x) :
    ∀ y ∈ l, x.1 ≤ y.1 := by
  induction l generalizing x with
  | nil => simp
  | cons z rest ih =>
    intro y hy
    unfold earliest at h
    cases hr : earliest rest with
    | none =>
      rw [hr] at h
      obtain rfl := Option.some.inj h
      rw [earliest_eq_none.mp hr, List.mem_singleton] at hy
      exact hy ▸ Nat.le_refl _
    | some w =>
      simp only [hr] at h
      by_cases hle : z.1 ≤ w.1
      · rw [if_pos hle] at h
        obtain rfl := Option.some.inj h
        rcases List.mem_cons.mp hy with rfl | hy
        · exact Nat.le_refl _
        · exact Nat.le_trans hle (ih hr y hy)
      · rw [if_neg hle] at h
        obtain rfl := Option.some.inj h
        rcases List.mem_cons.mp hy with rfl | hy
        · exact Nat.le_of_lt (Nat.lt_of_not_le hle)
        · exact ih hr y hy

/-- One that comes before all those that precede it, and no later than the others,
is the earliest. -/
theorem earliest_of {front rest : List (Instant × α)} {x : Instant × α}
    (hfront : ∀ y ∈ front, x.1 < y.1) (hrest : ∀ y ∈ rest, x.1 ≤ y.1) :
    earliest (front ++ x :: rest) = some x := by
  induction front with
  | nil =>
    show earliest (x :: rest) = some x
    unfold earliest
    cases hr : earliest rest with
    | none => rfl
    | some y => exact if_pos (hrest y (mem_of_earliest hr))
  | cons y front ih =>
    obtain ⟨hy, hfront⟩ := List.forall_mem_cons.mp hfront
    show earliest (y :: (front ++ x :: rest)) = some x
    unfold earliest
    rw [ih hfront]
    exact if_neg (Nat.not_le.mpr hy)

end Earliest

/-! ## The occasions -/

/-- When a cue comes for the first time. -/
def momentOf (c : Cue) (script : Script) : Option Instant :=
  (script.find? fun entry => entry.2 = c).map Prod.fst

theorem momentOf_cons_self (t : Instant) (c : Cue) (script : Script) :
    momentOf c ((t, c) :: script) = some t := by
  simp [momentOf]

theorem momentOf_cons_ne {t : Instant} {c c' : Cue} (h : c' ≠ c) (script : Script) :
    momentOf c ((t, c') :: script) = momentOf c script := by
  simp [momentOf, h]

/-- What comes on the requests, and when; nothing comes after the half-close. -/
def inbound : Script → List (Instant × Signal)
  | [] => []
  | (t, .send a) :: rest => (t, .arrived a) :: inbound rest
  | (t, .halfClose) :: _ => [(t, .halfClosed)]
  | (_, .stop) :: rest | (_, .read) :: rest | (_, .leave) :: rest => inbound rest

/-- When the next context is read: when it comes, if it is next on the requests
and comes before the deadline. -/
def readBy (deadline : Option Instant) : List (Instant × Signal) → Option Instant
  | (t, .arrived (.context _)) :: _ => if (deadline.any fun d => t < d) then some t else none
  | _ => none

variable (config : Config)

/-- What a session makes of what comes on its requests at `t`, after `n` contexts:
the verdict with which it ends, if it ends. -/
def judge (t : Instant) (n : Nat) : Signal → Option Verdict
  | .arrived (.failed status) => some (.failed (.transport status))
  | .arrived (.context _) =>
    match n with
    | 0 => if t.after? config.idleTimeout = none then some .brokenDown else none
    | 1 => if t.after? config.finalDelay = none then some .brokenDown else none
    | n + 2 =>
      if config.strict then
        some (.failed (.protocolViolation (excessReason (Word.next32 (n + 2)))))
      else none
  | .halfClosed => if n < 2 then some (.reported .halfClosedEarly) else none
  | _ => none

/-- The first thing on the requests that ends the session, after `n` contexts. -/
def decisive : Nat → List (Instant × Signal) → Option (Instant × Verdict)
  | _, [] => none
  | n, (t, g) :: rest =>
    match judge config t n g with
    | some v => some (t, v)
    | none => decisive (n + 1) rest

section Judgement
variable {config} {t : Instant} {n : Nat} {c : Context} {g : Signal}
  {rest : List (Instant × Signal)}

/-- The first context ends the session only if it starts a wait that cannot be
named, -/
theorem judge_first : judge config t 0 (.arrived (.context c)) =
    if t.after? config.idleTimeout = none then some .brokenDown else none := rfl

/-- and so does the second. -/
theorem judge_second : judge config t 1 (.arrived (.context c)) =
    if t.after? config.finalDelay = none then some .brokenDown else none := rfl

/-- A context too many is passed over by a lenient session, -/
theorem judge_lenient (hseen : 2 ≤ n) (hs : config.strict = false) :
    judge config t n (.arrived (.context c)) = none := by
  obtain ⟨k, rfl⟩ := Nat.exists_eq_add_of_le' hseen
  simp [judge, hs]

/-- and ends a strict one. -/
theorem judge_strict (hseen : 2 ≤ n) (hs : config.strict = true) :
    judge config t n (.arrived (.context c)) =
      some (.failed (.protocolViolation (excessReason (Word.next32 n)))) := by
  obtain ⟨k, rfl⟩ := Nat.exists_eq_add_of_le' hseen
  simp [judge, hs]

theorem decisive_cons_none (h : judge config t n g = none) :
    decisive config n ((t, g) :: rest) = decisive config (n + 1) rest := by
  rw [decisive, h]

theorem decisive_cons_some {v : Verdict} (h : judge config t n g = some v) :
    decisive config n ((t, g) :: rest) = some (t, v) := by
  rw [decisive, h]

end Judgement

variable (start : Instant) (script : Script)

/-- When the first context is read. -/
def firstRead : Option Instant :=
  readBy (start.after? config.idleTimeout) (inbound script)

/-- When the second context is read. -/
def secondRead : Option Instant :=
  (firstRead config start script).bind fun t =>
    readBy (t.after? config.idleTimeout) (inbound script).tail

/-- The final moment, once two contexts have been read. -/
def finalMoment : Option Instant :=
  (secondRead config start script).bind (·.after? config.finalDelay)

/-- The idle deadline, after the begin or after the first context. -/
def idleMoment : Option Instant :=
  match firstRead config start script, secondRead config start script with
  | none, _ => start.after? config.idleTimeout
  | some t, none => t.after? config.idleTimeout
  | some _, some _ => none

/-- **All occasions at which a session could end**, in the order in which it looks
for them. -/
def occasions : List (Instant × Verdict) :=
  (if start.after? config.idleTimeout = none then [(start, .brokenDown)] else []) ++
  ((momentOf .stop script).map (·, .failed .shutdown)).toList ++
  ((momentOf .leave script).map (·, .failed .peerGone)).toList ++
  ((finalMoment config start script).map (·, .reported .completed)).toList ++
  ((idleMoment config start script).map (·, .reported .idleTimeout)).toList ++
  (decisive config 0 (inbound script)).toList

end ProgressiveSearch.Session
