import ProgressiveSearch.Call.Step
import ProgressiveSearch.Proofs.Exchange.Selection
import ProgressiveSearch.Proofs.Tempo

/-! # A call that loses no time

In a `Play` a call meets a script: what its far end says to it, and what happens around
its exchange.  Whatever can be done is done before time goes on; if it is more than
one thing, the next entry of the script among them, a sequence of choices says what
comes first.  So it may be that the call is given up at the moment at which its
stream is opened, and it is left open which of the two the call sees first.

What a step of the caller can do is said once (`Turn`, `turn_of_step`).
-/
namespace ProgressiveSearch.Call

/-! ## Steps -/

/-- **The kinds of step of a caller.** -/
inductive Turn (now : Instant) (c : Call) : Call → Prop
  | asks {sent : Bool} {e : Exchange} (hs : c.stage = .starting)
      (ho : (c.exchange.announce now).offer? c.exchange.request.firstContext = some (sent, e)) :
      Turn now c { c with
        exchange := { e with firstSent := if sent then some now else none, stage := .resuming }
        stage := .opening (now.giveUpAfter c.connectTimeout) }
  | isCancelled {giveUp : Instant} (hs : c.stage = .opening giveUp)
      (hc : c.exchange.cancelled = true) : Turn now c (c.close (.outcome .cancelledBeforeOpen))
  | opens {giveUp : Instant} (hs : c.stage = .opening giveUp) (hc : c.exchange.cancelled = false)
      (hr : c.reception = some .opened) : Turn now c { c with stage := .exchanging }
  | isRefused {giveUp : Instant} {status : Status} (hs : c.stage = .opening giveUp)
      (hc : c.exchange.cancelled = false) (hr : c.reception = some (.refused status)) :
      Turn now c (c.close (.failed (.streamOpen status)))
  | expires {giveUp : Instant} (hs : c.stage = .opening giveUp)
      (hc : c.exchange.cancelled = false) (hr : c.reception = none) (hg : giveUp ≤ now) :
      Turn now c (c.close (.failed (.streamOpen (notOpened c.connectTimeout))))
  | exchanges {said : List Context} {e : Exchange} (hs : c.stage = .exchanging)
      (ht : c.exchange.Turn now said e) : Turn now c { c with exchange := e }

section Steps
variable {c d : Call} {now giveUp : Instant}

theorem turn_of_open (hs : c.stage = .opening giveUp) (h : c.open? now giveUp = some d) :
    c.Turn now d := by
  unfold open? at h
  split at h
  · rename_i hc
    obtain rfl := Option.some.inj h
    exact .isCancelled hs hc
  · rename_i hc
    have hc : c.exchange.cancelled = false := by simpa using hc
    split at h
    · rename_i hr
      obtain rfl := Option.some.inj h
      exact .opens hs hc hr
    · rename_i status hr
      obtain rfl := Option.some.inj h
      exact .isRefused hs hc hr
    · rename_i hr
      split at h
      · rename_i hg
        obtain rfl := Option.some.inj h
        exact .expires hs hc hr hg
      · cases h

/-- **Every step of a caller is a turn.** -/
theorem turn_of_step (h : c.step now = some d) : c.Turn now d := by
  unfold step at h
  split at h
  · cases h
  · cases h
  · rename_i hs
    obtain ⟨e, he, rfl⟩ := Option.map_eq_some_iff.mp h
    obtain ⟨⟨sent, y⟩, ho, rfl⟩ := Option.map_eq_some_iff.mp he
    exact .asks hs ho
  · rename_i giveUp hs
    exact turn_of_open hs h
  · rename_i hs
    obtain ⟨e, he, rfl⟩ := Option.map_eq_some_iff.mp h
    obtain ⟨said, ht⟩ := Exchange.turn_of_call he
    exact .exchanges hs ht

/-- A caller that takes no step while it waits for its stream has seen nothing yet. -/
theorem open?_eq_none (h : c.open? now giveUp = none) :
    c.exchange.cancelled = false ∧ c.reception = none ∧ now < giveUp := by
  unfold open? at h
  cases hc : c.exchange.cancelled with
  | true => simp [hc] at h
  | false =>
    rw [if_neg (by simp [hc])] at h
    cases hr : c.reception with
    | some reception => cases reception <;> simp [hr] at h
    | none =>
      simp only [hr] at h
      by_cases hg : giveUp ≤ now
      · simp [hg] at h
      · exact ⟨rfl, rfl, Nat.lt_of_not_le hg⟩

/-- Every step of the receiver is one of its exchange. -/
theorem hearing_of_stepReceiver (h : c.stepReceiver now = some d) :
    ∃ heard e, c.exchange.Hearing now heard e ∧ d = { c with exchange := e } := by
  obtain ⟨e, he, rfl⟩ := Option.map_eq_some_iff.mp h
  obtain ⟨heard, hh⟩ := Exchange.hearing_of_receive he
  exact ⟨heard, e, hh, rfl⟩

end Steps

/-! ## Scripts -/

/-- What happens around a call. -/
inductive Cue where
  /-- The far end answers. -/
  | answer (reception : Reception)
  /-- Something happens around the exchange. -/
  | around (c : Exchange.Cue)
  deriving DecidableEq

/-- What happens around a call, and when. -/
abbrev Script := List (Instant × Cue)

/-- The answer that a cue brings. -/
def Cue.reception? : Cue → Option Reception
  | .answer reception => some reception
  | .around _ => none

/-- What the far end says in a script. It has one word only. -/
def answerOf (script : Script) : Option Reception := script.findSome? (·.2.reception?)

/-- A call, what the script has brought it, and what it still has for it. -/
structure Play where
  now : Instant
  call : Call
  seen : Script
  script : Script

namespace Play

/-- A call that is made. -/
def ofStart (call : Call) (start : Instant) (script : Script) : Play where
  now := start
  call := call.start
  seen := []
  script

variable (p : Play) (clock : Clock)

/-- The call when a cue has been taken. -/
def take : Cue → Call
  | .answer reception => if p.call.reception.isNone then p.call.receive reception else p.call
  | .around c =>
    { p.call with exchange := ((Exchange.Setting.around p.call.exchange p.now).take c).exchange }

/-- The play behind the next entry of the script, if the moment of that has come. -/
def due? : Option Play :=
  match p.script with
  | (t, c) :: rest =>
    if t ≤ p.now then some { p with call := p.take c, seen := p.seen ++ [(t, c)], script := rest }
    else none
  | [] => none

/-- The play when the call has moved on. -/
def withCall (call : Call) : Play := { p with call }

@[simp] theorem call_withCall (call : Call) : (p.withCall call).call = call := rfl
@[simp] theorem script_withCall (call : Call) : (p.withCall call).script = p.script := rfl

/-- What can happen before time goes on. When the call is over nothing does. -/
def options : List Play :=
  if p.call.result?.isSome then []
  else
    p.due?.toList ++
      ((p.call.step p.now).toList ++ (p.call.stepReceiver p.now).toList).map p.withCall

/-- The moments at which something happens. -/
def moments : List Instant :=
  if p.call.result?.isSome then []
  else
    (p.script.head?.map Prod.fst).toList ++ (p.call.wakesAt.map (clock.wakes p.now)).toList

/-- The play when time has gone on to a moment. -/
def onTo (t : Instant) : Play := { p with now := t }

/-- How a play goes on if it loses no time. -/
def tempo : Tempo Play where
  options := options
  moments p := p.moments clock
  onTo := onTo

/-- The play after `n` things have happened. -/
def after (choices : Nat → Nat) (n : Nat) : Play := (tempo clock).after choices p n

/-- **The ways on** for a call that is not over. -/
inductive Advance : Play → Prop
  | takes {t : Instant} {c : Cue} {rest : Script} (ho : p.call.result? = none)
      (hs : p.script = (t, c) :: rest) (ht : t ≤ p.now) :
      Advance { p with call := p.take c, seen := p.seen ++ [(t, c)], script := rest }
  | calls {call : Call} (ho : p.call.result? = none) (ht : p.call.Turn p.now call) :
      Advance (p.withCall call)
  | hears {heard : List Reply} {e : Exchange} (ho : p.call.result? = none)
      (hh : p.call.exchange.Hearing p.now heard e) :
      Advance (p.withCall { p.call with exchange := e })
  | waits {t : Instant} (ho : p.call.result? = none) (hq : p.options = [])
      (ht : Instant.soonest (p.moments clock) = some t) : Advance (p.onTo t)

section Advance
variable {p clock}

theorem options_eq (ho : p.call.result? = none) : p.options =
    p.due?.toList ++
      ((p.call.step p.now).toList ++ (p.call.stepReceiver p.now).toList).map p.withCall :=
  if_neg (by simp [ho])

theorem moments_eq (ho : p.call.result? = none) : p.moments clock =
    (p.script.head?.map Prod.fst).toList ++ (p.call.wakesAt.map (clock.wakes p.now)).toList :=
  if_neg (by simp [ho])

/-- A call that is over rests. -/
theorem rests_of_result {r : Result} (h : p.call.result? = some r) : (tempo clock).Rests p :=
  ⟨if_pos (by simp [h]), if_pos (by simp [h])⟩

theorem advance_of {q : Play} (h : (tempo clock).Advance p q) : p.Advance clock q := by
  cases hr : p.call.result? with
  | some r =>
    -- nothing happens to a call that is over
    obtain ⟨ho, hm⟩ : (tempo clock).Rests p := rests_of_result hr
    cases h with
    | chooses hq =>
      rw [ho] at hq
      cases hq
    | waits _ ht =>
      rw [hm] at ht
      cases ht
  | none =>
    cases h with
    | waits ho ht => exact .waits hr ho ht
    | chooses hq =>
      have hq : q ∈ p.options := hq
      rw [options_eq hr] at hq
      rcases List.mem_append.mp hq with hq | hq
      · have hdue := Option.mem_toList.mp hq
        unfold due? at hdue
        split at hdue
        · rename_i t c rest hs
          split at hdue
          · rename_i ht
            obtain rfl := Option.some.inj hdue
            exact .takes hr hs ht
          · cases hdue
        · cases hdue
      · obtain ⟨call, hcall, rfl⟩ := List.mem_map.mp hq
        rcases List.mem_append.mp hcall with hcall | hcall
        · exact .calls hr (turn_of_step (Option.mem_toList.mp hcall))
        · obtain ⟨heard, e, hh, rfl⟩ := hearing_of_stepReceiver (Option.mem_toList.mp hcall)
          exact .hears hr hh

/-- What has been seen is what the script no longer has. -/
theorem Advance.script {q : Play} (h : p.Advance clock q) :
    q.seen ++ q.script = p.seen ++ p.script := by
  cases h with
  | takes _ hs _ => simp [hs]
  | calls _ _ | hears _ _ | waits _ _ _ => rfl

/-- A call ends only once. -/
theorem after_over {choices : Nat → Nat} {n m : Nat} {r r' : Result}
    (h : (p.after clock choices n).call.result? = some r)
    (h' : (p.after clock choices m).call.result? = some r') :
    p.after clock choices m = p.after clock choices n := by
  rcases Nat.le_total n m with hle | hle
  · obtain ⟨k, rfl⟩ := Nat.exists_eq_add_of_le hle
    exact Tempo.after_of_rests (rests_of_result h) k
  · obtain ⟨k, rfl⟩ := Nat.exists_eq_add_of_le hle
    exact (Tempo.after_of_rests (rests_of_result h') k).symm

/-! ## When nothing can be done -/

/-- Nobody takes a step, and nothing in the script is due. -/
theorem idle_of_options (ho : p.call.result? = none) (h : p.options = []) :
    p.due? = none ∧ p.call.step p.now = none ∧ p.call.stepReceiver p.now = none := by
  rw [options_eq ho] at h
  obtain ⟨hdue, htasks⟩ := List.append_eq_nil_iff.mp h
  rw [List.map_eq_nil_iff, List.append_eq_nil_iff] at htasks
  exact ⟨Option.toList_eq_nil_iff.mp hdue, Option.toList_eq_nil_iff.mp htasks.1,
    Option.toList_eq_nil_iff.mp htasks.2⟩

theorem soonest_cases {t : Instant} (ho : p.call.result? = none)
    (ht : Instant.soonest (p.moments clock) = some t) :
    (∃ c rest, p.script = (t, c) :: rest) ∨
      ∃ u, p.call.wakesAt = some u ∧ t = clock.wakes p.now u := by
  have hmem := (Instant.soonest_spec ht).1
  rw [moments_eq ho] at hmem
  rcases List.mem_append.mp hmem with hm | hm
  · left
    cases hs : p.script with
    | nil => simp [hs] at hm
    | cons entry rest =>
      obtain ⟨u, c⟩ := entry
      obtain rfl : t = u := by simpa [hs] using hm
      exact ⟨c, rest, rfl⟩
  · right
    obtain ⟨u, hu, he⟩ := Option.map_eq_some_iff.mp (Option.mem_toList.mp hm)
    exact ⟨u, hu, he.symm⟩

end Advance

end Play

end ProgressiveSearch.Call
