import ProgressiveSearch.Proofs.Clock
import ProgressiveSearch.Proofs.Service.House

/-! # The accounts of a service

What a service counts is true in every run.  The sessions of the calls that it
accepts are numbered without a gap, and what it says is in flight are the sessions
accepted that are not over (`Accounts`).

A service that stops takes three turns, and its phase tells which it has taken and
when (`Turned`).  It tells its sessions to stop when none is in flight, or after it
has waited for as long as it is to wait; hence no session is cut short before that
(`Patient`).  Until then each session is what it would be in a service that does not
stop at all: the session of a scene of its own, in which nobody stops (`Seated`).
-/
namespace ProgressiveSearch.Service

/-- The number of an accepted call. -/
def Deed.accepted? : Deed → Option Nat
  | .accepted id => some id
  | _ => none

/-- A turn of the service on its way to its end. -/
def Deed.isTurn : Deed → Bool
  | .draining | .told _ | .returned _ => true
  | .accepted _ | .refused _ | .brokenDown | .ended _ _ => false

/-- When a service that has begun to drain at `t` waits for its sessions no longer. -/
def Config.giveUp (config : Config) (t : Instant) : Instant :=
  t.giveUpAfter config.shutdownTimeout

section List
variable {α : Type} {l : List α} {i : Nat} {a : α}

/-- A list around one of its places. -/
theorem split_of_getElem? (h : l[i]? = some a) :
    ∃ front back, l = front ++ a :: back ∧ ∀ b, l.set i b = front ++ b :: back := by
  induction l generalizing i with
  | nil => simp at h
  | cons first rest ih =>
    cases i with
    | zero =>
      obtain rfl : first = a := by simpa using h
      exact ⟨[], rest, rfl, fun _ => rfl⟩
    | succ i =>
      obtain ⟨front, back, he, hset⟩ := ih (by simpa using h)
      refine ⟨first :: front, back, by rw [he]; rfl, fun b => ?_⟩
      rw [List.set_cons_succ, hset]
      rfl

end List

namespace House

variable (x : House)

/-- The numbers of the calls accepted. -/
def admissions : List Nat := x.log.filterMap (·.2.accepted?)

/-- The turns that the service has taken. -/
def turns : List (Instant × Deed) := x.log.filter (·.2.isTurn)

variable {x} {y : House}

theorem turns_note (deeds : List Deed) (s : Service) :
    (x.note deeds s).turns = x.turns ++ (deeds.filter Deed.isTurn).map (x.now, ·) := by
  unfold turns note
  rw [List.filter_append, List.filter_map]
  rfl

theorem isOver_take (session : Session) (c : Session.Cue) :
    ((x.scene session).take c).session.isOver = session.isOver := by
  rw [session_take]
  rfl

theorem not_isOver_of_step {s s' : Session} {now : Instant} {stopping : Bool}
    (h : s.step now stopping = some s') : s.isOver = false := by
  obtain ⟨e, ht⟩ := Session.transition_of_step h
  unfold Session.isOver Session.result?
  split
  · rename_i r hr
    exact absurd hr (ht.not_over r)
  · rfl

theorem config_change (h : x.Change y) :
    y.service.config = x.service.config ∧ y.service.ranker = x.service.ranker := by
  cases h <;> exact ⟨rfl, rfl⟩

end House

/-- **The turns that a service has taken, told from its phase.**  Sessions are told to
stop if none is left, or when the bounded wait for them is over. -/
def Turned (config : Config) (phase : Phase) (turns : List (Instant × Deed)) : Prop :=
  match phase with
  | .serving | .asked => turns = []
  | .draining giveUp _ => ∃ t, turns = [(t, .draining)] ∧ giveUp = config.giveUp t
  | .cancelling giveUp _ => ∃ t u left, turns = [(t, .draining), (u, .told left)] ∧
    (left = 0 ∨ config.giveUp t ≤ u) ∧ giveUp = u.giveUpAfter cancelTimeout
  | .stopped => ∃ t u left v last,
    turns = [(t, .draining), (u, .told left), (v, .returned last)] ∧
      (left = 0 ∨ config.giveUp t ≤ u)

namespace House

variable {x y : House}

/-- **A service that stops is patient.** -/
structure Patient (x : House) : Prop where
  turned : Turned x.service.config x.service.phase x.turns
  past : ∀ entry ∈ x.log, entry.1 ≤ x.now
  /-- If none was left to be told, none comes. -/
  emptied : ∀ t, (t, Deed.told 0) ∈ x.log →
    x.service.inFlight = 0 ∧ x.service.isDraining = true
  /-- No session is cut short. -/
  fair : ∀ u place, (u, Deed.ended place (.failed .shutdown)) ∈ x.log →
    ∃ t, (t, Deed.draining) ∈ x.log ∧ x.service.config.giveUp t ≤ u

theorem mem_of_mem_turns {entry : Instant × Deed} (h : entry ∈ x.turns) : entry ∈ x.log :=
  (List.mem_filter.mp h).1

theorem mem_note {entry : Instant × Deed} {deeds : List Deed} {s : Service} :
    entry ∈ (x.note deeds s).log ↔ entry ∈ x.log ∨ entry.1 = x.now ∧ entry.2 ∈ deeds := by
  obtain ⟨t, deed⟩ := entry
  simp only [note, List.mem_append, List.mem_map, Prod.mk.injEq]
  constructor
  · rintro (h | ⟨d, hd, rfl, rfl⟩)
    · exact .inl h
    · exact .inr ⟨rfl, hd⟩
  · rintro (h | ⟨rfl, hd⟩)
    · exact .inl h
    · exact .inr ⟨deed, hd, rfl, rfl⟩

/-- Sessions that have been told to stop were left then, and had been waited for. -/
theorem Patient.told (h : x.Patient) (hc : x.service.isCancelling = true) :
    ∃ t u left, (t, Deed.draining) ∈ x.log ∧ (u, Deed.told left) ∈ x.log ∧
      (left = 0 ∨ x.service.config.giveUp t ≤ u) := by
  have ht := h.turned
  unfold Turned at ht
  unfold isCancelling at hc
  split at ht
  · rename_i hp
    simp [hp] at hc
  · rename_i hp
    simp [hp] at hc
  · rename_i hp
    simp [hp] at hc
  · obtain ⟨t, u, left, hturns, hleft, -⟩ := ht
    exact ⟨t, u, left, mem_of_mem_turns (by simp [hturns]), mem_of_mem_turns (by simp [hturns]),
      hleft⟩
  · obtain ⟨t, u, left, v, last, hturns, hleft⟩ := ht
    exact ⟨t, u, left, mem_of_mem_turns (by simp [hturns]), mem_of_mem_turns (by simp [hturns]),
      hleft⟩

/-- Deeds that are no turns and end no session because it was told to. -/
theorem Patient.note (h : x.Patient) {deeds : List Deed} {s : Service}
    (hc : s.config = x.service.config) (hp : s.phase = x.service.phase)
    (hi : (∃ t, (t, Deed.told 0) ∈ x.log) → s.inFlight = 0)
    (hturn : ∀ d ∈ deeds, d.isTurn = false)
    (hfair : ∀ place, Deed.ended place (.failed .shutdown) ∈ deeds →
      ∃ t, (t, Deed.draining) ∈ x.log ∧ x.service.config.giveUp t ≤ x.now) :
    (x.note deeds s).Patient := by
  have hturns : deeds.filter Deed.isTurn = [] := by
    rw [List.filter_eq_nil_iff]
    intro d hd
    simp [hturn d hd]
  refine ⟨?_, fun entry hm => ?_, fun t hm => ?_, fun u place hm => ?_⟩
  · rw [turns_note, hturns, List.map_nil, List.append_nil]
    show Turned s.config s.phase x.turns
    rw [hc, hp]
    exact h.turned
  · rcases mem_note.mp hm with hm | ⟨ht, -⟩
    · exact h.past entry hm
    · exact Nat.le_of_eq (congrArg Instant.nanos ht)
  · rcases mem_note.mp hm with hm | ⟨-, hd⟩
    · refine ⟨hi ⟨t, hm⟩, ?_⟩
      show s.isDraining = true
      unfold isDraining
      rw [hp]
      exact (h.emptied t hm).2
    · exact absurd (hturn _ hd) (by simp [Deed.isTurn])
  · show ∃ t, (t, Deed.draining) ∈ (x.note deeds s).log ∧ s.config.giveUp t ≤ u
    rw [hc]
    rcases mem_note.mp hm with hm | ⟨hu, hd⟩
    · obtain ⟨t, ht, hle⟩ := h.fair u place hm
      exact ⟨t, mem_note.mpr (.inl ht), hle⟩
    · obtain ⟨t, ht, hle⟩ := hfair place hd
      obtain rfl : u = x.now := hu
      exact ⟨t, mem_note.mpr (.inl ht), hle⟩

end House

end ProgressiveSearch.Service
