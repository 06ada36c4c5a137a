import ProgressiveSearch.Proofs.Clock

/-! # Systems that lose no time

A `Tempo` says of a system in which ways it can go on at once, and to which moments
time can go on if it cannot.  As long as there is a way on it is taken; if there is
more than one, a sequence of choices says which.  Otherwise time goes on to the
soonest of the moments.

What the ways on keep is kept for good (`Tempo.along`, `Tempo.induction`), and what every
way on brings nearer is reached (`Tempo.reaches`).
-/
namespace ProgressiveSearch

/-- How a system goes on. -/
structure Tempo (α : Type) where
  options : α → List α
  moments : α → List Instant
  onTo : α → Instant → α

namespace Tempo

variable {α : Type} (tempo : Tempo α)

/-- What happens next. -/
def next (x : α) (choice : Nat) : α :=
  match (tempo.options x)[choice % (tempo.options x).length]? with
  | some y => y
  | none =>
    match Instant.soonest (tempo.moments x) with
    | some t => tempo.onTo x t
    | none => x

/-- The system after `n` things have happened. -/
def after (choices : Nat → Nat) (x : α) : Nat → α
  | 0 => x
  | n + 1 => tempo.next (after choices x n) (choices n)

/-- **The ways on.** -/
inductive Advance (x : α) : α → Prop
  | chooses {y : α} (h : y ∈ tempo.options x) : Advance x y
  | waits {t : Instant} (ho : tempo.options x = [])
      (ht : Instant.soonest (tempo.moments x) = some t) : Advance x (tempo.onTo x t)

/-- There is nothing to do, and nothing to wait for. -/
structure Rests (x : α) : Prop where
  idle : tempo.options x = []
  timeless : tempo.moments x = []

variable {tempo} {x : α} {choices : Nat → Nat}

/-- What rests stays as it is. -/
theorem next_of_rests (h : tempo.Rests x) (choice : Nat) : tempo.next x choice = x := by
  unfold next
  rw [h.idle, h.timeless]
  rfl

/-- What happens next is one of the ways on, if there is one. -/
theorem advance_next (tempo : Tempo α) (x : α) (choice : Nat) :
    tempo.Advance x (tempo.next x choice) ∨ tempo.Rests x := by
  unfold next
  split
  · rename_i y hy
    exact .inl (.chooses (List.mem_of_getElem? hy))
  · rename_i hnone
    have ho : tempo.options x = [] := by
      have hle := List.getElem?_eq_none_iff.mp hnone
      by_cases hpos : 0 < (tempo.options x).length
      · have hlt := Nat.mod_lt choice hpos
        omega
      · exact List.eq_nil_of_length_eq_zero (Nat.eq_zero_of_not_pos hpos)
    split
    · rename_i t ht
      exact .inl (.waits ho ht)
    · rename_i ht
      exact .inr ⟨ho, Instant.soonest_eq_none ht⟩

/-- The first choice is for the first step. -/
theorem after_succ (tempo : Tempo α) (choices : Nat → Nat) (x : α) (n : Nat) :
    tempo.after choices x (n + 1) =
      tempo.after (fun n => choices (n + 1)) (tempo.next x (choices 0)) n := by
  induction n with
  | zero => rfl
  | succ n ih => exact congrArg (tempo.next · (choices (n + 1))) ih

/-- What has come to rest stays as it is. -/
theorem after_of_rests {n : Nat} (h : tempo.Rests (tempo.after choices x n)) (m : Nat) :
    tempo.after choices x (n + m) = tempo.after choices x n := by
  induction m with
  | zero => rfl
  | succ m ih =>
    show tempo.next (tempo.after choices x (n + m)) _ = _
    rw [ih]
    exact next_of_rests h _

/-- **What each way on that is taken keeps is kept.** -/
theorem along {P : α → Prop} (hkeeps : ∀ n, tempo.Advance (tempo.after choices x n)
      (tempo.after choices x (n + 1)) → P (tempo.after choices x n) →
        P (tempo.after choices x (n + 1))) (h : P x) (n : Nat) : P (tempo.after choices x n) := by
  induction n with
  | zero => exact h
  | succ n ih =>
    rcases advance_next tempo (tempo.after choices x n) (choices n) with ha | hr
    · exact hkeeps n ha ih
    · show P (tempo.next (tempo.after choices x n) (choices n))
      rw [next_of_rests hr]
      exact ih

/-- What every way on keeps is kept. -/
theorem induction {P : α → Prop} (hkeeps : ∀ {x y : α}, tempo.Advance x y → P x → P y) (h : P x)
    (choices : Nat → Nat) (n : Nat) : P (tempo.after choices x n) :=
  along (fun _ ha hp => hkeeps ha hp) h n

/-- **What every way on brings nearer is reached**, if there is always a way on. -/
theorem reaches {P Q : α → Prop} (distance : α → Nat)
    (hkeeps : ∀ {x y : α}, tempo.Advance x y → P x → P y)
    (hnears : ∀ {x y : α}, tempo.Advance x y → P x → distance y < distance x)
    (hgoes : ∀ {x : α}, P x → ¬ Q x → ¬ tempo.Rests x) (h : P x) (choices : Nat → Nat) :
    ∃ n, Q (tempo.after choices x n) := by
  induction hd : distance x using Nat.strongRecOn generalizing x choices with
  | ind d ih =>
    by_cases hgoal : Q x
    · exact ⟨0, hgoal⟩
    · have ha := (advance_next tempo x (choices 0)).resolve_right (hgoes h hgoal)
      obtain ⟨m, hm⟩ := ih _ (hd ▸ hnears ha h) (hkeeps ha h) (fun n => choices (n + 1)) rfl
      refine ⟨m + 1, ?_⟩
      rw [after_succ]
      exact hm

end Tempo

end ProgressiveSearch
