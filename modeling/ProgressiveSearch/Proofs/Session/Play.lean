import ProgressiveSearch.Proofs.Session.Occasion
import ProgressiveSearch.Proofs.Session.OutputLaw

/-! # A session that plays against a script

In a `Play` a session meets a script and loses no time: what the script has for
the moment comes first, then the session takes what steps it can, and only when
there is nothing left to do does the clock go on, to the next entry of the script
or to the moment at which the session wakes, whichever comes first.

If the channel of replies has at least three places the session never waits for
room.  Then no deadline is ever in the past, and a batch is delivered at the very
moment at which it was ranked, before the script goes on (`Prompt`).
-/
namespace ProgressiveSearch.Session

/-- A session in its surroundings, and what the script still has for it. -/
structure Play where
  scene : Scene
  script : Script

namespace Play

/-- A play that is about to begin. -/
def ofStart (config : Config) (ranker : Ranker) (id : Nat) (start : Instant)
    (requestCapacity replyCapacity : Nat) (script : Script) : Play where
  scene := .ofStart config ranker id start requestCapacity replyCapacity
  script

variable (p : Play)

/-- The next entry of the script, if its moment has come. -/
def due? : Option (Cue × Script) :=
  match p.script with
  | (t, c) :: rest => if t ≤ p.scene.now then some (c, rest) else none
  | [] => none

/-- The moment up to which nothing happens. -/
def nextMoment? : Option Instant :=
  match p.script, p.scene.session.wakesAt with
  | (t, _) :: _, some u => some (if t ≤ u then t else u)
  | (t, _) :: _, none => some t
  | [], wake => wake

/-- What happens next. -/
def next : Play :=
  if p.scene.session.isOver then p
  else
    match p.due? with
    | some (c, rest) => ⟨p.scene.take c, rest⟩
    | none =>
      match p.scene.session.step p.scene.now p.scene.stopping with
      | some _ => { p with scene := p.scene.act .step }
      | none =>
        match p.nextMoment? with
        | some t => { p with scene := p.scene.act (.pass (p.scene.now.elapsed t)) }
        | none => p

/-- The play after `n` things have happened. -/
def after : Nat → Play
  | 0 => p
  | n + 1 => (after n).next

/-- The session ends at `t` with this verdict. -/
def EndsAt (t : Instant) (v : Verdict) : Prop :=
  ∃ n r, (p.after n).scene.session.activity = .over r ∧ r.verdict = v ∧ (p.after n).scene.now = t

/-- **The ways on** for a session that is not over. -/
inductive Advance : Play → Prop
  | takes {t : Instant} {c : Cue} {rest : Script} (ho : ∀ r, p.scene.session.activity ≠ .over r)
      (hs : p.script = (t, c) :: rest) (ht : t ≤ p.scene.now) : Advance ⟨p.scene.take c, rest⟩
  | steps {e : Deeds} {s : Session} (hd : p.due? = none)
      (ht : p.scene.session.Transition p.scene.now p.scene.stopping e s)
      (he : p.scene.act .step = p.scene.after e s) :
      Advance { p with scene := p.scene.after e s }
  | waits {t : Instant} (ho : ∀ r, p.scene.session.activity ≠ .over r) (hd : p.due? = none)
      (hs : p.scene.session.step p.scene.now p.scene.stopping = none)
      (hn : p.nextMoment? = some t) :
      Advance { p with scene := p.scene.act (.pass (p.scene.now.elapsed t)) }

section Advance
variable {p}

theorem isOver_iff {s : Session} : s.isOver = true ↔ ∃ r, s.activity = .over r := by
  unfold isOver result?
  split
  · rename_i r hr
    exact ⟨fun _ => ⟨r, hr⟩, fun _ => rfl⟩
  · rename_i hr
    exact ⟨nofun, fun ⟨r, h⟩ => absurd h (hr r)⟩

/-- What happens next is one of the ways on, unless there is nothing to wait for. -/
theorem advance_next (ho : ∀ r, p.scene.session.activity ≠ .over r) : p.Advance p.next ∨
    p.scene.session.step p.scene.now p.scene.stopping = none ∧ p.nextMoment? = none := by
  have hover : p.scene.session.isOver = false := by
    cases h : p.scene.session.isOver with
    | false => rfl
    | true =>
      obtain ⟨r, hr⟩ := isOver_iff.mp h
      exact absurd hr (ho r)
  unfold next
  rw [if_neg (by simp [hover])]
  split
  · rename_i c rest hd
    unfold due? at hd
    split at hd
    · rename_i t c' rest' hs
      split at hd
      · rename_i hle
        obtain ⟨rfl, rfl⟩ := Prod.mk.inj (Option.some.inj hd)
        exact .inl (.takes ho hs hle)
      · cases hd
    · cases hd
  · rename_i hd
    split
    · rename_i s hs
      obtain ⟨e, ht⟩ := transition_of_step hs
      have he : p.scene.act .step = p.scene.after e s := by
        simp only [Scene.act, hs, ht.deeds_eq]
      rw [he]
      exact .inl (.steps hd ht he)
    · rename_i hs
      split
      · rename_i t hn
        exact .inl (.waits ho hd hs hn)
      · rename_i hn
        exact .inr ⟨hs, hn⟩

theorem after_over {r : Result} {m : Nat} (h : (p.after m).scene.session.activity = .over r)
    (n : Nat) : p.after (m + n) = p.after m := by
  induction n with
  | zero => rfl
  | succ n ih =>
    show (p.after (m + n)).next = _
    rw [ih]
    exact if_pos (isOver_iff.mpr ⟨r, h⟩)

/-- **A session ends only once.** -/
theorem EndsAt.unique {t t' : Instant} {v v' : Verdict} (h : p.EndsAt t v) (h' : p.EndsAt t' v') :
    t' = t ∧ v' = v := by
  obtain ⟨m, r, hr, rfl, rfl⟩ := h
  obtain ⟨n, r', hr', rfl, rfl⟩ := h'
  have hsame : p.after n = p.after m := by
    rcases Nat.le_total m n with hle | hle
    · obtain ⟨k, rfl⟩ := Nat.exists_eq_add_of_le hle
      exact after_over hr k
    · obtain ⟨k, rfl⟩ := Nat.exists_eq_add_of_le hle
      exact (after_over hr' k).symm
  rw [hsame] at hr' ⊢
  obtain rfl := Activity.over.inj (hr.symm.trans hr')
  exact ⟨rfl, rfl⟩

/-- Each way on is a run of the scene. -/
theorem Advance.run {q : Play} (h : p.Advance q) : ∃ moves, q.scene = p.scene.run moves := by
  cases h with
  | takes _ _ _ => exact ⟨[.cue _], rfl⟩
  | steps _ _ he => exact ⟨[.step], he.symm⟩
  | waits _ _ _ _ => exact ⟨[.pass _], rfl⟩

end Advance

/-! ## Without delay -/

/-- No deadline has passed, and a batch is on its way only at the moment at which
it was ranked, with nothing else to look at. -/
structure Pace (p : Play) : Prop where
  wake : ∀ u ∈ p.scene.session.wakesAt, p.scene.now ≤ u
  delivery : ∀ d, p.scene.session.activity = .delivering d → d.receivedAt = p.scene.now ∧
    p.scene.stopping = false ∧ p.scene.session.stream.replies.receiverGone = false ∧
      p.due? = none

/-- A play that never waits for room. -/
structure Prompt (p : Play) : Prop where
  chronological : Chronological p.scene.now p.script
  told : Told p.scene.session p.scene.history
  conserved : p.scene.Conserved
  fed : ∃ sent, p.scene.Fed sent
  counted : p.scene.Counted
  capacity : 3 ≤ p.scene.session.stream.replies.capacity
  pace : p.Pace

section Prompt
variable {p}

/-- A prompt play that takes no step idles. -/
theorem Prompt.idles (h : p.Prompt) (ho : ∀ r, p.scene.session.activity ≠ .over r)
    (hs : p.scene.session.step p.scene.now p.scene.stopping = none) :
    p.scene.session.Idles p.scene.now p.scene.stopping := by
  rcases waits_of_step_none hs ho with hi | ⟨d, -, -, hroom⟩
  · exact hi
  · have hhas := hasRoom_of_told h.told h.conserved ho h.capacity
    exact absurd hroom (by simp [hhas])

/-- Nothing happens before the next moment. -/
theorem nextMoment_le {t : Instant} (h : p.nextMoment? = some t) :
    (∀ entry ∈ p.script.head?, t ≤ entry.1) ∧
      ∀ u ∈ p.scene.session.wakesAt, t ≤ u := by
  unfold nextMoment? at h
  split at h
  · rename_i t' c rest u hs hw
    obtain rfl := Option.some.inj h
    rw [hs, hw]
    simp only [List.head?_cons, Option.mem_some_iff, forall_eq']
    split
    · rename_i hle
      exact ⟨Nat.le_refl _, hle⟩
    · rename_i hnot
      exact ⟨Nat.le_of_lt (Nat.lt_of_not_le hnot), Nat.le_refl _⟩
  · rename_i t' c rest hs hw
    obtain rfl := Option.some.inj h
    simp [hs, hw, Instant.le_def]
  · rename_i hs
    simp [hs, h, Instant.le_def]

/-- The next moment comes from the script, or from the session. -/
theorem nextMoment_mem {t : Instant} (h : p.nextMoment? = some t) :
    (∃ entry ∈ p.script.head?, t = entry.1) ∨ p.scene.session.wakesAt = some t := by
  unfold nextMoment? at h
  split at h
  · rename_i t' c rest u hs hw
    obtain rfl := Option.some.inj h
    rw [hs, hw]
    split
    · exact .inl ⟨_, rfl, rfl⟩
    · exact .inr rfl
  · rename_i t' c rest hs hw
    obtain rfl := Option.some.inj h
    exact .inl ⟨_, by rw [hs]; rfl, rfl⟩
  · exact .inr h

/-- The clock only goes forward. -/
theorem Prompt.le_nextMoment (h : p.Prompt) {t : Instant} (ht : p.nextMoment? = some t) :
    p.scene.now ≤ t := by
  rcases nextMoment_mem ht with ⟨entry, hmem, rfl⟩ | hw
  · have hc := h.chronological
    cases hscript : p.script with
    | nil => simp [hscript] at hmem
    | cons first rest =>
      rw [hscript] at hc hmem
      obtain rfl : first = entry := by simpa using hmem
      exact hc.1
  · exact h.pace.wake t hw

theorem pace_takes {t : Instant} {c : Cue} {rest : Script} (h : p.Pace)
    (hs : p.script = (t, c) :: rest) (ht : t ≤ p.scene.now) : Pace ⟨p.scene.take c, rest⟩ := by
  obtain ⟨_, _, _, he⟩ := p.scene.take_eq c
  refine ⟨?_, fun d hd => ?_⟩
  · rw [he]
    exact h.wake
  · -- while a batch is on its way nothing is due
    have hdue : p.due? = some (c, rest) := by
      unfold due?
      rw [hs]
      exact if_pos ht
    rw [he] at hd
    cases hdue.symm.trans (h.delivery d hd).2.2.2

theorem pace_steps {e : Deeds} {s : Session} (h : p.Pace)
    (htold : Told p.scene.session p.scene.history) (hd : p.due? = none)
    (ht : p.scene.session.Transition p.scene.now p.scene.stopping e s) :
    Pace { p with scene := p.scene.after e s } := by
  cases ht with
  | begins he hdl =>
    have hphase := (told_entering htold he).1
    refine ⟨fun u hu => ?_, fun d hd' => (by cases hd')⟩
    obtain rfl : _ = u := by simpa [wakesAt, Scene.after, hphase] using hu
    exact Instant.le_after? hdl
  | answers hl _ _ =>
    refine ⟨fun u hu => (by cases hu), fun d hd' => ?_⟩
    obtain rfl := Activity.delivering.inj hd'
    exact ⟨rfl, hl.serving, hl.read, hd⟩
  | defers ha _ _ _ =>
    refine ⟨fun u hu => (by cases hu), fun d hd' => ?_⟩
    obtain rfl := Activity.delivering.inj hd'
    exact ⟨rfl, ha.serving, ha.read, hd⟩
  | ignores hl _ _ _ => exact ⟨h.wake, fun d hd' => by cases hl.selecting.symm.trans hd'⟩
  | halfCloses hl _ _ _ => exact ⟨h.wake, fun d hd' => by cases hl.selecting.symm.trans hd'⟩
  | deliversFirst hdel _ hdl | deliversSecond hdel _ hdl =>
    -- the next deadline is counted from the moment of ranking, which is now
    refine ⟨fun u hu => ?_, fun d hd' => (by cases hd')⟩
    obtain rfl : _ = u := by simpa [wakesAt, Scene.after] using hu
    have hat := (h.delivery _ hdel.delivering).1
    exact hat ▸ Instant.le_after? hdl
  | ends _ hl =>
    refine ⟨fun u hu => ?_, fun d hd' => ?_⟩
    · simp [wakesAt, Scene.after, hl.activity] at hu
    · cases hl.activity.symm.trans hd'

theorem pace_waits {t : Instant} (hi : p.scene.session.Idles p.scene.now p.scene.stopping)
    (hn : p.nextMoment? = some t) (hle : p.scene.now ≤ t) :
    Pace { p with scene := p.scene.act (.pass (p.scene.now.elapsed t)) } := by
  refine ⟨fun u hu => ?_, fun d hd => ?_⟩
  · show p.scene.now.plus (p.scene.now.elapsed t) ≤ u
    rw [Instant.plus_elapsed hle]
    exact (nextMoment_le hn).2 u hu
  · cases hi.selecting.symm.trans hd

theorem prompt_advance {q : Play} (h : p.Prompt) (ha : p.Advance q) : q.Prompt := by
  obtain ⟨moves, hrun⟩ := ha.run
  refine ⟨?chronological, ?_, ?_, ?_, ?_, ?_, ?_⟩
  · cases ha with
    | @takes t c rest _ hs ht =>
      obtain ⟨_, _, _, he⟩ := p.scene.take_eq c
      rw [he]
      have hc := h.chronological
      rw [hs] at hc
      exact hc.2.of_le hc.1
    | steps _ _ _ => exact h.chronological
    | waits _ _ _ hn =>
      show Chronological (p.scene.now.plus (p.scene.now.elapsed _)) p.script
      rw [Instant.plus_elapsed (h.le_nextMoment hn)]
      have hle := (nextMoment_le hn).1
      have hc := h.chronological
      cases hscript : p.script with
      | nil => trivial
      | cons entry rest =>
        rw [hscript] at hle hc
        exact ⟨hle entry rfl, hc.2⟩
  · rw [hrun]
    exact told_run h.told moves
  · rw [hrun]
    exact Scene.conserved_run h.conserved moves
  · obtain ⟨sent, hfed⟩ := h.fed
    rw [hrun]
    exact ⟨_, Scene.fed_run hfed moves⟩
  · rw [hrun]
    exact Scene.counted_run h.counted moves
  · rw [hrun, (Scene.run_replies moves).1]
    exact h.capacity
  · cases ha with
    | takes _ hs ht => exact pace_takes h.pace hs ht
    | steps hd ht _ => exact pace_steps h.pace h.told hd ht
    | waits ho _ hs hn => exact pace_waits (h.idles ho hs) hn (h.le_nextMoment hn)

theorem prompt_ofStart (config : Config) (ranker : Ranker) (id : Nat) (start : Instant)
    (requestCapacity replyCapacity : Nat) {script : Script} (hc : Chronological start script)
    (hcap : 3 ≤ replyCapacity) :
    (ofStart config ranker id start requestCapacity replyCapacity script).Prompt where
  chronological := hc
  told := told_ofStart ..
  conserved := Scene.conserved_ofStart ..
  fed := ⟨_, Scene.fed_ofStart ..⟩
  counted _ := rfl
  capacity := hcap
  pace := ⟨nofun, nofun⟩

/-- A prompt play goes on until the session is over. -/
theorem Prompt.advances (h : p.Prompt) (ho : ∀ r, p.scene.session.activity ≠ .over r) :
    p.Advance p.next := by
  rcases advance_next ho with ha | ⟨hs, hn⟩
  · exact ha
  · -- an idle session always has a deadline to wake at
    have hi := h.idles ho hs
    have hwake : p.scene.session.wakesAt ≠ none := by
      have htold := h.told
      unfold Told at htold
      unfold wakesAt
      rw [hi.selecting] at htold ⊢
      cases hp : p.scene.session.phase with
      | closed => simp [hp] at htold
      | _ => simp
    unfold nextMoment? at hn
    split at hn
    · cases hn
    · cases hn
    · exact absurd hn hwake

end Prompt

end Play
end ProgressiveSearch.Session
