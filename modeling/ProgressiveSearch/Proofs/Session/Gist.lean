import ProgressiveSearch.Proofs.Session.Audible
import ProgressiveSearch.Proofs.Session.Ending

/-! # The gist of a play

Two plays may differ in how much there is to pass over, and so in how many things
happen in them.  What they have in common is the `gist`: the play without what its
session need not have heard and without what of the script it cannot hear, at the
moment at which something happens next.

What happens next in a play is either not heard, and then the gist stays what it is
and there is less left that is not heard (`unheard`); or it is what happens next to
the gist, which makes its `turn`; or there is nothing more to happen (`progress`).
Only as many things as are left can happen unheard, so plays with the same gist go
through the same gists (`gist_meets`).

All this is for a play that is `Tolerant`: its session is lenient, nothing on its
requests is a failure, and nothing still to come is one.
-/
namespace ProgressiveSearch.Session

/-- **A session that has nothing to do at one moment** has nothing to do until it wakes. -/
theorem step_eq_none_of_asleep {now t : Instant} {stopping : Bool} {s : Session}
    (h : s.step now stopping = none) (hw : ∀ u ∈ s.wakesAt, t < u) :
    s.step t stopping = none := by
  cases ha : s.activity with
  | «over» r => rw [step, ha]
  | entering => simp [step, ha] at h
  | delivering d =>
    rw [step, ha] at h ⊢
    dsimp only at h ⊢
    unfold deliver? at h ⊢
    split at h
    · cases h
    · rename_i hread
      split at h
      · cases h
      · rename_i hroom
        rw [if_neg hread, if_neg hroom]
  | selecting =>
    rcases waits_of_step_none h (by simp [ha]) with hi | ⟨d, hd, -⟩
    · have htimer : s.timer? t = none := by
        unfold timer?
        unfold wakesAt at hw
        rw [ha] at hw
        cases hp : s.phase with
        | awaitingFirst | awaitingSecond | awaitingFinal _ =>
          rw [hp] at hw
          exact if_neg (Nat.not_le.mpr (hw _ rfl))
        | closed => rfl
      rw [step, ha]
      dsimp only
      rw [signal?, if_neg (by simp [hi.serving]), if_neg (by simp [hi.read]), htimer,
        hi.unanswered]
      rfl
    · cases ha.symm.trans hd

namespace Play

/-! ## The gist -/

/-- The play at another moment. -/
def shift (p : Play) (t : Instant) : Play := { p with scene := { p.scene with now := t } }

/-- There is nothing to do but wait. -/
structure Rests (p : Play) : Prop where
  lasts : ∀ r, p.scene.session.activity ≠ .over r
  undue : p.due? = none
  unmoved : p.scene.session.step p.scene.now p.scene.stopping = none

/-- The play at the moment at which something happens next; nobody cares for the
rest of the script once the session is over. -/
def awake (p : Play) : Play :=
  if p.scene.session.isOver then { p with script := [] }
  else
    match p.due?, p.scene.session.step p.scene.now p.scene.stopping with
    | none, none => p.shift (p.nextMoment?.getD .start)
    | _, _ => p

/-- The play without what its session need not hear. -/
def heard (p : Play) : Play := ⟨p.scene.muted, p.scene.session.heard p.script⟩

/-- **The gist of a play**: what is left of it when all is left out that makes no
difference to what its session does next. -/
def gist (p : Play) : Play := p.heard.awake

/-- What becomes of a gist when the next thing happens. -/
def turn (k : Play) : Play := (⟨k.next.scene.muted, k.next.script⟩ : Play).awake

/-- **What a play can be at.** -/
inductive Stage (p : Play) : Prop
  | «over» {r : Result} (hr : p.scene.session.activity = .over r)
  | takes {t : Instant} {c : Cue} {rest : Script} (ho : ∀ r, p.scene.session.activity ≠ .over r)
      (hs : p.script = (t, c) :: rest) (ht : t ≤ p.scene.now)
  | steps {s : Session} (ho : ∀ r, p.scene.session.activity ≠ .over r) (hd : p.due? = none)
      (hs : p.scene.session.step p.scene.now p.scene.stopping = some s)
  | rests (h : p.Rests)

theorem stage (p : Play) : p.Stage := by
  by_cases ho : ∃ r, p.scene.session.activity = .over r
  · obtain ⟨r, hr⟩ := ho
    exact .over hr
  · have ho' : ∀ r, p.scene.session.activity ≠ .over r := fun r hr => ho ⟨r, hr⟩
    cases hd : p.due? with
    | some entry =>
      unfold due? at hd
      split at hd
      · rename_i hs
        split at hd
        · rename_i ht
          exact .takes ho' hs ht
        · cases hd
      · cases hd
    | none =>
      cases hs : p.scene.session.step p.scene.now p.scene.stopping with
      | some s => exact .steps ho' hd hs
      | none => exact .rests ⟨ho', hd, hs⟩

section Awake
variable {p : Play}

theorem due?_of_le {t : Instant} {c : Cue} {rest : Script} (hs : p.script = (t, c) :: rest)
    (ht : t ≤ p.scene.now) : p.due? = some (c, rest) := by
  rw [due?, hs]
  exact if_pos ht

theorem due?_eq_none (h : ∀ entry ∈ p.script.head?, p.scene.now < entry.1) : p.due? = none := by
  cases hs : p.script with
  | nil => rw [due?, hs]
  | cons entry rest =>
    rw [due?, hs]
    exact if_neg (Nat.not_le.mpr (h entry (by rw [hs]; rfl)))

theorem not_isOver (h : ∀ r, p.scene.session.activity ≠ .over r) :
    ¬ p.scene.session.isOver = true := by
  intro ho
  obtain ⟨r, hr⟩ := isOver_iff.mp ho
  exact h r hr

theorem awake_of_over {r : Result} (h : p.scene.session.activity = .over r) :
    p.awake = { p with script := [] } :=
  if_pos (isOver_iff.mpr ⟨r, h⟩)

/-- When the session is over nobody cares for the rest of the script. -/
theorem awake_over_congr {x : Scene} {r : Result} (h : x.session.activity = .over r)
    (script script' : Script) : (⟨x, script⟩ : Play).awake = (⟨x, script'⟩ : Play).awake :=
  (awake_of_over (p := ⟨x, script⟩) h).trans (awake_of_over (p := ⟨x, script'⟩) h).symm

theorem Rests.awake (h : p.Rests) : p.awake = p.shift (p.nextMoment?.getD .start) := by
  rw [Play.awake, if_neg (not_isOver h.lasts), h.undue, h.unmoved]

theorem awake_of_not_rests (ho : ∀ r, p.scene.session.activity ≠ .over r) (h : ¬ p.Rests) :
    p.awake = p := by
  rw [Play.awake, if_neg (not_isOver ho)]
  split
  · rename_i hd hs
    exact absurd ⟨ho, hd, hs⟩ h
  · rfl

theorem lt_of_lt_nextMoment {t : Instant} (ht : ∀ u ∈ p.nextMoment?, t < u) :
    (∀ entry ∈ p.script.head?, t < entry.1) ∧ ∀ u ∈ p.scene.session.wakesAt, t < u := by
  cases hn : p.nextMoment? with
  | some u =>
    obtain ⟨hscript, hwake⟩ := nextMoment_le hn
    have hlt := ht u hn
    exact ⟨fun entry he => Nat.lt_of_lt_of_le hlt (hscript entry he),
      fun v hv => Nat.lt_of_lt_of_le hlt (hwake v hv)⟩
  | none =>
    unfold nextMoment? at hn
    split at hn
    · cases hn
    · cases hn
    · rename_i hscript
      simp [hscript, hn]

/-- A play that rests goes on to rest until the next moment. -/
theorem Rests.shift (h : p.Rests) {t : Instant} (ht : ∀ u ∈ p.nextMoment?, t < u) :
    (p.shift t).Rests where
  lasts := h.lasts
  undue := due?_eq_none (p := p.shift t) (lt_of_lt_nextMoment ht).1
  unmoved := step_eq_none_of_asleep h.unmoved (lt_of_lt_nextMoment ht).2

theorem Rests.awake_shift (h : p.Rests) {t : Instant} (ht : ∀ u ∈ p.nextMoment?, t ≤ u) :
    (p.shift t).awake = p.awake := by
  by_cases hr : (p.shift t).Rests
  · rw [hr.awake, h.awake]
    rfl
  · rw [awake_of_not_rests (p := p.shift t) h.lasts hr, h.awake]
    cases hn : p.nextMoment? with
    | none => exact absurd (h.shift (by simp [hn])) hr
    | some u =>
      have hle := ht u hn
      have hnot : ¬ t < u := fun hlt => hr (h.shift (by simpa [hn] using hlt))
      obtain rfl : t = u := Instant.le_antisymm hle (Nat.le_of_not_lt hnot)
      rfl

theorem next_of_over {r : Result} (h : p.scene.session.activity = .over r) : p.next = p :=
  if_pos (isOver_iff.mpr ⟨r, h⟩)

theorem next_of_due (ho : ∀ r, p.scene.session.activity ≠ .over r) {c : Cue} {rest : Script}
    (hd : p.due? = some (c, rest)) : p.next = ⟨p.scene.take c, rest⟩ := by
  rw [next, if_neg (not_isOver ho), hd]

theorem next_of_step (ho : ∀ r, p.scene.session.activity ≠ .over r) (hd : p.due? = none)
    {s : Session} (hs : p.scene.session.step p.scene.now p.scene.stopping = some s) :
    p.next = { p with scene := p.scene.act .step } := by
  rw [next, if_neg (not_isOver ho), hd, hs]

theorem Rests.next_of_some (h : p.Rests) {t : Instant} (hn : p.nextMoment? = some t) :
    p.next = { p with scene := p.scene.act (.pass (p.scene.now.elapsed t)) } := by
  rw [next, if_neg (not_isOver h.lasts), h.undue, h.unmoved, hn]

theorem Rests.next_of_none (h : p.Rests) (hn : p.nextMoment? = none) : p.next = p := by
  rw [next, if_neg (not_isOver h.lasts), h.undue, h.unmoved, hn]

end Awake

/-! ## What goes on in a play and in its gist -/

/-- A play of a session that tolerates all that its script sends. -/
structure Tolerant (p : Play) : Prop where
  chronological : Chronological p.scene.now p.script
  lenient : p.scene.session.config.strict = false
  unbroken : ∀ entry ∈ p.script, ∀ status, entry.2 ≠ .send (.failed status)
  contexts : (∀ r, p.scene.session.activity ≠ .over r) →
    ∀ a ∈ p.scene.session.stream.requests.queue, ∃ c, a = .context c
  held : (∀ r, p.scene.session.activity ≠ .over r) →
    p.scene.session.stream.requests.receiverGone = false

section Tolerant
variable {p : Play}

theorem Tolerant.tolerates (h : p.Tolerant) (ho : ∀ r, p.scene.session.activity ≠ .over r) :
    p.scene.session.Tolerates where
  lenient := h.lenient
  contexts := h.contexts ho

theorem tolerant_takes {t : Instant} {c : Cue} {rest : Script} (h : p.Tolerant)
    (hs : p.script = (t, c) :: rest) : Tolerant ⟨p.scene.take c, rest⟩ := by
  have hsame := p.scene.take_eq c
  have hrequests := p.scene.requests_take c
  have hchronological := h.chronological
  rw [hs] at hchronological
  have hcontext : ∀ a, c = .send a → ∃ context, a = .context context := by
    intro a hc
    cases a with
    | context context => exact ⟨context, rfl⟩
    | failed status =>
      exact absurd hc (h.unbroken (t, c) (by rw [hs]; exact List.mem_cons_self) status)
  have hlasts : (∀ r, (p.scene.take c).session.activity ≠ .over r) →
      ∀ r, p.scene.session.activity ≠ .over r := by
    obtain ⟨_, _, _, he⟩ := hsame
    rw [he]
    exact id
  refine ⟨?_, ?_, ?_, fun ho => ?_, fun ho => ?_⟩
  · obtain ⟨_, _, _, he⟩ := hsame
    rw [he]
    exact hchronological.2.of_le hchronological.1
  · obtain ⟨_, _, _, he⟩ := hsame
    rw [he]
    exact h.lenient
  · exact fun entry hm => h.unbroken entry (by rw [hs]; exact List.mem_cons_of_mem _ hm)
  · have hold := h.contexts (hlasts ho)
    rcases hrequests with he | ⟨a, hc, he⟩ | ⟨-, he⟩
    · rw [he]
      exact hold
    · rw [he]
      intro b hb
      rcases List.mem_append.mp hb with hb | hb
      · exact hold b hb
      · obtain rfl := List.mem_singleton.mp hb
        exact hcontext b hc
    · rw [he]
      exact hold
  · have hold := h.held (hlasts ho)
    rcases hrequests with he | ⟨a, -, he⟩ | ⟨-, he⟩ <;> rw [he] <;> exact hold

theorem tolerant_steps {e : Deeds} {s : Session} (h : p.Tolerant)
    (ht : p.scene.session.Transition p.scene.now p.scene.stopping e s) :
    Tolerant { p with scene := p.scene.after e s } := by
  have ho := ht.not_over
  have hc := h.contexts ho
  refine ⟨h.chronological, ht.config_ranker.1 ▸ h.lenient, h.unbroken, fun ho' => ?_, fun ho' => ?_⟩
  · cases ht with
    | ends _ hl => exact absurd hl.activity (ho' _)
    | answers _ hq _ | ignores _ hq _ _ =>
      exact fun a ha => hc a (by rw [hq]; exact List.mem_cons_of_mem _ ha)
    | _ => exact hc
  · cases ht with
    | ends _ hl => exact absurd hl.activity (ho' _)
    | _ => exact h.held ho

/-- A play that rests wakes later. -/
theorem Rests.lt_wake (h : p.Rests) {u : Instant} (hu : p.scene.session.wakesAt = some u) :
    p.scene.now < u := by
  rcases waits_of_step_none h.unmoved h.lasts with hi | ⟨d, hd, -⟩
  · have htimer := hi.untimed
    refine Nat.lt_of_not_le fun hle => ?_
    unfold wakesAt at hu
    unfold timer? at htimer
    rw [hi.selecting] at hu
    cases hp : p.scene.session.phase with
    | awaitingFirst | awaitingSecond | awaitingFinal _ =>
      rw [hp] at hu htimer
      obtain rfl := Option.some.inj hu
      exact absurd ((if_pos hle).symm.trans htimer) (by simp)
    | closed =>
      rw [hp] at hu
      cases hu
  · simp [wakesAt, hd] at hu

theorem Tolerant.lt_nextMoment (h : p.Tolerant) (hr : p.Rests) {t : Instant}
    (hn : p.nextMoment? = some t) : p.scene.now < t := by
  rcases nextMoment_mem hn with ⟨entry, hm, rfl⟩ | hw
  · exact now_lt_script h.chronological hr.undue entry (List.mem_of_mem_head? hm)
  · exact hr.lt_wake hw

/-- To wait is to go on to the next moment. -/
theorem Tolerant.next_rests (h : p.Tolerant) (hr : p.Rests) {t : Instant}
    (hn : p.nextMoment? = some t) : p.next = p.shift t := by
  rw [hr.next_of_some hn]
  show p.shift (p.scene.now.plus (p.scene.now.elapsed t)) = _
  rw [Instant.plus_elapsed (Nat.le_of_lt (h.lt_nextMoment hr hn))]

/-- Nothing in the script comes before the next moment. -/
theorem Tolerant.nextMoment_le_script (h : p.Tolerant) {t : Instant}
    (hn : p.nextMoment? = some t) : ∀ entry ∈ p.script, t ≤ entry.1 := by
  have hhead := (nextMoment_le hn).1
  have hc := h.chronological
  intro entry hm
  cases hs : p.script with
  | nil => simp [hs] at hm
  | cons first rest =>
    rw [hs] at hhead hc hm
    have hfirst := hhead first rfl
    rcases List.mem_cons.mp hm with rfl | hm
    · exact hfirst
    · exact Nat.le_trans hfirst (hc.2.all entry hm)

theorem tolerant_shift (h : p.Tolerant) {t : Instant} (hn : p.nextMoment? = some t) :
    (p.shift t).Tolerant := by
  refine { h with chronological := ?_ }
  have hle := h.nextMoment_le_script hn
  have hc := h.chronological
  show Chronological t p.script
  cases hs : p.script with
  | nil => trivial
  | cons first rest =>
    rw [hs] at hle hc
    exact ⟨hle first List.mem_cons_self, hc.2⟩

theorem tolerant_next (h : p.Tolerant) : p.next.Tolerant := by
  cases p.stage with
  | «over» hr => rwa [next_of_over hr]
  | takes ho hs ht =>
    rw [next_of_due ho (due?_of_le hs ht)]
    exact tolerant_takes h hs
  | steps ho hd hs =>
    obtain ⟨e, ht⟩ := transition_of_step hs
    rw [next_of_step ho hd hs]
    simp only [Scene.act, hs, ht.deeds_eq]
    exact tolerant_steps h ht
  | rests hr =>
    cases hn : p.nextMoment? with
    | some t =>
      rw [h.next_rests hr hn]
      exact tolerant_shift h hn
    | none =>
      rw [hr.next_of_none hn]
      exact h

/-! ## Progress -/

/-- How much a play can do that nobody would hear of. -/
def unheard (p : Play) : Nat :=
  4 * p.script.length + 2 * p.scene.session.backlog + p.stalls.toNat

/-- What happens next in a play is not heard, or it is what happens next to its gist,
or there is nothing more to happen. -/
inductive Progress (p : Play) : Prop
  | hidden (hg : p.next.gist = p.gist) (hlt : p.next.unheard < p.unheard)
  | seen (hg : p.next.gist = p.gist.turn)
  | ended (hn : p.next = p) (hg : p.gist.turn = p.gist)

theorem unheard_le (p : Play) :
    p.unheard ≤ 4 * p.script.length + 2 * p.scene.session.backlog + 1 :=
  Nat.add_le_add_left (Bool.toNat_le _) _

theorem le_unheard (p : Play) :
    4 * p.script.length + 2 * p.scene.session.backlog ≤ p.unheard :=
  Nat.le_add_right _ _

theorem backlog_take (x : Scene) (c : Cue) :
    (x.take c).session.backlog ≤ x.session.backlog + 1 := by
  have hopen : (x.take c).session.requestsOpen = x.session.requestsOpen := by
    obtain ⟨_, _, _, he⟩ := x.take_eq c
    rw [he]
  unfold backlog
  rw [hopen]
  rcases x.requests_take c with he | ⟨a, -, he⟩ | ⟨-, he⟩
  · rw [he]
    omega
  · rw [he, Channel.put, List.length_append, List.length_singleton]
    omega
  · rw [he]
    show x.session.stream.requests.queue.length + _ ≤ _
    omega

theorem lasts_heard (ho : ∀ r, p.scene.session.activity ≠ .over r) :
    ∀ r, p.heard.scene.session.activity ≠ .over r := by
  intro r hr
  have hmuted : p.scene.session.activity.muted = .over r := hr
  cases ha : p.scene.session.activity <;> simp_all [Activity.muted]

theorem progress_over {r : Result} (h : p.scene.session.activity = .over r) : p.Progress := by
  refine .ended (next_of_over h) ?_
  have hmuted : p.heard.scene.session.activity = .over r.muted := congrArg Activity.muted h
  have hgist : p.gist = ⟨p.scene.muted, []⟩ := awake_of_over hmuted
  rw [hgist, turn, next_of_over (p := ⟨p.scene.muted, []⟩) hmuted, p.scene.alike_muted.muted_eq]
  exact awake_of_over (p := ⟨p.scene.muted, []⟩) hmuted

theorem progress_takes {t : Instant} {c : Cue} {rest : Script} (h : p.Tolerant)
    (ho : ∀ r, p.scene.session.activity ≠ .over r) (hs : p.script = (t, c) :: rest)
    (ht : t ≤ p.scene.now) : p.Progress := by
  have hnext := next_of_due ho (due?_of_le hs ht)
  rcases p.scene.take_heard (h.held ho) t c rest with ⟨hheard, ha⟩ | ⟨hheard, ha⟩
  · refine .hidden ?_ ?_
    · rw [hnext, gist, gist, heard, heard, ha.muted_eq, hs, hheard]
    · have hle := unheard_le p.next
      have hge := le_unheard p
      have hback := backlog_take p.scene c
      rw [hnext] at hle ⊢
      rw [hs, List.length_cons] at hge
      dsimp only at hle
      omega
  · refine .seen ?_
    have hd : p.heard.due? = some (c, (p.scene.take c).session.heard rest) := by
      refine due?_of_le ?_ ht
      rw [heard, hs, hheard]
    have hgist : p.gist = p.heard :=
      awake_of_not_rests (lasts_heard ho) fun hr => by cases hd.symm.trans hr.undue
    rw [hgist, turn, next_of_due (lasts_heard ho) hd, hnext]
    show (⟨(p.scene.take c).muted, _⟩ : Play).awake =
      (⟨(p.scene.muted.take c).muted, _⟩ : Play).awake
    rw [ha.muted_eq]

/-- If nothing is due, nothing that is heard is. -/
theorem undue_heard (h : p.Tolerant) (hd : p.due? = none) : p.heard.due? = none :=
  due?_eq_none fun entry hm =>
    now_lt_script h.chronological hd entry (mem_of_mem_heard (List.mem_of_mem_head? hm))

theorem progress_steps (h : p.Tolerant) (ho : ∀ r, p.scene.session.activity ≠ .over r)
    (hd : p.due? = none) {s : Session}
    (hs : p.scene.session.step p.scene.now p.scene.stopping = some s) : p.Progress := by
  have hnext := next_of_step ho hd hs
  have hact : p.scene.act .step = p.scene.after (deeds p.scene.session s) s := by
    simp only [Scene.act, hs]
  rw [hact] at hnext
  by_cases hpass : p.scene.session.PassesOver p.scene.now p.scene.stopping
  · obtain ⟨s', hs', ha, hback⟩ := alike_passesOver hpass (h.tolerates ho)
    obtain rfl := Option.some.inj (hs.symm.trans hs')
    obtain ⟨hasks, hputs⟩ := (Alike.refl p.scene.session).deeds ha
    have hscene : (p.scene.after (deeds p.scene.session s) s).Alike p.scene := by
      refine ⟨ha, rfl, rfl, ?_, ?_, rfl⟩
      · show p.scene.history.asks ++ _ = _
        rw [hasks]
        simp [deeds, asked, hpass.selecting]
      · show p.scene.history.puts ++ _ = _
        rw [hputs]
        simp [deeds]
    refine .hidden ?_ ?_
    · rw [hnext, gist, gist, heard, heard, hscene.muted_eq]
      exact congrArg (fun script => (⟨p.scene.muted, script⟩ : Play).awake) ha.heard
    · have hle := unheard_le p.next
      have hge := le_unheard p
      rw [hnext] at hle ⊢
      change _ ≤ 4 * p.script.length + 2 * s.backlog + 1 at hle
      omega
  · rcases step_muted (h.tolerates ho) hpass with ⟨-, hnone⟩ | ⟨u, s', hu, hs', ha⟩
    · cases hs.symm.trans hnone
    · obtain rfl := Option.some.inj (hs.symm.trans hs')
      have hd' := undue_heard h hd
      have hgist : p.gist = p.heard :=
        awake_of_not_rests (lasts_heard ho) fun hr => by cases hu.symm.trans hr.unmoved
      obtain ⟨hasks, hputs⟩ := p.scene.session.alike_muted.deeds ha
      have hscene : (p.scene.muted.after (deeds p.scene.session.muted u) u).Alike
          (p.scene.after (deeds p.scene.session s) s) := by
        refine ⟨ha, rfl, rfl, ?_, ?_, rfl⟩
        · show p.scene.history.asks ++ _ = p.scene.history.asks ++ _
          rw [hasks]
          rfl
        · show p.scene.history.puts ++ _ = p.scene.history.puts ++ _
          rw [hputs]
          rfl
      have hact' : p.heard.scene.act .step =
          p.scene.muted.after (deeds p.scene.session.muted u) u := by
        show p.scene.muted.act .step = _
        unfold Scene.act
        dsimp only
        rw [show p.scene.muted.session.step p.scene.muted.now p.scene.muted.stopping = some u from hu]
        rfl
      refine .seen ?_
      rw [hgist, turn, next_of_step (lasts_heard ho) hd' hu, hact', hnext, gist, heard]
      dsimp only
      rw [hscene.muted_eq]
      -- the session hears the same of the script, or it is over and nobody cares
      by_cases hover : ∃ r, s.activity = .over r
      · obtain ⟨r, hr⟩ := hover
        have hmuted : (p.scene.after (deeds p.scene.session s) s).muted.session.activity =
            .over r.muted := congrArg Activity.muted hr
        exact awake_over_congr hmuted _ _
      · obtain ⟨e, ht⟩ := transition_of_step hs
        have hheard : s.heard p.script = p.scene.session.heard p.script :=
          ht.heard fun r hr => hover ⟨r, hr⟩
        exact congrArg (fun script => (⟨_, script⟩ : Play).awake) hheard

theorem wakesAt_muted (s : Session) : s.muted.wakesAt = s.wakesAt := by
  unfold wakesAt muted
  cases s.activity with
  | «over» r => cases s.phase <;> rfl
  | _ => rfl

/-- What is left of a play that rests, rests. -/
theorem rests_heard (h : p.Tolerant) (hr : p.Rests) : p.heard.Rests where
  lasts := lasts_heard hr.lasts
  undue := undue_heard h hr.undue
  unmoved := by
    have htolerates := h.tolerates hr.lasts
    have hpass : ¬ p.scene.session.PassesOver p.scene.now p.scene.stopping := by
      intro hpass
      obtain ⟨_, hs, -⟩ := alike_passesOver hpass htolerates
      cases hs.symm.trans hr.unmoved
    rcases step_muted htolerates hpass with ⟨hnone, -⟩ | ⟨_, _, -, hs, -⟩
    · exact hnone
    · cases hs.symm.trans hr.unmoved

/-- It does not wake before the play goes on. -/
theorem le_nextMoment_heard (h : p.Tolerant) {t : Instant} (hn : p.nextMoment? = some t) :
    ∀ u ∈ p.heard.nextMoment?, t ≤ u := by
  intro u hu
  rcases nextMoment_mem hu with ⟨entry, hm, rfl⟩ | hw
  · exact h.nextMoment_le_script hn entry (mem_of_mem_heard (List.mem_of_mem_head? hm))
  · exact (nextMoment_le hn).2 u ((wakesAt_muted _).symm.trans hw)

/-- A play with nothing more to wait for has come to its end. -/
theorem gist_of_ended (h : p.Tolerant) (hr : p.Rests) (hn : p.nextMoment? = none) :
    p.gist.turn = p.gist := by
  have hheard := rests_heard h hr
  have hnone : p.heard.nextMoment? = none := by
    unfold nextMoment? at hn
    split at hn
    · cases hn
    · cases hn
    · rename_i hscript
      have hsilent : p.heard.script = [] := List.eq_nil_iff_forall_not_mem.mpr fun entry hm => by
        have hmem := mem_of_mem_heard hm
        rw [hscript] at hmem
        cases hmem
      rw [nextMoment?, hsilent]
      exact (wakesAt_muted _).trans hn
  have hgist : p.gist = p.heard.shift .start := by
    rw [gist, hheard.awake, hnone]
    rfl
  have hrests : (p.heard.shift .start).Rests := hheard.shift (by simp [hnone])
  have hnext : (p.heard.shift .start).next = p.heard.shift .start := hrests.next_of_none hnone
  have hmuted : (p.heard.shift .start).scene.muted = (p.heard.shift .start).scene :=
    (p.shift .start).scene.alike_muted.muted_eq
  rw [hgist, turn, hnext, hmuted]
  show (p.heard.shift .start).awake = _
  rw [hrests.awake, show (p.heard.shift .start).nextMoment? = none from hnone]
  rfl

theorem progress_rests (h : p.Tolerant) (hr : p.Rests) : p.Progress := by
  cases hn : p.nextMoment? with
  | none => exact .ended (hr.next_of_none hn) (gist_of_ended h hr hn)
  | some t =>
    refine .hidden ?_ ?_
    · rw [h.next_rests hr hn]
      exact (rests_heard h hr).awake_shift (le_nextMoment_heard h hn)
    · -- the wait is over as soon as it has begun
      have hstalled : p.stalls = true := by simp [stalls, hr.undue, hr.unmoved]
      have hbusy : p.next.stalls = false := by
        rw [hr.next_of_some hn]
        exact stalls_waits (Nat.le_of_lt (h.lt_nextMoment hr hn)) hn
      rw [unheard, unheard, hbusy, hstalled, h.next_rests hr hn]
      exact Nat.lt_succ_self _

/-- **Whatever happens next is not heard, or is what happens next to the gist.** -/
theorem progress (h : p.Tolerant) : p.Progress := by
  cases p.stage with
  | «over» hr => exact progress_over hr
  | takes ho hs ht => exact progress_takes h ho hs ht
  | steps ho hd hs => exact progress_steps h ho hd hs
  | rests hr => exact progress_rests h hr

/-! ## Plays with the same gist -/

theorem tolerant_after (h : p.Tolerant) (n : Nat) : (p.after n).Tolerant := by
  induction n with
  | zero => exact h
  | succ n ih => exact tolerant_next ih

theorem after_add (p : Play) (m n : Nat) : p.after (m + n) = (p.after m).after n := by
  induction n with
  | zero => rfl
  | succ n ih => exact congrArg Play.next ih

/-- What happens next to the gist comes to pass. -/
theorem gist_reaches (h : p.Tolerant) : ∃ n, (p.after n).gist = p.gist.turn := by
  induction hk : p.unheard using Nat.strongRecOn generalizing p with
  | ind k ih =>
    cases progress h with
    | hidden hg hlt =>
      obtain ⟨n, hn⟩ := ih _ (hk ▸ hlt) (tolerant_next h) rfl
      exact ⟨n + 1, by rw [after_succ, hn, hg]⟩
    | seen hg => exact ⟨1, hg⟩
    | ended _ hg => exact ⟨0, hg.symm⟩

/-- **Plays with the same gist go through the same gists.** -/
theorem gist_meets {q : Play} (hp : p.Tolerant) (hq : q.Tolerant) (hg : p.gist = q.gist)
    (n : Nat) : ∃ m, (p.after n).gist = (q.after m).gist := by
  induction n generalizing p q with
  | zero => exact ⟨0, hg⟩
  | succ n ih =>
    rw [after_succ]
    cases progress hp with
    | hidden hg' _ => exact ih (tolerant_next hp) hq (hg'.trans hg)
    | seen hg' =>
      obtain ⟨m, hm⟩ := gist_reaches hq
      have hsame : p.next.gist = (q.after m).gist := by rw [hg', hg, hm]
      obtain ⟨k, hk⟩ := ih (tolerant_next hp) (tolerant_after hq m) hsame
      exact ⟨m + k, by rw [after_add, hk]⟩
    | ended hn _ =>
      rw [hn]
      exact ih hp hq hg

end Tolerant
end Play
end ProgressiveSearch.Session
