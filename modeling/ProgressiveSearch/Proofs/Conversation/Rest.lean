import ProgressiveSearch.Proofs.Conversation.Stall

/-! # An undisturbed call comes to rest

An undisturbed call comes to rest, with both sides over (`Timetable.comes_to_rest`,
`Timetable.Kept.over_of_rest`): everything that happens leaves less to be done
(`Timetable.distance_advance`), and time goes on only when there is something to do
afterwards.
-/
namespace ProgressiveSearch
namespace Conversation

/-! ## What is left to be done -/

/-- How far a session is from its end. -/
def sessionLeft (s : Session) : Nat :=
  (match s.phase with
    | .awaitingFirst => 8
    | .awaitingSecond => 6
    | .awaitingFinal _ => 4
    | .closed => 0) +
  match s.activity with
  | .entering => 2
  | .selecting => 1
  | .delivering _ | .over _ => 0

/-- What is left to be done on the session's side. -/
def sceneLeft (x : Session.Scene) : Nat :=
  sessionLeft x.session + x.session.requestsOpen.toNat + (3 - x.taken.length) +
    (!x.session.stream.requests.senderGone).toNat + (!x.session.stream.replies.receiverGone).toNat

/-- What is left to the receiver. -/
def receiverLeft (r : Exchange.Receiver) : Nat :=
  match r with
  | .absent | .reading => 1
  | .over _ => 0

/-- What is left to be done on the client's side. -/
def settingLeft (x : Exchange.Setting) : Nat :=
  Exchange.Play.turnsLeft x.exchange + receiverLeft x.exchange.receiver + (3 - x.replies.length) +
    (2 - x.picked.length) + (!x.exchange.stream.replies.senderGone).toNat +
    (!x.exchange.stream.requests.receiverGone).toNat

/-- What is left to be done, with the time counted. -/
def distance (x : Conversation) : Nat :=
  2 * (sceneLeft x.scene + settingLeft x.setting) + x.ready.isEmpty.toNat

/-! ## Rest -/

/-- From some moment on this is so. -/
def Settles (x : Conversation) (clock : Clock) (choices : Nat → Nat) (P : Conversation → Prop) :
    Prop :=
  ∃ n, ∀ k, n ≤ k → P (x.after clock choices k)

section Rest
variable {x : Conversation} {clock : Clock} {choices : Nat → Nat}

/-- Nothing can be done, and nobody waits for a moment. -/
structure AtRest (clock : Clock) (x : Conversation) : Prop where
  quiet : x.ready = []
  asleep : x.wakesAt clock = none

/-- A conversation at rest stays as it is. -/
theorem next_of_rest (h : x.AtRest clock) (choice : Nat) : x.next clock choice = x := by
  unfold next
  rw [h.quiet]
  simp [h.asleep]

theorem after_of_rest {n : Nat} (h : (x.after clock choices n).AtRest clock) (k : Nat) :
    x.after clock choices (n + k) = x.after clock choices n := by
  induction k with
  | zero => rfl
  | succ k ih =>
    show (x.after clock choices (n + k)).next clock _ = _
    rw [ih]
    exact next_of_rest h _

/-- Where a conversation comes to rest it has settled, -/
theorem settles_of_rest {P : Conversation → Prop} {n : Nat}
    (h : (x.after clock choices n).AtRest clock) (hp : P (x.after clock choices n)) :
    x.Settles clock choices P := by
  refine ⟨n, fun k hk => ?_⟩
  obtain ⟨m, rfl⟩ := Nat.exists_eq_add_of_le hk
  rw [after_of_rest h]
  exact hp

/-- and on nothing else. -/
theorem not_settles_of_rest {P : Conversation → Prop} {n : Nat}
    (h : (x.after clock choices n).AtRest clock) (hp : ¬ P (x.after clock choices n)) :
    ¬ x.Settles clock choices P := by
  rintro ⟨m, hm⟩
  have hlater := hm (n + m) (Nat.le_add_left m n)
  rw [after_of_rest h] at hlater
  exact hp hlater

/-- What happens in a conversation is a run of it. -/
theorem after_run (x : Conversation) (clock : Clock) (choices : Nat → Nat) (n : Nat) :
    ∃ moves, x.after clock choices n = x.run moves := by
  induction n with
  | zero => exact ⟨[], rfl⟩
  | succ n ih =>
    obtain ⟨moves, hrun⟩ := ih
    have hmore : ∀ m, (x.run moves).act m = x.run (moves ++ [m]) := fun m =>
      (run_append x moves [m]).symm
    show ∃ moves, (x.after clock choices n).next clock (choices n) = x.run moves
    rcases (x.after clock choices n).next_cases clock (choices n) with
      ⟨m, -, he⟩ | ⟨t, -, -, he⟩ | ⟨-, -, he⟩
    · exact ⟨moves ++ [m], by rw [he, hrun, hmore]⟩
    · exact ⟨_, by rw [he, hrun, hmore]⟩
    · exact ⟨moves, he.trans hrun⟩

end Rest

end Conversation

namespace Timetable
open Conversation

variable {tt : Timetable} {ranker : Ranker} {request : Request} {x y : Conversation}

section Left
variable {e : Session.Deeds} {s : Session}

theorem sceneLeft_serves (h : tt.Timed x)
    (hs' : tt.Sound ranker request ⟨x.scene.after e s, x.setting⟩)
    (hs : tt.Sound ranker request x)
    (ht : x.scene.session.Transition x.scene.now x.scene.stopping e s) :
    sceneLeft (x.scene.after e s) < sceneLeft x.scene := by
  have hreader : s.stream.replies.receiverGone = x.scene.session.stream.replies.receiverGone := by
    rw [ht.replies]
  unfold sceneLeft sessionLeft
  cases ht with
  | begins he _ => simp [Session.Scene.after, he]
  | answers hl _ _ => simp [Session.Scene.after, hl.selecting]
  | defers ha _ _ _ => simp [Session.Scene.after, ha.selecting]
  | ignores hl _ hp _ => cases not_third hs' (Session.told_two hs.told hl.selecting hp)
  | halfCloses hl _ _ _ => simp [Session.Scene.after, hl.isOpen]
  | deliversFirst hd hp _ => simp [Session.Scene.after, hd.delivering, hp, Channel.put]
  | deliversSecond hd hp _ => simp [Session.Scene.after, hd.delivering, hp, Channel.put]
  | ends he hl =>
    have hphase : x.scene.session.phase ≠ .closed := by
      intro hp
      have hserves := h.serves
      unfold Serves at hserves
      rw [hp] at hserves
      cases ha : x.scene.session.activity with
      | «over» r => exact he.not_over r ha
      | _ => simp [ha] at hserves
    have hopen := Bool.toNat_le s.requestsOpen
    have hgone := Bool.toNat_le (!s.stream.requests.senderGone)
    simp only [Session.Scene.after, hl.phase, hl.activity, hreader]
    cases hp : x.scene.session.phase with
    | closed => exact absurd hp hphase
    | _ =>
      dsimp only
      omega

theorem settingLeft_calls (hs : tt.Sound ranker request x) {said : List Context} {e : Exchange}
    (ht : x.setting.exchange.Turn x.setting.now said e) :
    settingLeft (x.setting.afterTurn said e) < settingLeft x.setting := by
  have hturns := Exchange.Play.turnsLeft_turn ht
  have hspeaks := ht.speaks
  have hreceiver : receiverLeft e.receiver = receiverLeft x.setting.exchange.receiver := by
    rcases hs.orderly.spoken.receiver_turn ht with hr | ⟨habsent, hr⟩
    · rw [hr]
    · rw [hr, habsent]
      rfl
  unfold settingLeft
  simp only [Exchange.Setting.afterTurn, Exchange.Setting.replies, hreceiver, hspeaks.replies,
    hspeaks.refused]
  omega

/-- No more than three batches are ever queued. -/
theorem Timed.written_le (hs : tt.Sound ranker request x) (h : tt.Timed x) :
    x.scene.history.written.length ≤ 3 := by
  by_cases ho : x.Served
  · obtain ⟨r, hr⟩ := ho
    cases h.ends hr with
    | completes _ _ _ hw _ | idles _ _ hw _ | deserted _ hw _ => omega
  · obtain ⟨batches, hw, -, hlen⟩ := Session.told_written hs.told (not_served_iff.mp ho)
    rw [hw, List.length_map]
    omega

theorem settingLeft_receives {heard : List Reply} {e : Exchange}
    (hs' : tt.Sound ranker request ⟨x.scene, x.setting.afterHearing heard e⟩)
    (h' : tt.Timed ⟨x.scene, x.setting.afterHearing heard e⟩)
    (hh : x.setting.exchange.Hearing x.setting.now heard e) :
    settingLeft (x.setting.afterHearing heard e) < settingLeft x.setting := by
  have hm := hh.minds
  have hturns : Exchange.Play.turnsLeft e = Exchange.Play.turnsLeft x.setting.exchange := by
    unfold Exchange.Play.turnsLeft
    rw [hm.stage]
  have hle : (x.setting.afterHearing heard e).replies.length ≤ 3 :=
    Nat.le_trans hs'.heard.length_le (h'.written_le hs')
  rw [Exchange.Setting.replies_afterHearing, List.length_append] at hle
  unfold settingLeft
  rw [Exchange.Setting.replies_afterHearing, List.length_append]
  simp only [Exchange.Setting.afterHearing, hturns, hm.closed, hm.requests]
  -- the receiver hears one more reply, or comes to its end
  have hless : receiverLeft e.receiver + (3 - (x.setting.replies.length + heard.length)) <
      receiverLeft x.setting.exchange.receiver + (3 - x.setting.replies.length) := by
    obtain ⟨hr, -, ⟨hr', -, -⟩ | ⟨ending, hr'⟩⟩ := hh.receiver
    · have hone : heard.length = 1 := by
        cases hh with
        | isStopped _ _ | completes _ _ _ _ => cases hr'
        | takes _ _ _ => rfl
      rw [hr, hr', hone]
      omega
    · rw [hr, hr']
      dsimp only [receiverLeft]
      omega
  omega

theorem left_carriesContext (hw : x.Wired) {a : Arrival} {rest : List Arrival}
    (hs' : tt.Sound ranker request ⟨x.scene.take (.send a), x.setting.take .pick⟩)
    (hq : x.setting.exchange.stream.requests.queue = a :: rest)
    (hg : x.setting.exchange.stream.requests.receiverGone = false) :
    sceneLeft (x.scene.take (.send a)) = sceneLeft x.scene ∧
      settingLeft (x.setting.take .pick) < settingLeft x.setting := by
  constructor
  · unfold Session.Scene.take
    dsimp only
    split
    · rfl
    · rfl
  · -- what is picked up is one more context, of two at most
    have hcontext : a.context?.toList.length = 1 := by
      cases a with
      | context c => rfl
      | failed status =>
        exact absurd (by rw [hq]; exact List.mem_cons_self) (hw.setting.plain status)
    have hle : (x.setting.take .pick).picked.length ≤ 2 :=
      (hs'.orderly.handed.picked.trans hs'.orderly.spoken.within).length_le
    rw [Exchange.Setting.take_pick hg hq] at hle ⊢
    simp only [List.length_append, hcontext] at hle
    unfold settingLeft
    simp only [Exchange.Setting.withStream, Exchange.Setting.replies, List.length_append, hcontext,
      Exchange.Play.turnsLeft]
    omega

theorem left_carriesReply {r : Reply} {rest : List Reply}
    (hs' : tt.Sound ranker request ⟨x.scene.take .read, x.setting.take (.bring r)⟩)
    (h' : tt.Timed ⟨x.scene.take .read, x.setting.take (.bring r)⟩)
    (hq : x.scene.session.stream.replies.queue = r :: rest) :
    sceneLeft (x.scene.take .read) < sceneLeft x.scene ∧
      settingLeft (x.setting.take (.bring r)) = settingLeft x.setting := by
  constructor
  · have htaken : (x.scene.take .read).taken <+: (x.scene.take .read).history.written :=
      ⟨_, hs'.conserved⟩
    have hle : (x.scene.take .read).taken.length ≤ 3 :=
      Nat.le_trans htaken.length_le (h'.written_le hs')
    rw [Session.Scene.take_read hq] at hle ⊢
    simp only [List.length_append, List.length_singleton] at hle
    unfold sceneLeft
    simp only [Session.Scene.withStream, sessionLeft, List.length_append, List.length_singleton]
    omega
  · unfold Exchange.Setting.take
    dsimp only
    split
    · rfl
    · rfl

/-- What is learnt of the other side is learnt once. -/
theorem left_closes (hn : x.setting.exchange.stream.replies.senderGone = false) :
    settingLeft (x.setting.take .close) < settingLeft x.setting := by
  simp [settingLeft, Exchange.Setting.take, Exchange.Setting.withStream, Exchange.Setting.replies,
    Exchange.Play.turnsLeft, Channel.dropSender, hn]

theorem left_refuses (hn : x.setting.exchange.stream.requests.receiverGone = false) :
    settingLeft (x.setting.take .refuse) < settingLeft x.setting := by
  simp [settingLeft, Exchange.Setting.take, Exchange.Setting.withStream, Exchange.Setting.replies,
    Exchange.Play.turnsLeft, Channel.dropReceiver, hn]

theorem left_halfCloses (hn : x.scene.session.stream.requests.senderGone = false) :
    sceneLeft (x.scene.take .halfClose) < sceneLeft x.scene := by
  simp [sceneLeft, sessionLeft, Session.Scene.take, Session.Scene.withStream, Channel.dropSender,
    hn]

theorem left_deserts (hn : x.scene.session.stream.replies.receiverGone = false) :
    sceneLeft (x.scene.take .leave) < sceneLeft x.scene := by
  simp only [sceneLeft, sessionLeft, Session.Scene.take, Session.Scene.withStream,
    Channel.dropReceiver, hn, List.length_append, Bool.not_true, Bool.not_false, Bool.toNat_true,
    Bool.toNat_false]
  omega

/-- **Everything that happens brings the end nearer.** -/
theorem distance_advance (hs : tt.Sound ranker request x) (hs' : tt.Sound ranker request y)
    (hw : x.Wired) (h : tt.Timed x) (ha : x.Advance tt.clock y) : distance y < distance x := by
  have h' := timed_advance hs hs' hw h ha
  have hbit := Bool.toNat_le y.ready.isEmpty
  suffices hless : sceneLeft y.scene + settingLeft y.setting <
      sceneLeft x.scene + settingLeft x.setting ∨
        (sceneLeft y.scene + settingLeft y.setting = sceneLeft x.scene + settingLeft x.setting ∧
          x.ready = [] ∧ y.ready ≠ []) by
    unfold distance
    rcases hless with hless | ⟨hsame, hquiet, hready⟩
    · omega
    · rw [hsame, hquiet, List.isEmpty_eq_false_iff.mpr hready]
      exact Nat.lt_succ_self _
  cases ha with
  | serves ht =>
    have hless := sceneLeft_serves h hs' hs ht
    exact .inl (Nat.add_lt_add_right hless _)
  | calls ht => exact .inl (Nat.add_lt_add_left (settingLeft_calls hs ht) _)
  | receives hh => exact .inl (Nat.add_lt_add_left (settingLeft_receives hs' h' hh) _)
  | carriesContext hq hg _ =>
    obtain ⟨hsame, hless⟩ := left_carriesContext hw hs' hq hg
    refine .inl ?_
    dsimp only
    omega
  | carriesHalfClose _ hn => exact .inl (Nat.add_lt_add_right (left_halfCloses hn) _)
  | carriesReply hq _ =>
    obtain ⟨hless, hsame⟩ := left_carriesReply hs' h' hq
    refine .inl ?_
    dsimp only
    omega
  | carriesClose _ hn => exact .inl (Nat.add_lt_add_left (left_closes hn) _)
  | refuses _ hn => exact .inl (Nat.add_lt_add_left (left_refuses hn) _)
  | deserts _ hn => exact .inl (Nat.add_lt_add_right (left_deserts hn) _)
  | waits hr hn => exact .inr ⟨rfl, hr, ready_waits hs hw h hr hn hs'⟩

end Left

/-! ## The call comes to rest -/

/-- All that holds along an undisturbed call. -/
structure Kept (tt : Timetable) (ranker : Ranker) (request : Request) (x : Conversation) :
    Prop where
  sound : tt.Sound ranker request x
  wired : x.Wired
  timed : tt.Timed x

/-- Both sides of a call at rest are over. -/
theorem Kept.over_of_rest (h : tt.Kept ranker request x) (hr : x.AtRest tt.clock) :
    (∃ o, x.setting.exchange.stage = .over o) ∧ x.Served := by
  obtain ⟨hready, hn⟩ := hr
  cases h.timed.stalls h.sound h.wired (quiet_of_ready hready) with
  | pausing hc _ _ _ _ | deciding hc _ _ _ _ _ =>
    unfold wakesAt at hn
    split at hn <;> simp_all [Exchange.wakesAt]
  | rests hc hs => exact ⟨hc, hs⟩

section Start
variable (tt) (ranker) (request) (id : Nat) {requestCapacity replyCapacity : Nat}
  (hrequests : 1 ≤ requestCapacity) (hreplies : 1 ≤ replyCapacity) (choices : Nat → Nat)

/-- A call of this timetable that is about to begin. -/
def ofStart (requestCapacity replyCapacity : Nat) : Conversation :=
  Conversation.ofStart tt.config ranker id request tt.params tt.source tt.start requestCapacity
    replyCapacity

theorem timed_ofStart (requestCapacity replyCapacity : Nat) :
    tt.Timed (tt.ofStart ranker request id requestCapacity replyCapacity) :=
  ⟨⟨rfl, rfl⟩, rfl, trivial, nofun⟩

include hrequests hreplies

theorem sound_after (n : Nat) : tt.Sound ranker request
    ((tt.ofStart ranker request id requestCapacity replyCapacity).after tt.clock choices n) := by
  obtain ⟨moves, hrun⟩ := after_run (tt.ofStart ranker request id requestCapacity replyCapacity)
    tt.clock choices n
  rw [hrun]
  exact sound_run tt.config ranker id request tt.params tt.source tt.start hrequests hreplies moves

/-- **An undisturbed call keeps to its timetable.** -/
theorem kept_after (n : Nat) : tt.Kept ranker request
    ((tt.ofStart ranker request id requestCapacity replyCapacity).after tt.clock choices n) := by
  induction n with
  | zero =>
    exact ⟨sound_after tt ranker request id hrequests hreplies choices 0, wired_ofStart ..,
      timed_ofStart ..⟩
  | succ n ih =>
    have hs' := sound_after tt ranker request id hrequests hreplies choices (n + 1)
    rcases advance_next ((tt.ofStart ranker request id requestCapacity replyCapacity).after
        tt.clock choices n) tt.clock (choices n) with ha | ⟨-, -, he⟩
    · exact ⟨hs', wired_advance ih.sound ih.wired ha,
        timed_advance ih.sound hs' ih.wired ih.timed ha⟩
    · show tt.Kept ranker request (next _ tt.clock (choices n))
      rw [he]
      exact ih

/-- **It comes to rest.** -/
theorem comes_to_rest : ∃ n,
    ((tt.ofStart ranker request id requestCapacity replyCapacity).after tt.clock choices n).AtRest
      tt.clock := by
  let x := tt.ofStart ranker request id requestCapacity replyCapacity
  -- until it does, every step brings it nearer
  have hfalls : ∀ n, (∃ m, (x.after tt.clock choices m).AtRest tt.clock) ∨
      distance (x.after tt.clock choices n) + n ≤ distance x := by
    intro n
    induction n with
    | zero => exact .inr (Nat.le_refl _)
    | succ n ih =>
      rcases ih with hrest | hle
      · exact .inl hrest
      · have h := kept_after tt ranker request id hrequests hreplies choices n
        have hs' := sound_after tt ranker request id hrequests hreplies choices (n + 1)
        rcases advance_next (x.after tt.clock choices n) tt.clock (choices n) with
          ha | ⟨hr, hn, -⟩
        · have hless := distance_advance h.sound hs' h.wired h.timed ha
          have hsucc : distance (x.after tt.clock choices (n + 1)) <
              distance (x.after tt.clock choices n) := hless
          exact .inr (by omega)
        · exact .inl ⟨n, hr, hn⟩
  rcases hfalls (distance x + 1) with hrest | hle
  · exact hrest
  · omega

end Start

end Timetable
end ProgressiveSearch
