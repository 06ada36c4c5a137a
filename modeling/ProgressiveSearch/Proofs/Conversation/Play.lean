import ProgressiveSearch.Proofs.Clock
import ProgressiveSearch.Proofs.Conversation.Basic

/-! # A conversation that loses no time

A conversation is left to itself: nobody gives the call up, the service does not
stop, and whatever can be done is done before time goes on.  What is on its way
arrives at once, and when nothing is left to do (`ready`) time goes on to the moment
at which the clock wakes one of the two sides.

If more than one thing can be done, a sequence of choices says what comes first.  Of
these choices nothing is assumed.
-/
namespace ProgressiveSearch.Conversation

/-- The moves of a conversation that is left to itself. -/
def Move.own : List Move :=
  [.serve, .call, .receive, .carryContext, .carryHalfClose, .carryReply, .carryClose, .refuse,
    .desert]

variable (x : Conversation) (clock : Clock)

/-- The move would change something. -/
def possible : Move → Bool
  | .serve => (x.scene.session.step x.scene.now x.scene.stopping).isSome
  | .call => (x.setting.exchange.call x.setting.now).isSome
  | .receive => (x.setting.exchange.receive x.setting.now).isSome
  | .carryContext => !x.nextArrival.isEmpty
  | .carryHalfClose =>
    x.setting.exchange.stream.requests.isExhausted && !x.scene.session.stream.requests.senderGone
  | .carryReply => !x.nextReply.isEmpty
  | .carryClose =>
    x.scene.session.stream.replies.isExhausted && !x.setting.exchange.stream.replies.senderGone
  | .refuse =>
    x.scene.session.stream.requests.receiverGone &&
      !x.setting.exchange.stream.requests.receiverGone
  | .desert =>
    x.setting.exchange.stream.replies.receiverGone &&
      !x.scene.session.stream.replies.receiverGone
  | .pass _ | .stop | .cancel => false

/-- What can be done. -/
def ready : List Move := Move.own.filter x.possible

/-- When the clock wakes one of the two sides. -/
def wakesAt : Option Instant :=
  match x.scene.session.wakesAt.map (clock.wakes x.scene.now),
    x.setting.exchange.wakesAt.map (clock.wakes x.setting.now) with
  | some t, some u => some (if t ≤ u then t else u)
  | some t, none => some t
  | none, wake => wake

/-- What happens next. -/
def next (choice : Nat) : Conversation :=
  match x.ready[choice % x.ready.length]? with
  | some m => x.act m
  | none =>
    match x.wakesAt clock with
    | some t => x.act (.pass (x.scene.now.elapsed t))
    | none => x

/-- The conversation after `n` things have happened. -/
def after (choices : Nat → Nat) : Nat → Conversation
  | 0 => x
  | n + 1 => (after choices n).next clock (choices n)

/-- **The ways on**, with what each does on the two sides. -/
inductive Advance : Conversation → Prop
  | serves {e : Session.Deeds} {s : Session}
      (ht : x.scene.session.Transition x.scene.now x.scene.stopping e s) :
      Advance ⟨x.scene.after e s, x.setting⟩
  | calls {said : List Context} {e : Exchange}
      (ht : x.setting.exchange.Turn x.setting.now said e) :
      Advance ⟨x.scene, x.setting.afterTurn said e⟩
  | receives {heard : List Reply} {e : Exchange}
      (hh : x.setting.exchange.Hearing x.setting.now heard e) :
      Advance ⟨x.scene, x.setting.afterHearing heard e⟩
  | carriesContext {a : Arrival} {rest : List Arrival}
      (hq : x.setting.exchange.stream.requests.queue = a :: rest)
      (hg : x.setting.exchange.stream.requests.receiverGone = false)
      (hs : x.scene.session.stream.requests.receiverGone = false) :
      Advance ⟨x.scene.take (.send a), x.setting.take .pick⟩
  | carriesHalfClose (hq : x.setting.exchange.stream.requests.isExhausted = true)
      (hn : x.scene.session.stream.requests.senderGone = false) :
      Advance ⟨x.scene.take .halfClose, x.setting⟩
  | carriesReply {r : Reply} {rest : List Reply}
      (hq : x.scene.session.stream.replies.queue = r :: rest)
      (hg : x.setting.exchange.stream.replies.receiverGone = false) :
      Advance ⟨x.scene.take .read, x.setting.take (.bring r)⟩
  | carriesClose (hq : x.scene.session.stream.replies.isExhausted = true)
      (hn : x.setting.exchange.stream.replies.senderGone = false) :
      Advance ⟨x.scene, x.setting.take .close⟩
  | refuses (hg : x.scene.session.stream.requests.receiverGone = true)
      (hn : x.setting.exchange.stream.requests.receiverGone = false) :
      Advance ⟨x.scene, x.setting.take .refuse⟩
  | deserts (hg : x.setting.exchange.stream.replies.receiverGone = true)
      (hn : x.scene.session.stream.replies.receiverGone = false) :
      Advance ⟨x.scene.take .leave, x.setting⟩
  | waits {t : Instant} (hr : x.ready = []) (hn : x.wakesAt clock = some t) :
      Advance (x.act (.pass (x.scene.now.elapsed t)))

section Advance
variable {x clock}

theorem mem_ready {m : Move} : m ∈ x.ready ↔ m ∈ Move.own ∧ x.possible m = true :=
  List.mem_filter

/-- Nothing can be done when nothing is ready. -/
theorem not_possible (h : x.ready = []) (m : Move) (hm : m ∈ Move.own) : x.possible m = false := by
  cases hp : x.possible m with
  | false => rfl
  | true =>
    have hmem := mem_ready.mpr ⟨hm, hp⟩
    rw [h] at hmem
    cases hmem

theorem isExhausted_iff {α : Type} {c : Channel α} :
    c.isExhausted = true ↔ c.senderGone = true ∧ c.queue = [] := by
  simp [Channel.isExhausted]

/-- Where something is learnt, it was not known before. -/
theorem and_not_eq_true {learnt known : Bool} (h : (learnt && !known) = true) :
    learnt = true ∧ known = false := by
  simpa using h

/-- What can be done is a way on. -/
theorem advance_possible {m : Move} (h : x.possible m = true) : x.Advance clock (x.act m) := by
  cases m with
  | pass _ | stop | cancel => cases h
  | serve =>
    obtain ⟨s, hs⟩ := Option.isSome_iff_exists.mp h
    obtain ⟨e, ht⟩ := Session.transition_of_step hs
    have he : x.act .serve = ⟨x.scene.after e s, x.setting⟩ := by
      show (⟨x.scene.act .step, x.setting⟩ : Conversation) = _
      simp only [Session.Scene.act, hs, ht.deeds_eq]
    rw [he]
    exact .serves ht
  | call =>
    obtain ⟨e, hs⟩ := Option.isSome_iff_exists.mp h
    obtain ⟨said, ht⟩ := Exchange.turn_of_call hs
    have he : x.act .call = ⟨x.scene, x.setting.afterTurn said e⟩ := by
      show (⟨x.scene, x.setting.act .call⟩ : Conversation) = _
      simp only [Exchange.Setting.act, hs, ht.uttered_eq, Exchange.Setting.afterTurn]
    rw [he]
    exact .calls ht
  | receive =>
    obtain ⟨e, hs⟩ := Option.isSome_iff_exists.mp h
    obtain ⟨heard, hh⟩ := Exchange.hearing_of_receive hs
    have he : x.act .receive = ⟨x.scene, x.setting.afterHearing heard e⟩ := by
      show (⟨x.scene, x.setting.act .receive⟩ : Conversation) = _
      simp only [Exchange.Setting.act, hs, hh.next_eq, Exchange.Setting.afterHearing]
    rw [he]
    exact .receives hh
  | carryContext =>
    cases hn : x.nextArrival with
    | nil => simp [possible, hn] at h
    | cons a rest =>
      obtain ⟨rfl, hgone, later, hq⟩ := nextArrival_cons hn
      have hheld : x.scene.session.stream.requests.receiverGone = false := by
        unfold nextArrival at hn
        split at hn
        · cases hn
        · rename_i hboth
          have hneither : x.scene.session.stream.requests.receiverGone = false ∧
              x.setting.exchange.stream.requests.receiverGone = false := by simpa using hboth
          exact hneither.1
      have he : x.act .carryContext = ⟨x.scene.take (.send a), x.setting.take .pick⟩ := by
        simp only [act, sceneMoves, settingMoves, hn, List.map_cons, List.map_nil]
        rfl
      rw [he]
      exact .carriesContext hq hgone hheld
  | carryHalfClose =>
    obtain ⟨hq, hn⟩ := and_not_eq_true h
    have he : x.act .carryHalfClose = ⟨x.scene.take .halfClose, x.setting⟩ := by
      simp only [act, sceneMoves, settingMoves, hq, if_true]
      rfl
    rw [he]
    exact .carriesHalfClose hq hn
  | carryReply =>
    cases hn : x.nextReply with
    | nil => simp [possible, hn] at h
    | cons r rest =>
      obtain ⟨rfl, hgone, later, hq⟩ := nextReply_cons hn
      have he : x.act .carryReply = ⟨x.scene.take .read, x.setting.take (.bring r)⟩ := by
        simp only [act, sceneMoves, settingMoves, hn, List.map_cons, List.map_nil]
        rfl
      rw [he]
      exact .carriesReply hq hgone
  | carryClose =>
    obtain ⟨hq, hn⟩ := and_not_eq_true h
    have he : x.act .carryClose = ⟨x.scene, x.setting.take .close⟩ := by
      simp only [act, sceneMoves, settingMoves, hq, if_true]
      rfl
    rw [he]
    exact .carriesClose hq hn
  | refuse =>
    obtain ⟨hg, hn⟩ := and_not_eq_true h
    have he : x.act .refuse = ⟨x.scene, x.setting.take .refuse⟩ := by
      simp only [act, sceneMoves, settingMoves, hg, if_true]
      rfl
    rw [he]
    exact .refuses hg hn
  | desert =>
    obtain ⟨hg, hn⟩ := and_not_eq_true h
    have he : x.act .desert = ⟨x.scene.take .leave, x.setting⟩ := by
      simp only [act, sceneMoves, settingMoves, hg, if_true]
      rfl
    rw [he]
    exact .deserts hg hn

/-- What happens next is one of the moves, or that time goes on. -/
theorem next_cases (x : Conversation) (clock : Clock) (choice : Nat) :
    (∃ m ∈ x.ready, x.next clock choice = x.act m) ∨
      (∃ t, x.ready = [] ∧ x.wakesAt clock = some t ∧
        x.next clock choice = x.act (.pass (x.scene.now.elapsed t))) ∨
      x.ready = [] ∧ x.wakesAt clock = none ∧ x.next clock choice = x := by
  unfold next
  split
  · rename_i m hm
    exact .inl ⟨m, List.mem_of_getElem? hm, rfl⟩
  · rename_i hnone
    have hr : x.ready = [] := by
      have hle := List.getElem?_eq_none_iff.mp hnone
      cases hready : x.ready with
      | nil => rfl
      | cons m rest =>
        have hpos : 0 < x.ready.length := by simp [hready]
        have hlt := Nat.mod_lt choice hpos
        omega
    split
    · rename_i t hn
      exact .inr (.inl ⟨t, hr, hn, rfl⟩)
    · rename_i hn
      exact .inr (.inr ⟨hr, hn, rfl⟩)

/-- Unless it has come to rest, a conversation goes on in one of these ways. -/
theorem advance_next (x : Conversation) (clock : Clock) (choice : Nat) :
    x.Advance clock (x.next clock choice) ∨
      x.ready = [] ∧ x.wakesAt clock = none ∧ x.next clock choice = x := by
  rcases x.next_cases clock choice with ⟨m, hm, he⟩ | ⟨t, hr, hn, he⟩ | hrest
  · rw [he]
    exact .inl (advance_possible (mem_ready.mp hm).2)
  · rw [he]
    exact .inl (.waits hr hn)
  · exact .inr hrest

end Advance

end ProgressiveSearch.Conversation
