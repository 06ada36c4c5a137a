import ProgressiveSearch.Proofs.Conversation.Agreement
import ProgressiveSearch.Proofs.Conversation.Play
import ProgressiveSearch.Proofs.Exchange.Ending

/-! # What each side can know of the other

A side of an undisturbed conversation learns of the other only what is carried to it.
So what it has learnt is true: replies are closed on the client's side only if the
session is over, and then all that the session queued has come (`Wired.closed`);
requests are half-closed on the session's side only if both contexts have come
(`Wired.halfClosed`); and whoever has left its channel was known to leave.
-/
namespace ProgressiveSearch

/-! ## The session's side -/

namespace Session.Scene

/-- The service does not stop, nothing but contexts comes in, and only a session that
is over has left its stream. -/
structure Undisturbed (x : Scene) : Prop where
  serving : x.stopping = false
  plain : (∀ r, x.session.activity ≠ .over r) →
    ∀ status, Arrival.failed status ∉ x.session.stream.requests.queue
  attached : (∀ r, x.session.activity ≠ .over r) → x.session.stream.replies.senderGone = false
  left : ∀ r, x.session.activity = .over r → x.session.stream.replies.senderGone = true ∧
    x.session.stream.requests.receiverGone = true
  listens : x.session.phase.awaitsContext = true → x.session.requestsOpen = true

variable {x : Scene}

theorem undisturbed_take (h : x.Undisturbed) {c : Cue} (hs : c ≠ .stop)
    (hf : ∀ status, c ≠ .send (.failed status)) : (x.take c).Undisturbed := by
  cases c with
  | stop => exact absurd rfl hs
  | send a =>
    unfold take
    dsimp only
    split
    · exact h
    · refine ⟨h.serving, fun ho status hm => ?_, h.attached, h.left, h.listens⟩
      rcases List.mem_append.mp hm with hm | hm
      · exact h.plain ho status hm
      · exact hf status (by rw [List.mem_singleton.mp hm])
  | halfClose | leave => exact ⟨h.serving, h.plain, h.attached, h.left, h.listens⟩
  | read =>
    unfold take
    dsimp only
    split
    · exact h
    · exact ⟨h.serving, h.plain, h.attached, h.left, h.listens⟩

theorem undisturbed_after (h : x.Undisturbed) {e : Deeds} {s : Session}
    (ht : x.session.Transition x.now x.stopping e s) : (x.after e s).Undisturbed := by
  have hbound := h.attached ht.not_over
  have hplain : (∀ r, s.activity ≠ .over r) →
      ∀ status, Arrival.failed status ∉ s.stream.requests.queue := by
    intro ho status hm
    obtain ⟨queue, hq, hrequests | ⟨⟨r, hr⟩, -⟩⟩ := ht.requests
    · rw [hrequests] at hm
      refine h.plain ht.not_over status ?_
      rw [hq]
      exact List.mem_append_right _ hm
    · exact ho r hr
  have hlistens := h.listens
  cases ht with
  | ends _ hl =>
    refine ⟨h.serving, hplain, fun ho => absurd hl.activity (ho _), fun r _ => ⟨?_, hl.requests⟩,
      fun hp => ?_⟩
    · show s.stream.replies.senderGone = true
      rw [hl.replies]
    · have hphase : s.phase.awaitsContext = true := hp
      rw [hl.phase] at hphase
      cases hphase
  | begins _ _ => exact ⟨h.serving, hplain, fun _ => hbound, nofun, hlistens⟩
  | answers _ _ _ => exact ⟨h.serving, hplain, fun _ => hbound, nofun, hlistens⟩
  | defers _ _ _ _ => exact ⟨h.serving, hplain, fun _ => hbound, nofun, hlistens⟩
  | ignores hl _ _ _ =>
    exact ⟨h.serving, hplain, fun _ => hbound, (fun r hr => nomatch hl.selecting.symm.trans hr),
      hlistens⟩
  | halfCloses hl _ _ hp =>
    refine ⟨h.serving, hplain, fun _ => hbound, (fun r hr => nomatch hl.selecting.symm.trans hr),
      fun hp' => ?_⟩
    cases hp.symm.trans hp'
  | deliversFirst _ hp _ | deliversSecond _ hp _ =>
    refine ⟨h.serving, hplain, fun _ => hbound, nofun, fun _ => hlistens ?_⟩
    rw [hp]
    rfl

theorem undisturbed_ofStart (config : Config) (ranker : Ranker) (id : Nat) (start : Instant)
    (requestCapacity replyCapacity : Nat) :
    (ofStart config ranker id start requestCapacity replyCapacity).Undisturbed :=
  ⟨rfl, fun _ _ => List.not_mem_nil, fun _ => rfl, nofun, fun _ => rfl⟩

end Session.Scene

/-! ## The client's side -/

namespace Exchange

/-- **Which of its tasks an exchange has started and stopped**, told from where the
caller stands.  It holds on to the requests as long as it has something to say. -/
def Coursed (e : Exchange) : Prop :=
  match e.stage with
  | .starting | .offeringFirst | .resuming =>
    e.stopping = false ∧ e.stream.requests.senderGone = false
  | .pausing _ | .offeringSecond =>
    e.stopping = false ∧ e.stream.requests.senderGone = false ∧ e.receiver ≠ .absent
  | .deciding _ => e.stopping = false ∧ e.receiver ≠ .absent
  | .releasing _ => e.stopping = true ∧ e.receiver ≠ .absent
  | .over _ => e.stopping = true
  | .brokenDown => True

theorem coursed_turn {e e' : Exchange} {now : Instant} {said : List Context} (h : e.Coursed)
    (ht : e.Turn now said e') : e'.Coursed := by
  unfold Coursed at h
  cases ht with
  | announces hs | sendsFirst hs _ | losesFirst hs _ | resumes hs _ =>
    simp only [hs] at h
    exact h
  | pauses hs _ _ =>
    simp only [hs] at h
    exact ⟨h.1, h.2, nofun⟩
  | forgoes _ _ => exact ⟨rfl, nofun⟩
  | breaks _ _ _ => trivial
  | isCut hs _ =>
    refine ⟨rfl, ?_⟩
    rcases hs with hs | hs
    · simp only [hs] at h
      exact h.2.2
    · simp only [hs] at h
      exact h.2
  | sendsSecond hs _ =>
    simp only [hs] at h
    obtain ⟨stage, source, drawn, journal, he, hstage⟩ :=
      (e.say e.request.secondContext).decide_spec now
    rw [he]
    rcases hstage with rfl | ⟨deadline, rfl⟩
    · trivial
    · exact ⟨h.1, h.2.2⟩
  | losesSecond hs _ =>
    simp only [hs] at h
    exact ⟨rfl, h.2.2⟩
  | decides hs _ =>
    simp only [hs] at h
    exact ⟨rfl, h.2⟩
  | concludes hs _ =>
    simp only [hs] at h
    exact h.1

theorem coursed_hearing {e e' : Exchange} {now : Instant} {heard : List Reply} (h : e.Coursed)
    (hh : e.Hearing now heard e') : e'.Coursed := by
  have hm := hh.minds
  have hpresent := hh.receiver_ne_absent
  unfold Coursed at h ⊢
  rw [hm.stage, hm.requests, hh.keeps.1]
  cases hs : e.stage with
  | starting | offeringFirst | resuming | «over» _ =>
    simp only [hs] at h
    exact h
  | pausing _ | offeringSecond =>
    simp only [hs] at h
    exact ⟨h.1, h.2.1, hpresent⟩
  | deciding _ | releasing _ =>
    simp only [hs] at h
    exact ⟨h.1, hpresent⟩
  | brokenDown => trivial

namespace Setting

/-- The call is not given up, nothing but contexts is sent, and a receiver that is over
has let go of the replies. -/
structure Undisturbed (x : Setting) : Prop where
  uncancelled : x.exchange.cancelled = false
  plain : ∀ status, Arrival.failed status ∉ x.exchange.stream.requests.queue
  deaf : ∀ ending, x.exchange.receiver = .over ending →
    x.exchange.stream.replies.receiverGone = true
  coursed : x.exchange.Coursed

variable {x : Setting}

theorem undisturbed_take (h : x.Undisturbed) {c : Cue} (hc : c ≠ .cancel) :
    (x.take c).Undisturbed := by
  cases c with
  | cancel => exact absurd rfl hc
  | pick =>
    unfold take
    dsimp only
    split
    · rename_i a rest _ hq
      refine ⟨h.uncancelled, fun status hm => h.plain status ?_, h.deaf, h.coursed⟩
      rw [hq]
      exact List.mem_cons_of_mem _ hm
    · exact h
  | refuse => exact ⟨h.uncancelled, fun _ => List.not_mem_nil, h.deaf, h.coursed⟩
  | bring r =>
    unfold take
    dsimp only
    split
    · exact h
    · exact ⟨h.uncancelled, h.plain, h.deaf, h.coursed⟩
  | close => exact ⟨h.uncancelled, h.plain, h.deaf, h.coursed⟩

theorem undisturbed_turn {said : List Context} {e : Exchange} (h : x.Undisturbed)
    (ht : x.exchange.Turn x.now said e) : (x.afterTurn said e).Undisturbed := by
  have hs := ht.speaks
  refine ⟨(Play.cancelled_turn ht).trans h.uncancelled, fun status hm => ?_, fun ending hr => ?_,
    coursed_turn h.coursed ht⟩
  · have hm' : Arrival.failed status ∈ e.stream.requests.queue := hm
    rw [hs.queue] at hm'
    rcases List.mem_append.mp hm' with hm' | hm'
    · exact h.plain status hm'
    · obtain ⟨_, -, hc⟩ := List.mem_map.mp hm'
      cases hc
  · have hr' : e.receiver = .over ending := hr
    show e.stream.replies.receiverGone = true
    rw [hs.replies]
    rcases ht.receiver with hsame | ⟨-, hreading⟩
    · exact h.deaf ending (hsame.symm.trans hr')
    · cases hreading.symm.trans hr'

theorem undisturbed_hearing {heard : List Reply} {e : Exchange} (h : x.Undisturbed)
    (hh : x.exchange.Hearing x.now heard e) : (x.afterHearing heard e).Undisturbed := by
  refine ⟨hh.keeps.2.2.2.trans h.uncancelled, fun status hm => h.plain status ?_,
    fun ending hr => ?_, coursed_hearing h.coursed hh⟩
  · rw [← hh.minds.requests]
    exact hm
  · show e.stream.replies.receiverGone = true
    cases hh with
    | isStopped _ _ | completes _ _ _ _ => rfl
    | @takes reply _ hreading _ _ =>
      cases reply with
      | batch b => cases hreading.symm.trans hr
      | failed _ | fault => rfl

theorem undisturbed_ofStart (request : Request) (params : Params) (source : Random.Source)
    (start : Instant) (requestCapacity replyCapacity : Nat) :
    (ofStart request params source start requestCapacity replyCapacity).Undisturbed :=
  ⟨rfl, fun _ => List.not_mem_nil, nofun, rfl, rfl⟩

/-- An exchange keeps its parameters, and its requests their capacity. -/
theorem run_params_capacity (moves : List Move) :
    (x.run moves).exchange.params = x.exchange.params ∧
      (x.run moves).exchange.stream.requests.capacity =
        x.exchange.stream.requests.capacity := by
  refine run_induction (P := fun y => y.exchange.params = x.exchange.params ∧
    y.exchange.stream.requests.capacity = x.exchange.stream.requests.capacity)
    ?_ ?_ ?_ ?_ ⟨rfl, rfl⟩ moves
  · intro y c hy
    cases c with
    | cancel | refuse | close => exact hy
    | pick | bring _ =>
      unfold take
      dsimp only
      split
      · exact hy
      · exact hy
  · intro y d hy
    exact hy
  · intro y said e ht hy
    cases ht with
    | sendsSecond _ _ =>
      obtain ⟨stage, source, drawn, journal, he, -⟩ :=
        (y.exchange.say y.exchange.request.secondContext).decide_spec y.now
      rw [he]
      exact hy
    | _ => exact hy
  · intro y heard e hh hy
    cases hh with
    | isStopped _ _ | completes _ _ _ _ => exact hy
    | @takes reply _ _ _ _ => cases reply <;> exact hy

end Setting
end Exchange

/-! ## Both sides -/

namespace Conversation

/-- What holds of every conversation of these two parties. -/
structure Sound (config : Session.Config) (ranker : Ranker) (request : Request)
    (params : Exchange.Params) (x : Conversation) : Prop where
  told : Session.Told x.scene.session x.scene.history
  counted : x.scene.Counted
  conserved : x.scene.Conserved
  orderly : x.setting.Orderly
  linked : x.Linked
  config : x.scene.session.config = config
  ranker : x.scene.session.ranker = ranker
  request : x.setting.exchange.request = request
  params : x.setting.exchange.params = params
  room : 1 ≤ x.setting.exchange.stream.requests.capacity ∧
    1 ≤ x.scene.session.stream.replies.capacity

theorem sound_run (config : Session.Config) (ranker : Ranker) (id : Nat) (request : Request)
    (params : Exchange.Params) (source : Random.Source) (start : Instant)
    {requestCapacity replyCapacity : Nat} (hrequests : 1 ≤ requestCapacity)
    (hreplies : 1 ≤ replyCapacity) (moves : List Move) :
    ((ofStart config ranker id request params source start requestCapacity replyCapacity).run
      moves).Sound config ranker request params := by
  obtain ⟨htold, hranker, hconserved, horderly, hrequest, hlinked⟩ := run_spec config ranker id
    request params source start requestCapacity replyCapacity moves
  obtain ⟨sceneMoves, hscene⟩ := run_scene moves
    (x := ofStart config ranker id request params source start requestCapacity replyCapacity)
  obtain ⟨settingMoves, hsetting⟩ := run_setting moves
    (x := ofStart config ranker id request params source start requestCapacity replyCapacity)
  refine ⟨htold, ?_, hconserved, horderly, hlinked, ?_, hranker, hrequest, ?_, ?_, ?_⟩
  · rw [hscene]
    exact Session.Scene.counted_run (fun _ => rfl) sceneMoves
  · rw [hscene]
    exact (Session.Scene.run_config_ranker sceneMoves).1
  · rw [hsetting]
    exact (Exchange.Setting.run_params_capacity settingMoves).1
  · rw [hsetting, (Exchange.Setting.run_params_capacity settingMoves).2]
    exact hrequests
  · rw [hscene, (Session.Scene.run_replies sceneMoves).1]
    exact hreplies

/-- The session is over. -/
def Served (x : Conversation) : Prop := ∃ r, x.scene.session.activity = .over r

/-- The receiver is over. -/
def Heard (x : Conversation) : Prop := ∃ ending, x.setting.exchange.receiver = .over ending

/-- What each side has learnt of the other is true. -/
structure Wired (x : Conversation) : Prop where
  clocks : x.setting.now = x.scene.now
  scene : x.scene.Undisturbed
  setting : x.setting.Undisturbed
  /-- The session has lost its reader. -/
  deserted : x.scene.session.stream.replies.receiverGone = true → x.Heard
  refused : x.setting.exchange.stream.requests.receiverGone = true → x.Served
  closed : x.setting.exchange.stream.replies.senderGone = true →
    x.Served ∧ (¬ x.Heard → x.setting.brought = x.scene.history.written)
  halfClosed : ¬ x.Served → x.scene.session.stream.requests.senderGone = true →
    x.setting.exchange.stream.requests.isExhausted = true
  /-- What has been picked up has been read or waits to be. -/
  carried : ¬ x.Served →
    x.scene.history.contexts ++ x.scene.session.stream.requests.waiting = x.setting.picked

section Wired
variable {x y : Conversation} {clock : Clock} {config : Session.Config} {ranker : Ranker}
  {request : Request} {params : Exchange.Params}

theorem not_served_iff : ¬ x.Served ↔ ∀ r, x.scene.session.activity ≠ .over r := not_exists

theorem not_heard_iff : ¬ x.Heard ↔ ∀ ending, x.setting.exchange.receiver ≠ .over ending :=
  not_exists

theorem wired_serves (h : x.Wired) {e : Session.Deeds} {s : Session}
    (ht : x.scene.session.Transition x.scene.now x.scene.stopping e s) :
    Wired ⟨x.scene.after e s, x.setting⟩ := by
  -- a session that is over takes no step
  have ho : ¬ x.Served := not_served_iff.mpr ht.not_over
  refine ⟨h.clocks, Session.Scene.undisturbed_after h.scene ht, h.setting, fun hg => ?_,
    fun hg => absurd (h.refused hg) ho, fun hg => absurd (h.closed hg).1 ho, fun ho' hg => ?_,
    fun ho' => ?_⟩
  · have hg' : s.stream.replies.receiverGone = true := hg
    rw [ht.replies] at hg'
    exact h.deserted hg'
  · obtain ⟨queue, hq, hrequests | ⟨hover, -⟩⟩ := ht.requests
    · have hg' : s.stream.requests.senderGone = true := hg
      rw [hrequests] at hg'
      exact h.halfClosed ho hg'
    · exact absurd hover ho'
  · obtain ⟨queue, hq, hrequests | ⟨hover, -⟩⟩ := ht.requests
    · show (x.scene.history.add x.scene.now e).contexts ++ s.stream.requests.waiting = _
      rw [← h.carried ho, Session.History.contexts_add, hrequests, List.append_assoc,
        Channel.waiting_of_queue hq]
    · exact absurd hover ho'

/-- A session that is there has not refused what was said. -/
theorem Wired.unrefused (h : x.Wired) (ho : ¬ x.Served) :
    x.setting.exchange.stream.requests.receiverGone = false :=
  Bool.eq_false_iff.mpr fun hg => ho (h.refused hg)

/-- The caller who has half-closed says no more. -/
theorem said_of_halfClosed {e e' : Exchange} {now : Instant} {said : List Context}
    (hc : e.Coursed) (hs : e.stream.requests.senderGone = true) (ht : e.Turn now said e') :
    said = [] := by
  unfold Exchange.Coursed at hc
  cases ht with
  | sendsFirst hstage _ => simp [hstage, hs] at hc
  | sendsSecond hstage _ => simp [hstage, hs] at hc
  | _ => rfl

/-- A caller never opens its requests again. -/
theorem senderGone_turn {e e' : Exchange} {now : Instant} {said : List Context}
    (hs : e.stream.requests.senderGone = true) (ht : e.Turn now said e') :
    e'.stream.requests.senderGone = true := by
  cases ht with
  | sendsSecond _ _ =>
    obtain ⟨stage, source, drawn, journal, he, -⟩ :=
      (e.say e.request.secondContext).decide_spec now
    rw [he]
    rfl
  | breaks _ _ _ | concludes _ _ => rfl
  | _ => exact hs

theorem wired_calls (hsound : x.Sound config ranker request params) (h : x.Wired)
    {said : List Context} {e : Exchange}
    (ht : x.setting.exchange.Turn x.setting.now said e) :
    Wired ⟨x.scene, x.setting.afterTurn said e⟩ := by
  have hs := ht.speaks
  -- the caller starts a receiver, but never one that is over
  have hheard : x.Heard → Heard ⟨x.scene, x.setting.afterTurn said e⟩ := by
    rintro ⟨ending, hr⟩
    rcases hsound.orderly.spoken.receiver_turn ht with hsame | ⟨habsent, -⟩
    · exact ⟨ending, hsame.trans hr⟩
    · cases habsent.symm.trans hr
  refine ⟨h.clocks, h.scene, Exchange.Setting.undisturbed_turn h.setting ht,
    fun hg => hheard (h.deserted hg), fun hg => h.refused ?_, fun hg => ?_, fun ho hg => ?_,
    h.carried⟩
  · rw [← hs.refused]
    exact hg
  · have hg' : e.stream.replies.senderGone = true := hg
    rw [hs.replies] at hg'
    obtain ⟨hserved, hbrought⟩ := h.closed hg'
    exact ⟨hserved, fun hn => hbrought fun hheard' => hn (hheard hheard')⟩
  · obtain ⟨hclosed, hempty⟩ := isExhausted_iff.mp (h.halfClosed ho hg)
    have hsilent := said_of_halfClosed h.setting.coursed hclosed ht
    refine isExhausted_iff.mpr ⟨senderGone_turn hclosed ht, ?_⟩
    show e.stream.requests.queue = []
    rw [hs.queue, hempty, hsilent]
    rfl

theorem wired_receives (h : x.Wired) {heard : List Reply} {e : Exchange}
    (hh : x.setting.exchange.Hearing x.setting.now heard e) :
    Wired ⟨x.scene, x.setting.afterHearing heard e⟩ := by
  have hm := hh.minds
  -- only a receiver that reads hears anything
  have hreading : ¬ x.Heard := by
    rintro ⟨ending, hr⟩
    cases hh.receiver.1.symm.trans hr
  refine ⟨h.clocks, h.scene, Exchange.Setting.undisturbed_hearing h.setting hh,
    fun hg => absurd (h.deserted hg) hreading, fun hg => h.refused ?_, fun hg => ?_,
    fun ho hg => ?_, h.carried⟩
  · rw [← hm.requests]
    exact hg
  · obtain ⟨hserved, hbrought⟩ := h.closed (hm.closed.symm.trans hg)
    exact ⟨hserved, fun _ => hbrought hreading⟩
  · show e.stream.requests.isExhausted = true
    rw [hm.requests]
    exact h.halfClosed ho hg

/-- A session that takes requests is not over. -/
theorem not_served_of_present (h : x.Wired)
    (hg : x.scene.session.stream.requests.receiverGone = false) : ¬ x.Served := by
  rintro ⟨r, hr⟩
  cases hg.symm.trans (h.scene.left r hr).2

theorem wired_carriesContext (h : x.Wired) {a : Arrival} {rest : List Arrival}
    (hq : x.setting.exchange.stream.requests.queue = a :: rest)
    (hg : x.setting.exchange.stream.requests.receiverGone = false)
    (hs : x.scene.session.stream.requests.receiverGone = false) :
    Wired ⟨x.scene.take (.send a), x.setting.take .pick⟩ := by
  have ho := not_served_of_present h hs
  -- while something is on its way the session's side has not been half-closed
  have hopen : x.scene.session.stream.requests.senderGone = false := by
    cases hgone : x.scene.session.stream.requests.senderGone with
    | false => rfl
    | true =>
      obtain ⟨-, hempty⟩ := isExhausted_iff.mp (h.halfClosed ho hgone)
      cases hq.symm.trans hempty
  have hscene := Session.Scene.undisturbed_take h.scene (c := .send a) nofun (by
    rintro status hc
    obtain rfl := Session.Cue.send.inj hc
    exact h.setting.plain status (by rw [hq]; exact List.mem_cons_self))
  have hsetting := Exchange.Setting.undisturbed_take h.setting (c := .pick) nofun
  have hsend : x.scene.take (.send a) = x.scene.withStream { x.scene.session.stream with
      requests := x.scene.session.stream.requests.put a } := by
    simp [Session.Scene.take, hopen, hs]
  rw [hsend] at hscene ⊢
  rw [Exchange.Setting.take_pick hg hq] at hsetting ⊢
  refine ⟨h.clocks, hscene, hsetting, h.deserted, h.refused, h.closed, fun _ hgone => ?_,
    fun _ => ?_⟩
  · cases hopen.symm.trans hgone
  · show x.scene.history.contexts ++ (x.scene.session.stream.requests.put a).waiting = _
    rw [Channel.waiting_put, ← List.append_assoc, h.carried ho]

theorem wired_carriesHalfClose (h : x.Wired)
    (hq : x.setting.exchange.stream.requests.isExhausted = true) :
    Wired ⟨x.scene.take .halfClose, x.setting⟩ :=
  ⟨h.clocks, Session.Scene.undisturbed_take h.scene (c := .halfClose) nofun nofun, h.setting,
    h.deserted, h.refused, h.closed, fun _ _ => hq, h.carried⟩

theorem wired_carriesReply (hsound : x.Sound config ranker request params) (h : x.Wired)
    {r : Reply} {rest : List Reply} (hq : x.scene.session.stream.replies.queue = r :: rest)
    (hg : x.setting.exchange.stream.replies.receiverGone = false) :
    Wired ⟨x.scene.take .read, x.setting.take (.bring r)⟩ := by
  have hheard : ¬ x.Heard := by
    rintro ⟨ending, hr⟩
    cases hg.symm.trans (h.setting.deaf ending hr)
  -- what is still on its way has not been brought, so the replies are not closed
  have hopen : x.setting.exchange.stream.replies.senderGone = false := by
    cases hgone : x.setting.exchange.stream.replies.senderGone with
    | false => rfl
    | true =>
      have hall := (h.closed hgone).2 hheard
      have hprefix := hsound.linked.brought.length_le
      have hlen := congrArg List.length hsound.conserved
      rw [hall] at hprefix
      simp only [List.length_append, hq, List.length_cons] at hlen
      omega
  have hscene := Session.Scene.undisturbed_take h.scene (c := .read) nofun nofun
  have hsetting := Exchange.Setting.undisturbed_take h.setting (c := .bring r) nofun
  have hbring : x.setting.take (.bring r) = { x.setting.withStream { x.setting.exchange.stream with
      replies := x.setting.exchange.stream.replies.put r } with
      brought := x.setting.brought ++ [r] } := by
    simp [Exchange.Setting.take, hopen, hg]
  rw [Session.Scene.take_read hq] at hscene ⊢
  rw [hbring] at hsetting ⊢
  refine ⟨h.clocks, hscene, hsetting, h.deserted, h.refused, fun hgone => ?_, h.halfClosed,
    h.carried⟩
  cases hopen.symm.trans hgone

theorem wired_carriesClose (hsound : x.Sound config ranker request params) (h : x.Wired)
    (hq : x.scene.session.stream.replies.isExhausted = true)
    (hn : x.setting.exchange.stream.replies.senderGone = false) :
    Wired ⟨x.scene, x.setting.take .close⟩ := by
  obtain ⟨hclosed, hempty⟩ := isExhausted_iff.mp hq
  have hserved : x.Served := by
    refine Classical.not_not.mp fun ho => ?_
    cases (h.scene.attached (not_served_iff.mp ho)).symm.trans hclosed
  refine ⟨h.clocks, h.scene, Exchange.Setting.undisturbed_take h.setting (c := .close) nofun,
    h.deserted, h.refused, fun _ => ⟨hserved, fun hheard => ?_⟩, h.halfClosed, h.carried⟩
  have hpresent := hsound.orderly.attentive.present (not_heard_iff.mp hheard)
  have hall := hsound.conserved
  unfold Session.Scene.Conserved at hall
  rw [hempty, List.append_nil] at hall
  exact (hsound.linked.inStep hpresent hn).trans hall

theorem wired_refuses (hsound : x.Sound config ranker request params) (h : x.Wired)
    (hg : x.scene.session.stream.requests.receiverGone = true) :
    Wired ⟨x.scene, x.setting.take .refuse⟩ := by
  have hserved : x.Served := by
    refine Classical.not_not.mp fun ho => ?_
    cases hg.symm.trans (hsound.linked.fed.held (not_served_iff.mp ho))
  exact ⟨h.clocks, h.scene, Exchange.Setting.undisturbed_take h.setting (c := .refuse) nofun,
    h.deserted, fun _ => hserved, h.closed, fun ho => absurd hserved ho, h.carried⟩

theorem wired_deserts (hsound : x.Sound config ranker request params) (h : x.Wired)
    (hg : x.setting.exchange.stream.replies.receiverGone = true) :
    Wired ⟨x.scene.take .leave, x.setting⟩ := by
  have hheard : x.Heard := by
    refine Classical.not_not.mp fun hn => ?_
    cases hg.symm.trans (hsound.orderly.attentive.present (not_heard_iff.mp hn))
  exact ⟨h.clocks, Session.Scene.undisturbed_take h.scene (c := .leave) nofun nofun, h.setting,
    fun _ => hheard, h.refused, h.closed, h.halfClosed, h.carried⟩

/-- **What is known stays true**, whatever happens next. -/
theorem wired_advance (hsound : x.Sound config ranker request params) (h : x.Wired)
    (ha : x.Advance clock y) : y.Wired := by
  cases ha with
  | serves ht => exact wired_serves h ht
  | calls ht => exact wired_calls hsound h ht
  | receives hh => exact wired_receives h hh
  | carriesContext hq hg hs => exact wired_carriesContext h hq hg hs
  | carriesHalfClose hq _ => exact wired_carriesHalfClose h hq
  | carriesReply hq hg => exact wired_carriesReply hsound h hq hg
  | carriesClose hq hn => exact wired_carriesClose hsound h hq hn
  | refuses hg _ => exact wired_refuses hsound h hg
  | deserts hg _ => exact wired_deserts hsound h hg
  | @waits t _ _ =>
    have hclocks := congrArg (·.plus (x.scene.now.elapsed t)) h.clocks
    exact ⟨hclocks, ⟨h.scene.serving, h.scene.plain, h.scene.attached, h.scene.left,
      h.scene.listens⟩, ⟨h.setting.uncancelled, h.setting.plain, h.setting.deaf,
      h.setting.coursed⟩, h.deserted, h.refused, h.closed, h.halfClosed, h.carried⟩

theorem wired_ofStart (config : Session.Config) (ranker : Ranker) (id : Nat) (request : Request)
    (params : Exchange.Params) (source : Random.Source) (start : Instant)
    (requestCapacity replyCapacity : Nat) :
    (ofStart config ranker id request params source start requestCapacity replyCapacity).Wired :=
  ⟨rfl, Session.Scene.undisturbed_ofStart .., Exchange.Setting.undisturbed_ofStart .., nofun, nofun,
    nofun, nofun, fun _ => rfl⟩

end Wired
end Conversation
end ProgressiveSearch
