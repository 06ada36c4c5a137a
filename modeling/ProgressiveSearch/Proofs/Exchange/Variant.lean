import ProgressiveSearch.Proofs.Exchange.Ending

/-! # Exchanges that draw different timeouts

Two exchanges that differ in the timeout that they draw, and in nothing else, do the
same until one of them decides.  A `Variant` says what may be different in the second
of them: where its timeout is drawn from, and what depends on it.

The variant keeps `Abreast` of the exchange as long as both stand at the same stage,
or wait for the decision, the variant longer.  It takes in whatever happens around it
in the same way (`vary_take`), hears the same (`receive_vary`), and its caller takes
the same turns, as long as it wakes when the other does (`call_vary`); only it may
break down over a moment that the clock cannot name.
-/
namespace ProgressiveSearch.Exchange

/-- What is different in an exchange with another timeout. -/
structure Variant where
  window : DecisionWindow
  source : Random.Source
  stage : Stage
  drawn : Option Duration
  journal : List Event

/-- The same exchange with these differences. -/
def vary (e : Exchange) (v : Variant) : Exchange :=
  { e with
    params := { e.params with window := v.window }
    source := v.source
    stage := v.stage
    drawn := v.drawn
    journal := v.journal }

/-- The timeout has not been drawn. -/
def Undecided (e : Exchange) : Prop :=
  match e.stage with
  | .starting | .offeringFirst | .resuming | .pausing _ | .offeringSecond => True
  | .deciding _ | .releasing _ | .over _ | .brokenDown => False

/-- **Where a variant stands** that draws the timeout `T'`, in comparison with an
exchange that draws `T`. -/
inductive Abreast (T T' : Duration) (e : Exchange) (v : Variant) : Prop
  | undecided (hs : v.stage = e.stage) (hn : e.Undecided) (ht : e.timeout? = some T)
      (ht' : (e.vary v).timeout? = some T')
  | deciding {deadline deadline' : Instant} (hs : e.stage = .deciding deadline)
      (hs' : v.stage = .deciding deadline') (hle : deadline ≤ deadline')
  | releasing {termination : Termination} (hs : e.stage = .releasing termination)
      (hs' : v.stage = .releasing termination)
  | concluded {o o' : Outcome} (hs : e.stage = .over o) (hs' : v.stage = .over o')
      (ho : o' = { o with decisionTimeout := o'.decisionTimeout })

/-- If both wait for the decision they are woken at the same time. -/
def InStep (e : Exchange) (v : Variant) (now : Instant) : Prop :=
  ∀ deadline deadline', e.stage = .deciding deadline → v.stage = .deciding deadline' →
    e.wake? now deadline' = e.wake? now deadline

/-- Neither takes a step, or both take one after which they are abreast, unless the
variant has broken down. -/
def Together (T T' : Duration) (after after' : Option Exchange) : Prop :=
  (after = none ∧ after' = none) ∨ ∃ f v, after = some f ∧ after' = some (f.vary v) ∧
    (Abreast T T' f v ∨ v.stage = .brokenDown)

theorem Together.isSome {T T' : Duration} {after after' : Option Exchange}
    (h : Together T T' after after') : after'.isSome = after.isSome := by
  rcases h with ⟨rfl, rfl⟩ | ⟨f, v, rfl, rfl, -⟩
  · rfl
  · rfl

section Steps
variable {T T' : Duration} {e : Exchange} {v : Variant} {now : Instant}

/-! ## The receiver -/

/-- The receiver of a variant does the same, though it may note other numbers. -/
theorem receive_vary (e : Exchange) (v : Variant) (now : Instant) : ∃ journal,
    (e.vary v).receive now = (e.receive now).map (·.vary { v with journal }) := by
  have hr : (e.vary v).receiver = e.receiver := rfl
  have hs : (e.vary v).stopping = e.stopping := rfl
  have hreplies : (e.vary v).stream.replies = e.stream.replies := rfl
  unfold receive
  rw [hr, hs, hreplies]
  cases e.receiver with
  | absent | «over» _ => exact ⟨v.journal, rfl⟩
  | reading =>
    dsimp only
    split
    · exact ⟨v.journal, rfl⟩
    · split
      · rename_i reply rest _
        refine ⟨((e.vary v).takeReply.onReply now reply).journal, ?_⟩
        cases reply with
        | batch b | failed status | fault => rfl
      · split
        · exact ⟨v.journal ++ [.completed (e.elapsed now) e.buffer.size], rfl⟩
        · exact ⟨v.journal, rfl⟩

theorem isSome_receive_vary (e : Exchange) (v : Variant) (now : Instant) :
    ((e.vary v).receive now).isSome = (e.receive now).isSome := by
  obtain ⟨journal, hreceive⟩ := receive_vary e v now
  rw [hreceive, Option.isSome_map]

/-- A hearing leaves the variant where it stands. -/
theorem abreast_hearing {heard : List Reply} {f : Exchange} (h : Abreast T T' e v)
    (hh : e.Hearing now heard f) (journal : List Event) :
    Abreast T T' f { v with journal } := by
  have hstage := hh.minds.stage
  cases h with
  | undecided hs hn ht ht' =>
    refine .undecided (hs.trans hstage.symm) ?_ ((Play.timeout?_hearing hh).1.trans ht) ht'
    unfold Undecided
    rw [hstage]
    exact hn
  | deciding hs hs' hle => exact .deciding (hstage.trans hs) hs' hle
  | releasing hs hs' => exact .releasing (hstage.trans hs) hs'
  | concluded hs hs' ho => exact .concluded (hstage.trans hs) hs' ho

/-! ## The caller -/

/-- A context is offered to the same requests. -/
theorem offer?_vary (e : Exchange) (v : Variant) (c : Context) :
    (e.vary v).offer? c = (e.offer? c).map fun (sent, f) => (sent, f.vary v) := by
  have hrequests : (e.vary v).stream.requests = e.stream.requests := rfl
  unfold offer?
  rw [hrequests]
  split
  · rfl
  · split
    · rfl
    · rfl

/-- A moment that is named later than another is named if the other is. -/
theorem after?_le {t u u' : Instant} (hle : T ≤ T') (h : t.after? T = some u)
    (h' : t.after? T' = some u') : u ≤ u' := by
  rw [Instant.after?_eq_some h, Instant.after?_eq_some h']
  exact Nat.add_le_add_left hle _

theorem after?_eq_none {t : Instant} (hle : T ≤ T') (h : t.after? T = none) :
    t.after? T' = none := by
  have hbeyond : ¬ t.plus T < Instant.horizon := by
    intro hlt
    simp [Instant.after?, hlt] at h
  refine if_neg fun hlt => hbeyond ?_
  exact Nat.lt_of_le_of_lt (Nat.add_le_add_left hle t.nanos) hlt

/-- **Two that decide at the same moment are abreast**, unless the variant breaks down
over the later deadline. -/
theorem decide_vary (hle : T ≤ T') (ht : e.timeout? = some T) (ht' : (e.vary v).timeout? = some T')
    (now : Instant) : ∃ v', (e.vary v).decide now = (e.decide now).vary v' ∧
      (Abreast T T' (e.decide now) v' ∨ v'.stage = .brokenDown) := by
  have hstage := Play.decide_stage e now
  have hstage' := Play.decide_stage (e.vary v) now
  rw [ht, Option.bind_some] at hstage
  rw [ht', Option.bind_some] at hstage'
  obtain ⟨stage, source, drawn, journal, he, -⟩ := e.decide_spec now
  obtain ⟨stage', source', drawn', journal', he', -⟩ := (e.vary v).decide_spec now
  refine ⟨⟨v.window, source', stage', drawn', journal'⟩, ?_, ?_⟩
  · rw [he, he']
    rfl
  · rw [he'] at hstage'
    cases hd' : now.after? T' with
    | none =>
      rw [hd'] at hstage'
      exact .inr hstage'
    | some deadline' =>
      rw [hd'] at hstage'
      cases hd : now.after? T with
      | none => cases (after?_eq_none hle hd).symm.trans hd'
      | some deadline =>
        rw [hd] at hstage
        exact .inl (.deciding hstage hstage' (after?_le hle hd hd'))

/-- Both are released over the same. -/
theorem together_release (e : Exchange) (v : Variant) (termination : Termination) :
    Together T T' (some (e.release termination)) (some ((e.vary v).release termination)) :=
  .inr ⟨_, { v with stage := .releasing termination }, rfl, rfl, .inl (.releasing rfl rfl)⟩

/-- Both break down. -/
theorem together_breakDown (e : Exchange) (v : Variant) :
    Together T T' (some e.breakDown) (some (e.vary v).breakDown) :=
  .inr ⟨_, { v with stage := .brokenDown }, rfl, rfl, .inr rfl⟩

/-- Both go on to a stage that is before the decision. -/
theorem together_undecided {f : Exchange} (v : Variant) (hs : v.stage = f.stage)
    (hn : f.Undecided) (ht : f.timeout? = some T) (ht' : (f.vary v).timeout? = some T') :
    Together T T' (some f) (some (f.vary v)) :=
  .inr ⟨f, v, rfl, rfl, .inl (.undecided hs hn ht ht')⟩

/-- Before the decision the callers take the same turns. -/
theorem call_undecided (hle : T ≤ T') (hs : v.stage = e.stage) (hn : e.Undecided)
    (ht : e.timeout? = some T) (ht' : (e.vary v).timeout? = some T') :
    Together T T' (e.call now) ((e.vary v).call now) := by
  have hstage : (e.vary v).stage = e.stage := hs
  unfold Undecided at hn
  unfold call
  rw [hstage]
  cases he : e.stage with
  | starting => exact together_undecided ⟨_, _, _, _, _⟩ rfl trivial ht ht'
  | offeringFirst =>
    dsimp only
    unfold offerFirst?
    have hrequest : (e.vary v).request = e.request := rfl
    rw [hrequest, offer?_vary]
    cases ho : e.offer? e.request.firstContext with
    | none => exact .inl ⟨rfl, rfl⟩
    | some offered =>
      obtain ⟨sent, f⟩ := offered
      rcases offer_cases ho with ⟨-, rfl, -⟩ | ⟨-, rfl, -⟩
      · exact together_undecided { v with stage := .resuming } rfl trivial ht ht'
      · exact together_undecided { v with stage := .resuming } rfl trivial ht ht'
  | resuming =>
    dsimp only
    unfold resume
    dsimp only
    have hsent : (e.vary v).firstSent = e.firstSent := rfl
    have hdelay : (e.vary v).params.contextDelay = e.params.contextDelay := rfl
    rw [hsent, hdelay]
    split
    · exact together_release { e with receiver := .reading } v .sendFailed
    · split
      · exact together_breakDown { e with receiver := .reading } v
      · rename_i deadline _
        exact together_undecided { v with stage := .pausing deadline } rfl trivial ht ht'
  | pausing deadline =>
    dsimp only
    have hwake : (e.vary v).wake? now deadline = e.wake? now deadline := rfl
    rw [hwake]
    cases e.wake? now deadline with
    | none => exact .inl ⟨rfl, rfl⟩
    | some w =>
      cases w with
      | cancelled => exact together_release e v .cancelled
      | received ending => exact together_release e v ending.termination
      | elapsed => exact together_undecided ⟨_, _, _, _, _⟩ rfl trivial ht ht'
  | offeringSecond =>
    dsimp only
    unfold offerSecond?
    have hrequest : (e.vary v).request = e.request := rfl
    rw [hrequest, offer?_vary]
    cases ho : e.offer? e.request.secondContext with
    | none => exact .inl ⟨rfl, rfl⟩
    | some offered =>
      obtain ⟨sent, f⟩ := offered
      rcases offer_cases ho with ⟨rfl, rfl, -⟩ | ⟨rfl, rfl, -⟩
      · exact together_release _ v .sendFailed
      · obtain ⟨v', hv, hbreast⟩ :=
          decide_vary (e := e.say e.request.secondContext) (v := v) hle ht ht' now
        exact .inr ⟨_, v', rfl, congrArg some hv, hbreast⟩
  | deciding _ | releasing _ | «over» _ | brokenDown => simp [he] at hn

/-- **The callers take the same turns**, as long as they decide at the same time. -/
theorem call_vary (hle : T ≤ T') (h : Abreast T T' e v) (hw : InStep e v now) :
    Together T T' (e.call now) ((e.vary v).call now) := by
  have hstage : (e.vary v).stage = v.stage := rfl
  cases h with
  | undecided hs hn ht ht' => exact call_undecided hle hs hn ht ht'
  | @deciding deadline deadline' hs hs' _ =>
    have hwake : (e.vary v).wake? now deadline' = e.wake? now deadline := hw _ _ hs hs'
    unfold call
    rw [hstage, hs, hs']
    dsimp only
    rw [hwake]
    cases e.wake? now deadline with
    | none => exact .inl ⟨rfl, rfl⟩
    | some w =>
      cases w with
      | cancelled => exact together_release e v .cancelled
      | received ending => exact together_release e v ending.termination
      | elapsed => exact together_release e v .decisionTimeout
  | @releasing termination hs hs' =>
    have hr : (e.vary v).receiver = e.receiver := rfl
    unfold call
    rw [hstage, hs, hs']
    dsimp only
    rw [hr]
    cases e.receiver with
    | absent | reading => exact .inl ⟨rfl, rfl⟩
    | «over» ending =>
      exact .inr ⟨_, ⟨_, _, _, _, _⟩, rfl, rfl, .inl (.concluded rfl rfl rfl)⟩
  | concluded hs hs' _ =>
    refine .inl ⟨?_, ?_⟩
    · unfold call
      rw [hs]
    · unfold call
      rw [hstage, hs']

end Steps

/-! ## In the same surroundings -/

namespace Setting

/-- A setting with a variant in the place of its exchange. -/
def vary (x : Setting) (v : Variant) : Setting := { x with exchange := x.exchange.vary v }

variable {T T' : Duration} {x : Setting} {v : Variant}

/-- What happens around it changes a variant as it changes the exchange. -/
theorem vary_take (x : Setting) (v : Variant) (c : Cue) :
    (x.vary v).take c = (x.take c).vary v := by
  have hstream : (x.vary v).exchange.stream = x.exchange.stream := rfl
  cases c with
  | cancel | refuse | close => rfl
  | pick =>
    unfold take
    rw [hstream]
    dsimp only
    split
    · rfl
    · rfl
  | bring r =>
    unfold take
    rw [hstream]
    dsimp only
    split
    · rfl
    · rfl

theorem abreast_take (h : Abreast T T' x.exchange v) (c : Cue) :
    Abreast T T' (x.take c).exchange v := by
  obtain ⟨stream, cancelled, picked, brought, he⟩ := x.take_eq c
  rw [he]
  cases h with
  | undecided hs hn ht ht' => exact .undecided hs hn ht ht'
  | deciding hs hs' hle => exact .deciding hs hs' hle
  | releasing hs hs' => exact .releasing hs hs'
  | concluded hs hs' ho => exact .concluded hs hs' ho

/-- A variant hears what the exchange hears. -/
theorem act_receive_vary (h : Abreast T T' x.exchange v) : ∃ v',
    (x.vary v).act .receive = (x.act .receive).vary v' ∧
      Abreast T T' (x.act .receive).exchange v' := by
  obtain ⟨journal, hreceive⟩ := receive_vary x.exchange v x.now
  have hvary : (x.vary v).exchange.receive (x.vary v).now =
      (x.exchange.receive x.now).map (·.vary { v with journal }) := hreceive
  have hnext : (x.vary v).exchange.next = x.exchange.next := rfl
  cases hs : x.exchange.receive x.now with
  | none =>
    rw [hs, Option.map_none] at hvary
    refine ⟨v, ?_, ?_⟩
    · simp only [act, hs, hvary]
    · simp only [act, hs]
      exact h
  | some f =>
    obtain ⟨heard, hh⟩ := hearing_of_receive hs
    rw [hs, Option.map_some] at hvary
    refine ⟨{ v with journal }, ?_, ?_⟩
    · simp only [act, hs, hvary, hnext]
      rfl
    · simp only [act, hs]
      exact abreast_hearing h hh journal

/-- The caller of a variant says what that of the exchange says, if both decide at the
same time. -/
theorem act_call_vary (hle : T ≤ T') (h : Abreast T T' x.exchange v)
    (hw : InStep x.exchange v x.now) : ∃ v',
    (x.vary v).act .call = (x.act .call).vary v' ∧
      (Abreast T T' (x.act .call).exchange v' ∨ v'.stage = .brokenDown) := by
  have htogether : Together T T' (x.exchange.call x.now)
      ((x.vary v).exchange.call (x.vary v).now) := call_vary hle h hw
  rcases htogether with ⟨hs, hs'⟩ | ⟨f, v', hs, hs', hf⟩
  · refine ⟨v, ?_, ?_⟩
    · simp only [act, hs, hs']
    · simp only [act, hs]
      exact .inl h
  · refine ⟨v', ?_, ?_⟩
    · simp only [act, hs, hs']
      rfl
    · simp only [act, hs]
      exact hf

end Setting
end ProgressiveSearch.Exchange
