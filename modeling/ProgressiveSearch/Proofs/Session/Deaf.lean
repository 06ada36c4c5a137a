import ProgressiveSearch.Proofs.Session.Gist

/-! # Deaf after the second context

Of what comes on its requests after the second context a lenient session takes no
notice (`deaf_after_second`).  Two scripts may differ behind it in as many contexts
as they like, and in whether and when the client half-closes; what the ranker is
asked, what is queued and when, what the reader gets, and how and when the session
ends is the same, whatever else happens around it and whatever room there is.  Only
the contexts that its report counts may differ.
-/
namespace ProgressiveSearch.Session

/-- Whether it comes on the requests. -/
def Cue.onRequests : Cue → Bool
  | .send _ | .halfClose => true
  | .stop | .read | .leave => false

/-- What a script has besides what comes on the requests. -/
def offRequests (script : Script) : Script := script.filter fun entry => !entry.2.onRequests

/-- How much is sent before the client half-closes. -/
def sendsOpen (script : Script) : Nat :=
  sends (script.takeWhile fun entry => entry.2 ≠ .halfClose)

/-- A script in order, which does not fail. -/
structure Orderly (start : Instant) (script : Script) : Prop where
  chronological : Chronological start script
  unbroken : ∀ entry ∈ script, ∀ status, entry.2 ≠ .send (.failed status)

/-- A session that has all it needs hears nothing of what comes on its requests. -/
theorem audible_zero (script : Script) : audible 0 script = offRequests script := by
  induction script with
  | nil => rfl
  | cons entry rest ih =>
    obtain ⟨t, c⟩ := entry
    cases c with
    | send _ | halfClose => exact ih
    | stop | read | leave => exact congrArg (List.cons _) ih

/-- Once all that is needed has been sent, nothing more that comes on the requests
is heard. -/
theorem audible_append {n : Nat} {script : Script} (h : n ≤ sendsOpen script)
    (later : Script) : audible n (script ++ later) = audible n script ++ offRequests later := by
  induction script generalizing n with
  | nil =>
    have hn : n = 0 := Nat.le_zero.mp h
    rw [hn]
    exact audible_zero later
  | cons entry rest ih =>
    obtain ⟨t, c⟩ := entry
    cases n with
    | zero =>
      rw [audible_zero, audible_zero]
      exact List.filter_append ..
    | succ n =>
      cases c with
      | send a =>
        have hrest : n ≤ sendsOpen rest := by
          simpa [sendsOpen, sends] using h
        exact congrArg (List.cons _) (ih hrest)
      | halfClose => simp [sendsOpen, sends] at h
      | stop | read | leave =>
        have hrest : n + 1 ≤ sendsOpen rest := by
          simpa [sendsOpen, sends] using h
        exact congrArg (List.cons _) (ih hrest)

/-! ## What can be seen from outside -/

/-- What can be seen of a session and its surroundings: what has been asked and
queued, and when; what is on the channel of replies, and what the reader has; and
once the session is over, when and how it ended, but for the contexts that its report
counts. -/
structure View where
  asks : List (Instant × Context × UInt32)
  puts : List (Instant × Reply)
  replies : Channel Reply
  taken : List Reply
  ended : Option (Instant × Result)

/-- What can be seen of a scene. -/
def Scene.view (x : Scene) : View where
  asks := x.history.asks
  puts := x.history.puts
  replies := x.session.stream.replies
  taken := x.taken
  ended := x.session.result?.map fun r => (x.now, r.muted)

namespace Play
variable {p q : Play}

/-- The gist keeps all that can be seen. -/
theorem view_gist (p : Play) : p.gist.scene.view = p.scene.view := by
  by_cases ho : ∃ r, p.scene.session.activity = .over r
  · obtain ⟨r, hr⟩ := ho
    have hover : p.heard.scene.session.activity = .over r.muted := congrArg Activity.muted hr
    have hmuted : r.muted.muted = r.muted := by cases r <;> rfl
    rw [gist, awake_of_over hover]
    simp only [Scene.view, result?, hover, hr, Option.map_some, hmuted]
    rfl
  · have hlasts : ∀ r, p.scene.session.activity ≠ .over r := fun r hr => ho ⟨r, hr⟩
    -- the moment does not matter as long as the session is not over
    have hview : ∀ t, (p.heard.shift t).scene.view = p.scene.view := by
      intro t
      have hnone : ∀ {s : Session}, (∀ r, s.activity ≠ .over r) → s.result? = none := by
        intro s hs
        unfold result?
        split
        · rename_i r hr
          exact absurd hr (hs r)
        · rfl
      simp only [Scene.view, hnone hlasts]
      rw [hnone (s := (p.heard.shift t).scene.session) (lasts_heard hlasts)]
      rfl
    by_cases hr : p.heard.Rests
    · rw [gist, hr.awake]
      exact hview _
    · rw [gist, awake_of_not_rests (lasts_heard hlasts) hr]
      exact hview _

/-- A verdict can be seen. -/
theorem endsAt_iff_view {t : Instant} {v : Verdict} :
    p.EndsAt t v ↔ ∃ n r, (p.after n).scene.view.ended = some (t, r) ∧ r.verdict = v := by
  have hverdict : ∀ r : Result, r.muted.verdict = r.verdict := fun r => by cases r <;> rfl
  constructor
  · rintro ⟨n, r, hr, rfl, rfl⟩
    exact ⟨n, r.muted, by simp [Scene.view, result?, hr], hverdict r⟩
  · rintro ⟨n, r, hr, rfl⟩
    obtain ⟨r', hr', he⟩ := Option.map_eq_some_iff.mp hr
    obtain ⟨ht, rfl⟩ := Prod.mk.inj he
    refine ⟨n, r', ?_, (hverdict r').symm, ht⟩
    unfold result? at hr'
    split at hr'
    · rename_i r hr
      rw [hr, Option.some.inj hr']
    · cases hr'

/-- Whatever can be seen in a play can be seen in any other one with the same gist. -/
theorem view_meets (hp : p.Tolerant) (hq : q.Tolerant) (hg : p.gist = q.gist) (m : Nat) :
    ∃ n, (p.after m).scene.view = (q.after n).scene.view :=
  (gist_meets hp hq hg m).imp fun n hn => by rw [← view_gist, hn, view_gist]

theorem endsAt_of_views {t : Instant} {v : Verdict}
    (h : ∀ m, ∃ n, (p.after m).scene.view = (q.after n).scene.view) (he : p.EndsAt t v) :
    q.EndsAt t v := by
  obtain ⟨m, r, hr, hv⟩ := endsAt_iff_view.mp he
  obtain ⟨n, hn⟩ := h m
  exact endsAt_iff_view.mpr ⟨n, r, hn ▸ hr, hv⟩

/-- A play is tolerant at the start if the session is lenient and the script in
order. -/
theorem tolerant_ofStart {config : Config} (ranker : Ranker) (id : Nat) {start : Instant}
    (requestCapacity replyCapacity : Nat) {script : Script} (hs : config.strict = false)
    (h : Orderly start script) :
    (ofStart config ranker id start requestCapacity replyCapacity script).Tolerant where
  chronological := h.chronological
  lenient := hs
  unbroken := h.unbroken
  contexts _ := nofun
  held _ := rfl

/-- At the start the session can hear what is audible to one that lacks two contexts. -/
theorem gist_ofStart (config : Config) (ranker : Ranker) (id : Nat) (start : Instant)
    (requestCapacity replyCapacity : Nat) {script script' : Script}
    (h : audible 2 script = audible 2 script') :
    (ofStart config ranker id start requestCapacity replyCapacity script).gist =
      (ofStart config ranker id start requestCapacity replyCapacity script').gist := by
  have hheard : (ofStart config ranker id start requestCapacity replyCapacity script).heard =
      (ofStart config ranker id start requestCapacity replyCapacity script').heard :=
    congrArg (Play.mk _) h
  rw [gist, hheard, gist]

end Play

section Run
variable {config : Config} (ranker : Ranker) (id : Nat) {start : Instant}
  (requestCapacity replyCapacity : Nat)

/-- **After the second context a lenient session is deaf to the client.**  Take two
scripts that agree up to a point at which two contexts have been sent, and behind it
in all that does not come on the requests.  Then whatever can be seen in the one play
can be seen in the other one, and the session ends at the same moment with the same
verdict. -/
theorem deaf_after_second (hs : config.strict = false) {before later later' : Script}
    (h : Orderly start (before ++ later)) (h' : Orderly start (before ++ later'))
    (hsecond : 2 ≤ sendsOpen before) (hsame : offRequests later = offRequests later') :
    let p := Play.ofStart config ranker id start requestCapacity replyCapacity (before ++ later)
    let q := Play.ofStart config ranker id start requestCapacity replyCapacity (before ++ later')
    (∀ m, ∃ n, (p.after m).scene.view = (q.after n).scene.view) ∧
      (∀ n, ∃ m, (q.after n).scene.view = (p.after m).scene.view) ∧
        ∀ t v, p.EndsAt t v ↔ q.EndsAt t v := by
  intro p q
  have haudible : audible 2 (before ++ later) = audible 2 (before ++ later') := by
    rw [audible_append hsecond, audible_append hsecond, hsame]
  have hgist : p.gist = q.gist :=
    Play.gist_ofStart config ranker id start requestCapacity replyCapacity haudible
  have hp : p.Tolerant := Play.tolerant_ofStart ranker id requestCapacity replyCapacity hs h
  have hq : q.Tolerant := Play.tolerant_ofStart ranker id requestCapacity replyCapacity hs h'
  have hforth : ∀ m, ∃ n, (p.after m).scene.view = (q.after n).scene.view :=
    Play.view_meets hp hq hgist
  have hback : ∀ n, ∃ m, (q.after n).scene.view = (p.after m).scene.view :=
    Play.view_meets hq hp hgist.symm
  exact ⟨hforth, hback, fun t v => ⟨Play.endsAt_of_views hforth, Play.endsAt_of_views hback⟩⟩

end Run

/-- A moment of a call that begins at the start of the clock. -/
def atMillis (millis : Nat) : Instant := Instant.start.plus (.ofMillis millis)

/-- A client that says all that it has to say. -/
def opening : Script :=
  [(atMillis 100, .send (.context ⟨"mug", "B1", ""⟩)), (atMillis 200, .read),
    (atMillis 300, .send (.context ⟨"mug", "B1", "large"⟩))]

/-- The report of its call. -/
def openingReport : Report := ⟨⟨1, .start, 2, 0, 3⟩, .completed⟩

/-- It does not matter that the client repeats itself before it half-closes. -/
theorem deaf_after_second_repeat :
    let again := [(atMillis 310, Cue.send (.context ⟨"mug", "B1", "small"⟩)),
      (atMillis 320, .halfClose), (atMillis 900, .read)]
    let reads := [(atMillis 900, Cue.read)]
    Config.standard.strict = false ∧ Orderly .start (opening ++ again) ∧
      Orderly .start (opening ++ reads) ∧ 2 ≤ sendsOpen opening ∧
      offRequests again = offRequests reads ∧
      (Play.ofStart .standard .nothing 1 .start 1 3 (opening ++ again)).EndsAt
        ((atMillis 300).plus Config.standard.finalDelay) (.reported .completed) := by
  intro again reads
  have hagain : Orderly .start (opening ++ again) :=
    ⟨by decide, by simp [opening, again]⟩
  have hreads : Orderly .start (opening ++ reads) :=
    ⟨by decide, by simp [opening, reads]⟩
  refine ⟨rfl, hagain, hreads, by decide, rfl, ?_⟩
  exact ((deaf_after_second .nothing 1 1 3 rfl hagain hreads (by decide) rfl).2.2 _ _).mpr
    ⟨14, .reported openingReport, by decide, rfl, by decide⟩

end ProgressiveSearch.Session
