import ProgressiveSearch.Proofs.Session.Muted
import ProgressiveSearch.Proofs.Session.Occasion

/-! # What a session can hear

A lenient session that has read two contexts does not care for what else comes on
its requests.  So of a script it hears no more than is `audible`: everything that
does not come on the requests, and of what does no more than two contexts, or a
half-close if that comes before.  Of what is still to come it hears what is
audible to a session that `lacks` so many contexts (`heard`); what waits on its
requests already is not lacking.

A step of the session that does not end it does not change what it hears of the
rest (`Transition.heard`).  A cue is either not heard, and then it leaves the
session as it was but for what it need not have heard, or it does the same to the
session and to what is left of it without that (`Scene.take_heard`).
-/
namespace ProgressiveSearch.Session

/-- How much of a script is sent on the requests. -/
def sends (script : Script) : Nat :=
  script.countP fun entry => match entry.2 with
    | .send _ => true
    | _ => false

/-- What a session that lacks `n` contexts can hear of a script: once they have
come, nothing that comes on its requests.  If the client half-closes before, nothing
comes after that. -/
def audible : Nat → Script → Script
  | _, [] => []
  | 0, (_, .send _) :: rest | 0, (_, .halfClose) :: rest => audible 0 rest
  | n + 1, (t, .send a) :: rest => (t, .send a) :: audible n rest
  | _ + 1, (t, .halfClose) :: rest => (t, .halfClose) :: rest
  | n, (t, c) :: rest => (t, c) :: audible n rest

/-- How many contexts have yet to come before the session awaits none. -/
def lacks (s : Session) : Nat := s.needs - s.stream.requests.queue.length

/-- What the session can hear of a script. -/
def heard (s : Session) (script : Script) : Script :=
  if s.lacks ≠ 0 ∧ s.stream.requests.senderGone = true then script else audible s.lacks script

/-- What can be heard of a script is part of it. -/
theorem mem_of_mem_audible {n : Nat} {script : Script} {entry : Instant × Cue}
    (h : entry ∈ audible n script) : entry ∈ script := by
  fun_induction audible n script with
  | case1 | case5 => exact h
  | case2 _ _ _ ih | case3 _ _ ih => exact List.mem_cons_of_mem _ (ih h)
  | case4 _ _ _ _ ih | case6 _ _ _ _ _ _ _ _ ih =>
    rcases List.mem_cons.mp h with rfl | h
    · exact List.mem_cons_self
    · exact List.mem_cons_of_mem _ (ih h)

section Heard
variable {s : Session} {script : Script}

theorem mem_of_mem_heard {entry : Instant × Cue} (h : entry ∈ s.heard script) :
    entry ∈ script := by
  unfold heard at h
  split at h
  · exact h
  · exact mem_of_mem_audible h

/-- A session that lacks nothing does not hear of its requests any more. -/
theorem heard_of_sated (h : s.lacks = 0) : s.heard script = audible 0 script := by
  rw [heard, if_neg fun hc => hc.1 h, h]

/-- After a half-close there is nothing more to come. -/
theorem heard_of_closed (h : s.lacks ≠ 0) (hg : s.stream.requests.senderGone = true) :
    s.heard script = script :=
  if_pos ⟨h, hg⟩

theorem heard_of_open (hg : s.stream.requests.senderGone = false) :
    s.heard script = audible s.lacks script :=
  if_neg fun hc => by simp [hg] at hc

theorem Alike.lacks {t : Session} (h : s.Alike t) : s.lacks = t.lacks := by
  have htrimmed : ∀ u : Session,
      u.lacks = u.needs - (u.stream.requests.trimmed u.needs).queue.length := by
    intro u
    simp only [Session.lacks, Channel.trimmed, List.length_take]
    omega
  rw [htrimmed s, htrimmed t, h.requests, h.needs]

/-- Alike sessions hear the same. -/
theorem Alike.heard {t : Session} (h : s.Alike t) : s.heard script = t.heard script := by
  by_cases hl : s.lacks = 0
  · rw [heard_of_sated hl, heard_of_sated (h.lacks ▸ hl)]
  · have hwhole : ∀ {u : Session}, u.lacks ≠ 0 →
        u.stream.requests.trimmed u.needs = u.stream.requests :=
      fun hu => Channel.trimmed_of_lt (Nat.lt_of_sub_ne_zero hu)
    have hrequests := h.requests
    rw [hwhole hl, hwhole (h.lacks ▸ hl)] at hrequests
    rw [Session.heard, Session.heard, h.lacks, hrequests]

/-- What a step takes off the requests the session no longer needs. -/
theorem Transition.heard {now : Instant} {stopping : Bool} {e : Deeds} {s' : Session}
    (h : s.Transition now stopping e s') (ho : ∀ r, s'.activity ≠ .over r) :
    s'.heard script = s.heard script := by
  have hkept : s'.lacks = s.lacks ∧
      s'.stream.requests.senderGone = s.stream.requests.senderGone := by
    cases h with
    | ends _ hl => exact absurd hl.activity (ho _)
    | begins he _ => simp [Session.lacks, needs, he, Activity.underway]
    | answers hl hq hp =>
      -- one context less is needed, and one less waits
      cases hphase : s.phase with
      | awaitingFirst | awaitingSecond =>
        simp [Session.lacks, needs, hphase, hq, hl.selecting, Phase.contextsDue,
          Activity.underway]
      | awaitingFinal _ | closed => simp [hphase, Phase.awaitsContext] at hp
    | defers _ hp _ _ => simp [Session.lacks, needs, hp, Phase.contextsDue]
    | ignores hl _ hp _ | halfCloses hl _ _ hp =>
      have hneeds := (needs_of_selecting hl.selecting).mpr hp
      unfold needs at hneeds
      simp [Session.lacks, needs, hneeds]
    | deliversFirst hd hp _ | deliversSecond hd hp _ =>
      simp [Session.lacks, needs, hp, hd.delivering, Phase.contextsDue, Activity.underway]
  rw [Session.heard, Session.heard, hkept.1, hkept.2]

end Heard

/-! ## Scenes -/

namespace Scene

/-- Two scenes differ only in what their sessions need not have heard. -/
structure Alike (x y : Scene) : Prop where
  session : x.session.Alike y.session
  now : x.now = y.now
  stopping : x.stopping = y.stopping
  asks : x.history.asks = y.history.asks
  puts : x.history.puts = y.history.puts
  taken : x.taken = y.taken

/-- The scene without what its session need not have heard. -/
def muted (x : Scene) : Scene :=
  { x with session := x.session.muted, history := { x.history with reads := [] } }

section Alike
variable {x y : Scene}

theorem alike_muted (x : Scene) : x.muted.Alike x :=
  ⟨x.session.alike_muted, rfl, rfl, rfl, rfl, rfl⟩

theorem Alike.muted_eq (h : x.Alike y) : x.muted = y.muted := by
  unfold muted
  dsimp only
  rw [h.session.muted_eq, h.now, h.stopping, h.asks, h.puts, h.taken]

/-- What does not come on the requests is the same for alike scenes. -/
theorem Alike.take_other (h : x.Alike y) {c : Cue} (hc : c = .stop ∨ c = .read ∨ c = .leave) :
    (x.take c).Alike (y.take c) := by
  rcases hc with rfl | rfl | rfl
  · exact { h with stopping := rfl }
  · unfold take
    dsimp only
    rw [h.session.replies]
    split
    · exact h
    · exact { h with
        session := { h.session with replies := rfl }
        taken := congrArg (· ++ [_]) h.taken }
  · exact { h with
      session := { h.session with replies := congrArg Channel.dropReceiver h.session.replies }
      taken := by
        show x.taken ++ _ = y.taken ++ _
        rw [h.taken, h.session.replies] }

/-- What comes on the requests is the same for alike scenes with the same requests. -/
theorem Alike.take_request (h : x.Alike y)
    (hr : x.session.stream.requests = y.session.stream.requests) {c : Cue}
    (hc : (∃ a, c = .send a) ∨ c = .halfClose) : (x.take c).Alike (y.take c) := by
  have hsame : ∀ {requests : Channel Arrival},
      ({ x.session with stream := { x.session.stream with requests } }).Alike
        { y.session with stream := { y.session.stream with requests } } := by
    intro requests
    have hn := h.session.needs
    exact { h.session with
      requests := congrArg requests.trimmed hn }
  rcases hc with ⟨a, rfl⟩ | rfl
  · unfold take
    dsimp only
    rw [hr]
    split
    · exact h
    · exact { h with session := hsame }
  · unfold take
    dsimp only
    rw [hr]
    exact { h with session := hsame }

/-- What a cue does to the requests. -/
theorem requests_take (x : Scene) (c : Cue) :
    (x.take c).session.stream.requests = x.session.stream.requests ∨
      (∃ a, c = .send a ∧
        (x.take c).session.stream.requests = x.session.stream.requests.put a) ∨
      c = .halfClose ∧
        (x.take c).session.stream.requests = x.session.stream.requests.dropSender := by
  cases c with
  | stop | leave => exact .inl rfl
  | read =>
    unfold take
    dsimp only
    split <;> exact .inl rfl
  | send a =>
    unfold take
    dsimp only
    split
    · exact .inl rfl
    · exact .inr (.inl ⟨a, rfl, rfl⟩)
  | halfClose => exact .inr (.inr ⟨rfl, rfl⟩)

/-- A session that lacks nothing need not hear what comes on its requests. -/
theorem alike_take_request (hl : x.session.lacks = 0) {c : Cue}
    (hc : (∃ a, c = .send a) ∨ c = .halfClose) : (x.take c).Alike x := by
  have hlen : x.session.needs ≤ x.session.stream.requests.queue.length :=
    Nat.sub_eq_zero_iff_le.mp hl
  rcases hc with ⟨a, rfl⟩ | rfl
  · unfold take
    dsimp only
    split
    · exact ⟨.refl _, rfl, rfl, rfl, rfl, rfl⟩
    · refine ⟨{ Session.Alike.refl x.session with requests := ?_ }, rfl, rfl, rfl, rfl, rfl⟩
      show (x.session.stream.requests.put a).trimmed x.session.needs =
        x.session.stream.requests.trimmed x.session.needs
      have hput : x.session.needs ≤ (x.session.stream.requests.put a).queue.length := by
        simp only [Channel.put, List.length_append]
        omega
      rw [Channel.trimmed_of_le hput, Channel.trimmed_of_le hlen]
      simp only [Channel.put, List.take_append_of_le_length hlen]
  · refine ⟨{ Session.Alike.refl x.session with requests := ?_ }, rfl, rfl, rfl, rfl, rfl⟩
    show (x.session.stream.requests.dropSender).trimmed x.session.needs =
        x.session.stream.requests.trimmed x.session.needs
    rw [Channel.trimmed_of_le hlen, Channel.trimmed_of_le (c := Channel.dropSender _) hlen]
    rfl

/-- A session that lacks something has not more on its requests than it needs. -/
theorem requests_muted (hl : x.session.lacks ≠ 0) :
    x.muted.session.stream.requests = x.session.stream.requests :=
  Channel.trimmed_of_lt (Nat.lt_of_sub_ne_zero hl)

/-- A session that lacks something hears what comes on its requests. -/
theorem heard_request (hg : x.session.stream.requests.receiverGone = false)
    (hl : x.session.lacks ≠ 0) {c : Cue} (hc : (∃ a, c = .send a) ∨ c = .halfClose) (t : Instant)
    (rest : Script) :
    x.session.heard ((t, c) :: rest) = (t, c) :: (x.take c).session.heard rest := by
  obtain ⟨n, hn⟩ := Nat.exists_eq_succ_of_ne_zero hl
  cases hs : x.session.stream.requests.senderGone with
  | true =>
    rw [heard_of_closed hl hs]
    rcases hc with ⟨a, rfl⟩ | rfl
    · rw [take_send_closed hs, heard_of_closed hl hs]
    · rw [heard_of_closed (s := (x.take .halfClose).session) hl rfl]
  | false =>
    rw [heard_of_open hs, hn]
    rcases hc with ⟨a, rfl⟩ | rfl
    · have hput := requests_take_send (a := a) hs hg
      have hneeds : (x.take (.send a)).session.needs = x.session.needs := by
        obtain ⟨_, _, _, he⟩ := x.take_eq (.send a)
        rw [he]
        rfl
      have hlacks : (x.take (.send a)).session.lacks = n := by
        rw [lacks, hneeds, hput, Channel.put, List.length_append, List.length_singleton]
        rw [lacks] at hn
        omega
      rw [heard_of_open (s := (x.take (.send a)).session) (by rw [hput]; exact hs), hlacks]
      rfl
    · rw [heard_of_closed (s := (x.take .halfClose).session) hl rfl]
      rfl

/-- **A cue is heard or not.**  If it is not the session need not have heard it, and
if it is it does to the scene what it does to what is left of it. -/
theorem take_heard (hg : x.session.stream.requests.receiverGone = false) (t : Instant) (c : Cue)
    (rest : Script) :
    (x.session.heard ((t, c) :: rest) = (x.take c).session.heard rest ∧ (x.take c).Alike x) ∨
      (x.session.heard ((t, c) :: rest) = (t, c) :: (x.take c).session.heard rest ∧
        (x.muted.take c).Alike (x.take c)) := by
  by_cases hc : c = .stop ∨ c = .read ∨ c = .leave
  · refine .inr ⟨?_, x.alike_muted.take_other hc⟩
    have hsame : (x.take c).session.lacks = x.session.lacks ∧
        (x.take c).session.stream.requests = x.session.stream.requests := by
      rcases hc with rfl | rfl | rfl
      · exact ⟨rfl, rfl⟩
      · unfold take
        dsimp only
        split
        · exact ⟨rfl, rfl⟩
        · exact ⟨rfl, rfl⟩
      · exact ⟨rfl, rfl⟩
    unfold heard
    rw [hsame.1, hsame.2]
    split
    · rfl
    · rcases hc with rfl | rfl | rfl <;> cases x.session.lacks <;> rfl
  · have hc' : (∃ a, c = .send a) ∨ c = .halfClose := by
      cases c with
      | send a => exact .inl ⟨a, rfl⟩
      | halfClose => exact .inr rfl
      | stop | read | leave => simp at hc
    by_cases hl : x.session.lacks = 0
    · have ha := alike_take_request hl hc'
      refine .inl ⟨?_, ha⟩
      rw [ha.session.heard, heard_of_sated hl, heard_of_sated hl]
      rcases hc' with ⟨a, rfl⟩ | rfl
      · rfl
      · rfl
    · exact .inr ⟨heard_request hg hl hc' t rest,
        x.alike_muted.take_request (requests_muted hl) hc'⟩

end Alike
end Scene


end ProgressiveSearch.Session
