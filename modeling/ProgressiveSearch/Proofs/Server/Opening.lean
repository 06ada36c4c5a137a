import ProgressiveSearch.Proofs.Options.Fitting
import ProgressiveSearch.Proofs.Program.Choices
import ProgressiveSearch.Session.Step

/-! # Whether a configured server opens its calls

A configuration is accepted if it leaves room for a reply, however much room that is,
and delays of any number of milliseconds that a word can hold.  No delay is too long
for a session to begin; but no channel can be made with more than an eighth of the room
that can be asked for.  So it depends on the room whether an accepted configuration
opens calls (`opens_iff`): with too much of it each call is let in and then breaks down.
-/
namespace ProgressiveSearch

namespace Instant

/-- The clock can name a moment that is as many milliseconds later as a word can hold.  It reaches
so far that this is all but a small part of the moments on it. -/
def Early (t : Instant) : Prop := t.plus (.ofMillis Word.max64) < horizon

instance (t : Instant) : Decidable t.Early := inferInstanceAs (Decidable (_ < _))

example : Early ⟨99 * horizon.nanos / 100⟩ := by decide

theorem Early.after? {t : Instant} (h : t.Early) {d : Duration} (hd : d ≤ .ofMillis Word.max64) :
    t.after? d = some (t.plus d) := by
  refine if_pos (Nat.lt_of_le_of_lt ?_ h)
  exact Nat.add_le_add_left hd _

end Instant

/-- **A call opens its session**: it is accepted, it has a session of its own, and the
session goes to work whenever it gets to take its first step. -/
def Service.Opens (s : Service) (now : Instant) (requests : Channel Arrival) : Prop :=
  ∃ s' session, s.accept now requests = .accepted s' ∧ s'.sessions = s.sessions ++ [session] ∧
    ∀ (t : Instant) (stopping : Bool), t.Early →
      ∃ begun, session.step t stopping = some begun ∧ begun.activity = .selecting

namespace Server

open Options (Found)

/-- Only a flag of the server has a letter. -/
theorem Setting.lettersAreFlags : Setting.table.LettersAreFlags := by
  intro o c h
  cases o with
  | socketFile => rfl
  | _ => cases h

namespace Config

/-- A configuration that comes of options, whatever they were given of their kinds. -/
def Accepted (config : Config) : Prop :=
  ∃ found, Found.Fits Setting.table found ∧ ofFound found = .ok config

/-- What is read from a command line and an environment is accepted. -/
theorem accepted_of_read {arguments : List String} {env : String → Option String}
    {config : Config} (h : read arguments env = .ok config) : config.Accepted := by
  unfold read at h
  split at h
  · cases h
  · rename_i found hfound
    split at h
    · cases h
    · rename_i config' hconfig
      obtain rfl := Except.ok.inj h
      exact ⟨found, Options.fits_read Setting.lettersAreFlags hfound, hconfig⟩

/-- The number of an option of a word is within the word. -/
theorem number_le {found : Found Setting} (h : Found.Fits Setting.table found) {o : Setting}
    (ho : (Setting.spec o).kind = .unsigned Word.max64) {fallback : Nat}
    (hfallback : fallback ≤ Word.max64) : found.number o fallback ≤ Word.max64 := by
  unfold Found.number
  split
  · rename_i n hn
    have htakes : (Setting.spec o).kind.Takes (.number n) := h.of_get? hn
    rw [ho] at htakes
    cases htakes with
    | unsigned hle => exact hle
  · exact hfallback

/-- Every accepted configuration is that of a valid choice of values. -/
theorem Accepted.exists_choice {config : Config} (h : config.Accepted) :
    ∃ c : Choice, c.config = config := by
  obtain ⟨found, hfits, h⟩ := h
  unfold ofFound at h
  dsimp only at h
  split at h
  · cases h
  · rename_i hblank
    split at h
    · cases h
    · rename_i hroom
      split at h
      · cases h
      · rename_i hidle
        obtain rfl := Except.ok.inj h
        exact
          ⟨{ address := _
             onSocketFile := _
             finalMillis := _
             idleMillis := _
             bufferSize := _
             strict := _
             shutdownSeconds := _
             address_says := eq_false_of_ne_true hblank
             final_lt_idle := Nat.lt_of_not_le hidle
             idle_le := number_le hfits rfl (by decide)
             buffer_pos := Nat.pos_of_ne_zero hroom
             buffer_le := number_le hfits rfl (by decide)
             shutdown_le := number_le hfits rfl (by decide) }, rfl⟩

/-- A session that is patient for that long begins. -/
theorem begins {config : Session.Config} (h : config.idleTimeout ≤ .ofMillis Word.max64)
    (ranker : Ranker) (tally : Session.Tally) (stream : Stream) {t : Instant} (ht : t.Early)
    (stopping : Bool) : ∃ begun, (Session.enter config ranker tally stream).step t stopping =
      some begun ∧ begun.activity = .selecting := by
  have hafter : t.after? config.idleTimeout = some (t.plus config.idleTimeout) := ht.after? h
  refine ⟨_, rfl, ?_⟩
  show ((Session.enter config ranker tally stream).begin t).activity = _
  unfold Session.begin
  rw [show (Session.enter config ranker tally stream).config = config from rfl, hafter]

/-- **When a service with an accepted configuration opens its calls**: as long as it is
not stopping, each of them if a channel of replies can be made, and none otherwise; then
it breaks down over each of them. -/
theorem opens_iff {config : Config} (h : config.Accepted) {s : Service}
    (hs : s.config = config.service) (hserving : s.isDraining = false) (now : Instant)
    (requests : Channel Arrival) :
    (s.Opens now requests ↔ config.service.streamBufferSize ≤ Channel.maxCapacity) ∧
      (¬ s.Opens now requests → s.accept now requests = .brokenDown s.letIn) := by
  obtain ⟨c, rfl⟩ := h.exists_choice
  have hroom : 0 < c.config.service.streamBufferSize := c.buffer_pos
  have hidle : c.config.service.session.idleTimeout ≤ .ofMillis Word.max64 :=
    Nat.mul_le_mul_right _ c.idle_le
  have hpossible : Channel.isPossible s.letIn.config.streamBufferSize = true ↔
      c.config.service.streamBufferSize ≤ Channel.maxCapacity := by
    show Channel.isPossible s.config.streamBufferSize = true ↔ _
    rw [hs]
    simp [Channel.isPossible, hroom]
  have haccept : s.accept now requests = _ := if_neg (by simp [hserving])
  by_cases hle : c.config.service.streamBufferSize ≤ Channel.maxCapacity
  · have hopens : s.Opens now requests := by
      rw [if_pos (hpossible.mpr hle)] at haccept
      refine ⟨_, _, haccept, rfl, fun t stopping ht => ?_⟩
      exact begins (hs ▸ hidle) _ _ _ ht stopping
    exact ⟨iff_of_true hopens hle, fun hn => absurd hopens hn⟩
  · rw [if_neg (mt hpossible.mp hle)] at haccept
    have hnot : ¬ s.Opens now requests := by
      rintro ⟨s', session, hs', -⟩
      cases haccept.symm.trans hs'
    exact ⟨iff_of_false hnot hle, fun _ => haccept⟩

/-- The most room, and the longest patience. -/
theorem opens_iff_roomiest :
    ∃ config, read ["--server-addr=a:1", "--final-delay-ms=50",
        "--idle-timeout-ms=18446744073709551615", "--stream-buffer-size=2305843009213693951",
        "--shutdown-timeout=3"] (fun _ => none) = .ok config ∧ config.Accepted ∧
      (Service.idle config.service .nothing).Opens .start (.ofCapacity 2) := by
  let c : Choice :=
    { address := "a:1", onSocketFile := false, finalMillis := 50
      idleMillis := 18446744073709551615, bufferSize := 2305843009213693951, strict := false
      shutdownSeconds := 3
      address_says := by decide, final_lt_idle := by decide, idle_le := by decide
      buffer_pos := by decide, buffer_le := by decide, shutdown_le := by decide }
  have htold : Setting.table.Conveys c.value
      [(.address, .text "a:1"), (.finalDelay, .number 50),
       (.idleTimeout, .number 18446744073709551615),
       (.streamBufferSize, .number 2305843009213693951), (.shutdownTimeout, .number 3)]
      fun _ => none := by decide
  have h : c.config.Accepted := accepted_of_read (Choice.read_eq htold)
  have hroom : c.config.service.streamBufferSize ≤ Channel.maxCapacity := by decide
  have hopens := opens_iff (s := .idle c.config.service .nothing) h rfl rfl .start (.ofCapacity 2)
  exact ⟨c.config, Choice.read_eq htold, h, hopens.1.mpr hroom⟩

/-- **Room for one reply more is accepted as well**, and then no call is opened. -/
theorem opens_nothing_beyond :
    ∃ config, read ["--server-addr=a:1", "--final-delay-ms=50", "--idle-timeout-ms=5000",
        "--stream-buffer-size=2305843009213693952", "--shutdown-timeout=3"] (fun _ => none) =
          .ok config ∧
      ∀ now requests, ¬ (Service.idle config.service .nothing).Opens now requests := by
  let c : Choice :=
    { address := "a:1", onSocketFile := false, finalMillis := 50, idleMillis := 5000
      bufferSize := 2305843009213693952, strict := false, shutdownSeconds := 3
      address_says := by decide, final_lt_idle := by decide, idle_le := by decide
      buffer_pos := by decide, buffer_le := by decide, shutdown_le := by decide }
  have htold : Setting.table.Conveys c.value
      [(.address, .text "a:1"), (.finalDelay, .number 50), (.idleTimeout, .number 5000),
       (.streamBufferSize, .number 2305843009213693952), (.shutdownTimeout, .number 3)]
      fun _ => none := by decide
  refine ⟨c.config, Choice.read_eq htold, fun now requests hopens => ?_⟩
  obtain ⟨s', session, hs', -⟩ := hopens
  have hroom : Channel.isPossible c.config.service.streamBufferSize = false := by decide
  generalize c.config = config at hroom hs'
  simp [Service.accept, Service.isDraining, Service.idle, Service.letIn, Service.record, hroom]
    at hs'

end Config
end Server
end ProgressiveSearch
