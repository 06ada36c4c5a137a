import ProgressiveSearch.Stream

/-! # What waits on a stream

The requests of a stream carry contexts and at times a failure.  `waiting` are
the contexts among what is queued, in order; it is what the facts about both
sides of a call are said with.
-/
namespace ProgressiveSearch

/-- The context that an arrival brings. -/
def Arrival.context? : Arrival → Option Context
  | .context c => some c
  | .failed _ => none

/-- The batch that a reply brings. -/
def Reply.batch? : Reply → Option Batch
  | .batch b => some b
  | .failed _ | .fault => none

namespace Channel

/-- The contexts that wait on requests. -/
def waiting (requests : Channel Arrival) : List Context :=
  requests.queue.filterMap Arrival.context?

variable {requests : Channel Arrival}

theorem waiting_put (a : Arrival) :
    (requests.put a).waiting = requests.waiting ++ a.context?.toList := by
  cases a <;> simp [waiting, put, Arrival.context?]

/-- Contexts at the front of requests are the first that wait. -/
theorem waiting_of_queue {contexts : List Context} {rest : List Arrival}
    (h : requests.queue = contexts.map .context ++ rest) :
    requests.waiting = contexts ++ { requests with queue := rest }.waiting := by
  simp [waiting, h, List.filterMap_append, List.filterMap_map, Function.comp_def,
    Arrival.context?]

/-- What waits is made of the oldest arrival and of the others. -/
theorem waiting_cons {a : Arrival} {rest : List Arrival} (h : requests.queue = a :: rest) :
    requests.waiting = a.context?.toList ++ { requests with queue := rest }.waiting := by
  cases a <;> simp [waiting, h, List.filterMap_cons, Arrival.context?]

end Channel
end ProgressiveSearch
