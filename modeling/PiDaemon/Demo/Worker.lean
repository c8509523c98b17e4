import PiDaemon.Base.History
import PiDaemon.Client.Conversation

/-!
# The demo workers

`demo_worker` after its registration: the worker that knows a peer sends it a counter, and
every worker sends a counter that it gets back to its sender, one higher. Two workers behind
two slots of the daemon then pass one counter to and fro.
-/

namespace PiDaemon.Demo

open Base Proto Client Server

/-! ## The program -/

/-- How `poll()` returns; it has no timeout. -/
inductive Polled
  | failed
  | interrupted
  | ready (pollin : Bool)
  deriving DecidableEq, Repr

/-- What a worker sends on a message of the daemon, if anything. `src` is where it comes from. -/
def answer (m : Message) : Option Frame :=
  if m.type = MsgType.deliver.code ∧ m.payload.length = 4 then
    some (sendFrame m.src (le32 (getLe32 m.payload 0 + 1)))
  else none

def receive (s : Socket) (m : Message) : Socket :=
  if m.type = MsgType.deliver.code ∧ m.payload.length = 4 then
    (daemonClientSend s m.src (le32 (getLe32 m.payload 0 + 1))).1
  else s

def round (s : Socket) : Polled → Option Socket
  | .failed => none
  | .interrupted | .ready false => some s
  | .ready true =>
    match daemonClientRecv s maxMsgPayload with
    | (_, .error _) => none
    | (s, .ok m) => some (receive s m)

def reads (ps : List Polled) : ℕ := ps.count (.ready true)

/-! ## One worker -/

/-- The connection of slot `i` has caught up with its worker: the server has handled all that the
worker has written and sent all it has queued, and the worker has read that in `k` reads. -/
structure CaughtUp (w w' : World) (i : Slot) (k : ℕ) : Prop where
  handled : (w'.clients i).ahead = []
  sent : (w'.conn i).tx.pending = []
  read : (w'.peer i).queued.length ≤ (w.peer i).queued.length + k

section Pair
variable {b : Boot} {w w' : World} {i j : Slot}

theorem CaughtUp.all {k : ℕ} {queued read : List Frame} (h : CaughtUp w w' i k)
    (hqueued : (w'.peer i).queued = (w.peer i).queued ++ queued)
    (hall : (w'.conn i).tx.pending = [] → queued.length ≤ k → read = queued) : read = queued := by
  have hread := h.read
  rw [hqueued, List.length_append] at hread
  exact hall h.sent (by omega)

end Pair

/-! ## Three counters -/

end PiDaemon.Demo
