import PiDaemon.Server.Steps

/-!
# Outgoing streams

What the daemon has handed to the kernel for a connection, together with what is
still in its transmit buffer, is the sequence of frames queued to it. Both send
paths, and the compaction, growth and shrinking of the buffer in between, keep
this as long as the connection has not been given up. The last section applies
it to relayed messages.
-/

namespace PiDaemon.Server

open Base Proto Store

/-- The transmit buffer is well formed, and unless the connection is given up its
outgoing stream is that of the queued frames. -/
structure Faithful (e : Endpoint) : Prop where
  ok : e.conn.tx.Ok
  stream : e.conn.shouldClose = false →
    Encodes e.peer.queued (e.peer.wire ++ e.conn.tx.pending)

theorem txBuf_empty_ok : TxBuf.Ok {} := ⟨le_rfl, le_rfl, rfl⟩

theorem Faithful.queueSend {e : Endpoint} (h : Faithful e) (f : Frame) (p : UInt16) (r : SendResult)
    (ok : Bool) : Faithful (e.queueSend f p r ok) := by
  obtain ⟨hok, hstream⟩ := queueSend_stream h.ok f p r ok
  refine ⟨hok, fun hopen => ?_⟩
  have hbefore := (e.queueSend_conn f p r ok).opened hopen
  change Encodes (e.peer.queued ++ [f]) ((e.peer.wire ++ (Server.queueSend e.conn f p r ok).2) ++
    (Server.queueSend e.conn f p r ok).1.tx.pending)
  rw [List.append_assoc, hstream hopen, ← List.append_assoc]
  exact (h.stream hbefore).concat f p

theorem Faithful.flush {e : Endpoint} (h : Faithful e) (rs : List SendResult)
    (hopen : e.conn.shouldClose = false) : Faithful (e.flush rs) := by
  obtain ⟨hok, hstream⟩ := flushTx_stream rs h.ok
  refine ⟨hok, fun _ => ?_⟩
  change Encodes e.peer.queued
    ((e.peer.wire ++ (flushTx e.conn rs).2.1) ++ (flushTx e.conn rs).1.tx.pending)
  rw [List.append_assoc, hstream]
  exact h.stream hopen

theorem faithful_local : Local Faithful where
  fresh := ⟨txBuf_empty_ok, fun _ => .nil⟩
  accepted _ _ _ := ⟨txBuf_empty_ok, fun _ => .nil⟩
  markPoll h := ⟨h.ok, h.stream⟩
  condemn h := ⟨h.ok, fun hc => by simp at hc⟩
  receive _ _ _ h := ⟨h.ok, h.stream⟩
  consume _ _ h := ⟨h.ok, h.stream⟩
  setName _ _ h := ⟨h.ok, h.stream⟩
  queueSend f p r ok h := h.queueSend f p r ok
  flush rs hopen h := h.flush rs hopen

/-- At every point of every run, for every connection that has not been given up,
the bytes accepted by the kernel and `txbuf[tx_sent..tx_len)` together are the
frames queued since it was accepted, in order. -/
theorem outgoing_stream {b : Boot} {w : World} (h : Reachable b w) (i : Slot)
    (hopen : (w.conn i).shouldClose = false) :
    Encodes (w.peer i).queued ((w.peer i).wire ++ (w.conn i).tx.pending) :=
  ((faithful_local.reachable h).live i).stream hopen

/-- The daemon after two clients, "a" in slot 0 and "b" in slot 1, have connected
and their registrations have been read; `send()` answers as listed. -/
def twoClients (sends : List SendResult) : World :=
  let readable : World.Ready := { revents := { pollin := true }, recvs := [.bytes 40, .again] }
  ((Boot.fresh sends []).world.round [readable]
    [.conn 5 ((registerAs 97).encode 0), .conn 6 ((registerAs 98).encode 0)]).round
    [{}, readable, readable] []

theorem twoClients_run (sends : List SendResult) : Run (Boot.fresh sends []) (twoClients sends) := by
  unfold twoClients
  exact .round _ _ (.round _ _ .boot)

/-- The first answer is sent in three pieces of which the last is still pending. -/
theorem outgoing_stream_partial :
    ((twoClients [.sent 3, .sent 2]).conn 0).tx.pending ≠ [] ∧
      Encodes ((twoClients [.sent 3, .sent 2]).peer 0).queued
        (((twoClients [.sent 3, .sent 2]).peer 0).wire ++
          ((twoClients [.sent 3, .sent 2]).conn 0).tx.pending) :=
  ⟨by decide +kernel, outgoing_stream (twoClients_run _).reachable 0 (by decide +kernel)⟩

/-! ## Relayed messages -/

namespace World

/-- Behind the frames in `before`, frame `g` is part of the outgoing stream of
slot `j`, whole, on a connection that has not been given up. -/
structure Carries (w : World) (j : Slot) (before : List Frame) (g : Frame) : Prop where
  opened : (w.conn j).shouldClose = false
  queued : (w.peer j).queued = before ++ [g]
  stream : Encodes (before ++ [g]) ((w.peer j).wire ++ (w.conn j).tx.pending)

/-- The `DMSG_SEND` ends up in the outgoing stream of its destination. -/
def Relayed (w : World) (i : Slot) (f : Frame) : Prop :=
  ∃ j, w.findClientByName (nameField f.payload) none = some j ∧
    (w.handleMessage i f).Carries j (w.peer j).queued (deliverFrame (w.conn i).name f)

def Refused (w : World) (i : Slot) (f : Frame) : Prop :=
  ∃ e, ((w.handleMessage i f).peer i).queued = (w.peer i).queued ++ [errorFrame e]

/-- `queue_send` of the frame to slot `j` would find, or cause, `should_close`, with the
answers the kernel has ready. -/
def Prevented (w : World) (j : Slot) (g : Frame) : Prop :=
  QueueFails (w.conn j) g (w.paddings.headD 0) (w.sends.headD .again) (w.reallocs.headD true)

/-- The destination of the `DMSG_SEND` is marked `should_close`, and its sender is not
told: nothing is queued to it, but for its own message if it is the destination. -/
structure Lost (w : World) (i : Slot) (f : Frame) (j : Slot) : Prop where
  marked : ((w.handleMessage i f).conn j).shouldClose = true
  silent : ((w.handleMessage i f).peer i).queued =
    (w.peer i).queued ++ if i = j then [deliverFrame (w.conn i).name f] else []

theorem handleMessage_send {w : World} {i : Slot} {f : Frame}
    (hreg : (w.conn i).registered = true) (htype : f.type = MsgType.send.code) :
    w.handleMessage i f = w.handleSend i f := by
  simp [handleMessage, hreg, htype]

end World

theorem Faithful.carries {w : World} {j : Slot} (h : Faithful (w.clients j)) (g : Frame)
    (hopen : ((w.queueSend j g).conn j).shouldClose = false) :
    (w.queueSend j g).Carries j (w.peer j).queued g := by
  have hafter : Faithful ((w.queueSend j g).clients j) := by
    rw [World.queueSend_clients, if_pos rfl]
    exact h.queueSend g _ _ _
  have hqueued : ((w.queueSend j g).peer j).queued = (w.peer j).queued ++ [g] := by
    simp [World.peer, Endpoint.queueSend]
  exact ⟨hopen, hqueued, hqueued ▸ hafter.stream hopen⟩

theorem World.queueSend_shouldClose_iff {w : World} {j : Slot} (h : (w.conn j).tx.Ok) (g : Frame) :
    ((w.queueSend j g).conn j).shouldClose = true ↔ w.Prevented j g := by
  rw [World.conn, World.queueSend_clients, if_pos rfl]
  exact Server.queueSend_shouldClose_iff h g _ _ _

/-- A relay request to a name that nobody has is refused. One to a registered name is
delivered unless the destination's connection is given up, by this frame or before it,
for one of the causes of `QueueFails`; then its sender is not told. -/
theorem relay_outcome {b : Boot} {w : World} (h : Reachable b w) {i : Slot} {f : Frame}
    (hreg : (w.conn i).registered = true) (htype : f.type = MsgType.send.code)
    (hlen : nameMax ≤ f.payload.length) :
    (w.findClientByName (World.nameField f.payload) none = none ∧ w.Refused i f) ∨
      ∃ j, w.findClientByName (World.nameField f.payload) none = some j ∧
        ((¬w.Prevented j (World.deliverFrame (w.conn i).name f) ∧ w.Relayed i f) ∨
          (w.Prevented j (World.deliverFrame (w.conn i).name f) ∧ w.Lost i f j)) := by
  have hsend : w.handleMessage i f = w.handleSend i f := World.handleMessage_send hreg htype
  unfold World.Relayed World.Refused
  rw [hsend, World.handleSend, if_neg (by omega)]
  cases hfind : w.findClientByName (World.nameField f.payload) none with
  | none => exact .inl ⟨rfl, .unknownDest, by simp [World.peer, Endpoint.queueSend]⟩
  | some j =>
    have hfaithful := (faithful_local.reachable h).live j
    have hcause := World.queueSend_shouldClose_iff hfaithful.ok
      (World.deliverFrame (w.conn i).name f)
    refine .inr ⟨j, rfl, ?_⟩
    cases hclose : ((w.queueSend j (World.deliverFrame (w.conn i).name f)).conn j).shouldClose with
    | false =>
      refine .inl ⟨fun hprevented => ?_, j, rfl, hfaithful.carries _ hclose⟩
      simp [hcause.mpr hprevented] at hclose
    | true =>
      have hrelay : w.handleMessage i f =
          w.queueSend j (World.deliverFrame (w.conn i).name f) := by
        rw [hsend, World.handleSend, if_neg (by omega), hfind]
      refine .inr ⟨hcause.mp hclose, by rw [hrelay]; exact hclose, ?_⟩
      rw [hrelay, World.peer, World.queueSend_clients]
      split_ifs with hij
      · rw [hij]
        rfl
      · simp

/-- A `DMSG_SEND` of two bytes to "b". -/
def sendToB : Frame := ⟨MsgType.send.code, letterName 98 ++ [1, 2]⟩

/-- The message is delivered when the socket takes some of it, and lost when the socket
reports an error. -/
theorem relay_outcome_sendToB :
    (twoClients [.sent 8, .sent 8, .sent 5]).Relayed 0 sendToB ∧
      (twoClients [.sent 8, .sent 8, .fail]).Lost 0 sendToB 1 := by
  have hfind (r : SendResult) (hr : r = .sent 5 ∨ r = .fail) :
      (twoClients [.sent 8, .sent 8, r]).findClientByName (World.nameField sendToB.payload) none =
        some 1 := by
    rcases hr with rfl | rfl <;> decide +kernel
  constructor
  · have hopen : (((twoClients [.sent 8, .sent 8, .sent 5]).handleMessage 0 sendToB).conn
        1).shouldClose = false := by decide +kernel
    obtain ⟨hnone, -⟩ | ⟨j, hj, ⟨-, hrelayed⟩ | ⟨-, hlost⟩⟩ := relay_outcome
      (twoClients_run [.sent 8, .sent 8, .sent 5]).reachable (i := 0) (f := sendToB)
      (by decide +kernel) rfl (by decide)
    · cases hnone.symm.trans (hfind _ (.inl rfl))
    · exact hrelayed
    · obtain rfl : j = 1 := Option.some.inj (hj.symm.trans (hfind _ (.inl rfl)))
      simp [hlost.marked] at hopen
  · have hclose : (((twoClients [.sent 8, .sent 8, .fail]).handleMessage 0 sendToB).conn
        1).shouldClose = true := by decide +kernel
    obtain ⟨hnone, -⟩ | ⟨j, hj, ⟨-, k, hk, hcarries⟩ | ⟨-, hlost⟩⟩ := relay_outcome
      (twoClients_run [.sent 8, .sent 8, .fail]).reachable (i := 0) (f := sendToB)
      (by decide +kernel) rfl (by decide)
    · cases hnone.symm.trans (hfind _ (.inr rfl))
    · obtain rfl : k = 1 := Option.some.inj (hk.symm.trans (hfind _ (.inr rfl)))
      simp [hcarries.opened] at hclose
    · obtain rfl : j = 1 := Option.some.inj (hj.symm.trans (hfind _ (.inr rfl)))
      exact hlost

/-- When the destination's socket reports an error on the `DMSG_DELIVER`, the
message is lost and the sender is told nothing. -/
theorem relay_lost : ∃ (b : Boot) (w : World), Reachable b w ∧ ∃ (i : Slot) (f : Frame),
    (w.conn i).registered = true ∧ f.type = MsgType.send.code ∧ nameMax ≤ f.payload.length ∧
      ¬w.Relayed i f ∧ ¬w.Refused i f := by
  refine ⟨_, twoClients [.sent 8, .sent 8, .fail], (twoClients_run _).reachable, 0, sendToB,
    by decide +kernel, rfl, by decide, ?_, ?_⟩
  · rintro ⟨j, hfind, hcarries⟩
    have hj : (twoClients [.sent 8, .sent 8, .fail]).findClientByName
        (World.nameField sendToB.payload) none = some 1 := by decide +kernel
    obtain rfl : j = 1 := Option.some.inj (hfind.symm.trans hj)
    have hclose : (((twoClients [.sent 8, .sent 8, .fail]).handleMessage 0 sendToB).conn
        1).shouldClose = true := by decide +kernel
    simp [hcarries.opened] at hclose
  · rintro ⟨e, hqueued⟩
    have hsame : (((twoClients [.sent 8, .sent 8, .fail]).handleMessage 0 sendToB).peer 0).queued =
        ((twoClients [.sent 8, .sent 8, .fail]).peer 0).queued := by decide +kernel
    rw [hsame] at hqueued
    simp at hqueued

end PiDaemon.Server
