import PiDaemon.Client.Relay
import PiDaemon.Server.Incoming
import PiDaemon.Server.Protocol

/-!
# How long a relayed message may be

The library turns down messages above `DAEMON_MAX_MSG_PAYLOAD`, and the server
frames above the same limit. The name field of a `DMSG_SEND` counts for the second
limit and not for the first, so what lies between the two is accepted by the
library and costs the sender its connection.
-/

namespace PiDaemon.Client

open Base Proto Server

/-- Slot `i` holds an open connection that registered as `name` through
`daemon_client_connect`. -/
structure ConnectedAs (w : World) (i : Slot) (name : List UInt8) : Prop where
  inUse : (w.conn i).inUse = true
  registered : (w.conn i).registered = true
  opened : (w.conn i).shouldClose = false
  first : (w.peer i).handled.head? = some (registerFrame name)

theorem ConnectedAs.name_eq {b : Boot} {w : World} {i : Slot} {name : List UInt8}
    (h : ConnectedAs w i name) (hreach : Reachable b w) : (w.conn i).name = nameBody name := by
  cases (conversation_of_reachable hreach).live i with
  | silent hr | refused _ _ hr => exact absurd h.registered (by simpa using hr)
  | registered _ _ f _ _ _ hh hn =>
    have hfirst := h.first
    rw [hh] at hfirst
    obtain rfl : f = registerFrame name := Option.some.inj hfirst
    have hfield := nameField_nameBody name []
    rw [List.append_nil] at hfield
    rw [hn, registerFrame, hfield, nameBody, strncpy_strncpy]

/-- From `w` to `w'` slot `j` gets one frame and no other slot any; the frame is
read as `data` from `src`; and slot `i` stays open. -/
structure RelayedIntact (w w' : World) (i j : Slot) (src data : List UInt8) : Prop where
  delivered : ∃ d : Frame, w'.Carries j (w.peer j).queued d ∧
    ∀ (t : Socket) (padding : UInt16) (later : List UInt8), t.Sound →
      t.incoming = d.encode padding ++ later →
      ∃ t' : Socket, t'.incoming = later ∧
        daemonClientRecv t maxMsgPayload = (t', .ok ⟨MsgType.deliver.code, nameBody src, data⟩)
  others : ∀ k, k ≠ j → (w'.peer k).queued = (w.peer k).queued
  sender : (w'.conn i).shouldClose = false

/-- Whether `queue_send` gives a connection up does not depend on its receive buffer. -/
theorem consume_queueSend_shouldClose (w : World) (i j : Slot) (f g : Frame) (rest : List UInt8) :
    (((w.consume i f rest).queueSend j g).conn j).shouldClose =
      ((w.queueSend j g).conn j).shouldClose := by
  have hpaddings : (w.consume i f rest).paddings = w.paddings := rfl
  have hsends : (w.consume i f rest).sends = w.sends := rfl
  have hreallocs : (w.consume i f rest).reallocs = w.reallocs := rfl
  simp only [World.conn, World.queueSend_clients, if_true, hpaddings, hsends, hreallocs,
    World.consume_clients]
  split_ifs with hj
  · subst hj
    rw [← Endpoint.setRx_queueSend]
    rfl
  · rfl

section Turn
variable {b : Boot} {w : World} {i j : Slot} {src dst dest data rest : List UInt8} {s : Socket}
  {padding : UInt16}

/-- What `daemon_client_send` wrote is the frame the server has ahead of it. -/
theorem ahead_of_sent (hs : s.Sound) (hlen : data.length ≤ maxMsgPayload)
    (hahead : s.outgoing ++ (w.clients i).ahead = (daemonClientSend s dest data).1.outgoing ++ rest) :
    ∃ padding, (w.clients i).ahead = (sendFrame dest data).encode padding ++ rest := by
  obtain ⟨s', padding, -, -, hout, hsend⟩ := daemonClientSend_spec hs dest hlen
  rw [hsend, hout, List.append_assoc] at hahead
  exact ⟨padding, List.append_cancel_left hahead⟩

theorem length_sendFrame (dest data : List UInt8) :
    (sendFrame dest data).payload.length = nameMax + data.length := by
  rw [sendFrame, List.length_append, length_nameBody]

theorem parseLoop_fitting (hopen : (w.conn i).shouldClose = false)
    (hahead : (w.clients i).ahead = (sendFrame dest data).encode padding ++ rest)
    (hknown : frameFormat.head (w.conn i).rxbuf ≠ .short)
    (hfits : data.length ≤ maxMsgPayload - nameMax) :
    ∃ rest', World.parseLoop 1 w i = w.dispatch i (sendFrame dest data) rest' := by
  have hmax : nameMax ≤ maxMsgPayload := by decide
  have hhead := head_encode (f := sendFrame dest data) (by rw [length_sendFrame]; omega) padding rest
  rw [← hahead, Endpoint.ahead] at hhead
  obtain ⟨rest', hbuf⟩ := frameFormat.head_of_append_frame hknown hhead
  refine ⟨rest', ?_⟩
  simp only [World.parseLoop, hopen, Bool.false_eq_true, if_false, hbuf, hdrType_hdrBytes]

theorem parseLoop_oversized (hopen : (w.conn i).shouldClose = false)
    (hahead : (w.clients i).ahead = (sendFrame dest data).encode padding ++ rest)
    (hknown : frameFormat.head (w.conn i).rxbuf ≠ .short)
    (hlen : data.length ≤ maxMsgPayload) (hlong : maxMsgPayload - nameMax < data.length) :
    World.parseLoop 1 w i = w.condemn i := by
  have hmax : nameMax + maxMsgPayload < 2 ^ 32 := by decide
  have hhead := head_encode_oversized (f := sendFrame dest data)
    (by rw [length_sendFrame]; omega) (by rw [length_sendFrame]; omega) padding rest
  rw [← hahead, Endpoint.ahead] at hhead
  have hbuf := frameFormat.head_of_append_oversized hknown hhead
  simp only [World.parseLoop, hopen, Bool.false_eq_true, if_false, hbuf]

/-- Once the server has handled it, a message that `daemon_client_send` accepted has
been relayed intact exactly if the name field and the data together keep to
`DAEMON_MAX_MSG_PAYLOAD`. -/
theorem relay_intact_iff (h : Reachable b w) (hi : ConnectedAs w i src) (hj : ConnectedAs w j dst)
    (hdest : (cString dest).take (nameMax - 1) = (cString dst).take (nameMax - 1)) (hs : s.Sound)
    (haccept : (daemonClientSend s dest data).2 ≠ .error .emsgsize)
    (hahead : s.outgoing ++ (w.clients i).ahead = (daemonClientSend s dest data).1.outgoing ++ rest)
    (hknown : frameFormat.head (w.conn i).rxbuf ≠ .short)
    (hio : ((w.queueSend j ⟨MsgType.deliver.code, nameBody src ++ data⟩).conn j).shouldClose =
      false) :
    RelayedIntact w (World.parseLoop 1 w i) i j src data ↔
      data.length ≤ maxMsgPayload - nameMax := by
  have hlen : data.length ≤ maxMsgPayload := by
    by_contra hlong
    exact haccept (by rw [daemonClientSend, if_pos (Nat.not_le.mp hlong)])
  obtain ⟨padding, hsent⟩ := ahead_of_sent hs hlen hahead
  have hname : cString ((w.conn j).name.take nameMax) = (cString dest).take (nameMax - 1) := by
    rw [hj.name_eq h, cString_nameBody, hdest]
  constructor
  · intro hintact
    by_contra hlong
    have hclosed := hintact.sender
    rw [parseLoop_oversized hi.opened hsent hknown hlen (Nat.not_le.mp hlong)] at hclosed
    simp [World.condemn, World.conn] at hclosed
  · intro hfits
    obtain ⟨rest', hturn⟩ := parseLoop_fitting hi.opened hsent hknown hfits
    have hdispatch := dispatch_send h hi.registered ⟨hj.inUse, hj.registered⟩ hname data rest'
    have hopen : ((w.dispatch i (sendFrame dest data) rest').conn j).shouldClose = false := by
      rw [hdispatch, consume_queueSend_shouldClose, hi.name_eq h]
      exact hio
    rw [hturn]
    refine ⟨?_, fun k hk => ?_, ?_⟩
    · obtain ⟨d, hcarries, hread⟩ :=
        relay_read h hi.registered ⟨hj.inUse, hj.registered⟩ hname hlen hopen
      refine ⟨d, hcarries, fun t padding later ht hin => ?_⟩
      obtain ⟨t', -, hlater, -, hrecv⟩ := hread t padding later ht hin
      exact ⟨t', hlater, by rw [hrecv, hi.name_eq h]⟩
    · rw [hdispatch, World.peer, World.queueSend_clients, if_neg hk]
      exact w.consume_queued i _ _ k
    · by_cases hij : i = j
      · subst hij
        exact hopen
      · rw [hdispatch, World.conn, World.queueSend_clients, if_neg hij]
        exact (congrArg ClientConn.shouldClose (w.consume_conn i _ _ i)).trans hi.opened

end Turn

def sending (data : List UInt8) : World :=
  let readable : World.Ready := { revents := { pollin := true }, recvs := [.bytes 40, .again] }
  ((Boot.fresh [.sent 8, .sent 8] []).world.round [readable]
    [.conn 5 ((registerFrame [97]).encode 0 ++ (sendFrame [98] data).encode 0),
      .conn 6 ((registerFrame [98]).encode 0)]).round [{}, readable, readable] []

theorem sending_receive {data : List UInt8} {n : ℕ}
    (hready : ((sending data).conn 0).inUse = true ∧ ((sending data).conn 0).shouldClose = false ∧
      n ≤ rxCap - ((sending data).conn 0).rxbuf.length) :
    Reachable (Boot.fresh [.sent 8, .sent 8] []) ((sending data).receive 0 n) := by
  have hrun : Run (Boot.fresh [.sent 8, .sent 8] []) (sending data) := by
    unfold sending
    exact .round _ _ (.round _ _ .boot)
  exact hrun.reachable.tail (.receive _ 0 n hready.1 hready.2.1 hready.2.2)

def senderA : Socket := { incoming := [], outgoing := (registerFrame [97]).encode 0 }

theorem senderA_sound : senderA.Sound := ⟨by simp [senderA], by simp [senderA, Writable]⟩

/-- Two bytes from "a" to "b". -/
theorem relay_intact_two : RelayedIntact ((sending [1, 2]).receive 0 42)
    (World.parseLoop 1 ((sending [1, 2]).receive 0 42) 0) 0 1 [97] [1, 2] := by
  have hi : ConnectedAs ((sending [1, 2]).receive 0 42) 0 [97] :=
    ⟨by decide +kernel, by decide +kernel, by decide +kernel, by decide +kernel⟩
  have hj : ConnectedAs ((sending [1, 2]).receive 0 42) 1 [98] :=
    ⟨by decide +kernel, by decide +kernel, by decide +kernel, by decide +kernel⟩
  have hahead : senderA.outgoing ++ (((sending [1, 2]).receive 0 42).clients 0).ahead =
      (daemonClientSend senderA [98] [1, 2]).1.outgoing ++ [] := by decide +kernel
  exact (relay_intact_iff (sending_receive (by decide +kernel)) hi hj rfl senderA_sound
    (by decide +kernel) hahead (by decide +kernel) (by decide +kernel)).mpr (by decide)

def tooLong : List UInt8 := List.replicate 4065 0

/-- The library accepts the message; the server gives its sender up. -/
theorem relay_lost_oversized : ∃ (b : Boot) (w : World), Reachable b w ∧
    ∃ (i j : Slot) (src dst dest data rest : List UInt8) (s : Socket),
      ConnectedAs w i src ∧ ConnectedAs w j dst ∧
      (cString dest).take (nameMax - 1) = (cString dst).take (nameMax - 1) ∧ s.Sound ∧
      (daemonClientSend s dest data).2 ≠ .error .emsgsize ∧
      s.outgoing ++ (w.clients i).ahead = (daemonClientSend s dest data).1.outgoing ++ rest ∧
      frameFormat.head (w.conn i).rxbuf ≠ .short ∧
      ((w.queueSend j ⟨MsgType.deliver.code, nameBody src ++ data⟩).conn j).shouldClose = false ∧
      ¬RelayedIntact w (World.parseLoop 1 w i) i j src data := by
  -- the streams are too long for the kernel's `List.decEq`, but not for `==`
  have hahead : senderA.outgoing ++ (((sending tooLong).receive 0 8).clients 0).ahead =
      (daemonClientSend senderA [98] tooLong).1.outgoing ++ [] := eq_of_beq (by decide +kernel)
  refine ⟨_, (sending tooLong).receive 0 8, sending_receive (by decide +kernel), 0, 1, [97], [98],
    [98], tooLong, [], senderA,
    ⟨by decide +kernel, by decide +kernel, by decide +kernel, by decide +kernel⟩,
    ⟨by decide +kernel, by decide +kernel, by decide +kernel, by decide +kernel⟩, rfl, senderA_sound,
    by decide +kernel, hahead, by decide +kernel, by decide +kernel, fun hintact => ?_⟩
  have hclosed : ((World.parseLoop 1 ((sending tooLong).receive 0 8) 0).conn 0).shouldClose = true := by
    decide +kernel
  rw [hintact.sender] at hclosed
  cases hclosed

end PiDaemon.Client
