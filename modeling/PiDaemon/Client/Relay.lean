import PiDaemon.Client.Ipc
import PiDaemon.Server.Outgoing
import PiDaemon.Server.Registration

/-!
# From one client to another

What `daemon_client_send` writes, the server relays, and `daemon_client_recv`
reads on the other side, in one statement.
-/

namespace PiDaemon.Client

open Base Proto Server

/-- `daemon_client_send` writes one `DMSG_SEND`. -/
theorem daemonClientSend_spec {s : Socket} (h : s.Sound) (dest : List UInt8) {data : List UInt8}
    (hlen : data.length ≤ maxMsgPayload) :
    ∃ (s' : Socket) (padding : UInt16), s'.Sound ∧ s'.incoming = s.incoming ∧
      s'.outgoing = s.outgoing ++ (sendFrame dest data).encode padding ∧
        daemonClientSend s dest data = (s', .ok ()) := by
  obtain ⟨s', padding, hs', hin, hout, hsend⟩ := daemonSend_spec h (sendFrame dest data)
  refine ⟨s', padding, hs', hin, hout, ?_⟩
  rw [daemonClientSend, if_neg (Nat.not_lt.mpr hlen), hsend]
  rfl

/-- `daemon_client_recv` takes a `DMSG_DELIVER` apart again. -/
theorem daemonClientRecv_deliver {s : Socket} (h : s.Sound) {src data rest : List UInt8}
    {padding : UInt16} (hsrc : src.length = nameMax) (hlen : data.length ≤ maxMsgPayload)
    (hin : s.incoming = (⟨MsgType.deliver.code, src ++ data⟩ : Frame).encode padding ++ rest) :
    ∃ s' : Socket, s'.Sound ∧ s'.incoming = rest ∧ s'.outgoing = s.outgoing ∧
      daemonClientRecv s maxMsgPayload = (s', .ok ⟨MsgType.deliver.code, src, data⟩) := by
  have hsum : nameMax + maxMsgPayload < 2 ^ 32 := by decide
  have hbody : (src ++ data).length ≤ nameMax + maxMsgPayload := by
    rw [List.length_append]
    omega
  obtain ⟨rs, hrs, hrecv⟩ := daemonRecv_spec h hin (hbody.trans_lt hsum) (nameMax + maxMsgPayload)
  rw [if_pos hbody] at hrecv
  refine ⟨{ s with incoming := rest, reads := rs }, ⟨hrs, h.writes⟩, rfl, rfl, ?_⟩
  rw [daemonClientRecv, hrecv]
  have htake : (src ++ data).take nameMax = src := List.take_left' hsrc
  have hdrop : (src ++ data).drop nameMax = data := List.drop_left' hsrc
  have hshort : ¬(src ++ data).length < nameMax := by
    rw [List.length_append]
    omega
  simp only [openFrame, if_true, if_neg hshort, htake, hdrop, if_neg (Nat.not_lt.mpr hlen)]

@[simp] theorem length_nameBody (name : List UInt8) : (nameBody name).length = nameMax := by
  simp [nameBody, nameMax]

theorem nameField_nameBody (name data : List UInt8) :
    World.nameField (nameBody name ++ data) = nameBody name := by
  rw [World.nameField, nameBody, List.append_assoc, List.take_left' (length_strncpy _ _)]

theorem cString_nameBody (name : List UInt8) :
    cString ((nameBody name).take nameMax) = (cString name).take (nameMax - 1) := by
  rw [List.take_of_length_le (length_nameBody name).le, nameBody, cString_strncpy_append]

/-- Handling a `DMSG_SEND` to a registered name is queueing a `DMSG_DELIVER` to it. -/
theorem dispatch_send {b : Boot} {w : World} (h : Reachable b w) {i j : Slot}
    (hi : (w.conn i).registered = true) (hj : w.Routable j) {dest : List UInt8}
    (hname : cString ((w.conn j).name.take nameMax) = (cString dest).take (nameMax - 1))
    (data rest : List UInt8) :
    w.dispatch i (sendFrame dest data) rest =
      (w.consume i (sendFrame dest data) rest).queueSend j
        ⟨MsgType.deliver.code, (w.conn i).name ++ data⟩ := by
  have hfind : w.findClientByName (World.nameField (sendFrame dest data).payload) none = some j :=
    (registry_of_reachable h).find_iff.mpr
      ⟨hj, by rw [hname, sendFrame, nameField_nameBody, cString_nameBody]⟩
  have hdeliver : World.deliverFrame (w.conn i).name (sendFrame dest data) =
      ⟨MsgType.deliver.code, (w.conn i).name ++ data⟩ := by
    rw [World.deliverFrame, sendFrame, List.drop_left' (length_nameBody dest)]
  have hi' : ((w.consume i (sendFrame dest data) rest).conn i).registered = true := by
    rw [World.consume_conn]
    exact hi
  rw [World.dispatch_eq, World.handleMessage_send hi' rfl, World.handleSend,
    if_neg (by simp [sendFrame]), World.consume_findClientByName, hfind, ← hdeliver,
    World.consume_conn]

/-- A message that a registered client sends to a registered name is put on the
stream of that client, behind what is queued there, and is read off it as it was
sent, with the name of the sender, unless the connection is given up. -/
theorem relay_read {b : Boot} {w : World} (h : Reachable b w) {i j : Slot}
    (hi : (w.conn i).registered = true) (hj : w.Routable j) {dest data rest : List UInt8}
    (hname : cString ((w.conn j).name.take nameMax) = (cString dest).take (nameMax - 1))
    (hlen : data.length ≤ maxMsgPayload)
    (hopen : ((w.dispatch i (sendFrame dest data) rest).conn j).shouldClose = false) :
    ∃ d : Frame, (w.dispatch i (sendFrame dest data) rest).Carries j (w.peer j).queued d ∧
      ∀ (s : Socket) (padding : UInt16) (later : List UInt8), s.Sound →
        s.incoming = d.encode padding ++ later →
          ∃ s' : Socket, s'.Sound ∧ s'.incoming = later ∧ s'.outgoing = s.outgoing ∧
            daemonClientRecv s maxMsgPayload =
              (s', .ok ⟨MsgType.deliver.code, (w.conn i).name, data⟩) := by
  have hfaithful : Faithful ((w.consume i (sendFrame dest data) rest).clients j) := by
    have hlive := (faithful_local.reachable h).live
    rw [World.consume_clients]
    split_ifs
    · exact ⟨(hlive i).ok, (hlive i).stream⟩
    · exact hlive j
  rw [dispatch_send h hi hj hname] at hopen ⊢
  have hcarries := hfaithful.carries _ hopen
  rw [World.consume_queued] at hcarries
  refine ⟨_, hcarries, fun s padding later hs hin => ?_⟩
  exact daemonClientRecv_deliver hs ((nameField_local.reachable h).live i).length hlen hin

end PiDaemon.Client
