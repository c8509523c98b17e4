import PiDaemon.App.Deliver
import PiDaemon.Client.Relay
import PiDaemon.Network.Bridge

/-!
# Between the OBC and the payload application

The path of one message through three processes, in both directions: serial link,
bridge, client library, server, client library, application, and back. On every
leg the APID and the data arrive as they left, and the padding of short bodies
stays on the link.
-/

namespace PiDaemon.Network

open Base Proto Client Server

structure Attached (w : World) (n a : Slot) : Prop where
  network : w.Routable n
  networkName : cString ((w.conn n).name.take nameMax) = networkName
  app : w.Routable a
  appName : cString ((w.conn a).name.take nameMax) = payloadAppName

/-- The server reads frame `f` of slot `i` off its buffer, whatever follows it there,
and passes it on to slot `j`, unless the connection of slot `j` is given up over it;
a client that reads on from there meets `P`. -/
def Reaches (w : World) (i j : Slot) (f : Frame) (P : Socket → Prop) : Prop :=
  ∀ rest : List UInt8,
    (∀ padding, ∃ hdr, frameFormat.head (f.encode padding ++ rest) = .frame hdr f.payload rest ∧
      hdrType hdr = f.type) ∧
    (((w.dispatch i f rest).conn j).shouldClose = false →
      ∃ g, (w.dispatch i f rest).Carries j (w.peer j).queued g ∧
        ∀ (t : Socket) (padding : UInt16) (later : List UInt8), t.Sound →
          t.incoming = g.encode padding ++ later → P t)

/-- The frame with which one process sends a message in `net_ipc` framing to another. -/
def netIpcSend (dest : List UInt8) (apid : UInt16) (data : List UInt8) : Frame :=
  sendFrame dest ((⟨apid, UInt16.ofNat data.length⟩ : NetIpcHdr).encode ++ data)

/-- The body that the OBC builds for `apid` and `data` ends in the handler of
`apid`, on `data`. -/
def FromObc (link : PayloadLink) (w : World) (n a : Slot) (s : Socket) (apid : UInt16)
    (data : List UInt8) : Prop :=
  ∃ (s' : Socket) (padding : UInt16), onDecoded link s (.ok (buildBody apid data)) = some s' ∧
    s'.outgoing = s.outgoing ++ (netIpcSend payloadAppName apid data).encode padding ∧
      Reaches w n a (netIpcSend payloadAppName apid data) fun t => ∀ stack : Mem,
        ∃ d : App.Delivery, (App.onDaemonReadable t stack).2 = some d ∧ d.apid.code = apid ∧
          d.data.len = data.length ∧ d.data.mem.load 0 data.length = data

/-- What the application sends on `apid` is written to the link in a frame whose
body parses to `apid` and `data`. -/
def ToObc (link : PayloadLink) (allowed : UInt16 → Bool) (w : World) (n a : Slot) (s : Socket)
    (apid : UInt16) (data : List UInt8) : Prop :=
  ∃ (s' : Socket) (padding : UInt16), App.sendToNetwork s apid data = some (s', .ok ()) ∧
    s'.outgoing = s.outgoing ++ (netIpcSend Proto.networkName apid data).encode padding ∧
      Reaches w a n (netIpcSend Proto.networkName apid data) fun t =>
        ∀ (serial : List UInt8) (writes : List IoResult), Writable false writes →
          ∃ frame : List UInt8,
            (onDaemonReadable link allowed ⟨t, serial, writes⟩).serial = serial ++ frame ∧
              (link.decode frame).bind (parseBody link) = some (apid, data)

/-- A message in `net_ipc` framing that one process sends to the other by name. -/
theorem reaches_of_send {b : Boot} {w : World} (h : Reachable b w) {i j : Slot}
    (hi : w.Routable i) (hj : w.Routable j) {dest : List UInt8}
    (hdest : cString dest = dest) (hshort : dest.length ≤ nameMax - 1)
    (hname : cString ((w.conn j).name.take nameMax) = dest) {msg : List UInt8}
    (hlen : msg.length ≤ netIpcHdrSize + netIpcMaxData) {P : Socket → Prop}
    (hP : ∀ t t' : Socket, daemonClientRecv t maxMsgPayload =
      (t', .ok ⟨MsgType.deliver.code, (w.conn i).name, msg⟩) → P t) :
    Reaches w i j (sendFrame dest msg) P := by
  have hmax : nameMax + (netIpcHdrSize + netIpcMaxData) ≤ maxMsgPayload := by decide
  have hframe : (sendFrame dest msg).payload.length ≤ maxMsgPayload := by
    rw [sendFrame, List.length_append, length_nameBody]
    omega
  intro rest
  constructor
  · exact fun padding => ⟨_, head_encode hframe padding rest, hdrType_hdrBytes _ _ _⟩
  · intro hopen
    obtain ⟨g, hcarries, hread⟩ := relay_read h hi.2 hj
      (by rw [hname, hdest, List.take_of_length_le hshort]) (by omega) hopen
    refine ⟨g, hcarries, fun t padding later ht hin => ?_⟩
    obtain ⟨t', -, -, -, hrecv⟩ := hread t padding later ht hin
    exact hP t t' hrecv

theorem netIpcSend_spec (dest : List UInt8) (apid : UInt16) {data : List UInt8}
    (h : data.length ≤ netIpcMaxData) : ∃ hdr : NetIpcHdr,
      netIpcFrame apid data = some (hdr.encode ++ data) ∧
        netIpcSend dest apid data = sendFrame dest (hdr.encode ++ data) ∧ hdr.apid = apid ∧
          hdr.len.toNat = data.length := by
  refine ⟨⟨apid, UInt16.ofNat data.length⟩, if_neg (Nat.not_lt.mpr h), rfl, rfl, ?_⟩
  rw [UInt16.toNat_ofNat', Nat.mod_eq_of_lt (h.trans_lt (by decide))]

section Legs
variable {link : PayloadLink} {b : Boot} {w : World} {n a : Slot} {s : Socket} {apid : UInt16}
  {data : List UInt8}

theorem fromObc (hbe : link.BigEndian) (h : Reachable b w) (hat : Attached w n a) (hs : s.Sound)
    (hlen : data.length ≤ netIpcMaxData) (hapid : apid ∈ listenApids) :
    FromObc link w n a s apid data := by
  obtain ⟨x, -, rfl⟩ := List.mem_map.mp hapid
  obtain ⟨hdr, hframe, hsendFrame, hcode, hn⟩ := netIpcSend_spec payloadAppName x.code hlen
  have hmsg : (hdr.encode ++ data).length ≤ netIpcHdrSize + netIpcMaxData := by
    rw [List.length_append, NetIpcHdr.length_encode]
    omega
  obtain ⟨s', padding, -, -, hout, hsend⟩ := daemonClientSend_spec hs payloadAppName
    (hmsg.trans (by decide))
  refine ⟨s', padding, ?_, by rw [hout, hsendFrame], ?_⟩
  · have hparse : parseBody link (buildBody x.code data) = some (x.code, data) :=
      parseBody_buildBody hbe (hlen.trans_lt (by decide))
    simp [onDecoded, hparse, dispatchFromObc, forwardToApp, hframe, hsend]
  · rw [hsendFrame]
    apply reaches_of_send h hat.network hat.app (by decide) (by decide) hat.appName hmsg
    intro t t' hrecv stack
    obtain ⟨d, hd, hdapid, hdlen, hdata⟩ := App.handleDeliver_spec hcode hn
      (stack.load_store_self 0 (hdr.encode ++ data))
    refine ⟨d, ?_, by rw [hdapid], hdlen, hdata⟩
    rw [App.onDaemonReadable, hrecv]
    dsimp only
    rw [if_pos rfl]
    exact hd

/-- `link_send` frames a body that parses to what it was given. -/
theorem linkSend_spec (hbe : link.BigEndian) (apid : UInt16) (hlen : data.length ≤ netIpcMaxData)
    {m : Bridge} (hm : Writable false m.serialWrites) :
    ∃ frame, (linkSend link m apid data).1.serial = m.serial ++ frame ∧
      (link.decode frame).bind (parseBody link) = some (apid, data) := by
  have hfit : netIpcMaxData ≤ linkBodyMaxData := by decide
  obtain ⟨hmin, hmax⟩ := legal_buildBody apid (hlen.trans hfit)
  obtain ⟨ws, -, hwrite⟩ := writeFully_spec m.serialWrites (link.encode (buildBody apid data)) hm
  refine ⟨link.encode (buildBody apid data), ?_, ?_⟩
  · have hne : ¬(link.encode (buildBody apid data)).length = 0 := fun hz =>
      link.encode_ne_nil _ hmin hmax (List.length_eq_zero_iff.mp hz)
    rw [linkSend, if_neg (by omega), packBody_eq hbe]
    simp only [if_neg hne, hwrite]
  · rw [link.decode_encode _ hmin hmax, Option.bind_some]
    exact parseBody_buildBody hbe (hlen.trans_lt (by decide))

theorem toObc (hbe : link.BigEndian) {allowed : UInt16 → Bool} (h : Reachable b w)
    (hat : Attached w n a) (hs : s.Sound) (hlen : data.length ≤ netIpcMaxData)
    (hallowed : allowed apid = true) : ToObc link allowed w n a s apid data := by
  obtain ⟨hdr, hframe, hsendFrame, hcode, hn⟩ := netIpcSend_spec Proto.networkName apid hlen
  have hmsg : (hdr.encode ++ data).length = netIpcHdrSize + data.length := by simp
  have hmax : (hdr.encode ++ data).length ≤ maxMsgPayload :=
    (hmsg.trans_le (Nat.add_le_add_left hlen _)).trans (by decide)
  obtain ⟨s', padding, -, -, hout, hsend⟩ := daemonClientSend_spec hs Proto.networkName hmax
  refine ⟨s', padding, ?_, by rw [hout, hsendFrame], ?_⟩
  · simp [App.sendToNetwork, hframe, hsend]
  · rw [hsendFrame]
    apply reaches_of_send h hat.app hat.network (by decide) (by decide) hat.networkName (by omega)
    intro t t' hrecv serial writes hwrites
    have hdata : slice (hdr.encode ++ data) netIpcHdrSize data.length = data := by
      simpa using slice_field hdr.encode [] netIpcHdrSize (rfl : data.length = _) (by simp)
    obtain ⟨frame, hserial, hdecode⟩ := linkSend_spec hbe apid hlen
      (m := ⟨t', serial, writes⟩) hwrites
    refine ⟨frame, ?_, hdecode⟩
    rw [onDaemonReadable, hrecv]
    simpa [handleAppDelivery, hmsg, NetIpcHdr.decode_encode, NetIpcHdr.Fits, hn, hcode, hallowed,
      hdata] using hserial

end Legs

/-- Whatever the OBC and the application send each other through the bridge and
the daemon arrives with its APID and its data, for every message of at most
`NET_IPC_MAX_DATA` bytes. -/
theorem obc_app_transparent {link : PayloadLink} (hbe : link.BigEndian) (allowed : UInt16 → Bool)
    {b : Boot} {w : World} (h : Reachable b w) {n a : Slot} (hat : Attached w n a) {s : Socket}
    (hs : s.Sound) (apid : UInt16) {data : List UInt8} (hlen : data.length ≤ netIpcMaxData) :
    (apid ∈ listenApids → FromObc link w n a s apid data) ∧
      (allowed apid = true → ToObc link allowed w n a s apid data) :=
  ⟨fromObc hbe h hat hs hlen, toObc hbe h hat hs hlen⟩

def bothUp : World :=
  let readable : World.Ready := { revents := { pollin := true }, recvs := [.bytes 40, .again] }
  ((Boot.fresh [.sent 8, .sent 8] []).world.round [readable]
    [.conn 5 ((registerFrame networkName).encode 0),
      .conn 6 ((registerFrame payloadAppName).encode 0)]).round [{}, readable, readable] []

theorem bothUp_run : Run (Boot.fresh [.sent 8, .sent 8] []) bothUp := by
  unfold bothUp
  exact .round _ _ (.round _ _ .boot)

/-- The APIDs that `payload_app.c` sends on, as the bus accepts them from the payload. -/
def payToBus (apid : UInt16) : Bool :=
  apid ∈ [0x011, 0x012, 0x021, 0x030, 0x031, 0x032, 0x035]

/-- The time synchronisation ping of `obc_test.py` arrives at the handler of commands, and a
two-byte answer comes out on the link. -/
theorem obc_app_transparent_ping :
    (∃ g, (bothUp.dispatch 0 (netIpcSend payloadAppName 0x010 [0x03]) []).Carries 1
        (bothUp.peer 1).queued g ∧ ∃ d : App.Delivery,
          (App.onDaemonReadable { incoming := g.encode 0xABCD } fun _ => 0).2 = some d ∧
            d.apid.code = 0x010 ∧ d.data.mem.load 0 1 = [0x03]) ∧
      ∃ g, (bothUp.dispatch 1 (netIpcSend networkName 0x012 [0x03, 0x00]) []).Carries 0
        (bothUp.peer 0).queued g ∧ ∃ frame,
          (onDaemonReadable obcLink payToBus ⟨{ incoming := g.encode 0 }, [], []⟩).serial = frame ∧
            (decodeFrame frame).bind (parseBody obcLink) = some (0x012, [0x03, 0x00]) := by
  have hat : Attached bothUp 0 1 :=
    ⟨⟨by decide +kernel, by decide +kernel⟩, by decide +kernel,
      ⟨by decide +kernel, by decide +kernel⟩, by decide +kernel⟩
  have hs (incoming : List UInt8) : ({ incoming := incoming } : Socket).Sound :=
    ⟨by simp, by simp [Writable]⟩
  have h := bothUp_run.reachable
  constructor
  · have hlen : ([0x03] : List UInt8).length ≤ netIpcMaxData := by decide
    obtain ⟨s', -, -, -, hreach⟩ :=
      (obc_app_transparent obcLink_bigEndian payToBus h hat (hs []) 0x010 hlen).1 (by decide)
    obtain ⟨g, hcarries, hread⟩ := (hreach []).2 (by decide +kernel)
    obtain ⟨d, hd, hapid, -, hdata⟩ :=
      hread { incoming := g.encode 0xABCD } 0xABCD [] (hs _) (by simp) fun _ => 0
    exact ⟨g, hcarries, d, hd, hapid, hdata⟩
  · have hlen : ([0x03, 0x00] : List UInt8).length ≤ netIpcMaxData := by decide
    obtain ⟨s', -, -, -, hreach⟩ :=
      (obc_app_transparent obcLink_bigEndian payToBus h hat (hs []) 0x012 hlen).2 (by decide)
    obtain ⟨g, hcarries, hread⟩ := (hreach []).2 (by decide +kernel)
    obtain ⟨frame, hframe, hparse⟩ := hread { incoming := g.encode 0 } 0 [] (hs _) (by simp) [] []
      ⟨by simp, by simp⟩
    exact ⟨g, hcarries, frame, hframe, hparse⟩

end PiDaemon.Network
