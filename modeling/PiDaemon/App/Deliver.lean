import PiDaemon.App.Bulk
import PiDaemon.Client.Ipc

/-!
# Deliveries to the payload application

The receiving half of `payload_app.c` up to the point where a handler takes over,
and `send_to_network`. The receive buffer is on the stack of `main`: behind the
bytes of the message it holds whatever was there before.
-/

namespace PiDaemon.App

open Base Proto Client

/-- `send_to_network`; `none` when its frame buffer is overrun. -/
def sendToNetwork (s : Socket) (apid : UInt16) (data : List UInt8) :
    Option (Socket × Except ClientErr Unit) :=
  (netIpcFrame apid data).map fun frame => daemonClientSend s networkName frame

/-- A call that the switch of `handle_deliver` makes: which handler, and on what. -/
structure Delivery where
  apid : RxApid
  data : Inbound

/-- `handle_deliver` up to the call of a handler, if it comes to one. -/
def handleDeliver (buf : Inbound) : Option Delivery :=
  if buf.len < netIpcHdrSize then none
  else
    let hdr := NetIpcHdr.decode (buf.mem.load 0 netIpcHdrSize)
    if ¬hdr.Fits buf.len then none
    else (RxApid.ofCode? hdr.apid).map fun a => ⟨a, buf.mem.advance netIpcHdrSize, hdr.len.toNat⟩

/-- The main loop when the daemon's socket is readable; `stack` is what the
receive buffer held before. -/
def onDaemonReadable (s : Socket) (stack : Mem) : Socket × Option Delivery :=
  match daemonClientRecv s maxMsgPayload with
  | (s, .ok m) =>
    (s, if m.type = MsgType.deliver.code then
      handleDeliver ⟨stack.store 0 m.payload, m.payload.length⟩ else none)
  | (s, .error _) => (s, none)

theorem handleDeliver_spec {hdr : NetIpcHdr} {a : RxApid} {data : List UInt8} {m : Mem}
    (hapid : hdr.apid = a.code) (hlen : hdr.len.toNat = data.length)
    (hm : m.load 0 (hdr.encode ++ data).length = hdr.encode ++ data) :
    ∃ d, handleDeliver ⟨m, (hdr.encode ++ data).length⟩ = some d ∧
      d.apid = a ∧ d.data.len = data.length ∧ d.data.mem.load 0 data.length = data := by
  obtain ⟨hhdr, hdata⟩ := Mem.load_append hm
  rw [NetIpcHdr.length_encode] at hhdr hdata
  have hdecode : NetIpcHdr.decode hdr.encode = hdr := by simpa using hdr.decode_encode []
  have hlong : (hdr.encode ++ data).length = netIpcHdrSize + data.length := by simp
  refine ⟨⟨a, m.advance netIpcHdrSize, hdr.len.toNat⟩, ?_, rfl, hlen, ?_⟩
  · simp [handleDeliver, NetIpcHdr.Fits, hhdr, hdecode, hlong, hlen, hapid]
  · exact (m.load_advance netIpcHdrSize 0 _).trans (by simpa using hdata)

end PiDaemon.App
