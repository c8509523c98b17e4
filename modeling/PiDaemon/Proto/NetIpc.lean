import PiDaemon.Base.Bytes
import PiDaemon.Base.CString

/-!
# Messages between the network process and the payload application

`net_ipc.h`, and the APIDs the two processes agree on. A message is a
`net_ipc_hdr_t` in the host's layout and the user data of one APID behind it; it
travels as the data of a `DMSG_SEND`. The values of `star/payload_apids.h` are
those `payload_app.c` defines for itself.
-/

namespace PiDaemon.Proto

open Base

/-- `NET_IPC_MAX_DATA`. -/
def netIpcMaxData : ℕ := 512

/-- `sizeof(net_ipc_hdr_t)`. -/
def netIpcHdrSize : ℕ := 4

/-- `NET_IPC_NETWORK_NAME`. -/
def networkName : List UInt8 := ascii "network"

/-- `NET_IPC_PAYLOAD_APP_NAME`. -/
def payloadAppName : List UInt8 := ascii "payload_app"

/-- The APIDs that come from the OBC: `listen_apids` of the network process, and
the cases of `handle_deliver` in the application. -/
inductive RxApid
  | payloadCommand
  | adcsTelemetry
  | adcsResponse
  | experimentTable
  | controlAlgorithm
  | bulkDataResponse
  deriving DecidableEq, Repr

namespace RxApid

def code : RxApid → UInt16
  | payloadCommand => 0x010
  | adcsTelemetry => 0x020
  | adcsResponse => 0x022
  | experimentTable => 0x033
  | controlAlgorithm => 0x034
  | bulkDataResponse => 0x035

def all : List RxApid :=
  [payloadCommand, adcsTelemetry, adcsResponse, experimentTable, controlAlgorithm, bulkDataResponse]

def ofCode? (apid : UInt16) : Option RxApid := all.find? fun a => a.code = apid

@[simp] theorem ofCode?_code (a : RxApid) : ofCode? a.code = some a := by
  cases a <;> rfl

theorem code_of_ofCode? {apid : UInt16} {a : RxApid} (h : ofCode? apid = some a) : a.code = apid := by
  simpa using List.find?_some h

end RxApid

/-- `listen_apids`. -/
def listenApids : List UInt16 := RxApid.all.map RxApid.code

/-! ## The header -/

/-- `net_ipc_hdr_t`. -/
structure NetIpcHdr where
  apid : UInt16
  len : UInt16
  deriving DecidableEq, Repr

def NetIpcHdr.encode (h : NetIpcHdr) : List UInt8 := le16 h.apid ++ le16 h.len

def NetIpcHdr.decode (buf : List UInt8) : NetIpcHdr := ⟨getLe16 buf 0, getLe16 buf 2⟩

@[simp] theorem NetIpcHdr.length_encode (h : NetIpcHdr) : h.encode.length = netIpcHdrSize := by
  simp [encode, netIpcHdrSize]

theorem NetIpcHdr.decode_encode (h : NetIpcHdr) (data : List UInt8) :
    decode (h.encode ++ data) = h := by
  have hapid := getLe16_field [] (le16 h.len ++ data) 0 h.apid rfl
  have hlen := getLe16_field (le16 h.apid) data 2 h.len (by simp)
  rw [List.nil_append] at hapid
  rw [decode, encode, List.append_assoc, hapid, hlen]

/-- The `frame` that `forward_to_app` and `send_to_network` build; `none` when the
copy of the data overruns it. -/
def netIpcFrame (apid : UInt16) (data : List UInt8) : Option (List UInt8) :=
  if netIpcMaxData < data.length then none
  else some ((⟨apid, UInt16.ofNat data.length⟩ : NetIpcHdr).encode ++ data)

/-- The checks of `handle_app_delivery` and `handle_deliver` on a header and the
length of the message it came in. -/
def NetIpcHdr.Fits (h : NetIpcHdr) (len : ℕ) : Prop := netIpcHdrSize + h.len.toNat ≤ len

instance (h : NetIpcHdr) (len : ℕ) : Decidable (h.Fits len) := inferInstanceAs (Decidable (_ ≤ _))

/-- What a receiver reads off a message of at most `NET_IPC_MAX_DATA` bytes of data. -/
theorem netIpcFrame_spec (apid : UInt16) {data : List UInt8} (h : data.length ≤ netIpcMaxData) :
    ∃ hdr : NetIpcHdr, netIpcFrame apid data = some (hdr.encode ++ data) ∧ hdr.apid = apid ∧
      hdr.len.toNat = data.length := by
  refine ⟨⟨apid, UInt16.ofNat data.length⟩, if_neg (Nat.not_lt.mpr h), rfl, ?_⟩
  rw [UInt16.toNat_ofNat', Nat.mod_eq_of_lt (h.trans_lt (by decide))]

end PiDaemon.Proto
