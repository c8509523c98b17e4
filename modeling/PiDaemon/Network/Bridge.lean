import PiDaemon.Client.Ipc
import PiDaemon.Proto.NetIpc

/-!
# The bridge between the serial link and the daemon

`Network/src/main.c`: bodies decoded from the RS-422 link are forwarded to the
payload application, and what the application sends is framed and written to the
link. `tools/obc_test.py` builds bodies in the same layout. The framing itself
comes from the `payload_link` library and is a parameter.
-/

namespace PiDaemon.Network

open Base Proto Client

/-- `PL_MIN_BODY_LEN`. -/
def plMinBodyLen : ℕ := 7

/-- `PL_MAX_BODY_LEN`. -/
def plMaxBodyLen : ℕ := 518

/-- `LINK_BODY_HDR_SIZE`. -/
def linkBodyHdrSize : ℕ := 4

/-- `LINK_BODY_MAX_DATA`. -/
def linkBodyMaxData : ℕ := plMaxBodyLen - linkBodyHdrSize

/-- What is used of `payload_link`, which is not part of the repository. Of `frame.h` it is
assumed that `plframe_encode` frames every body of a legal size, and that decoding the frame
gives the body back; of `pack.h`, nothing here. A packer is the bytes that it appends. -/
structure PayloadLink where
  encode : List UInt8 → List UInt8
  decode : List UInt8 → Option (List UInt8)
  packBe16 : UInt16 → List UInt8
  packBe32 : UInt32 → List UInt8
  packBe64 : UInt64 → List UInt8
  unpackBe16 : List UInt8 → ℕ → UInt16
  encode_ne_nil (body : List UInt8) : plMinBodyLen ≤ body.length → body.length ≤ plMaxBodyLen →
    encode body ≠ []
  decode_encode (body : List UInt8) : plMinBodyLen ≤ body.length → body.length ≤ plMaxBodyLen →
    decode (encode body) = some body

/-- `pack.h` does what its names say. -/
structure PayloadLink.BigEndian (link : PayloadLink) : Prop where
  packBe16 (x : UInt16) : link.packBe16 x = be16 x
  packBe32 (x : UInt32) : link.packBe32 x = be32 x
  packBe64 (x : UInt64) : link.packBe64 x = be64 x
  unpackBe16 (buf : List UInt8) (off : ℕ) : off + 2 ≤ buf.length →
    link.unpackBe16 buf off = getBe16 buf off

/-- `plframe_decode_result_t`, with the decoded body. -/
inductive DecodeResult
  | needMore
  | ok (body : List UInt8)
  | badCrc
  | resync
  deriving DecidableEq, Repr

abbrev LinkMessage := UInt16 × List UInt8

/-- The body of `link_send`: APID, length, data, and zeroes up to the smallest legal body. -/
def packBody (link : PayloadLink) (apid : UInt16) (data : List UInt8) : List UInt8 :=
  let body := link.packBe16 apid ++ (link.packBe16 (UInt16.ofNat data.length) ++ data)
  body ++ List.replicate (plMinBodyLen - body.length) 0

/-- `build_body` of `obc_test.py`. -/
def buildBody (apid : UInt16) (data : List UInt8) : List UInt8 :=
  let body := be16 apid ++ (be16 (UInt16.ofNat data.length) ++ data)
  body ++ List.replicate (plMinBodyLen - body.length) 0

/-- The fields of a decoded body, unless it is a runt or claims more than it holds. -/
def parseBody (link : PayloadLink) (body : List UInt8) : Option LinkMessage :=
  let len := (link.unpackBe16 body 2).toNat
  if body.length < linkBodyHdrSize then none
  else if body.length < linkBodyHdrSize + len then none
  else some (link.unpackBe16 body 0, slice body linkBodyHdrSize len)

/-! ## From the link to the application -/

/-- `forward_to_app`; `none` when its frame buffer is overrun. The result of
`daemon_client_send` is ignored. -/
def forwardToApp (s : Socket) (apid : UInt16) (data : List UInt8) : Option Socket :=
  (netIpcFrame apid data).map fun frame => (daemonClientSend s payloadAppName frame).1

/-- `dispatch_from_obc` with the handlers it calls, each of which forwards on its
own APID; anything else is only logged. -/
def dispatchFromObc (s : Socket) (apid : UInt16) (data : List UInt8) : Option Socket :=
  match RxApid.ofCode? apid with
  | some a => forwardToApp s a.code data
  | none => some s

/-- The event loop's handling of one result of `plframe_decode_feed`. -/
def onDecoded (link : PayloadLink) (s : Socket) : DecodeResult → Option Socket
  | .ok body =>
    match parseBody link body with
    | some (apid, data) => dispatchFromObc s apid data
    | none => some s
  | .needMore | .badCrc | .resync => some s

/-! ## From the application to the link -/

/-- The network process: its connection to the daemon, what it has written to the
serial port, and the answers of `write()` there (`intr` stands for every errno
that is retried). -/
structure Bridge where
  daemon : Socket
  serial : List UInt8 := []
  serialWrites : List IoResult := []
  deriving DecidableEq, Repr

/-- `link_send`; the flag is false for -1. -/
def linkSend (link : PayloadLink) (n : Bridge) (apid : UInt16) (payload : List UInt8) :
    Bridge × Bool :=
  if linkBodyMaxData < payload.length then (n, false)
  else
    let frame := link.encode (packBody link apid payload)
    if frame.length = 0 then (n, false)
    else
      let out := writeFully false frame n.serialWrites
      ({ n with serial := n.serial ++ out.1, serialWrites := out.2.1 }, out.2.2)

/-- `handle_app_delivery`; `allowed` is `star_payload_apid_allowed_pay_to_bus`. -/
def handleAppDelivery (link : PayloadLink) (allowed : UInt16 → Bool) (n : Bridge)
    (buf : List UInt8) : Bridge :=
  if buf.length < netIpcHdrSize then n
  else
    let hdr := NetIpcHdr.decode buf
    if ¬hdr.Fits buf.length then n
    else if !allowed hdr.apid then n
    else (linkSend link n hdr.apid (slice buf netIpcHdrSize hdr.len.toNat)).1

def onDaemonReadable (link : PayloadLink) (allowed : UInt16 → Bool) (n : Bridge) : Bridge :=
  match daemonClientRecv n.daemon maxMsgPayload with
  | (s, .ok m) =>
    if m.type = MsgType.deliver.code then handleAppDelivery link allowed { n with daemon := s } m.payload
    else { n with daemon := s }
  | (s, .error _) => { n with daemon := s }

/-! ## Bodies -/

theorem length_buildBody (apid : UInt16) (data : List UInt8) :
    (buildBody apid data).length = max plMinBodyLen (linkBodyHdrSize + data.length) := by
  simp [buildBody, linkBodyHdrSize]
  omega

/-- A body with as much data as a `net_ipc` frame holds is legal. -/
theorem legal_buildBody (apid : UInt16) {data : List UInt8} (h : data.length ≤ linkBodyMaxData) :
    plMinBodyLen ≤ (buildBody apid data).length ∧ (buildBody apid data).length ≤ plMaxBodyLen := by
  have hfit : linkBodyHdrSize + linkBodyMaxData ≤ plMaxBodyLen := by decide
  rw [length_buildBody]
  exact ⟨le_max_left _ _, max_le (by decide) (by omega)⟩

section BigEndian
variable {link : PayloadLink} (hbe : link.BigEndian)
include hbe

theorem packBody_eq (apid : UInt16) (data : List UInt8) :
    packBody link apid data = buildBody apid data := by
  simp only [packBody, hbe.packBe16]
  rfl

theorem parseBody_buildBody {apid : UInt16} {data : List UInt8} (h : data.length < 2 ^ 16) :
    parseBody link (buildBody apid data) = some (apid, data) := by
  let pad := List.replicate (plMinBodyLen - (be16 apid ++ (be16 (UInt16.ofNat data.length) ++
    data)).length) (0 : UInt8)
  have hbody : buildBody apid data =
      be16 apid ++ (be16 (UInt16.ofNat data.length) ++ (data ++ pad)) := by
    simp [buildBody, pad]
  have hlen := length_buildBody apid data
  have hruntless : linkBodyHdrSize ≤ (buildBody apid data).length := by omega
  unfold linkBodyHdrSize at hruntless
  have hapid : link.unpackBe16 (buildBody apid data) 0 = apid := by
    rw [hbe.unpackBe16 _ _ (by omega), hbody]
    exact getBe16_field [] _ 0 apid rfl
  have hn : (link.unpackBe16 (buildBody apid data) 2).toNat = data.length := by
    rw [hbe.unpackBe16 _ _ (by omega), hbody, getBe16_field (be16 apid) _ 2 _ (by simp),
      UInt16.toNat_ofNat', Nat.mod_eq_of_lt h]
  have hdata : slice (buildBody apid data) linkBodyHdrSize data.length = data := by
    rw [hbody, ← List.append_assoc]
    exact slice_field (be16 apid ++ be16 (UInt16.ofNat data.length)) pad _ rfl (by
      simp [linkBodyHdrSize])
  simp only [parseBody, hn, hapid, hdata]
  rw [if_neg (by omega), if_neg (by omega)]

end BigEndian

theorem parseBody_eq_some {link : PayloadLink} {body : List UInt8} {apid : UInt16}
    {data : List UInt8} (h : parseBody link body = some (apid, data)) :
    data.length = (link.unpackBe16 body 2).toNat ∧ linkBodyHdrSize + data.length ≤ body.length := by
  unfold parseBody at h
  dsimp only at h
  split_ifs at h with hrunt hclaims
  obtain ⟨-, rfl⟩ := Prod.mk.inj (Option.some.inj h)
  have hlen : (slice body linkBodyHdrSize (link.unpackBe16 body 2).toNat).length =
      (link.unpackBe16 body 2).toNat := by
    simp [slice]
    omega
  exact ⟨hlen, by omega⟩

theorem onDecoded_dispatched {link : PayloadLink} (s : Socket) {body : List UInt8} {apid : UInt16}
    {data : List UInt8} {a : RxApid} (haccept : parseBody link body = some (apid, data))
    (hdispatch : RxApid.ofCode? apid = some a) :
    onDecoded link s (.ok body) = forwardToApp s apid data := by
  simp only [onDecoded, haccept, dispatchFromObc, hdispatch, RxApid.code_of_ofCode? hdispatch]

/-- The link carries two bytes more than `NET_IPC_MAX_DATA`: the buffer of
`forward_to_app` holds every body but those whose LEN is one of these two lengths. -/
theorem forwardToApp_bounded_iff (link : PayloadLink) (s : Socket) {body : List UInt8}
    {apid : UInt16} {data : List UInt8} {a : RxApid} (hmax : body.length ≤ plMaxBodyLen)
    (haccept : parseBody link body = some (apid, data)) (hdispatch : RxApid.ofCode? apid = some a) :
    (data.length ≤ netIpcMaxData ∧
      onDecoded link s (.ok body) = some (daemonClientSend s payloadAppName
        ((⟨apid, UInt16.ofNat data.length⟩ : NetIpcHdr).encode ++ data)).1) ↔
      (link.unpackBe16 body 2).toNat ≠ 513 ∧ (link.unpackBe16 body 2).toNat ≠ 514 := by
  obtain ⟨hlen, hfits⟩ := parseBody_eq_some haccept
  rw [← hlen, onDecoded_dispatched s haccept hdispatch]
  unfold plMaxBodyLen at hmax
  unfold linkBodyHdrSize at hfits
  constructor
  · rintro ⟨hbound, -⟩
    unfold netIpcMaxData at hbound
    omega
  · intro hlens
    have hbound : data.length ≤ netIpcMaxData := by
      unfold netIpcMaxData
      omega
    refine ⟨hbound, ?_⟩
    rw [forwardToApp, netIpcFrame, if_neg (Nat.not_lt.mpr hbound), Option.map_some]

/-! ## The frames of `obc_test.py`

The test tool mirrors the wire format of `payload_link`; it shows that the
assumptions on the library can be met. -/

def sync : List UInt8 := [0x1A, 0xCF, 0xFC, 0x1D]

/-- One bit of `crc16_ccitt_false`. -/
def crcBit (crc : UInt16) : UInt16 :=
  if crc &&& 0x8000 ≠ 0 then (crc <<< 1) ^^^ 0x1021 else crc <<< 1

/-- One byte of `crc16_ccitt_false`. -/
def crcByte (crc : UInt16) (byte : UInt8) : UInt16 :=
  crcBit^[8] (crc ^^^ (byte.toUInt16 <<< (8 : UInt16)))

def crc16CcittFalse (data : List UInt8) : UInt16 := data.foldl crcByte 0xFFFF

/-- `encode_frame`. -/
def encodeFrame (body : List UInt8) : List UInt8 :=
  sync ++ (be16 (UInt16.ofNat body.length) ++ (body ++ be16 (crc16CcittFalse body)))

def decodeFrame (frame : List UInt8) : Option (List UInt8) :=
  let n := (getBe16 frame 4).toNat
  let body := slice frame 6 n
  if frame.take 4 = sync ∧ plMinBodyLen ≤ n ∧ n ≤ plMaxBodyLen ∧ frame.length = n + 8 ∧
      getBe16 frame (6 + n) = crc16CcittFalse body then some body
  else none

theorem decodeFrame_encodeFrame {body : List UInt8} (hmin : plMinBodyLen ≤ body.length)
    (hmax : body.length ≤ plMaxBodyLen) : decodeFrame (encodeFrame body) = some body := by
  have hsync : sync.length = 4 := rfl
  have hlt : body.length < 2 ^ 16 := hmax.trans_lt (by decide)
  have hn : (getBe16 (encodeFrame body) 4).toNat = body.length := by
    rw [encodeFrame, getBe16_field sync _ 4 _ hsync.symm, UInt16.toNat_ofNat', Nat.mod_eq_of_lt hlt]
  have hbody : slice (encodeFrame body) 6 body.length = body := by
    rw [encodeFrame, ← List.append_assoc]
    exact slice_field (sync ++ be16 (UInt16.ofNat body.length)) _ 6 rfl (by simp [hsync])
  have hcrc : getBe16 (encodeFrame body) (6 + body.length) = crc16CcittFalse body := by
    have hframe : encodeFrame body = (sync ++ (be16 (UInt16.ofNat body.length) ++ body)) ++
        (be16 (crc16CcittFalse body) ++ []) := by simp [encodeFrame]
    rw [hframe]
    exact getBe16_field _ [] _ _ (by simp [hsync]; omega)
  have htake : (encodeFrame body).take 4 = sync := List.take_left' hsync
  have hlen : (encodeFrame body).length = body.length + 8 := by
    simp [encodeFrame, hsync]
    omega
  simp only [decodeFrame, hn, hbody]
  exact if_pos ⟨htake, hmin, hmax, hlen, hcrc⟩

def obcLink : PayloadLink where
  encode := encodeFrame
  decode := decodeFrame
  packBe16 := be16
  packBe32 := be32
  packBe64 := be64
  unpackBe16 := getBe16
  encode_ne_nil body _ _ := by simp [encodeFrame, sync]
  decode_encode _ hmin hmax := decodeFrame_encodeFrame hmin hmax

theorem obcLink_bigEndian : obcLink.BigEndian :=
  ⟨fun _ => rfl, fun _ => rfl, fun _ => rfl, fun _ _ _ => rfl⟩

/-! ## The buffer of `forward_to_app` on this link -/

/-- A command of two bytes, in a body padded to the smallest legal size. -/
theorem forwardToApp_bounded_command :
    [1, 2].length ≤ netIpcMaxData ∧
      onDecoded obcLink { incoming := [] } (.ok (buildBody 0x010 [1, 2])) =
        some (daemonClientSend { incoming := [] } payloadAppName
          ((⟨0x010, 2⟩ : NetIpcHdr).encode ++ [1, 2])).1 :=
  have haccept : parseBody obcLink (buildBody 0x010 [1, 2]) = some (0x010, [1, 2]) := by decide
  (forwardToApp_bounded_iff obcLink { incoming := [] } (by decide) haccept
    (RxApid.ofCode?_code .payloadCommand)).mpr (by decide)

def fullData : List UInt8 := List.replicate linkBodyMaxData 0

theorem length_fullData : fullData.length = 514 := List.length_replicate

/-- `forward_to_app` overruns its buffer on a body of the largest legal size that
is all data. -/
theorem forwardToApp_overrun :
    (buildBody 0x010 fullData).length ≤ plMaxBodyLen ∧
      parseBody obcLink (buildBody 0x010 fullData) = some (0x010, fullData) ∧
      RxApid.ofCode? 0x010 = some .payloadCommand ∧ ¬fullData.length ≤ netIpcMaxData ∧
      onDecoded obcLink { incoming := [] } (.ok (buildBody 0x010 fullData)) = none := by
  have hparse : parseBody obcLink (buildBody 0x010 fullData) = some (0x010, fullData) :=
    parseBody_buildBody obcLink_bigEndian (by rw [length_fullData]; decide)
  have hlong : ¬fullData.length ≤ netIpcMaxData := by
    rw [length_fullData]
    decide
  refine ⟨?_, hparse, rfl, hlong, ?_⟩
  · rw [length_buildBody, length_fullData]
    decide
  · rw [onDecoded_dispatched _ hparse (RxApid.ofCode?_code .payloadCommand), forwardToApp, netIpcFrame,
      if_pos (Nat.not_le.mp hlong), Option.map_none]

end PiDaemon.Network
