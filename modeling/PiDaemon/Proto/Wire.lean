import PiDaemon.Base.Bytes
import PiDaemon.Base.Framing

/-!
# The daemon's wire protocol

`daemon/proto.h`, `daemon/config.h` and the layout of `satellite_state_t`. The
bus never leaves the machine, so headers and bodies have the host's layout: the
model fixes it to little-endian fields at their natural alignment, which makes
`daemon_hdr_t` eight bytes (two of them padding) and `satellite_state_t` sixteen.
The padding of the state is a field of its own, because the daemon copies and
checksums the whole struct; that of a header is never read, and may be anything.
-/

namespace PiDaemon.Proto

open Base

/-- `DAEMON_NAME_MAX`. -/
def nameMax : ℕ := 32

/-- `DAEMON_MAX_CLIENTS`. -/
def maxClients : ℕ := 32

/-- `DAEMON_MAX_MSG_PAYLOAD`. -/
def maxMsgPayload : ℕ := 4096

/-- `sizeof(daemon_hdr_t)`. -/
def hdrSize : ℕ := 8

/-- `daemon_msg_type_t`. -/
inductive MsgType
  | register
  | registerOk
  | stateGet
  | stateValue
  | stateSet
  | send
  | deliver
  | error
  | ping
  | pong
  deriving DecidableEq, Repr

def MsgType.code : MsgType → UInt16
  | .register => 1
  | .registerOk => 2
  | .stateGet => 3
  | .stateValue => 4
  | .stateSet => 5
  | .send => 6
  | .deliver => 7
  | .error => 8
  | .ping => 9
  | .pong => 10

/-- The `type` field is any 16-bit value; only ten of them name a message. -/
def MsgType.ofCode? (code : UInt16) : Option MsgType :=
  [register, registerOk, stateGet, stateValue, stateSet, send, deliver, error, ping, pong].find?
    fun t => t.code = code

@[simp] theorem MsgType.ofCode?_code (t : MsgType) : ofCode? t.code = some t := by
  cases t <;> rfl

/-- `daemon_err_t`. -/
inductive DaemonErr
  | badMessage
  | notRegistered
  | nameTaken
  | unknownDest
  deriving DecidableEq, Repr

def DaemonErr.code : DaemonErr → UInt32
  | .badMessage => 1
  | .notRegistered => 2
  | .nameTaken => 3
  | .unknownDest => 4

/-! ## Frames -/

structure Frame where
  type : UInt16
  payload : List UInt8
  deriving DecidableEq, Repr

/-- The bytes of a `daemon_hdr_t`: `length`, `type`, and two bytes of padding. -/
def hdrBytes (length : UInt32) (type padding : UInt16) : List UInt8 :=
  le32 length ++ (le16 type ++ le16 padding)

def hdrLength (hdr : List UInt8) : ℕ := (getLe32 hdr 0).toNat
def hdrType (hdr : List UInt8) : UInt16 := getLe16 hdr 4

/-- A header and the payload behind it. The initialisers of the two senders leave the padding
of the header to the compiler. -/
def Frame.encode (f : Frame) (padding : UInt16) : List UInt8 :=
  hdrBytes (UInt32.ofNat f.payload.length) f.type padding ++ f.payload

/-- The bytes are those of the frames one after another, whatever is in the padding. -/
inductive Encodes : List Frame → List UInt8 → Prop
  | nil : Encodes [] []
  | cons (f : Frame) (padding : UInt16) {fs : List Frame} {bs : List UInt8} :
      Encodes fs bs → Encodes (f :: fs) (f.encode padding ++ bs)

/-- The framing the server applies to what a client sends. -/
def frameFormat : Format UInt8 where
  hdrSize := hdrSize
  hdrSize_pos := by decide
  bodyLen := hdrLength
  limit := maxMsgPayload

def ofRaw (raw : List UInt8 × List UInt8) : Frame := ⟨hdrType raw.1, raw.2⟩

def parseFrames (bs : List UInt8) : List Frame := (frameFormat.frames bs).map ofRaw

@[simp] theorem length_hdrBytes (length : UInt32) (type padding : UInt16) :
    (hdrBytes length type padding).length = hdrSize := by
  simp [hdrBytes, hdrSize]

@[simp] theorem hdrLength_hdrBytes (length : UInt32) (type padding : UInt16) :
    hdrLength (hdrBytes length type padding) = length.toNat := by
  have h := getLe32_field [] (le16 type ++ le16 padding) 0 length rfl
  rw [List.nil_append] at h
  rw [hdrLength, hdrBytes, h]

@[simp] theorem hdrType_hdrBytes (length : UInt32) (type padding : UInt16) :
    hdrType (hdrBytes length type padding) = type :=
  getLe16_field (le32 length) _ _ type (by simp)

@[simp] theorem length_encode (f : Frame) (padding : UInt16) :
    (f.encode padding).length = hdrSize + f.payload.length := by
  simp [Frame.encode]

theorem hdrLength_encode {f : Frame} (h : f.payload.length < 2 ^ 32) :
    (UInt32.ofNat f.payload.length).toNat = f.payload.length := by
  rw [UInt32.toNat_ofNat', Nat.mod_eq_of_lt h]

theorem head_encode {f : Frame} (h : f.payload.length ≤ maxMsgPayload) (padding : UInt16)
    (rest : List UInt8) : frameFormat.head (f.encode padding ++ rest) =
      .frame (hdrBytes (UInt32.ofNat f.payload.length) f.type padding) f.payload rest := by
  have hlen : f.payload.length < 2 ^ 32 := h.trans_lt (by decide)
  rw [Format.head_frame_iff]
  refine ⟨by simp [Frame.encode], by simp [frameFormat], ?_, ?_⟩
  · simp only [frameFormat, hdrLength_hdrBytes, hdrLength_encode hlen]
  · simpa only [frameFormat, hdrLength_hdrBytes, hdrLength_encode hlen] using h

theorem head_encode_oversized {f : Frame} (h : maxMsgPayload < f.payload.length)
    (hlen : f.payload.length < 2 ^ 32) (padding : UInt16) (rest : List UInt8) :
    frameFormat.head (f.encode padding ++ rest) = .oversized := by
  rw [Frame.encode, List.append_assoc]
  apply Format.head_oversized
  · exact length_hdrBytes _ _ _
  · simpa only [frameFormat, hdrLength_hdrBytes, hdrLength_encode hlen] using h

namespace Encodes

variable {fs gs : List Frame} {bs cs : List UInt8}

theorem single (f : Frame) (padding : UInt16) : Encodes [f] (f.encode padding) := by
  have h := Encodes.cons f padding .nil
  rwa [List.append_nil] at h

theorem uncons {f : Frame} (h : Encodes (f :: fs) bs) :
    ∃ padding rest, bs = f.encode padding ++ rest ∧ Encodes fs rest := by
  cases h with
  | cons _ padding h => exact ⟨padding, _, rfl, h⟩

theorem append (h : Encodes fs bs) (h' : Encodes gs cs) : Encodes (fs ++ gs) (bs ++ cs) := by
  induction h with
  | nil => exact h'
  | cons f padding _ ih =>
    rw [List.cons_append, List.append_assoc]
    exact .cons f padding ih

theorem concat (h : Encodes fs bs) (f : Frame) (padding : UInt16) :
    Encodes (fs ++ [f]) (bs ++ f.encode padding) := h.append (.single f padding)

theorem split (h : Encodes (fs ++ gs) bs) :
    ∃ front back, bs = front ++ back ∧ Encodes fs front ∧ Encodes gs back := by
  induction fs generalizing bs with
  | nil => exact ⟨[], bs, rfl, .nil, h⟩
  | cons f fs ih =>
    cases h with
    | cons _ padding h =>
      obtain ⟨front, back, rfl, hfront, hback⟩ := ih h
      exact ⟨f.encode padding ++ front, back, (List.append_assoc _ _ _).symm,
        .cons f padding hfront, hback⟩

/-- How many bytes there are does not depend on the padding. -/
theorem length_eq (h : Encodes fs bs) (h' : Encodes fs cs) : bs.length = cs.length := by
  induction h generalizing cs with
  | nil =>
    cases h'
    rfl
  | cons f padding _ ih =>
    cases h' with
    | cons _ padding' h' => rw [List.length_append, List.length_append, ih h', length_encode,
        length_encode]

/-- Writing accepted frames and parsing the bytes gives the frames, with nothing left. -/
theorem parse (h : Encodes fs bs) (hlen : ∀ f ∈ fs, f.payload.length ≤ maxMsgPayload) :
    parseFrames bs = fs ∧ frameFormat.leftover bs = [] := by
  induction h with
  | nil => exact ⟨rfl, rfl⟩
  | @cons f padding fs bs _ ih =>
    have hhead := head_encode (hlen f (by simp)) padding bs
    obtain ⟨hp, hl⟩ := ih fun g hg => hlen g (by simp [hg])
    constructor
    · rw [parseFrames, Format.frames_of_frame _ hhead, List.map_cons, ← parseFrames, hp]
      simp [ofRaw]
    · rw [Format.leftover_of_frame _ hhead, hl]

end Encodes

def Extends (old : List UInt8) (fs : List Frame) (new : List UInt8) : Prop :=
  ∃ bs, Encodes fs bs ∧ new = old ++ bs

namespace Extends

variable {fs gs : List Frame} {bs cs ds : List UInt8}

theorem refl (bs : List UInt8) : Extends bs [] bs := ⟨[], .nil, (List.append_nil _).symm⟩

theorem single {f : Frame} {padding : UInt16} (h : cs = bs ++ f.encode padding) :
    Extends bs [f] cs := ⟨_, .single f padding, h⟩

theorem trans (h : Extends bs fs cs) (h' : Extends cs gs ds) : Extends bs (fs ++ gs) ds := by
  obtain ⟨front, hfront, rfl⟩ := h
  obtain ⟨back, hback, rfl⟩ := h'
  exact ⟨front ++ back, hfront.append hback, List.append_assoc _ _ _⟩

theorem encodes (h : Extends bs fs cs) (hbs : Encodes gs bs) : Encodes (gs ++ fs) cs := by
  obtain ⟨back, hback, rfl⟩ := h
  exact hbs.append hback

end Extends

/-- The stream `bs` begins with the frames, and `tail` is what follows them. -/
def Begins (fs : List Frame) (tail bs : List UInt8) : Prop :=
  ∃ front, Encodes fs front ∧ bs = front ++ tail

namespace Begins

variable {f : Frame} {fs : List Frame} {tail bs : List UInt8}

theorem of_nil (h : Begins [] tail bs) : bs = tail := by
  obtain ⟨front, hfront, rfl⟩ := h
  cases hfront
  rfl

theorem uncons (h : Begins (f :: fs) tail bs) :
    ∃ padding rest, bs = f.encode padding ++ rest ∧ Begins fs tail rest := by
  obtain ⟨front, hfront, rfl⟩ := h
  obtain ⟨padding, rest, rfl, hrest⟩ := hfront.uncons
  exact ⟨padding, rest ++ tail, List.append_assoc _ _ _, rest, hrest, rfl⟩

end Begins

def zeroPadded (fs : List Frame) : List UInt8 := fs.flatMap fun f => f.encode 0

/-- `DMSG_ERROR` with its `daemon_error_body_t`. -/
def errorFrame (e : DaemonErr) : Frame := ⟨MsgType.error.code, le32 e.code⟩

/-! ## Satellite state -/

/-- `satellite_state_t`, with the two bytes the compiler inserts before the 64-bit field. -/
structure SatelliteState where
  opState : UInt32
  activeExperimentId : UInt8
  dceAuthorityHeld : UInt8
  padding : UInt16
  lastUpdatedMet : UInt64
  deriving DecidableEq, Repr

/-- `sizeof(satellite_state_t)`. -/
def stateSize : ℕ := 16

namespace SatelliteState

def encode (s : SatelliteState) : List UInt8 :=
  le32 s.opState ++ ([s.activeExperimentId] ++ ([s.dceAuthorityHeld] ++
    (le16 s.padding ++ le64 s.lastUpdatedMet)))

def decode (bs : List UInt8) : SatelliteState where
  opState := getLe32 bs 0
  activeExperimentId := getByte bs 4
  dceAuthorityHeld := getByte bs 5
  padding := getLe16 bs 6
  lastUpdatedMet := getLe64 bs 8

@[simp] theorem length_encode (s : SatelliteState) : s.encode.length = stateSize := by
  simp [encode, stateSize]

@[simp] theorem decode_encode (s : SatelliteState) : decode s.encode = s := by
  obtain ⟨op, exp, dce, pad, met⟩ := s
  have h0 := getLe32_field [] (exp :: dce :: (le16 pad ++ le64 met)) 0 op rfl
  have h4 := getByte_field (le32 op) (dce :: (le16 pad ++ le64 met)) 4 exp (by simp)
  have h5 := getByte_field (le32 op ++ [exp]) (le16 pad ++ le64 met) 5 dce (by simp)
  have h6 := getLe16_field (le32 op ++ [exp, dce]) (le64 met) 6 pad (by simp)
  have h8 := getLe64_field (le32 op ++ (exp :: dce :: le16 pad)) [] 8 met (by simp)
  simp only [List.nil_append, List.append_nil, List.append_assoc, List.cons_append] at h0 h4 h5 h6 h8
  simp only [decode, encode, List.cons_append, List.nil_append, h0, h4, h5, h6, h8]

/-- The daemon copies the struct byte for byte, so nothing of a payload is lost. -/
theorem encode_decode {bs : List UInt8} (h : bs.length = stateSize) : (decode bs).encode = bs := by
  have hlen : bs.length = 16 := h
  have hall : slice bs 0 (4 + (1 + (1 + (2 + 8)))) = bs := by
    rw [slice, List.drop_zero, List.take_of_length_le (by omega)]
  simp only [encode, decode, le32_getLe32 bs 0 (by omega), singleton_getByte bs 4 (by omega),
    singleton_getByte bs 5 (by omega), le16_getLe16 bs 6 (by omega), le64_getLe64 bs 8 (by omega)]
  simpa only [slice_add] using hall

end SatelliteState

end PiDaemon.Proto
