import PiDaemon.Base.CString
import PiDaemon.Base.Io
import PiDaemon.Proto.Wire

/-!
# The client library

`ipc.c` and `client.c`: blocking frames over a connected socket, and the requests
a process makes of the daemon. A socket is the bytes the daemon will have sent by
the time it closes the connection, the bytes the client has written, and the
answers of `read()` and `write()`. Reading an empty `incoming` is the end of the
stream.
-/

namespace PiDaemon.Client

open Base Proto

structure Socket where
  incoming : List UInt8
  outgoing : List UInt8 := []
  reads : List IoResult := []
  writes : List IoResult := []
  /-- what is in the padding of the headers that `daemon_send` makes -/
  paddings : List UInt16 := []
  deriving DecidableEq, Repr

/-! ## Frames -/

def daemonWriteAll (s : Socket) (bs : List UInt8) : Socket × Bool :=
  let out := writeFully true bs s.writes
  ({ s with outgoing := s.outgoing ++ out.1, writes := out.2.1 }, out.2.2)

/-- `daemon_read_all`. Its callers do not tell an error from the end of the
stream, so both are `none`. -/
def daemonReadAll (s : Socket) (len : ℕ) : Socket × Option (List UInt8) :=
  let out := readLoop len s.incoming s.reads
  ({ s with incoming := out.rest, reads := out.script },
    if out.failed ∨ out.data.length < len then none else some out.data)

def daemonSend (s : Socket) (f : Frame) : Socket × Bool :=
  let hdr := daemonWriteAll { s with paddings := s.paddings.tail }
    (hdrBytes (UInt32.ofNat f.payload.length) f.type (s.paddings.headD 0))
  if !hdr.2 then (hdr.1, false)
  else if f.payload = [] then (hdr.1, true)
  else daemonWriteAll hdr.1 f.payload

/-- How `daemon_recv` returns: 0 with a frame, -1, or -2. -/
inductive RecvRet
  | frame (f : Frame)
  | failed
  | tooBig
  deriving DecidableEq, Repr

def scratchSize : ℕ := 256

/-- The loop that discards the payload of a message that is too long; every
round but a failing one reads at least a byte, so `remaining` rounds are enough. -/
def drain : ℕ → ℕ → Socket → Socket
  | 0, _, s => s
  | fuel + 1, remaining, s =>
    if remaining = 0 then s
    else
      let chunk := min remaining scratchSize
      let out := daemonReadAll s chunk
      if out.2.isNone then out.1 else drain fuel (remaining - chunk) out.1

def daemonRecv (s : Socket) (bufsize : ℕ) : Socket × RecvRet :=
  match daemonReadAll s hdrSize with
  | (s, none) => (s, .failed)
  | (s, some hdr) =>
    if bufsize < hdrLength hdr then (drain (hdrLength hdr) (hdrLength hdr) s, .tooBig)
    else if hdrLength hdr = 0 then (s, .frame ⟨hdrType hdr, []⟩)
    else
      match daemonReadAll s (hdrLength hdr) with
      | (s, none) => (s, .failed)
      | (s, some body) => (s, .frame ⟨hdrType hdr, body⟩)

/-! ## Requests -/

/-- Why a call of the library returned -1; `tooBig` is the -2 of `daemon_client_recv`. -/
inductive ClientErr
  | io
  | eexist
  | eproto
  | emsgsize
  | tooBig
  deriving DecidableEq, Repr

/-- A zeroed name field with `name` copied into all but its last byte. -/
def nameBody (name : List UInt8) : List UInt8 := strncpy (nameMax - 1) name ++ [0]

def registerFrame (name : List UInt8) : Frame := ⟨MsgType.register.code, nameBody name⟩

def stateGetFrame : Frame := ⟨MsgType.stateGet.code, []⟩

/-- `sizeof(daemon_error_body_t)`. -/
def errorBodySize : ℕ := 4

/-- `daemon_client_connect` on a socket that `connect()` has just connected. -/
def daemonClientConnect (name : List UInt8) (s : Socket) : Socket × Except ClientErr Unit :=
  let sent := daemonSend s (registerFrame name)
  if !sent.2 then (sent.1, .error .io)
  else
    match daemonRecv sent.1 errorBodySize with
    | (s, .frame f) =>
      if f.type = MsgType.error.code then
        (s, .error (if errorBodySize ≤ f.payload.length ∧
          getLe32 f.payload 0 = DaemonErr.nameTaken.code then .eexist else .eproto))
      else if f.type ≠ MsgType.registerOk.code then (s, .error .eproto)
      else (s, .ok ())
    | (s, _) => (s, .error .io)

/-- What `daemon_client_get_state` and `daemon_client_set_state` do: send a request
and take the next frame for its reply. No caller looks at the result after a -1. -/
def stateRequest (s : Socket) (request : Frame) : Socket × Except ClientErr SatelliteState :=
  let sent := daemonSend s request
  if !sent.2 then (sent.1, .error .io)
  else
    match daemonRecv sent.1 stateSize with
    | (s, .frame f) =>
      if f.type ≠ MsgType.stateValue.code ∨ f.payload.length ≠ stateSize then (s, .error .eproto)
      else (s, .ok (SatelliteState.decode f.payload))
    | (s, _) => (s, .error .io)

def daemonClientGetState (s : Socket) : Socket × Except ClientErr SatelliteState :=
  stateRequest s stateGetFrame

def daemonClientSetState (s : Socket) (state : SatelliteState) :
    Socket × Except ClientErr SatelliteState :=
  stateRequest s ⟨MsgType.stateSet.code, state.encode⟩

def sendFrame (dest data : List UInt8) : Frame := ⟨MsgType.send.code, nameBody dest ++ data⟩

def daemonClientSend (s : Socket) (dest data : List UInt8) : Socket × Except ClientErr Unit :=
  if maxMsgPayload < data.length then (s, .error .emsgsize)
  else
    let sent := daemonSend s (sendFrame dest data)
    (sent.1, if sent.2 then .ok () else .error .io)

/-- A message as `daemon_client_recv` hands it out; `src` is all zero but for `DMSG_DELIVER`. -/
structure Message where
  type : UInt16
  src : List UInt8
  payload : List UInt8
  deriving DecidableEq, Repr

/-- What `daemon_client_recv` makes of a frame. -/
def openFrame (f : Frame) (bufsize : ℕ) : Except ClientErr Message :=
  if f.type = MsgType.deliver.code then
    if f.payload.length < nameMax then .error .eproto
    else if bufsize < (f.payload.drop nameMax).length then .error .tooBig
    else .ok ⟨f.type, f.payload.take nameMax, f.payload.drop nameMax⟩
  else if bufsize < f.payload.length then .error .tooBig
  else .ok ⟨f.type, List.replicate nameMax 0, f.payload⟩

def daemonClientRecv (s : Socket) (bufsize : ℕ) : Socket × Except ClientErr Message :=
  match daemonRecv s (nameMax + maxMsgPayload) with
  | (s, .frame f) => (s, openFrame f bufsize)
  | (s, _) => (s, .error .io)

/-! ## What the loops come to on a sound connection -/

/-- The connection reports no error: reads and writes may only be short or interrupted. -/
structure Socket.Sound (s : Socket) : Prop where
  reads : IoResult.fail ∉ s.reads
  writes : Writable true s.writes

theorem daemonWriteAll_spec {s : Socket} (h : s.Sound) (bs : List UInt8) :
    ∃ ws, Writable true ws ∧
      daemonWriteAll s bs = ({ s with outgoing := s.outgoing ++ bs, writes := ws }, true) := by
  obtain ⟨ws, hws, heq⟩ := writeFully_spec s.writes bs h.writes
  exact ⟨ws, hws, by simp [daemonWriteAll, heq]⟩

/-- `daemon_send` writes exactly the bytes of its frame. -/
theorem daemonSend_spec {s : Socket} (h : s.Sound) (f : Frame) :
    ∃ (s' : Socket) (padding : UInt16), s'.Sound ∧ s'.incoming = s.incoming ∧
      s'.outgoing = s.outgoing ++ f.encode padding ∧ daemonSend s f = (s', true) := by
  let hdr := hdrBytes (UInt32.ofNat f.payload.length) f.type (s.paddings.headD 0)
  obtain ⟨ws, hws, heq⟩ :=
    daemonWriteAll_spec (s := { s with paddings := s.paddings.tail }) ⟨h.reads, h.writes⟩ hdr
  let s₁ : Socket := ⟨s.incoming, s.outgoing ++ hdr, s.reads, ws, s.paddings.tail⟩
  have hs₁ : s₁.Sound := ⟨h.reads, hws⟩
  simp only [daemonSend, heq, hdr, Bool.not_true, Bool.false_eq_true, if_false]
  split_ifs with hp
  · exact ⟨s₁, s.paddings.headD 0, hs₁, rfl, by rw [Frame.encode, hp, List.append_nil, ← hp], rfl⟩
  · obtain ⟨ws', hws', heq'⟩ := daemonWriteAll_spec hs₁ f.payload
    exact ⟨⟨s.incoming, s₁.outgoing ++ f.payload, s.reads, ws', s.paddings.tail⟩,
      s.paddings.headD 0, ⟨h.reads, hws'⟩, rfl, List.append_assoc _ _ _, heq'⟩

theorem daemonReadAll_spec {s : Socket} (h : s.Sound) {bs rest : List UInt8}
    (hin : s.incoming = bs ++ rest) :
    ∃ rs, IoResult.fail ∉ rs ∧
      daemonReadAll s bs.length = ({ s with incoming := rest, reads := rs }, some bs) := by
  obtain ⟨hok, hscript⟩ := readLoop_ok h.reads bs.length s.incoming
  have hdata : (readLoop bs.length s.incoming s.reads).data = bs := by
    rw [readLoop_data _ _ _ hok, hin, List.take_left]
  have hrest : (readLoop bs.length s.incoming s.reads).rest = rest := by
    have happ := readLoop_append s.reads bs.length s.incoming
    rw [hdata] at happ
    exact List.append_cancel_left (happ.trans hin)
  exact ⟨_, hscript, by simp [daemonReadAll, hok, hdata, hrest]⟩

theorem drain_spec (fuel : ℕ) : ∀ {s : Socket}, s.Sound → ∀ {bs rest : List UInt8},
    s.incoming = bs ++ rest → bs.length ≤ fuel →
      ∃ rs, IoResult.fail ∉ rs ∧ drain fuel bs.length s = { s with incoming := rest, reads := rs } := by
  induction fuel with
  | zero =>
    intro s h bs rest hin hlen
    obtain rfl := List.length_eq_zero_iff.mp (Nat.le_zero.mp hlen)
    obtain rfl : s.incoming = rest := hin
    exact ⟨s.reads, h.reads, rfl⟩
  | succ fuel ih =>
    intro s h bs rest hin hlen
    by_cases hbs : bs.length = 0
    · obtain rfl := List.length_eq_zero_iff.mp hbs
      obtain rfl : s.incoming = rest := hin
      exact ⟨s.reads, h.reads, rfl⟩
    · -- one chunk is read, and the rest of the payload is what the induction covers
      let chunk := min bs.length scratchSize
      have hpos : 0 < chunk := lt_min (by omega) (by decide)
      have htake : (bs.take chunk).length = chunk := by simp [chunk]
      have hdrop : (bs.drop chunk).length = bs.length - chunk := by simp
      have hin' : s.incoming = bs.take chunk ++ (bs.drop chunk ++ rest) := by
        rw [hin, ← List.append_assoc, List.take_append_drop]
      obtain ⟨rs, hrs, hread⟩ := daemonReadAll_spec h hin'
      rw [htake] at hread
      obtain ⟨rs', hrs', hdrain⟩ := ih (s := { s with incoming := bs.drop chunk ++ rest, reads := rs })
        ⟨hrs, h.writes⟩ rfl (hdrop.trans_le (by omega))
      refine ⟨rs', hrs', ?_⟩
      rw [drain, if_neg hbs]
      change (if (daemonReadAll s chunk).2.isNone then _ else
        drain fuel (bs.length - chunk) (daemonReadAll s chunk).1) = _
      rw [hread, ← hdrop]
      simpa using hdrain

/-- One `daemon_recv` consumes one frame, whether or not it fits the buffer. -/
theorem daemonRecv_spec {s : Socket} (h : s.Sound) {f : Frame} {padding : UInt16}
    {rest : List UInt8} (hin : s.incoming = f.encode padding ++ rest)
    (hlen : f.payload.length < 2 ^ 32) (bufsize : ℕ) :
    ∃ rs, IoResult.fail ∉ rs ∧ daemonRecv s bufsize = ({ s with incoming := rest, reads := rs },
      if f.payload.length ≤ bufsize then .frame f else .tooBig) := by
  rw [Frame.encode, List.append_assoc] at hin
  obtain ⟨rs, hrs, hread⟩ := daemonReadAll_spec h hin
  rw [length_hdrBytes] at hread
  have hdeclared : hdrLength (hdrBytes (UInt32.ofNat f.payload.length) f.type padding) =
      f.payload.length := by rw [hdrLength_hdrBytes, hdrLength_encode hlen]
  have hs : ({ s with incoming := f.payload ++ rest, reads := rs } : Socket).Sound :=
    ⟨hrs, h.writes⟩
  unfold daemonRecv
  rw [hread]
  dsimp only
  rw [hdeclared, hdrType_hdrBytes]
  by_cases hfit : f.payload.length ≤ bufsize
  · rw [if_neg (by omega), if_pos hfit]
    by_cases hzero : f.payload.length = 0
    · have hnil := List.length_eq_zero_iff.mp hzero
      exact ⟨rs, hrs, by rw [if_pos hzero, hnil, List.nil_append, ← hnil]⟩
    · obtain ⟨rs', hrs', hbody⟩ := daemonReadAll_spec hs rfl
      exact ⟨rs', hrs', by rw [if_neg hzero, hbody]⟩
  · obtain ⟨rs', hrs', hdrain⟩ := drain_spec f.payload.length hs rfl le_rfl
    exact ⟨rs', hrs', by rw [if_pos (by omega), if_neg hfit, hdrain]⟩

end PiDaemon.Client
