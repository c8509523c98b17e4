import PiDaemon.Client.Conversation
import PiDaemon.Network.Bridge

/-!
# The event loop of the network process

`main` of `Network/src/main.c` from `poll()` on. In every turn the loop may take one frame
from the daemon, whose message it writes to the serial port, and one read from the serial
port, whose bytes it feeds to the decoder of `payload_link` one by one. What goes one way
has no bearing on what goes the other way: each direction is a function of its own input,
however the serial port cuts the bytes and however the turns fall.

The loop is never left. A connection to the daemon that has come to its end is only logged.
-/

namespace PiDaemon.Network

open Base Proto Client

/-! ## The decoder -/

def decodeAll {Ctx : Type} (feed : Ctx → UInt8 → Ctx × DecodeResult) (c : Ctx) :
    List UInt8 → Ctx × List DecodeResult
  | [] => (c, [])
  | b :: bs =>
    let rest := decodeAll feed (feed c b).1 bs
    (rest.1, (feed c b).2 :: rest.2)

theorem decodeAll_append {Ctx : Type} (feed : Ctx → UInt8 → Ctx × DecodeResult) (c : Ctx)
    (bs cs : List UInt8) : decodeAll feed c (bs ++ cs) =
      ((decodeAll feed (decodeAll feed c bs).1 cs).1,
        (decodeAll feed c bs).2 ++ (decodeAll feed (decodeAll feed c bs).1 cs).2) := by
  induction bs generalizing c with
  | nil => rfl
  | cons b bs ih => simp [decodeAll, ih]

/-- `plframe_decode_init` and `plframe_decode_feed`, and what is assumed of them: at a frame
boundary, the frame of a legal body is answered with the body at its last byte and with
nothing before it, and leaves the decoder at a boundary. -/
structure LinkDecoder (link : PayloadLink) where
  Ctx : Type
  init : Ctx
  feed : Ctx → UInt8 → Ctx × DecodeResult
  AtBoundary : Ctx → Prop
  init_boundary : AtBoundary init
  feed_frame (c : Ctx) (body : List UInt8) : AtBoundary c → plMinBodyLen ≤ body.length →
    body.length ≤ plMaxBodyLen → AtBoundary (decodeAll feed c (link.encode body)).1 ∧
      ∃ n, (decodeAll feed c (link.encode body)).2 = List.replicate n .needMore ++ [.ok body]

/-! ## The loop -/

structure Node {link : PayloadLink} (dec : LinkDecoder link) where
  bridge : Bridge
  decoder : dec.Ctx

/-- `sizeof(rx_buffer)`. -/
def rxBufferSize : ℕ := 256

/-- How the system calls of one turn are answered: the result of `poll()`, which of the two
descriptors have `POLLIN`, and what `read()` gets from the serial port, which is nothing if it
fails. -/
structure Wake where
  ret : ℤ := 1
  daemonIn : Bool := false
  serialIn : Bool := false
  read : List UInt8 := []
  fits : read.length ≤ rxBufferSize := by decide

section Loop
variable {link : PayloadLink} {dec : LinkDecoder link} (allowed : UInt16 → Bool)

/-- One byte from the serial port; `none` when `forward_to_app` overruns its buffer. -/
def Node.feed (n : Node dec) (b : UInt8) : Option (Node dec) :=
  let out := dec.feed n.decoder b
  (onDecoded link n.bridge.daemon out.2).map fun s => ⟨{ n.bridge with daemon := s }, out.1⟩

def Node.turn (n : Node dec) (k : Wake) : Option (Node dec) :=
  if k.ret ≤ 0 then some n
  else
    let n := if k.daemonIn then { n with bridge := onDaemonReadable link allowed n.bridge } else n
    if k.serialIn then k.read.foldlM Node.feed n else some n

def Node.run (n : Node dec) (ks : List Wake) : Option (Node dec) := ks.foldlM (Node.turn allowed) n

end Loop

/-! ## What each direction gets -/

def Wake.bytes (k : Wake) : List UInt8 := if 0 < k.ret ∧ k.serialIn = true then k.read else []

def Wake.recvs (k : Wake) : ℕ := if 0 < k.ret ∧ k.daemonIn = true then 1 else 0

def accepted (link : PayloadLink) : DecodeResult → Option (RxApid × List UInt8)
  | .ok body => (parseBody link body).bind fun m => (RxApid.ofCode? m.1).map fun a => (a, m.2)
  | .needMore | .badCrc | .resync => none

def LinkDecoder.messages {link : PayloadLink} (dec : LinkDecoder link) (c : dec.Ctx)
    (bytes : List UInt8) : List (RxApid × List UInt8) :=
  (decodeAll dec.feed c bytes).2.filterMap (accepted link)

def netIpcBytes (m : RxApid × List UInt8) : List UInt8 :=
  (⟨m.1.code, UInt16.ofNat m.2.length⟩ : NetIpcHdr).encode ++ m.2

/-- The frame that `forward_to_app` sends for a message. -/
def forwardFrame (m : RxApid × List UInt8) : Frame := sendFrame payloadAppName (netIpcBytes m)

/-- What `handle_app_delivery` passes to `link_send`, if it does and `link_send` takes it: the
message is well formed, its APID is allowed, and its data fits a body. -/
def outbound (allowed : UInt16 → Bool) (buf : List UInt8) : Option LinkMessage :=
  let hdr := NetIpcHdr.decode buf
  if netIpcHdrSize ≤ buf.length ∧ hdr.Fits buf.length ∧ allowed hdr.apid = true ∧
      hdr.len.toNat ≤ linkBodyMaxData then
    some (hdr.apid, slice buf netIpcHdrSize hdr.len.toNat)
  else none

def linkFrame (link : PayloadLink) (m : LinkMessage) : List UInt8 :=
  link.encode (packBody link m.1 m.2)

/-- What `handle_app_delivery` writes to the serial port if no write fails. -/
def deliveryBytes (link : PayloadLink) (allowed : UInt16 → Bool) (buf : List UInt8) : List UInt8 :=
  (outbound allowed buf).toList.flatMap (linkFrame link)

def linkBytes (link : PayloadLink) (allowed : UInt16 → Bool) (m : Message) : List UInt8 :=
  if m.type = MsgType.deliver.code then deliveryBytes link allowed m.payload else []

/-! ## From the serial port to the daemon -/

theorem length_netIpcBytes (m : RxApid × List UInt8) :
    (netIpcBytes m).length = netIpcHdrSize + m.2.length := by simp [netIpcBytes]

theorem onDecoded_spec (link : PayloadLink) {s : Socket} (hs : s.Sound) (r : DecodeResult) :
    match accepted link r with
    | none => onDecoded link s r = some s
    | some m =>
      if netIpcMaxData < m.2.length then onDecoded link s r = none
      else ∃ s' : Socket, s'.Sound ∧ s'.incoming = s.incoming ∧
        Extends s.outgoing [forwardFrame m] s'.outgoing ∧ onDecoded link s r = some s' := by
  cases r with
  | needMore => rfl
  | badCrc => rfl
  | resync => rfl
  | ok body =>
    cases hparse : parseBody link body with
    | none => simp [accepted, onDecoded, hparse]
    | some m =>
      obtain ⟨apid, data⟩ := m
      cases hrx : RxApid.ofCode? apid with
      | none => simp [accepted, onDecoded, hparse, dispatchFromObc, hrx]
      | some a =>
        have hcode := RxApid.code_of_ofCode? hrx
        simp only [accepted, hparse, Option.bind_some, hrx, Option.map_some]
        rw [onDecoded_dispatched s hparse hrx, forwardToApp, netIpcFrame]
        split_ifs with hlong
        · rfl
        · have hfit : (netIpcBytes (a, data)).length ≤ maxMsgPayload := by
            rw [length_netIpcBytes]
            simp only [netIpcMaxData, netIpcHdrSize, maxMsgPayload] at hlong ⊢
            omega
          obtain ⟨s', padding, hs', hin, hout, hsend⟩ := daemonClientSend_spec hs payloadAppName hfit
          refine ⟨s', hs', hin, .single hout, ?_⟩
          rw [netIpcBytes, hcode] at hsend
          rw [Option.map_some, hsend]

section Serial
variable {link : PayloadLink} {dec : LinkDecoder link}

theorem LinkDecoder.messages_append (dec : LinkDecoder link) (c : dec.Ctx) (bs cs : List UInt8) :
    dec.messages c (bs ++ cs) =
      dec.messages c bs ++ dec.messages (decodeAll dec.feed c bs).1 cs := by
  rw [messages, decodeAll_append, List.filterMap_append]
  rfl

/-- A message does not fit the buffer of `forward_to_app`. -/
def Overruns (ms : List (RxApid × List UInt8)) : Prop := ∃ m ∈ ms, netIpcMaxData < m.2.length

theorem overruns_append {ms ms' : List (RxApid × List UInt8)} :
    Overruns (ms ++ ms') ↔ Overruns ms ∨ Overruns ms' := by
  simp only [Overruns, List.mem_append, or_and_right, exists_or]

/-- From `n` to `n'` the messages in `bytes` have been forwarded, and nothing else has happened. -/
structure Forwarded (n n' : Node dec) (bytes : List UInt8) : Prop where
  sound : n'.bridge.daemon.Sound
  incoming : n'.bridge.daemon.incoming = n.bridge.daemon.incoming
  serial : n'.bridge.serial = n.bridge.serial
  writes : n'.bridge.serialWrites = n.bridge.serialWrites
  decoder : n'.decoder = (decodeAll dec.feed n.decoder bytes).1
  outgoing : Extends n.bridge.daemon.outgoing ((dec.messages n.decoder bytes).map forwardFrame)
    n'.bridge.daemon.outgoing

theorem Forwarded.refl {n : Node dec} (hs : n.bridge.daemon.Sound) : Forwarded n n [] :=
  ⟨hs, rfl, rfl, rfl, rfl, .refl _⟩

theorem Forwarded.trans {n n₁ n₂ : Node dec} {bs cs : List UInt8} (h : Forwarded n n₁ bs)
    (h' : Forwarded n₁ n₂ cs) : Forwarded n n₂ (bs ++ cs) where
  sound := h'.sound
  incoming := h'.incoming.trans h.incoming
  serial := h'.serial.trans h.serial
  writes := h'.writes.trans h.writes
  decoder := by rw [h'.decoder, h.decoder, decodeAll_append]
  outgoing := by
    rw [LinkDecoder.messages_append, List.map_append, ← h.decoder]
    exact h.outgoing.trans h'.outgoing

theorem feed_spec {n : Node dec} (hs : n.bridge.daemon.Sound) (b : UInt8) :
    (Overruns (dec.messages n.decoder [b]) ∧ n.feed b = none) ∨
      (¬Overruns (dec.messages n.decoder [b]) ∧ ∃ n', n.feed b = some n' ∧ Forwarded n n' [b]) := by
  have hms : dec.messages n.decoder [b] = (accepted link (dec.feed n.decoder b).2).toList := by
    cases hacc : accepted link (dec.feed n.decoder b).2 <;> simp [LinkDecoder.messages, decodeAll, hacc]
  have hspec := onDecoded_spec link hs (dec.feed n.decoder b).2
  cases hacc : accepted link (dec.feed n.decoder b).2 with
  | none =>
    rw [hacc] at hspec hms
    refine .inr ⟨by simp [hms, Overruns], ⟨n.bridge, (dec.feed n.decoder b).1⟩, ?_, hs, rfl, rfl,
      rfl, rfl, ?_⟩
    · rw [Node.feed, hspec]
      rfl
    · rw [hms]
      exact .refl _
  | some m =>
    rw [hacc] at hspec hms
    dsimp only at hspec
    split_ifs at hspec with hlong
    · refine .inl ⟨⟨m, by simp [hms], hlong⟩, ?_⟩
      rw [Node.feed, hspec]
      rfl
    · obtain ⟨s', hs', hin, hout, hsome⟩ := hspec
      refine .inr ⟨by simpa [hms, Overruns] using hlong,
        ⟨{ n.bridge with daemon := s' }, (dec.feed n.decoder b).1⟩, ?_, hs', hin, rfl, rfl, rfl, ?_⟩
      · rw [Node.feed, hsome]
        rfl
      · rw [hms]
        exact hout

/-- The bytes of the serial port are forwarded message by message, unless one does not fit
the buffer. -/
theorem feedAll_spec (bytes : List UInt8) : ∀ {n : Node dec}, n.bridge.daemon.Sound →
    (Overruns (dec.messages n.decoder bytes) ∧ bytes.foldlM Node.feed n = none) ∨
      (¬Overruns (dec.messages n.decoder bytes) ∧
        ∃ n', bytes.foldlM Node.feed n = some n' ∧ Forwarded n n' bytes) := by
  induction bytes with
  | nil =>
    intro n hs
    exact .inr ⟨by simp [Overruns, LinkDecoder.messages, decodeAll], n, rfl, .refl hs⟩
  | cons b bytes ih =>
    intro n hs
    have hms := dec.messages_append n.decoder [b] bytes
    rw [List.singleton_append] at hms
    rw [List.foldlM_cons, hms, overruns_append]
    rcases feed_spec hs b with ⟨hover, hnone⟩ | ⟨hfine, n₁, hfeed, hfor⟩
    · exact .inl ⟨.inl hover, by rw [hnone]; rfl⟩
    · rw [hfeed, Option.bind_eq_bind, Option.bind_some, ← hfor.decoder]
      rcases ih hfor.sound with ⟨hover, hnone⟩ | ⟨hfine', n₂, hrun, hfor'⟩
      · exact .inl ⟨.inr hover, hnone⟩
      · exact .inr ⟨not_or.mpr ⟨hfine, hfine'⟩, n₂, hrun, hfor.trans hfor'⟩

end Serial

/-! ## From the daemon to the serial port -/

theorem linkSend_writes (link : PayloadLink) {n : Bridge} (hw : Writable false n.serialWrites)
    (apid : UInt16) {payload : List UInt8} (hlen : payload.length ≤ linkBodyMaxData) :
    (linkSend link n apid payload).1.daemon = n.daemon ∧
      Writable false (linkSend link n apid payload).1.serialWrites ∧
      (linkSend link n apid payload).1.serial = n.serial ++ linkFrame link (apid, payload) := by
  unfold linkSend
  rw [if_neg (Nat.not_lt.mpr hlen)]
  dsimp only
  split_ifs with hempty
  · exact ⟨rfl, hw, by rw [linkFrame, List.length_eq_zero_iff.mp hempty, List.append_nil]⟩
  · obtain ⟨rs, hrs, hwrite⟩ :=
      writeFully_spec n.serialWrites (link.encode (packBody link apid payload)) hw
    rw [hwrite]
    exact ⟨rfl, hrs, rfl⟩

theorem outbound_eq_some {allowed : UInt16 → Bool} {buf : List UInt8} {m : LinkMessage}
    (h : outbound allowed buf = some m) : allowed m.1 = true ∧ m.2.length ≤ linkBodyMaxData := by
  unfold outbound at h
  dsimp only at h
  split_ifs at h with hsent
  obtain rfl := Option.some.inj h
  refine ⟨hsent.2.2.1, le_trans ?_ hsent.2.2.2⟩
  rw [slice, List.length_take]
  exact min_le_left _ _

/-- The checks of `handle_app_delivery`, and the one that `link_send` makes behind them, in one. -/
theorem handleAppDelivery_eq (link : PayloadLink) (allowed : UInt16 → Bool) (n : Bridge)
    (buf : List UInt8) : handleAppDelivery link allowed n buf =
      match outbound allowed buf with
      | some m => (linkSend link n m.1 m.2).1
      | none => n := by
  unfold handleAppDelivery outbound
  dsimp only
  by_cases hshort : buf.length < netIpcHdrSize
  · rw [if_pos hshort, if_neg fun h => absurd h.1 (Nat.not_le.mpr hshort)]
  by_cases hfits : (NetIpcHdr.decode buf).Fits buf.length
  swap
  · rw [if_neg hshort, if_pos hfits, if_neg fun h => hfits h.2.1]
  rw [if_neg hshort, if_neg (not_not.mpr hfits)]
  by_cases hallowed : allowed (NetIpcHdr.decode buf).apid = true
  swap
  · rw [if_pos (by simpa using hallowed), if_neg fun h => hallowed h.2.2.1]
  rw [if_neg (by simpa using hallowed)]
  by_cases hlong : (NetIpcHdr.decode buf).len.toNat ≤ linkBodyMaxData
  · rw [if_pos ⟨Nat.not_lt.mp hshort, hfits, hallowed, hlong⟩]
  · have hslice : (slice buf netIpcHdrSize (NetIpcHdr.decode buf).len.toNat).length =
        (NetIpcHdr.decode buf).len.toNat := by
      unfold NetIpcHdr.Fits at hfits
      simp [slice]
      omega
    rw [if_neg fun h => hlong h.2.2.2, linkSend, if_pos (by omega)]

theorem handleAppDelivery_writes (link : PayloadLink) (allowed : UInt16 → Bool) {n : Bridge}
    (hw : Writable false n.serialWrites) (buf : List UInt8) :
    (handleAppDelivery link allowed n buf).daemon = n.daemon ∧
      Writable false (handleAppDelivery link allowed n buf).serialWrites ∧
      (handleAppDelivery link allowed n buf).serial =
        n.serial ++ deliveryBytes link allowed buf := by
  rw [handleAppDelivery_eq, deliveryBytes]
  cases hout : outbound allowed buf with
  | none => exact ⟨rfl, hw, (List.append_nil _).symm⟩
  | some m =>
    rw [Option.toList_some, List.flatMap_singleton]
    exact linkSend_writes link hw m.1 (outbound_eq_some hout).2

/-- The stream `bs` is what is left of the daemon's frames, and of the frame that is cut off
behind them, after `k` of them have been asked for. -/
def Remains (gs : List Frame) (tail : List UInt8) (k : ℕ) (bs : List UInt8) : Prop :=
  Begins (gs.drop k) (if k ≤ gs.length then tail else []) bs

theorem Remains.next {gs : List Frame} {tail bs : List UInt8} {k : ℕ} (h : Remains gs tail k bs)
    (hk : k < gs.length) : ∃ padding rest, bs = gs[k].encode padding ++ rest ∧
      Remains gs tail (k + 1) rest := by
  rw [Remains, List.drop_eq_getElem_cons hk, if_pos hk.le] at h
  obtain ⟨padding, rest, hbs, hrest⟩ := h.uncons
  refine ⟨padding, rest, hbs, ?_⟩
  rwa [Remains, if_pos (Nat.succ_le_of_lt hk)]

theorem Remains.cut {gs : List Frame} {tail bs : List UInt8} {k : ℕ} (h : Remains gs tail k bs)
    (hk : gs.length ≤ k) (htail : Cut tail) : Cut bs := by
  rw [Remains, List.drop_eq_nil_of_le hk] at h
  rw [h.of_nil]
  split_ifs
  · exact htail
  · exact cut_nil

theorem remains_nil {gs : List Frame} {tail : List UInt8} {k : ℕ} (hk : gs.length < k) :
    Remains gs tail k [] := by
  rw [Remains, List.drop_eq_nil_of_le hk.le, if_neg (by omega)]
  exact ⟨[], .nil, rfl⟩

/-- The daemon's socket is readable: one message is written to the serial port, or the end of
the stream is noticed and nothing is written. -/
theorem onDaemonReadable_spec (link : PayloadLink) (allowed : UInt16 → Bool) {n : Bridge}
    (hs : n.daemon.Sound)
    (hw : Writable false n.serialWrites) {gs : List Frame} (hgs : ∀ g ∈ gs, Legible g)
    {tail : List UInt8} (htail : Cut tail) {k : ℕ} (hin : Remains gs tail k n.daemon.incoming) :
    let n' := onDaemonReadable link allowed n
    n'.daemon.Sound ∧ Writable false n'.serialWrites ∧ Remains gs tail (k + 1) n'.daemon.incoming ∧
      n'.daemon.outgoing = n.daemon.outgoing ∧
      n'.serial = n.serial ++
        (gs[k]?.toList.flatMap fun g => linkBytes link allowed (messageOf g)) := by
  unfold onDaemonReadable
  by_cases hk : k < gs.length
  · have hlegible := hgs gs[k] (List.getElem_mem hk)
    obtain ⟨padding, rest, hfront, hrest⟩ := hin.next hk
    obtain ⟨s', hs', rfl, hout', hrecv⟩ := daemonClientRecv_legible hs hlegible hfront
    rw [hrecv, List.getElem?_eq_getElem hk]
    simp only [Option.toList_some, List.flatMap_singleton]
    rw [linkBytes]
    split_ifs with htype
    · obtain ⟨hd, hw', hserial⟩ := handleAppDelivery_writes link allowed
        (n := { n with daemon := s' }) hw (messageOf gs[k]).payload
      rw [hd]
      exact ⟨hs', hw', hrest, hout', hserial⟩
    · exact ⟨hs', hw, hrest, hout', (List.append_nil _).symm⟩
  · obtain ⟨g, padding, hg, hpre, hshort⟩ := hin.cut (Nat.not_lt.mp hk) htail
    obtain ⟨s', hs', hnil, hout', hrecv⟩ := daemonClientRecv_cut hs hg hpre hshort maxMsgPayload
    rw [hrecv, List.getElem?_eq_none (by omega)]
    refine ⟨hs', hw, ?_, hout', (List.append_nil _).symm⟩
    rw [hnil]
    exact remains_nil (by omega)

/-! ## Turns and runs -/

section Runs
variable {link : PayloadLink} {dec : LinkDecoder link} {allowed : UInt16 → Bool}

/-- What the loop has come to from `n₀`, when it has taken `bytes` from the serial port and
asked for `k` of the daemon's frames `gs`, behind which the stream is cut off in `tail`. -/
structure Progress (allowed : UInt16 → Bool) (n₀ : Node dec) (gs : List Frame) (tail bytes : List UInt8)
    (k : ℕ) (n : Node dec) : Prop where
  sound : n.bridge.daemon.Sound
  writes : Writable false n.bridge.serialWrites
  decoder : n.decoder = (decodeAll dec.feed n₀.decoder bytes).1
  incoming : Remains gs tail k n.bridge.daemon.incoming
  outgoing : Extends n₀.bridge.daemon.outgoing ((dec.messages n₀.decoder bytes).map forwardFrame)
    n.bridge.daemon.outgoing
  serial : n.bridge.serial = n₀.bridge.serial ++
    ((gs.take k).map messageOf).flatMap (linkBytes link allowed)

namespace Progress

variable {n₀ n n' : Node dec} {gs : List Frame} {tail bytes : List UInt8} {k : ℕ}

theorem start (allowed : UInt16 → Bool) (hs : n₀.bridge.daemon.Sound)
    (hw : Writable false n₀.bridge.serialWrites)
    (hin : Begins gs tail n₀.bridge.daemon.incoming) :
    Progress allowed n₀ gs tail [] 0 n₀ :=
  ⟨hs, hw, rfl, by simpa [Remains] using hin, .refl _, (List.append_nil _).symm⟩

theorem forwarded (h : Progress allowed n₀ gs tail bytes k n) {more : List UInt8}
    (hfor : Forwarded n n' more) : Progress allowed n₀ gs tail (bytes ++ more) k n' where
  sound := hfor.sound
  writes := hfor.writes ▸ h.writes
  decoder := by rw [hfor.decoder, h.decoder, decodeAll_append]
  incoming := hfor.incoming ▸ h.incoming
  outgoing := by
    rw [LinkDecoder.messages_append, List.map_append, ← h.decoder]
    exact h.outgoing.trans hfor.outgoing
  serial := hfor.serial.trans h.serial

theorem received (h : Progress allowed n₀ gs tail bytes k n) (hgs : ∀ g ∈ gs, Legible g)
    (htail : Cut tail) : Progress allowed n₀ gs tail bytes (k + 1)
      { n with bridge := onDaemonReadable link allowed n.bridge } := by
  obtain ⟨hs, hw, hin, hout, hserial⟩ := onDaemonReadable_spec link allowed h.sound h.writes hgs htail
    h.incoming
  refine ⟨hs, hw, h.decoder, hin, hout ▸ h.outgoing, ?_⟩
  rw [hserial, h.serial, List.append_assoc, List.take_add_one, List.map_append, List.flatMap_append]
  cases gs[k]? <;> simp

/-- One turn of the loop. -/
theorem turn (h : Progress allowed n₀ gs tail bytes k n) (hgs : ∀ g ∈ gs, Legible g)
    (htail : Cut tail) (a : Wake) :
    (Overruns (dec.messages n.decoder a.bytes) ∧ n.turn allowed a = none) ∨
      (¬Overruns (dec.messages n.decoder a.bytes) ∧ ∃ n', n.turn allowed a = some n' ∧
        Progress allowed n₀ gs tail (bytes ++ a.bytes) (k + a.recvs) n') := by
  have hquiet : ¬Overruns (dec.messages n.decoder []) := by
    simp [Overruns, LinkDecoder.messages, decodeAll]
  unfold Node.turn
  by_cases hret : a.ret ≤ 0
  · have hbytes : a.bytes = [] := if_neg fun hb => absurd hb.1 (by omega)
    have hrecvs : a.recvs = 0 := if_neg fun hr => absurd hr.1 (by omega)
    rw [if_pos hret, hbytes, hrecvs, List.append_nil]
    exact .inr ⟨hquiet, n, rfl, h⟩
  · rw [if_neg hret]
    -- the daemon's socket comes first; the serial port finds what it has left
    obtain ⟨n₁, hn₁, hdec, h₁⟩ : ∃ n₁ : Node dec,
        (if a.daemonIn then { n with bridge := onDaemonReadable link allowed n.bridge } else n) = n₁ ∧
          n₁.decoder = n.decoder ∧ Progress allowed n₀ gs tail bytes (k + a.recvs) n₁ := by
      cases hd : a.daemonIn with
      | false =>
        have hrecvs : a.recvs = 0 := if_neg fun hr => by simp [hd] at hr
        exact ⟨n, rfl, rfl, hrecvs ▸ h⟩
      | true =>
        have hrecvs : a.recvs = 1 := if_pos ⟨by omega, hd⟩
        exact ⟨_, rfl, rfl, hrecvs ▸ h.received hgs htail⟩
    dsimp only
    rw [hn₁, ← hdec]
    cases hin : a.serialIn with
    | false =>
      have hbytes : a.bytes = [] := if_neg fun hb => by simp [hin] at hb
      rw [hbytes, List.append_nil]
      exact .inr ⟨hdec ▸ hquiet, n₁, rfl, h₁⟩
    | true =>
      have hbytes : a.bytes = a.read := if_pos ⟨by omega, hin⟩
      rw [hbytes]
      rcases feedAll_spec a.read h₁.sound with ⟨hover, hnone⟩ | ⟨hfine, n₂, hrun, hfor⟩
      · exact .inl ⟨hover, hnone⟩
      · exact .inr ⟨hfine, n₂, hrun, h₁.forwarded hfor⟩

/-- The whole run. -/
theorem run (hgs : ∀ g ∈ gs, Legible g) (htail : Cut tail) (as : List Wake) :
    ∀ {n : Node dec} {bytes : List UInt8} {k : ℕ}, Progress allowed n₀ gs tail bytes k n →
    (Overruns (dec.messages n.decoder (as.flatMap Wake.bytes)) ∧ n.run allowed as = none) ∨
      (¬Overruns (dec.messages n.decoder (as.flatMap Wake.bytes)) ∧ ∃ n', n.run allowed as = some n' ∧
        Progress allowed n₀ gs tail (bytes ++ as.flatMap Wake.bytes)
          (k + (as.map Wake.recvs).sum) n') := by
  induction as with
  | nil =>
    intro n bytes k h
    refine .inr ⟨by simp [Overruns, LinkDecoder.messages, decodeAll], n, rfl, ?_⟩
    simpa using h
  | cons a as ih =>
    intro n bytes k h
    rw [List.flatMap_cons, LinkDecoder.messages_append, overruns_append, List.map_cons, List.sum_cons,
      ← List.append_assoc, ← Nat.add_assoc, Node.run, List.foldlM_cons]
    rcases h.turn hgs htail a with ⟨hover, hnone⟩ | ⟨hfine, n₁, hturn, h₁⟩
    · exact .inl ⟨.inl hover, by rw [hnone]; rfl⟩
    · have hdec : (decodeAll dec.feed n.decoder a.bytes).1 = n₁.decoder := by
        rw [h₁.decoder, h.decoder, decodeAll_append]
      rw [hturn, Option.bind_eq_bind, Option.bind_some, hdec]
      rcases ih h₁ with ⟨hover, hnone⟩ | ⟨hfine', n₂, hrun, h₂⟩
      · exact .inl ⟨.inr hover, hnone⟩
      · exact .inr ⟨not_or.mpr ⟨hfine, hfine'⟩, n₂, hrun, h₂⟩

end Progress

/-- The two directions of the bridge, over any run of its loop: what it has sent to the daemon
is the messages in the bytes of the serial port and nothing else, whatever came from the
daemon; what it has written to the serial port is the messages it has taken from the daemon
and nothing else, whatever came from the serial port, and nothing more once the daemon's
stream is at its end. The run fails, in `forward_to_app`, exactly if a message of the serial
port is longer than `NET_IPC_MAX_DATA`. -/
theorem bridge_directions_independent (allowed : UInt16 → Bool) {n : Node dec}
    (hs : n.bridge.daemon.Sound) (hw : Writable false n.bridge.serialWrites) {gs : List Frame}
    (hgs : ∀ g ∈ gs, Legible g) {tail : List UInt8} (htail : Cut tail)
    (hin : Begins gs tail n.bridge.daemon.incoming) (as : List Wake) :
    let ms := dec.messages n.decoder (as.flatMap Wake.bytes)
    let read := gs.take (as.map Wake.recvs).sum
    (n.run allowed as = none ↔ ∃ m ∈ ms, netIpcMaxData < m.2.length) ∧
      ∀ n', n.run allowed as = some n' →
        Extends n.bridge.daemon.outgoing (ms.map forwardFrame) n'.bridge.daemon.outgoing ∧
          n'.bridge.serial = n.bridge.serial ++
            (read.map messageOf).flatMap (linkBytes link allowed) := by
  rcases (Progress.start allowed hs hw hin).run hgs htail as with ⟨hover, hnone⟩ | ⟨hfine, n₁, hrun, h₁⟩
  · exact ⟨⟨fun _ => hover, fun _ => hnone⟩, fun n' hn' => by simp [hnone] at hn'⟩
  · refine ⟨⟨fun hn => by simp [hrun] at hn, fun hover => absurd hover hfine⟩, fun n' hn' => ?_⟩
    obtain rfl : n₁ = n' := Option.some.inj (hrun.symm.trans hn')
    have hout := h₁.outgoing
    have hserial := h₁.serial
    rw [List.nil_append] at hout
    rw [Nat.zero_add] at hserial
    exact ⟨hout, hserial⟩

end Runs

/-! ## A decoder for the frames of `obc_test.py`

It shows that the assumptions on `plframe_decode_feed` can be met. -/

/-- The bytes of a frame are collected; a byte that cannot belong to one discards them. -/
def obcFeed (collected : List UInt8) (b : UInt8) : List UInt8 × DecodeResult :=
  let bs := collected ++ [b]
  let n := (getBe16 bs 4).toNat
  if bs.take 4 ≠ sync.take bs.length then ([], .resync)
  else if bs.length < 6 then (bs, .needMore)
  else if n < plMinBodyLen ∨ plMaxBodyLen < n then ([], .resync)
  else if bs.length < n + 8 then (bs, .needMore)
  else
    match decodeFrame bs with
    | some body => ([], .ok body)
    | none => ([], .badCrc)

section ObcFrames
variable {body : List UInt8} (hmin : plMinBodyLen ≤ body.length) (hmax : body.length ≤ plMaxBodyLen)
include hmax

theorem obcFrame_prefix {bs : List UInt8} (hpre : bs <+: encodeFrame body) :
    bs.take 4 = sync.take bs.length ∧ (6 ≤ bs.length → (getBe16 bs 4).toNat = body.length) := by
  have hsync : (encodeFrame body).take 4 = sync := List.take_left' rfl
  have hn : (getBe16 (encodeFrame body) 4).toNat = body.length := by
    rw [encodeFrame, getBe16_field sync _ 4 _ rfl, UInt16.toNat_ofNat',
      Nat.mod_eq_of_lt (hmax.trans_lt (by decide))]
  obtain ⟨rest, hrest⟩ := hpre
  constructor
  · rw [← hsync, ← hrest, List.take_take, List.take_append_of_le_length (min_le_left _ _),
      min_comm, ← List.take_take, List.take_length]
  · intro hlen
    rw [← hn, getBe16, getBe16, ← hrest]
    have hslice : slice (bs ++ rest) 4 2 = slice bs 4 2 := by
      simp only [slice]
      rw [List.drop_append_of_le_length (by omega), List.take_append_of_le_length (by simp; omega)]
    rw [hslice]

include hmin

theorem obcFeed_byte {collected rest : List UInt8} {b : UInt8}
    (hframe : collected ++ b :: rest = encodeFrame body) :
    obcFeed collected b =
      if rest = [] then ([], .ok body) else (collected ++ [b], .needMore) := by
  have hsplit : (collected ++ [b]) ++ rest = encodeFrame body := by simpa using hframe
  obtain ⟨hsync, hn⟩ := obcFrame_prefix hmax ⟨rest, hsplit⟩
  have hlen : (collected ++ [b]).length + rest.length = body.length + 8 := by
    rw [← List.length_append, hsplit]
    simp [encodeFrame, sync]
    omega
  unfold obcFeed
  dsimp only
  rw [if_neg (not_not.mpr hsync)]
  by_cases hshort : (collected ++ [b]).length < 6
  · have hmore : rest ≠ [] := by
      rintro rfl
      rw [List.length_nil] at hlen
      omega
    rw [if_pos hshort, if_neg hmore]
  · rw [if_neg hshort, hn (by omega), if_neg (by omega)]
    by_cases hlast : rest = []
    · subst hlast
      rw [List.append_nil] at hsplit
      rw [if_neg (by rw [List.length_nil] at hlen; omega), hsplit,
        decodeFrame_encodeFrame hmin hmax, if_pos rfl]
    · have hpos : 0 < rest.length := List.length_pos_iff.mpr hlast
      rw [if_pos (by omega), if_neg hlast]

theorem obcFeed_frame (bs : List UInt8) : ∀ {collected : List UInt8}, bs ≠ [] →
    collected ++ bs = encodeFrame body →
      (decodeAll obcFeed collected bs).1 = [] ∧
        ∃ n, (decodeAll obcFeed collected bs).2 = List.replicate n .needMore ++ [.ok body] := by
  induction bs with
  | nil => exact fun hne => absurd rfl hne
  | cons b bs ih =>
    intro collected _ hframe
    rw [decodeAll, obcFeed_byte hmin hmax hframe]
    by_cases hnil : bs = []
    · subst hnil
      exact ⟨rfl, 0, rfl⟩
    · rw [if_neg hnil]
      obtain ⟨hend, n, hresults⟩ := ih hnil (List.append_cons .. ▸ hframe)
      exact ⟨hend, n + 1, congrArg _ hresults⟩

end ObcFrames

def obcDecoder : LinkDecoder obcLink where
  Ctx := List UInt8
  init := []
  feed := obcFeed
  AtBoundary c := c = []
  init_boundary := rfl
  feed_frame := by
    rintro _ body rfl hmin hmax
    exact obcFeed_frame hmin hmax _ (obcLink.encode_ne_nil body hmin hmax) rfl

def responseFrame : Frame :=
  ⟨MsgType.deliver.code,
    nameBody payloadAppName ++ ((⟨0x012, 2⟩ : NetIpcHdr).encode ++ [0x03, 0x00])⟩

/-- The network process before its loop, with the command response and the beginning of
another frame in its connection. -/
def busyNode : Node obcDecoder where
  bridge := { daemon := { incoming := responseFrame.encode 0xABCD ++ [1, 0] } }
  decoder := obcDecoder.init

def daemonWake : Wake := { daemonIn := true }

/-- The frame of a time synchronisation ping, cut into two reads; in between the response is
taken, and behind it the end of the stream is found. -/
def busyWakes : List Wake :=
  [{ serialIn := true, read := (encodeFrame (buildBody 0x010 [0x03])).take 5 },
    daemonWake, { ret := -1 },
    { daemonIn := true, serialIn := true, read := (encodeFrame (buildBody 0x010 [0x03])).drop 5 }]

theorem bridge_directions_busyNode : ∃ n', busyNode.run (fun _ => true) busyWakes = some n' ∧
    Encodes [forwardFrame (.payloadCommand, [0x03])] n'.bridge.daemon.outgoing ∧
    n'.bridge.serial = encodeFrame (buildBody 0x012 [0x03, 0x00]) := by
  have hsound : busyNode.bridge.daemon.Sound := ⟨by decide, by decide, by decide⟩
  have hwrites : Writable false busyNode.bridge.serialWrites := ⟨by decide, by decide⟩
  have hlegible : ∀ g ∈ [responseFrame], Legible g := by
    intro g hg
    obtain rfl := List.mem_singleton.mp hg
    exact ⟨by decide, fun _ => by decide⟩
  have hcut : Cut [1, 0] :=
    ⟨⟨MsgType.pong.code, [0]⟩, 0, ⟨by decide, by decide⟩, by decide, by decide⟩
  obtain ⟨-, hout⟩ := bridge_directions_independent (fun _ => true) hsound hwrites hlegible hcut
    ⟨_, .single _ 0xABCD, rfl⟩ busyWakes
  have hms : obcDecoder.messages busyNode.decoder (busyWakes.flatMap Wake.bytes) =
      [(.payloadCommand, [0x03])] := by decide +kernel
  rw [hms] at hout
  have hruns : (busyNode.run (fun _ => true) busyWakes).isSome = true := by decide +kernel
  obtain ⟨n', hrun⟩ := Option.isSome_iff_exists.mp hruns
  obtain ⟨hdaemon, hserial⟩ := hout n' hrun
  refine ⟨n', hrun, hdaemon.encodes .nil, hserial.trans ?_⟩
  decide +kernel

end PiDaemon.Network
