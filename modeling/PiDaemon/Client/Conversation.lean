import PiDaemon.Client.Relay
import PiDaemon.Server.Bus
import PiDaemon.Server.Incoming

/-!
# Conversations

Two processes that talk through the daemon, over whole runs: what one of them writes
with the client library, cut into pieces on its way in and out of the server, is what
the other reads with it. The bytes that a process has written, the frames the server has
handled and queued, and the bytes that have come out again may stand at any point each.
-/

namespace PiDaemon.Client

open Base Proto Server

/-! ## Reading what the server queues -/

/-- A frame that `daemon_client_recv` hands out. -/
structure Legible (g : Frame) : Prop where
  short : g.payload.length ≤ maxMsgPayload
  named : g.type = MsgType.deliver.code → nameMax ≤ g.payload.length

def messageOf (g : Frame) : Message :=
  if g.type = MsgType.deliver.code then ⟨g.type, g.payload.take nameMax, g.payload.drop nameMax⟩
  else ⟨g.type, List.replicate nameMax 0, g.payload⟩

theorem openFrame_legible {g : Frame} (h : Legible g) :
    openFrame g maxMsgPayload = .ok (messageOf g) := by
  have hshort := h.short
  unfold openFrame messageOf
  split_ifs with htype hname hlong hlong
  · exact absurd (h.named htype) (Nat.not_le.mpr hname)
  · rw [List.length_drop] at hlong
    omega
  · rfl
  · omega
  · rfl

theorem daemonClientRecv_legible {s : Socket} (hs : s.Sound) {g : Frame} {padding : UInt16}
    {rest : List UInt8} (h : Legible g) (hin : s.incoming = g.encode padding ++ rest) :
    ∃ s' : Socket, s'.Sound ∧ s'.incoming = rest ∧ s'.outgoing = s.outgoing ∧
      daemonClientRecv s maxMsgPayload = (s', .ok (messageOf g)) := by
  have hshort := h.short
  have hlen : g.payload.length < 2 ^ 32 := hshort.trans_lt (by decide)
  obtain ⟨rs, hrs, hrecv⟩ := daemonRecv_spec hs hin hlen (nameMax + maxMsgPayload)
  rw [if_pos (by omega)] at hrecv
  refine ⟨{ s with incoming := rest, reads := rs }, ⟨hrs, hs.writes⟩, rfl, rfl, ?_⟩
  rw [daemonClientRecv, hrecv]
  dsimp only
  rw [openFrame_legible h]

theorem daemonReadAll_short {s : Socket} (hs : s.Sound) {len : ℕ} (h : s.incoming.length < len) :
    ∃ rs, IoResult.fail ∉ rs ∧
      daemonReadAll s len = ({ s with incoming := [], reads := rs }, none) := by
  obtain ⟨hok, hscript⟩ := readLoop_ok hs.reads len s.incoming
  have hdata : (readLoop len s.incoming s.reads).data = s.incoming := by
    rw [readLoop_data _ _ _ hok, List.take_of_length_le h.le]
  have hrest : (readLoop len s.incoming s.reads).rest = [] := by
    have happ := readLoop_append s.reads len s.incoming
    rw [hdata] at happ
    exact List.append_cancel_left (happ.trans (List.append_nil _).symm)
  exact ⟨_, hscript, by simp [daemonReadAll, hdata, hrest, h]⟩

theorem daemonRecv_cut {s : Socket} (hs : s.Sound) {g : Frame} (h : Legible g)
    {padding : UInt16} (hcut : s.incoming <+: g.encode padding)
    (hshort : s.incoming.length < hdrSize + g.payload.length) :
    ∃ rs, IoResult.fail ∉ rs ∧
      daemonRecv s (nameMax + maxMsgPayload) = ({ s with incoming := [], reads := rs }, .failed) := by
  have hsize := h.short
  by_cases hhdr : s.incoming.length < hdrSize
  · obtain ⟨rs, hrs, hread⟩ := daemonReadAll_short hs hhdr
    exact ⟨rs, hrs, by rw [daemonRecv, hread]⟩
  · -- the header is there, so the payload is what is cut
    obtain ⟨body, hbody⟩ : hdrBytes (UInt32.ofNat g.payload.length) g.type padding <+: s.incoming := by
      refine List.prefix_of_prefix_length_le (List.prefix_append _ g.payload) hcut ?_
      rw [length_hdrBytes]
      omega
    obtain ⟨rs, hrs, hread⟩ := daemonReadAll_spec hs hbody.symm
    rw [length_hdrBytes] at hread
    have hdeclared : hdrLength (hdrBytes (UInt32.ofNat g.payload.length) g.type padding) =
        g.payload.length := by
      rw [hdrLength_hdrBytes, hdrLength_encode (hsize.trans_lt (by decide))]
    have hmissing : body.length < g.payload.length := by
      rw [← hbody, List.length_append, length_hdrBytes] at hshort
      omega
    obtain ⟨rs', hrs', hread'⟩ := daemonReadAll_short (s := { s with incoming := body, reads := rs })
      ⟨hrs, hs.writes⟩ hmissing
    refine ⟨rs', hrs', ?_⟩
    rw [daemonRecv, hread]
    dsimp only
    rw [hdeclared, if_neg (by omega), if_neg (by omega), hread']

theorem daemonClientRecv_cut {s : Socket} (hs : s.Sound) {g : Frame} (h : Legible g)
    {padding : UInt16} (hcut : s.incoming <+: g.encode padding)
    (hshort : s.incoming.length < hdrSize + g.payload.length) (bufsize : ℕ) :
    ∃ s' : Socket, s'.Sound ∧ s'.incoming = [] ∧ s'.outgoing = s.outgoing ∧
      daemonClientRecv s bufsize = (s', .error .io) := by
  obtain ⟨rs, hrs, hrecv⟩ := daemonRecv_cut hs h hcut hshort
  refine ⟨{ s with incoming := [], reads := rs }, ⟨hrs, hs.writes⟩, rfl, rfl, ?_⟩
  rw [daemonClientRecv, hrecv]

theorem legible_pong : Legible ⟨MsgType.pong.code, []⟩ := ⟨by simp, by decide⟩

theorem legible_of_ne {t : MsgType} (ht : t ≠ .deliver) {payload : List UInt8}
    (hlen : payload.length ≤ maxMsgPayload) : Legible ⟨t.code, payload⟩ := by
  refine ⟨hlen, fun hcode => absurd ?_ ht⟩
  cases t <;> first | rfl | cases hcode

theorem legible_errorFrame (e : DaemonErr) : Legible (errorFrame e) :=
  legible_of_ne (t := .error) (by decide) (by cases e <;> decide)

theorem legible_stateValue (s : SatelliteState) : Legible ⟨MsgType.stateValue.code, s.encode⟩ :=
  legible_of_ne (by decide) (by rw [SatelliteState.length_encode]; decide)

theorem legible_deliverFrame {src : List UInt8} (hsrc : src.length = nameMax) {f : Frame}
    (hlen : f.payload.length ≤ maxMsgPayload) (hname : nameMax ≤ f.payload.length) :
    Legible (World.deliverFrame src f) := by
  constructor
  · simp [World.deliverFrame, hsrc]
    omega
  · exact fun _ => by simp [World.deliverFrame, hsrc]

def AllLegible (w : World) : Prop := ∀ k, ∀ g ∈ (w.peer k).queued, Legible g

namespace AllLegible

variable {w : World}

theorem queueSend (h : AllLegible w) (j : Slot) {g : Frame} (hg : Legible g) :
    AllLegible (w.queueSend j g) := by
  intro k g' hg'
  rw [World.peer, World.queueSend_clients] at hg'
  split_ifs at hg' with hk
  · rcases List.mem_append.mp hg' with hold | hnew
    · exact h j g' hold
    · rw [List.mem_singleton.mp hnew]
      exact hg
  · exact h k g' hg'

theorem modify (h : AllLegible w) (i : Slot) {g : Endpoint → Endpoint}
    (hg : ∀ e, (g e).peer.queued = e.peer.queued) : AllLegible (w.modify i g) := by
  intro k
  rw [World.peer, World.modify_clients]
  split_ifs with hk
  · rw [hg]
    exact h i
  · exact h k

theorem effect (h : AllLegible w) {i : Slot} {f : Frame} (hlen : f.payload.length ≤ maxMsgPayload)
    (hname : (w.conn i).name.length = nameMax) {w' : World} (heff : World.Effect w i f w') :
    AllLegible w' := by
  cases heff with
  | refused e => exact (h.queueSend i (legible_errorFrame e)).modify i fun _ => rfl
  | registered =>
    have hset : AllLegible (w.setName i (World.nameField f.payload)) := h.modify i fun _ => rfl
    exact hset.queueSend i (legible_of_ne (t := .registerOk) (by decide) (Nat.zero_le _))
  | value => exact h.queueSend i (legible_stateValue _)
  | stored => exact AllLegible.queueSend (w := w.storeState _) h i (legible_stateValue _)
  | delivered j _ _ hlong => exact h.queueSend j (legible_deliverFrame hname hlen hlong)
  | unknown => exact h.queueSend i (legible_errorFrame _)
  | pong => exact h.queueSend i legible_pong
  | malformed => exact h.queueSend i (legible_errorFrame _)

end AllLegible

theorem allLegible_of_reachable {b : Boot} {w : World} (h : Reachable b w) : AllLegible w := by
  induction h with
  | refl => exact fun _ g hg => by cases hg
  | @tail v w hv hstep ih =>
    cases hstep.turn with
    | calm hsame =>
      intro k
      rw [World.peer, (hsame k).queued]
      exact ih k
    | accept i fd stream =>
      intro k g hg
      rw [World.peer, World.accept_clients] at hg
      split_ifs at hg
      · cases hg
      · exact ih k g hg
    | close i =>
      intro k g hg
      rw [World.peer, World.closeClient_clients] at hg
      split_ifs at hg
      · cases hg
      · exact ih k g hg
    | dispatch i f rest _ _ hlen =>
      have hname : NameField ((v.consume i f rest).clients i) := by
        rw [World.consume_clients, if_pos rfl]
        exact (nameField_local.reachable hv).live i
      have hconsume : AllLegible (v.consume i f rest) := by
        intro k
        rw [World.peer, World.consume_clients]
        split_ifs with hk
        · exact ih i
        · exact ih k
      exact hconsume.effect hlen hname.length (v.dispatch_effect i f rest)

/-! ## What a client has written is what is handled -/

theorem length_of_mem_frames {F : Format UInt8} (fuel : ℕ) : ∀ {bs : List UInt8}
    {raw : List UInt8 × List UInt8}, raw ∈ (F.readFrames fuel bs).1 → raw.2.length ≤ F.limit := by
  induction fuel with
  | zero => exact fun h => by cases h
  | succ fuel ih =>
    intro bs raw hraw
    unfold Format.readFrames at hraw
    split at hraw
    case h_1 hdr body rest hhead =>
      obtain ⟨-, -, hbody, hlimit⟩ := F.head_frame_iff.mp hhead
      rcases List.mem_cons.mp hraw with rfl | htail
      · exact hbody.trans_le hlimit
      · exact ih htail
    case h_2 => cases hraw

theorem length_of_mem_parseFrames {bs : List UInt8} {f : Frame} (h : f ∈ parseFrames bs) :
    f.payload.length ≤ maxMsgPayload := by
  obtain ⟨raw, hraw, rfl⟩ := List.mem_map.mp h
  exact length_of_mem_frames _ hraw

structure Stays (w w' : World) (i : Slot) : Prop where
  inUse : (w'.conn i).inUse = true
  serial : (w'.peer i).serial = (w.peer i).serial

section Written
variable {b : Boot} {w w' : World} (h : Reachable b w) (hsteps : Steps w w') {i j : Slot}
  (hi : w.Routable i) (hi' : Stays w w' i) {fs : List Frame}
  (hfs : ∀ f ∈ fs, f.payload.length ≤ maxMsgPayload)
  (hwritten : Encodes ((w.peer i).handled ++ fs) (w'.peer i).stream)
include h hsteps hi hi' hfs hwritten

/-- Of the frames that a client writes, the server handles the first ones, and all of them
once no byte is ahead. -/
theorem handled_of_written : ∃ handled, (w'.peer i).handled = (w.peer i).handled ++ handled ∧
    handled <+: fs ∧ ((w'.clients i).ahead = [] → handled = fs) := by
  have hreach' : Reachable b w' := h.trans hsteps
  have hbefore : ∀ f ∈ (w.peer i).handled, f.payload.length ≤ maxMsgPayload := by
    intro f hf
    have hmem : f ∈ parseFrames (w.peer i).stream := by
      rw [((parsed_local.reachable h).live i).frames]
      exact List.mem_append_left _ hf
    exact length_of_mem_parseFrames hmem
  have hall : ∀ f ∈ (w.peer i).handled ++ fs, f.payload.length ≤ maxMsgPayload := fun f hf =>
    (List.mem_append.mp hf).elim (hbefore f) (hfs f)
  obtain ⟨⟨handled, hgrown⟩, -⟩ := records_grow h hsteps hi.1 hi'.inUse hi'.serial
  have hparsed := ((parsed_local.reachable hreach').live i).frames
  rw [(hwritten.parse hall).1] at hparsed
  change _ = (w'.peer i).handled ++ _ at hparsed
  rw [← hgrown, List.append_assoc] at hparsed
  have hsplit : fs = handled ++ parseFrames (w'.clients i).ahead := List.append_cancel_left hparsed
  refine ⟨handled, hgrown.symm, ⟨_, hsplit.symm⟩, fun hnil => ?_⟩
  rw [hnil] at hsplit
  exact (hsplit.trans (List.append_nil _)).symm

/-- What is queued to one client from another begins what that one has written for it. -/
theorem queued_of_written (hj : w.Routable j) (hj' : Stays w w' j) :
    ∃ queued, (w'.peer j).queued = (w.peer j).queued ++ queued ∧
      queued.filterMap (deliveredFrom (w.conn i).name) <+: fs.filterMap (sentTo (w.conn j).name) ∧
      ((w'.clients i).ahead = [] → queued.filterMap (deliveredFrom (w.conn i).name) =
        fs.filterMap (sentTo (w.conn j).name)) := by
  obtain ⟨handled, hhandled, hpre, hall⟩ := handled_of_written h hsteps hi hi' hfs hwritten
  obtain ⟨handled', queued, hhandled', hqueued, hrelay⟩ := relayed_in_order h hsteps hi hj
    hi'.inUse hi'.serial hj'.inUse hj'.serial
  obtain rfl : handled' = handled := List.append_cancel_left (hhandled'.symm.trans hhandled)
  refine ⟨queued, hqueued, ?_, fun hnil => ?_⟩
  · rw [hrelay]
    exact hpre.filterMap _
  · rw [hrelay, hall hnil]

end Written

/-! ## From one process to another -/

/-- A `DMSG_SEND` of the library is for the client of that name. -/
theorem sentTo_sendFrame {name dest : List UInt8}
    (hname : cString (name.take nameMax) = (cString dest).take (nameMax - 1)) (data : List UInt8) :
    sentTo name (sendFrame dest data) = some data := by
  have hcmp : strncmpEq nameMax name (World.nameField (sendFrame dest data).payload) = true := by
    rw [strncmpEq, decide_eq_true_eq, sendFrame, nameField_nameBody, cString_nameBody, hname]
  rw [sentTo, if_pos ⟨MsgType.ofCode?_code .send, by simp [sendFrame], hcmp⟩, sendFrame,
    List.drop_left' (length_nameBody dest)]

/-- Of the bytes accepted for slot `j` by the time of `w'`, `bs` are those behind the frames
queued in `w`. -/
def SentSince (w w' : World) (j : Slot) (bs : List UInt8) : Prop :=
  ∃ before, Encodes (w.peer j).queued before ∧ before ++ bs = (w'.peer j).wire

theorem SentSince.stream {b : Boot} {w w' : World} (h : Reachable b w') {j : Slot}
    (hopen : (w'.conn j).shouldClose = false) {queued : List Frame}
    (hqueued : (w'.peer j).queued = (w.peer j).queued ++ queued) {bs : List UInt8}
    (hbs : SentSince w w' j bs) : Encodes queued (bs ++ (w'.conn j).tx.pending) := by
  obtain ⟨before, hbefore, hwire⟩ := hbs
  have hout : Encodes (w'.peer j).queued ((w'.peer j).wire ++ (w'.conn j).tx.pending) :=
    ((faithful_local.reachable h).live j).stream hopen
  rw [hqueued, ← hwire, List.append_assoc] at hout
  obtain ⟨front, back, heq, hfront, hback⟩ := hout.split
  obtain ⟨-, rfl⟩ := List.append_inj heq (hbefore.length_eq hfront)
  exact hback

/-- The bytes are a frame that is cut off. -/
def Cut (tail : List UInt8) : Prop :=
  ∃ g padding, Legible g ∧ tail <+: g.encode padding ∧ tail.length < hdrSize + g.payload.length

theorem cut_nil : Cut [] := ⟨_, 0, legible_pong, List.nil_prefix, by decide⟩

theorem exists_cut {gs : List Frame} {all : List UInt8} (hall : Encodes gs all) :
    (∀ g ∈ gs, Legible g) → ∀ {bs : List UInt8}, bs <+: all → ∃ m tail,
      Begins (gs.take m) tail bs ∧ Cut tail ∧ (bs = all → gs.take m = gs) := by
  induction hall with
  | nil => exact fun _ _ hpre => ⟨0, [], ⟨[], .nil, by simpa using hpre⟩, cut_nil, fun _ => rfl⟩
  | @cons g padding gs all _ ih =>
    intro hgs bs hpre
    have hsize := length_encode g padding
    by_cases hwhole : hdrSize + g.payload.length ≤ bs.length
    · obtain ⟨rest, rfl⟩ := List.prefix_of_prefix_length_le (List.prefix_append _ _) hpre
        (hsize.trans_le hwhole)
      obtain ⟨m, tail, ⟨front, hfront, rfl⟩, htail, hall⟩ :=
        ih (fun g' hg' => hgs g' (List.mem_cons_of_mem _ hg'))
          ((List.prefix_append_right_inj _).mp hpre)
      refine ⟨m + 1, tail, ⟨g.encode padding ++ front, .cons g padding hfront,
        (List.append_assoc _ _ _).symm⟩, htail, fun heq => ?_⟩
      rw [List.take_succ_cons, hall (List.append_cancel_left heq)]
    · refine ⟨0, bs, ⟨[], .nil, rfl⟩, ⟨g, padding, hgs g (List.mem_cons_self ..),
        List.prefix_of_prefix_length_le hpre (List.prefix_append _ _) (by omega), by omega⟩, ?_⟩
      intro heq
      rw [heq, List.length_append] at hwhole
      omega

/-- What a client that is registered in `w` finds in its connection by the time of `w'` are the
frames queued for it since `w`, of which the last may be cut off. -/
theorem incoming_frames {b : Boot} {w w' : World} (h : Reachable b w) (hsteps : Steps w w') {i : Slot}
    (hi : w.Routable i) (hi' : Stays w w' i) (hopen : (w'.conn i).shouldClose = false) {s : Socket}
    (hread : SentSince w w' i s.incoming) :
    ∃ queued whole tail, (w'.peer i).queued = (w.peer i).queued ++ queued ∧
      (∀ g ∈ queued, Legible g) ∧ Cut tail ∧ Begins (queued.take whole) tail s.incoming ∧
      ((w'.conn i).tx.pending = [] → queued.take whole = queued) := by
  obtain ⟨-, queued, hqueued⟩ := records_grow h hsteps hi.1 hi'.inUse hi'.serial
  have hreach' : Reachable b w' := h.trans hsteps
  have hlegible : ∀ g ∈ queued, Legible g := fun g hg =>
    allLegible_of_reachable hreach' i g (hqueued ▸ List.mem_append_right _ hg)
  have hstream := hread.stream hreach' hopen hqueued.symm
  obtain ⟨whole, tail, hin, htail, hall⟩ := exists_cut hstream hlegible (List.prefix_append _ _)
  refine ⟨queued, whole, tail, hqueued.symm, hlegible, htail, hin, fun hnil => hall ?_⟩
  rw [hnil, List.append_nil]

/-- A process with the socket `s` is behind slot `i`, which is registered in `w` and still open
in `w'`. In `w` it has written what has been handled and read what has been queued, and by the
time of `w'` it can read no more than the server has sent. -/
structure ClientBehind (w w' : World) (i : Slot) (s : Socket) : Prop where
  routable : w.Routable i
  stays : Stays w w' i
  opened : (w'.conn i).shouldClose = false
  sound : s.Sound
  written : Encodes (w.peer i).handled s.outgoing
  readable : SentSince w w' i s.incoming

end PiDaemon.Client
