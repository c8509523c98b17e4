import PiDaemon.Base.Bus
import PiDaemon.Server.Outgoing
import PiDaemon.Server.Protocol

/-!
# The server is a message bus

The connections of the server are the members of a bus, told apart by their serial
numbers: the frames a connection has had handled are what its member has said, the
frames queued to it are what its member has heard, and the satellite state is the
register. Every step of the server is a step of that bus or none at all, so what holds
of the bus over whole runs holds of the server, between any two points of any run.
-/

namespace PiDaemon.Server

open Base Proto Store

/-! ## Names, requests and replies -/

@[ext] structure Name where
  text : List UInt8
  noNul : (0 : UInt8) ∉ text
  short : text.length < nameMax
  deriving DecidableEq

def Name.ofPayload (payload : List UInt8) : Name where
  text := cString (World.nameField payload)
  noNul := zero_notMem_cString _
  short := (length_cString_nameField payload).trans_lt (by decide)

abbrev ClientRequest := Request Name SatelliteState (List UInt8)
abbrev ClientReply := Reply Name SatelliteState (List UInt8)

def requestOf (f : Frame) : ClientRequest :=
  match MsgType.ofCode? f.type with
  | some .register =>
    if f.payload.length < nameMax ∨ (Name.ofPayload f.payload).text = [] then .register none
    else .register (some (.ofPayload f.payload))
  | some .stateGet => .read
  | some .stateSet =>
    if f.payload.length = stateSize then .write (SatelliteState.decode f.payload) else .garbled
  | some .send =>
    if f.payload.length < nameMax then .garbled
    else .send (.ofPayload f.payload) (f.payload.drop nameMax)
  | some .ping => .ping
  | _ => .garbled

def errorOf : Fault → DaemonErr
  | .notRegistered => .notRegistered
  | .garbled => .badMessage
  | .nameTaken => .nameTaken
  | .unknownName => .unknownDest

def replyFrame : ClientReply → Frame
  | .welcome => ⟨MsgType.registerOk.code, []⟩
  | .value s => ⟨MsgType.stateValue.code, s.encode⟩
  | .pong => ⟨MsgType.pong.code, []⟩
  | .message src data => ⟨MsgType.deliver.code, paddedName src.text ++ data⟩
  | .fault f => errorFrame (errorOf f)

theorem take_nameField (payload : List UInt8) :
    (World.nameField payload).take nameMax = World.nameField payload :=
  List.take_of_length_le (by simp [World.nameField, nameMax])

theorem head_nameField_iff (payload : List UInt8) :
    (World.nameField payload).head? = some 0 ↔ (Name.ofPayload payload).text = [] := by
  change _ ↔ cString (World.nameField payload) = []
  unfold World.nameField cString
  cases payload.take (nameMax - 1) with
  | nil => simp
  | cons x xs => by_cases hx : x = 0 <;> simp [hx]

theorem cString_paddedName (n : Name) : cString ((paddedName n.text).take nameMax) = n.text := by
  have hlen : (paddedName n.text).length = nameMax := by
    have := n.short
    simp only [paddedName, List.length_append, List.length_replicate]
    omega
  obtain ⟨k, hk⟩ : ∃ k, nameMax - n.text.length = k + 1 :=
    ⟨nameMax - n.text.length - 1, by have := n.short; omega⟩
  rw [List.take_of_length_le hlen.le, paddedName, hk, List.replicate_succ]
  exact cString_append_zero n.noNul _

theorem paddedName_setName {e : Endpoint} (h : NameField e) {payload : List UInt8}
    (hhead : (World.nameField payload).head? ≠ some 0) :
    (e.setName (World.nameField payload)).conn.name = paddedName (Name.ofPayload payload).text := by
  obtain ⟨text, -, hnul, hshort, hname⟩ := wellNamed_setName h hhead
  have htext : text = (Name.ofPayload payload).text :=
    calc text = cString ((paddedName text).take nameMax) :=
          (cString_paddedName ⟨text, hnul, hshort⟩).symm
      _ = cString (World.nameField payload) := by
          rw [← hname, h.setName, cString_take_stored, take_nameField]
  rw [hname, htext]

/-! ## The bus behind a world -/

def Stands (e : Endpoint) : Standing Name → Prop
  | .stranger => e.conn.registered = false
  | .dismissed => e.conn.registered = false ∧ e.conn.shouldClose = true
  | .named n => e.conn.registered = true ∧ e.conn.name = paddedName n.text

structure Represents (e : Endpoint) (m : Member Name SatelliteState (List UInt8)) : Prop where
  stands : Stands e m.standing
  said : m.said = e.peer.handled.map requestOf
  heard : e.peer.queued = m.heard.map replyFrame

structure Refines (w : World) (v : Bus ℕ Name SatelliteState (List UInt8)) : Prop where
  register : v.register = w.state
  joined (serial : ℕ) : serial ∈ v.joined ↔ serial < w.accepted
  present {i : Slot} : (w.conn i).inUse = true →
    ∃ m, v.members (w.peer i).serial = some m ∧ Represents (w.clients i) m
  absent {serial : ℕ} {m : Member Name SatelliteState (List UInt8)} :
    v.members serial = some m → ∃ i, (w.conn i).inUse = true ∧ (w.peer i).serial = serial

theorem Stands.keep {e e' : Endpoint} {st : Standing Name} (h : Stands e st)
    (hreg : e'.conn.registered = e.conn.registered) (hname : e'.conn.name = e.conn.name)
    (hclose : e.conn.shouldClose = true → e'.conn.shouldClose = true) : Stands e' st := by
  cases st with
  | stranger => exact hreg.trans h
  | dismissed => exact ⟨hreg.trans h.1, hclose h.2⟩
  | named n => exact ⟨hreg.trans h.1, hname.trans h.2⟩

theorem Represents.same {e e' : Endpoint} {m : Member Name SatelliteState (List UInt8)}
    (h : Represents e m) (hsame : Same e e') : Represents e' m where
  stands := by
    refine h.stands.keep hsame.registered hsame.name fun hc => ?_
    by_contra hopen
    simp [hsame.opened (by simpa using hopen)] at hc
  said := by rw [h.said, hsame.handled]
  heard := hsame.queued.trans h.heard

namespace Refines

variable {w w' : World} {v : Bus ℕ Name SatelliteState (List UInt8)}

theorem boot (b : Boot) : Refines b.world (Bus.start b.state) where
  register := rfl
  joined _ := by simp [Bus.start, Boot.world]
  present h := by simp [Boot.world] at h
  absent h := by simp [Bus.start] at h

/-- A routable slot is a member with a name. -/
theorem named (h : Refines w v) {i : Slot} (hi : w.Routable i) :
    ∃ n m, v.members (w.peer i).serial = some m ∧ Represents (w.clients i) m ∧
      m.standing = .named n ∧ (w.conn i).name = paddedName n.text := by
  obtain ⟨m, hm, hrep⟩ := h.present hi.1
  have hst := hrep.stands
  cases hstand : m.standing with
  | stranger | dismissed =>
    rw [hstand] at hst
    simp [Stands, hi.2] at hst
  | named n =>
    rw [hstand] at hst
    exact ⟨n, m, hm, hrep, hstand, hst.2⟩

theorem holds_iff (h : Refines w v) {i : Slot} (huse : (w.conn i).inUse = true) (n : Name) :
    v.Holds (w.peer i).serial n ↔
      (w.conn i).registered = true ∧ cString ((w.conn i).name.take nameMax) = n.text := by
  obtain ⟨m, hm, hrep⟩ := h.present huse
  have hst := hrep.stands
  constructor
  · rintro ⟨m', hm', hn⟩
    cases hm.symm.trans hm'
    rw [hn] at hst
    exact ⟨hst.1, by rw [World.conn, hst.2, cString_paddedName]⟩
  · rintro ⟨hreg, htext⟩
    obtain ⟨n', m', hm', -, hstand, hname⟩ := h.named ⟨huse, hreg⟩
    have htext' : n'.text = n.text := by rw [← htext, hname, cString_paddedName]
    exact ⟨m', hm', Name.ext htext' ▸ hstand⟩

theorem free_iff (h : Refines w v) (n : Name) :
    v.Free n ↔ ∀ k, w.Routable k → cString ((w.conn k).name.take nameMax) ≠ n.text := by
  constructor
  · intro hfree k hk heq
    exact hfree _ ((h.holds_iff hk.1 n).mpr ⟨hk.2, heq⟩)
  · rintro hne serial hholds
    obtain ⟨k, huse, rfl⟩ := h.absent hholds.choose_spec.1
    obtain ⟨hreg, heq⟩ := (h.holds_iff huse n).mp hholds
    exact hne k ⟨huse, hreg⟩ heq

end Refines

/-! ## Handling a frame is one exchange -/

/-- From `w` to `w'` frame `f` of slot `i` has been handled and the frames `out k` have been
queued to slot `k`; who the other slots are is as before. -/
structure Exchanged (w w' : World) (i : Slot) (f : Frame) (out : Slot → List Frame) : Prop where
  accepted : w'.accepted = w.accepted
  inUse (k : Slot) : (w'.conn k).inUse = (w.conn k).inUse
  serial (k : Slot) : (w'.peer k).serial = (w.peer k).serial
  handled (k : Slot) : (w'.peer k).handled = (w.peer k).handled ++ if k = i then [f] else []
  queued (k : Slot) : (w'.peer k).queued = (w.peer k).queued ++ out k
  others {k : Slot} {st : Standing Name} : k ≠ i → Stands (w.clients k) st →
    Stands (w'.clients k) st

namespace Exchanged

variable {w v : World} {i : Slot} {f : Frame} {out : Slot → List Frame}

theorem consume (w : World) (i : Slot) (f : Frame) (rest : List UInt8) :
    Exchanged w (w.consume i f rest) i f fun _ => [] where
  accepted := rfl
  inUse k := by rw [World.consume_conn]
  serial k := by
    rw [World.peer, World.consume_clients]
    split_ifs with hk
    · rw [hk]
      rfl
    · rfl
  handled k := by
    rw [World.peer, World.consume_clients]
    split_ifs with hk
    · rw [hk]
      rfl
    · rw [List.append_nil]
  queued k := by rw [World.consume_queued, List.append_nil]
  others hk hst := by rwa [World.consume_clients, if_neg hk]

theorem modify (h : Exchanged w v i f out) {g : Endpoint → Endpoint}
    (huse : ∀ e, (g e).conn.inUse = e.conn.inUse) (hpeer : ∀ e, (g e).peer = e.peer) :
    Exchanged w (v.modify i g) i f out := by
  have hsame (k : Slot) : ((v.modify i g).conn k).inUse = (v.conn k).inUse ∧
      (v.modify i g).peer k = v.peer k := by
    rw [World.conn, World.peer, World.modify_clients]
    split_ifs with hk
    · rw [huse, hpeer, hk]
      exact ⟨rfl, rfl⟩
    · exact ⟨rfl, rfl⟩
  exact
    { accepted := h.accepted
      inUse k := (hsame k).1.trans (h.inUse k)
      serial k := by rw [(hsame k).2, h.serial]
      handled k := by rw [(hsame k).2, h.handled]
      queued k := by rw [(hsame k).2, h.queued]
      others hk hst := by
        rw [World.modify_clients, if_neg hk]
        exact h.others hk hst }

theorem storeState (h : Exchanged w v i f out) (s : SatelliteState) :
    Exchanged w (v.storeState s) i f out :=
  ⟨h.accepted, h.inUse, h.serial, h.handled, h.queued, h.others⟩

theorem queueSend (h : Exchanged w v i f fun _ => []) (j : Slot) (g : Frame) :
    Exchanged w (v.queueSend j g) i f fun k => if k = j then [g] else [] where
  accepted := h.accepted
  inUse k := by rw [(World.queueSend_outputOnly v j g k).inUse, h.inUse]
  serial k := by
    rw [← h.serial k, World.peer, World.queueSend_clients]
    split_ifs with hk
    · rw [hk]
      rfl
    · rfl
  handled k := by
    rw [← h.handled k, World.peer, World.queueSend_clients]
    split_ifs with hk
    · rw [hk]
      rfl
    · rfl
  queued k := by
    have hq := h.queued k
    rw [List.append_nil] at hq
    rw [← hq, World.peer, World.queueSend_clients]
    split_ifs with hk
    · rw [hk]
      rfl
    · rw [List.append_nil]
  others {k _} hk hst := by
    have hout := World.queueSend_outputOnly v j g k
    exact (h.others hk hst).keep hout.registered hout.name hout.shouldClose

end Exchanged

theorem Refines.say {w w' : World} {v : Bus ℕ Name SatelliteState (List UInt8)} {i j : Slot}
    {f : Frame} {m : Member Name SatelliteState (List UInt8)} (h : Refines w v)
    (hregistry : Registry w) (x : ClientReply) (st : Standing Name)
    (hi : (w.conn i).inUse = true) (hj : (w.conn j).inUse = true)
    (hm : v.members (w.peer i).serial = some m)
    (hans : v.Answers (w.peer i).serial m.standing (requestOf f) (w.peer j).serial x w'.state st)
    (hex : Exchanged w w' i f fun k => if k = j then [replyFrame x] else [])
    (hst : Stands (w'.clients i) st) : ∃ v', Bus.Steps v v' ∧ Refines w' v' := by
  refine ⟨_, .single (.say (w.peer i).serial hm hans), ⟨rfl, fun s => ?_, fun {k} huse => ?_, ?_⟩⟩
  · rw [hex.accepted]
    exact h.joined s
  · rw [hex.inUse] at huse
    obtain ⟨mk, hmk, hrep⟩ := h.present huse
    -- two connections in use are the same exactly when their numbers are
    have hki : (w.peer k).serial = (w.peer i).serial ↔ k = i :=
      ⟨hregistry.serial_inj k i huse hi, fun heq => by rw [heq]⟩
    have hkj : (w.peer k).serial = (w.peer j).serial ↔ k = j :=
      ⟨hregistry.serial_inj k j huse hj, fun heq => by rw [heq]⟩
    refine ⟨_, by rw [hex.serial]; exact congrArg (Option.map _) hmk, ?_, ?_, ?_⟩
    · simp only [hki]
      split_ifs with hk
      · exact hk ▸ hst
      · exact hex.others hk hrep.stands
    · simp only [hki, hrep.said]
      rw [hex.handled, List.map_append]
      split_ifs <;> rfl
    · simp only [hkj]
      rw [hex.queued, hrep.heard, List.map_append]
      split_ifs <;> rfl
  · intro s m' hm'
    obtain ⟨m₀, hm₀, -⟩ := Option.map_eq_some_iff.mp hm'
    obtain ⟨k, huse, hserial⟩ := h.absent hm₀
    exact ⟨k, (hex.inUse k).trans huse, (hex.serial k).trans hserial⟩

/-! ### The first frame of a connection -/

theorem requestOf_register {f : Frame} (ht : MsgType.ofCode? f.type = some .register) :
    requestOf f = if f.payload.length < nameMax ∨ (Name.ofPayload f.payload).text = [] then
      .register none else .register (some (.ofPayload f.payload)) := by
  rw [requestOf, ht]

theorem requestOf_ne_register {f : Frame} (ht : MsgType.ofCode? f.type ≠ some .register)
    (n : Option Name) : requestOf f ≠ .register n := by
  unfold requestOf
  split
  case h_1 h => exact absurd h ht
  all_goals (try split) <;> simp

section First
variable {w : World} {v : Bus ℕ Name SatelliteState (List UInt8)} {i : Slot} {f : Frame}
  {m : Member Name SatelliteState (List UInt8)} (h : Refines w v) (hregistry : Registry w)
  (hi : (w.conn i).inUse = true) (hreg : (w.conn i).registered = false)
  (hm : v.members (w.peer i).serial = some m) (hstranger : m.standing = .stranger)
  (rest : List UInt8)
include h hregistry hi hreg hm hstranger

theorem Refines.refuse (fault : Fault)
    (hans : v.Answers (w.peer i).serial .stranger (requestOf f) (w.peer i).serial (.fault fault)
      v.register .dismissed) :
    ∃ v', Bus.Steps v v' ∧ Refines ((w.consume i f rest).refuse i (errorOf fault)) v' := by
  have hex := ((Exchanged.consume w i f rest).queueSend i (errorFrame (errorOf fault))).modify
    (g := Endpoint.condemn) (fun _ => rfl) (fun _ => rfl)
  refine h.say hregistry (.fault fault) .dismissed hi hi hm ?_ hex ?_
  · rw [hstranger]
    exact h.register ▸ hans
  · refine ⟨?_, ?_⟩
    · simpa [World.refuse, World.condemn, World.consume_clients] using hreg
    · simp [World.refuse, World.condemn]

theorem Refines.handleRegister (hname : NameField (w.clients i)) :
    ∃ v', Bus.Steps v v' ∧ Refines ((w.consume i f rest).handleRegister i f) v' := by
  unfold World.handleRegister
  dsimp only
  rw [World.consume_findClientByName]
  split_ifs with htype hlen hhead hfind
  · exact h.refuse hregistry hi hreg hm hstranger rest .notRegistered
      (.unknown (requestOf_ne_register htype))
  · refine h.refuse hregistry hi hreg hm hstranger rest .garbled ?_
    rw [requestOf_register (not_not.mp htype), if_pos (.inl hlen)]
    exact .nameless
  · refine h.refuse hregistry hi hreg hm hstranger rest .garbled ?_
    rw [requestOf_register (not_not.mp htype), if_pos (.inr ((head_nameField_iff _).mp hhead))]
    exact .nameless
  · refine h.refuse hregistry hi hreg hm hstranger rest .nameTaken ?_
    rw [requestOf_register (not_not.mp htype),
      if_neg (not_or.mpr ⟨hlen, fun hn => hhead ((head_nameField_iff _).mpr hn)⟩)]
    refine .taken fun hfree => ?_
    obtain ⟨k, hk⟩ := Option.isSome_iff_exists.mp hfind
    obtain ⟨hroute, heq⟩ := World.findClientByName_some hk
    exact (h.free_iff _).mp hfree k hroute (by rw [heq, take_nameField]; rfl)
  · have hfree : v.Free (.ofPayload f.payload) := by
      refine (h.free_iff _).mpr fun k hk => ?_
      have hki : some k ≠ some i := by
        rintro ⟨⟩
        simp [hk.2] at hreg
      have hne := World.findClientByName_none (by simpa using hfind) hk hki
      rw [take_nameField] at hne
      exact hne
    have hex := ((Exchanged.consume w i f rest).modify
      (g := fun e => e.setName (World.nameField f.payload)) (fun _ => rfl) (fun _ => rfl)).queueSend
        i ⟨MsgType.registerOk.code, []⟩
    refine h.say hregistry .welcome (.named (.ofPayload f.payload)) hi hi hm ?_ hex ?_
    · rw [hstranger, requestOf_register (not_not.mp htype),
        if_neg (not_or.mpr ⟨hlen, fun hn => hhead ((head_nameField_iff _).mpr hn)⟩)]
      exact h.register ▸ .welcome hfree
    · have hset : ((w.consume i f rest).modify i fun e =>
          e.setName (World.nameField f.payload)).clients i =
            (((w.clients i).note f).setRx rest).setName (World.nameField f.payload) := by
        simp [World.consume_clients]
      have hout := World.queueSend_outputOnly ((w.consume i f rest).modify i fun e =>
        e.setName (World.nameField f.payload)) i ⟨MsgType.registerOk.code, []⟩ i
      refine ⟨hout.registered.trans ?_, hout.name.trans ?_⟩
      · rw [World.conn, hset]
        rfl
      · rw [World.conn, hset]
        exact paddedName_setName hname hhead

end First

/-! ### Later frames -/

theorem requestOf_malformed {f : Frame} (hget : MsgType.ofCode? f.type ≠ some .stateGet)
    (hping : MsgType.ofCode? f.type ≠ some .ping)
    (hset : MsgType.ofCode? f.type = some .stateSet → f.payload.length ≠ stateSize)
    (hsend : MsgType.ofCode? f.type = some .send → f.payload.length < nameMax) :
    requestOf f = .garbled ∨ ∃ name, requestOf f = .register name := by
  unfold requestOf
  split
  case h_1 =>
    split
    · exact .inr ⟨_, rfl⟩
    · exact .inr ⟨_, rfl⟩
  case h_2 h => exact absurd h hget
  case h_3 h => exact .inl (if_neg (hset h))
  case h_4 h => exact .inl (if_pos (hsend h))
  case h_5 h => exact absurd h hping
  case h_6 => exact .inl rfl

theorem requestOf_send {f : Frame} (ht : MsgType.ofCode? f.type = some .send)
    (hlen : nameMax ≤ f.payload.length) :
    requestOf f = .send (.ofPayload f.payload) (f.payload.drop nameMax) := by
  simp only [requestOf, ht, if_neg (not_lt.mpr hlen)]

section Later
variable {w : World} {v : Bus ℕ Name SatelliteState (List UInt8)} {i : Slot} {f : Frame}
  {m : Member Name SatelliteState (List UInt8)} {n : Name} {rest : List UInt8} (h : Refines w v)
  (hregistry : Registry w) (hi : (w.conn i).inUse = true)
  (hm : v.members (w.peer i).serial = some m) (hstanding : m.standing = .named n)
  (hstands : Stands (w.clients i) (.named n))
include h hregistry hi hm hstanding hstands

theorem Refines.reply {u : World} {j : Slot} (x : ClientReply)
    (hu : Exchanged w u i f fun _ => []) (hclients : u.clients = (w.consume i f rest).clients)
    (hj : (w.conn j).inUse = true)
    (hans : v.Answers (w.peer i).serial (.named n) (requestOf f) (w.peer j).serial x u.state
      (.named n)) : ∃ v', Bus.Steps v v' ∧ Refines (u.queueSend j (replyFrame x)) v' := by
  have hown : Stands (u.clients i) (.named n) := by
    rw [hclients, World.consume_clients, if_pos rfl]
    exact hstands
  have hout := World.queueSend_outputOnly u j (replyFrame x) i
  refine h.say hregistry x (.named n) hi hj hm (hstanding ▸ hans) (hu.queueSend j _) ?_
  exact hown.keep hout.registered hout.name hout.shouldClose

theorem Refines.relay {j : Slot} (ht : MsgType.ofCode? f.type = some .send)
    (hlen : nameMax ≤ f.payload.length)
    (hfind : (w.consume i f rest).findClientByName (World.nameField f.payload) none = some j) :
    ∃ v', Bus.Steps v v' ∧ Refines ((w.consume i f rest).queueSend j
      (World.deliverFrame ((w.consume i f rest).conn i).name f)) v' := by
  rw [World.consume_findClientByName] at hfind
  obtain ⟨hroute, heq⟩ := World.findClientByName_some hfind
  rw [take_nameField] at heq
  have hframe : World.deliverFrame ((w.consume i f rest).conn i).name f =
      replyFrame (.message n (f.payload.drop nameMax)) := by
    rw [World.deliverFrame, World.consume_conn, World.conn, hstands.2]
    rfl
  rw [hframe]
  refine h.reply hregistry hi hm hstanding hstands _ (.consume w i f rest) rfl hroute.1 ?_
  rw [requestOf_send ht hlen]
  exact h.register ▸ .relay ((h.holds_iff hroute.1 _).mpr ⟨hroute.2, heq⟩)

theorem Refines.relayNobody (ht : MsgType.ofCode? f.type = some .send)
    (hlen : nameMax ≤ f.payload.length)
    (hfind : (w.consume i f rest).findClientByName (World.nameField f.payload) none = none) :
    ∃ v', Bus.Steps v v' ∧ Refines ((w.consume i f rest).queueSend i
      (errorFrame .unknownDest)) v' := by
  rw [World.consume_findClientByName] at hfind
  refine h.reply hregistry hi hm hstanding hstands (.fault .unknownName) (.consume w i f rest) rfl
    hi ?_
  rw [requestOf_send ht hlen]
  refine h.register ▸ .nobody ((h.free_iff _).mpr fun k hk => ?_)
  have hne := World.findClientByName_none hfind hk (by simp)
  rwa [take_nameField] at hne

theorem Refines.later {w' : World} (heff : World.Effect (w.consume i f rest) i f w') :
    ∃ v', Bus.Steps v v' ∧ Refines w' v' := by
  have hreg : ((w.consume i f rest).conn i).registered = true := by
    rw [World.consume_conn]
    exact hstands.1
  have hcons := Exchanged.consume w i f rest
  cases heff with
  | refused e hno | registered hno => simp [hno] at hreg
  | value _ ht =>
    refine h.reply hregistry hi hm hstanding hstands (.value w.state) hcons rfl hi ?_
    rw [show requestOf f = .read by simp only [requestOf, ht]]
    exact h.register ▸ .read
  | stored _ ht hlen =>
    refine h.reply hregistry hi hm hstanding hstands (.value (SatelliteState.decode f.payload))
      (hcons.storeState _) rfl hi ?_
    rw [show requestOf f = .write (SatelliteState.decode f.payload) by
      simp only [requestOf, ht, if_pos hlen]]
    exact .write _
  | delivered j _ ht hlen hfind => exact h.relay hregistry hi hm hstanding hstands ht hlen hfind
  | unknown _ ht hlen hfind => exact h.relayNobody hregistry hi hm hstanding hstands ht hlen hfind
  | pong _ ht =>
    refine h.reply hregistry hi hm hstanding hstands .pong hcons rfl hi ?_
    rw [show requestOf f = .ping by simp only [requestOf, ht]]
    exact h.register ▸ .pong
  | malformed _ hget hping hset hsend =>
    refine h.reply hregistry hi hm hstanding hstands (.fault .garbled) hcons rfl hi ?_
    exact h.register ▸ .garbled (requestOf_malformed hget hping hset hsend)

end Later

/-! ## Every step of the server is one of the bus -/

namespace Refines

variable {w w' : World} {v : Bus ℕ Name SatelliteState (List UInt8)}

theorem dispatch (h : Refines w v) (hregistry : Registry w) {i : Slot}
    (hname : NameField (w.clients i)) (hi : (w.conn i).inUse = true)
    (hopen : (w.conn i).shouldClose = false) (f : Frame) (rest : List UInt8) :
    ∃ v', Bus.Steps v v' ∧ Refines (w.dispatch i f rest) v' := by
  obtain ⟨m, hm, hrep⟩ := h.present hi
  have hstands := hrep.stands
  cases hst : m.standing with
  | stranger =>
    rw [hst] at hstands
    have hreg : ((w.consume i f rest).conn i).registered = false := by
      rw [World.consume_conn]
      exact hstands
    rw [World.dispatch_eq, World.handleMessage, if_pos (by rw [hreg]; rfl)]
    exact h.handleRegister hregistry hi hstands hm hst rest hname
  | dismissed =>
    rw [hst] at hstands
    exact absurd hstands.2 (by simp [hopen])
  | named n =>
    rw [hst] at hstands
    exact h.later hregistry hi hm hst hstands (w.dispatch_effect i f rest)

theorem accept (h : Refines w v) (hregistry : Registry w) {i : Slot}
    (hi : (w.conn i).inUse = false) (fd : ℤ) (stream : List UInt8) :
    ∃ v', Bus.Steps v v' ∧ Refines (w.accept i fd stream) v' := by
  have hfresh : w.accepted ∉ v.joined := fun hmem => lt_irrefl _ ((h.joined _).mp hmem)
  refine ⟨_, .single (.join w.accepted hfresh), h.register, fun s => ?_, fun {k} huse => ?_, ?_⟩
  · change s ∈ insert _ _ ↔ s < w.accepted + 1
    rw [Set.mem_insert_iff, h.joined]
    omega
  · rw [World.conn, World.accept_clients] at huse
    rw [World.peer, World.accept_clients]
    split_ifs at huse ⊢ with hk
    · exact ⟨{}, Function.update_self .., rfl, rfl, rfl⟩
    · obtain ⟨m, hm, hrep⟩ := h.present huse
      have hne : (w.peer k).serial ≠ w.accepted := (hregistry.serial_lt k huse).ne
      exact ⟨m, (Function.update_of_ne hne ..).trans hm, hrep⟩
  · intro s m hm
    by_cases hs : s = w.accepted
    · exact ⟨i, by simp [World.conn, World.accept_clients, Endpoint.accepted],
        by simp [World.peer, World.accept_clients, Endpoint.accepted, hs]⟩
    · obtain ⟨k, huse, hserial⟩ := h.absent ((Function.update_of_ne hs ..).symm.trans hm)
      have hki : k ≠ i := by
        rintro rfl
        simp [hi] at huse
      exact ⟨k, by rwa [World.conn, World.accept_clients, if_neg hki],
        by rwa [World.peer, World.accept_clients, if_neg hki]⟩

theorem close (h : Refines w v) (hregistry : Registry w) (i : Slot) :
    ∃ v', Bus.Steps v v' ∧ Refines (w.closeClient i) v' := by
  have hother {k : Slot} (huse : ((w.closeClient i).conn k).inUse = true) : k ≠ i := by
    rintro rfl
    simp [World.conn, World.closeClient_clients] at huse
  have hkeep {k : Slot} (hki : k ≠ i) : (w.closeClient i).clients k = w.clients k := by
    rw [World.closeClient_clients, if_neg hki]
  cases hi : (w.conn i).inUse with
  | false =>
    refine ⟨v, .refl, h.register, h.joined, fun {k} huse => ?_, fun hm => ?_⟩
    · have hki := hother huse
      simp only [World.conn, World.peer, hkeep hki] at huse ⊢
      exact h.present huse
    · obtain ⟨k, huse, hserial⟩ := h.absent hm
      have hki : k ≠ i := by
        rintro rfl
        simp [hi] at huse
      exact ⟨k, by rwa [World.conn, hkeep hki], by rwa [World.peer, hkeep hki]⟩
  | true =>
    refine ⟨_, .single (.leave (w.peer i).serial), h.register, h.joined, fun {k} huse => ?_, ?_⟩
    · have hki := hother huse
      simp only [World.conn, World.peer, hkeep hki] at huse ⊢
      obtain ⟨m, hm, hrep⟩ := h.present huse
      have hne : (w.peer k).serial ≠ (w.peer i).serial :=
        fun heq => hki (hregistry.serial_inj k i huse hi heq)
      exact ⟨m, (Function.update_of_ne hne ..).trans hm, hrep⟩
    · intro s m hm
      have hs : s ≠ (w.peer i).serial := by
        rintro rfl
        simp [Bus.leave] at hm
      obtain ⟨k, huse, hserial⟩ := h.absent ((Function.update_of_ne hs ..).symm.trans hm)
      have hki : k ≠ i := by
        rintro rfl
        exact hs hserial.symm
      exact ⟨k, by rwa [World.conn, hkeep hki], by rwa [World.peer, hkeep hki]⟩

theorem step (h : Refines w v) (hregistry : Registry w) (hname : ∀ k, NameField (w.clients k))
    (hstep : Step w w') : ∃ v', Bus.Steps v v' ∧ Refines w' v' := by
  rcases hstep.quiet_or_handle with ⟨hstate, -⟩ | ⟨i, f, rest, hi, hopen, rfl⟩
  · cases hstep.turn with
    | calm hsame _ hacc =>
      refine ⟨v, .refl, h.register.trans hstate.symm, fun s => by rw [hacc, h.joined],
        fun {k} huse => ?_, fun hm => ?_⟩
      · obtain ⟨m, hm, hrep⟩ := h.present ((hsame k).inUse ▸ huse)
        exact ⟨m, (hsame k).serial ▸ hm, hrep.same (hsame k)⟩
      · obtain ⟨k, huse, hserial⟩ := h.absent hm
        exact ⟨k, (hsame k).inUse.trans huse, (hsame k).serial.trans hserial⟩
    | accept i fd stream hi => exact h.accept hregistry hi fd stream
    | close i => exact h.close hregistry i
    | dispatch i f rest hi hopen => exact h.dispatch hregistry (hname i) hi hopen f rest
  · exact h.dispatch hregistry (hname i) hi hopen f rest

theorem steps {b : Boot} (h : Refines w v) (hreach : Reachable b w) (hsteps : Steps w w') :
    ∃ v', Bus.Steps v v' ∧ Refines w' v' := by
  induction hsteps with
  | refl => exact ⟨v, .refl, h⟩
  | tail hpre hstep ih =>
    obtain ⟨v₁, hv₁, h₁⟩ := ih
    have hreach₁ := hreach.trans hpre
    obtain ⟨v₂, hv₂, h₂⟩ := h₁.step (registry_of_reachable hreach₁)
      (nameField_local.reachable hreach₁).live hstep
    exact ⟨v₂, hv₁.trans hv₂, h₂⟩

end Refines

/-- The server refines the bus: at every point of every run there is a run of the bus that
has brought it to the same members, and from there the bus can follow wherever the server
goes. -/
theorem server_refines_bus {b : Boot} {w : World} (h : Reachable b w) :
    ∃ v, Bus.Steps (Bus.start b.state) v ∧ Refines w v ∧
      ∀ w', Steps w w' → ∃ v', Bus.Steps v v' ∧ Refines w' v' := by
  obtain ⟨v, hsteps, href⟩ := (Refines.boot b).steps .refl h
  exact ⟨v, hsteps, href, fun w' hw' => href.steps h hw'⟩

/-- A `DMSG_SEND` to "b". -/
def toB (data : List UInt8) : Frame := ⟨MsgType.send.code, letterName 98 ++ data⟩

/-- Two clients, "a" and "b", have registered; "a" has written two messages to "b" and a
`DMSG_PING` between them. -/
def chat : World :=
  let readable : World.Ready := { revents := { pollin := true }, recvs := [.bytes 40, .again] }
  ((Boot.fresh [.sent 8, .sent 8, .sent 42, .sent 8, .sent 20] []).world.round [readable]
    [.conn 5 (zeroPadded [registerAs 97, toB [1, 2], ⟨MsgType.ping.code, []⟩, toB [3]]),
      .conn 6 ((registerAs 98).encode 0)]).round [{}, readable, readable] []

def chatRead : World :=
  chat.serveSlot 0 { fd := 5, revents := { pollin := true }, recvs := [.bytes 60, .bytes 31, .again] }

theorem chat_reachable :
    Reachable (Boot.fresh [.sent 8, .sent 8, .sent 42, .sent 8, .sent 20] []) chat := by
  unfold chat
  exact Run.reachable (.round _ _ (.round _ _ .boot))

theorem chatRead_steps : Steps chat chatRead := World.serveSlot_steps _ (by decide +kernel)

theorem server_refines_bus_in_chat : ∃ v, Bus.Steps (Bus.start stateDefaults) v ∧
    Refines chat v ∧ ∃ v', Bus.Steps v v' ∧ Refines chatRead v' := by
  obtain ⟨v, hv, href, hfollow⟩ := server_refines_bus chat_reachable
  exact ⟨v, hv, href, hfollow chatRead chatRead_steps⟩

/-! ## Records only grow -/

/-- In `w`, what connection `serial` has had handled begins with `hs`, and what has been
queued to it with `qs`, unless it is not in use. -/
def Continues (serial : ℕ) (hs qs : List Frame) (w : World) : Prop :=
  serial < w.accepted ∧ ∀ k, (w.conn k).inUse = true → (w.peer k).serial = serial →
    hs <+: (w.peer k).handled ∧ qs <+: (w.peer k).queued

theorem Continues.step {serial : ℕ} {hs qs : List Frame} {w w' : World}
    (h : Continues serial hs qs w) (hstep : Step w w') : Continues serial hs qs w' := by
  obtain ⟨hlt, hk⟩ := h
  cases hstep.turn with
  | calm hsame _ hacc =>
    refine ⟨hacc ▸ hlt, fun k huse hserial => ?_⟩
    rw [World.peer, (hsame k).handled, (hsame k).queued]
    exact hk k ((hsame k).inUse ▸ huse) ((hsame k).serial ▸ hserial)
  | accept i fd stream =>
    refine ⟨hlt.trans (Nat.lt_succ_self _), fun k huse hserial => ?_⟩
    rw [World.conn, World.accept_clients] at huse
    rw [World.peer, World.accept_clients] at hserial ⊢
    split_ifs at huse hserial ⊢
    · exact absurd hserial hlt.ne'
    · exact hk k huse hserial
  | close i =>
    refine ⟨hlt, fun k huse hserial => ?_⟩
    rw [World.conn, World.closeClient_clients] at huse
    rw [World.peer, World.closeClient_clients] at hserial ⊢
    split_ifs at huse hserial ⊢
    exact hk k huse hserial
  | dispatch i f rest =>
    refine ⟨(w.dispatch_effect i f rest).accepted ▸ hlt, fun k huse hserial => ?_⟩
    rw [World.dispatch_inUse] at huse
    rw [World.dispatch_serial] at hserial
    refine World.dispatch_pointwise (P := fun k e => hs <+: (w.peer k).handled ∧
      qs <+: (w.peer k).queued → hs <+: e.peer.handled ∧ qs <+: e.peer.queued) ?_ ?_ ?_ ?_ ?_ k
        (hk k huse hserial)
    · exact fun j e g p r ok h hj => ⟨(h hj).1, (h hj).2.trans (List.prefix_append _ _)⟩
    · exact fun _ _ h => h
    · exact fun _ _ h => ⟨h.1.trans (List.prefix_append _ _), h.2⟩
    · exact fun h => ⟨h.1.trans (List.prefix_append _ _), h.2⟩
    · exact fun _ _ h => h

theorem records_grow {b : Boot} {w w' : World} (h : Reachable b w) (hsteps : Steps w w')
    {i k : Slot} (hi : (w.conn i).inUse = true) (hk : (w'.conn k).inUse = true)
    (hserial : (w'.peer k).serial = (w.peer i).serial) :
    (w.peer i).handled <+: (w'.peer k).handled ∧ (w.peer i).queued <+: (w'.peer k).queued := by
  have hregistry := registry_of_reachable h
  have hstart : Continues (w.peer i).serial (w.peer i).handled (w.peer i).queued w := by
    refine ⟨hregistry.serial_lt i hi, fun j hj heq => ?_⟩
    rw [hregistry.serial_inj j i hj hi heq]
    exact ⟨List.prefix_rfl, List.prefix_rfl⟩
  exact (steps_invariant (fun _ _ hs hst => hs.step hst) hsteps hstart).2 k hk hserial

/-! ## Messages between two clients -/

/-- The data of a `DMSG_DELIVER` from the client whose name field holds `name`. -/
def deliveredFrom (name : List UInt8) (g : Frame) : Option (List UInt8) :=
  if g.type = MsgType.deliver.code ∧ g.payload.take nameMax = name then
    some (g.payload.drop nameMax) else none

/-- The data of a `DMSG_SEND` to the client whose name field holds `name`. -/
def sentTo (name : List UInt8) (f : Frame) : Option (List UInt8) :=
  if MsgType.ofCode? f.type = some .send ∧ nameMax ≤ f.payload.length ∧
      strncmpEq nameMax name (World.nameField f.payload) = true then
    some (f.payload.drop nameMax) else none

theorem length_paddedName (n : Name) : (paddedName n.text).length = nameMax := by
  have := n.short
  simp only [paddedName, List.length_append, List.length_replicate]
  omega

theorem paddedName_inj {n n' : Name} : paddedName n.text = paddedName n'.text ↔ n = n' := by
  refine ⟨fun heq => Name.ext ?_, fun heq => by rw [heq]⟩
  rw [← cString_paddedName n, heq, cString_paddedName n']

theorem deliveredFrom_replyFrame (a : Name) (x : ClientReply) :
    deliveredFrom (paddedName a.text) (replyFrame x) = x.from? a := by
  cases x with
  | message src data =>
    have htake : (paddedName src.text ++ data).take nameMax = paddedName src.text :=
      List.take_left' (length_paddedName src)
    have hdrop : (paddedName src.text ++ data).drop nameMax = data :=
      List.drop_left' (length_paddedName src)
    simp [deliveredFrom, replyFrame, Reply.from?, htake, hdrop, paddedName_inj]
  | welcome | value | pong | fault => rfl

/-- Only a `DMSG_SEND` with a whole name field asks for a message to be relayed. -/
theorem requestOf_send_or (f : Frame) :
    (MsgType.ofCode? f.type = some .send ∧ nameMax ≤ f.payload.length ∧
      requestOf f = .send (.ofPayload f.payload) (f.payload.drop nameMax)) ∨
    (¬(MsgType.ofCode? f.type = some .send ∧ nameMax ≤ f.payload.length) ∧
      (requestOf f).isSend = false) := by
  unfold requestOf
  split
  case h_4 ht =>
    split_ifs with hlen
    · exact .inr ⟨fun h => absurd h.2 (not_le.mpr hlen), rfl⟩
    · exact .inl ⟨ht, not_lt.mp hlen, rfl⟩
  case h_6 hsend _ => exact .inr ⟨fun h => hsend h.1, rfl⟩
  all_goals
    rename_i ht
    exact .inr ⟨by simp [ht], by first | rfl | (split <;> rfl)⟩

theorem sentTo_eq (c : Name) (f : Frame) : sentTo (paddedName c.text) f = (requestOf f).to? c := by
  rcases requestOf_send_or f with ⟨ht, hlen, hreq⟩ | ⟨hno, hreq⟩
  · have hname : strncmpEq nameMax (paddedName c.text) (World.nameField f.payload) = true ↔
        Name.ofPayload f.payload = c := by
      rw [strncmpEq, decide_eq_true_iff, cString_paddedName, take_nameField]
      exact ⟨fun heq => Name.ext heq.symm, fun heq => heq ▸ rfl⟩
    simp [sentTo, ht, hlen, hreq, Request.to?, hname]
  · have hto : (requestOf f).to? c = none := by
      cases hr : requestOf f with
      | send => simp [hr, Request.isSend] at hreq
      | register | read | write | ping | garbled => rfl
    rw [hto, sentTo, if_neg fun h => hno ⟨h.1, h.2.1⟩]

/-- Between any two points of any run, what is queued to a registered client from another
one is what that one has had handled for it: every message once, whole, in the order it
was sent, whatever the other clients do meanwhile, and nothing else under its name. -/
theorem relayed_in_order {b : Boot} {w w' : World} (h : Reachable b w)
    (hsteps : Steps w w') {i j i' j' : Slot} (hi : w.Routable i) (hj : w.Routable j)
    (hi' : (w'.conn i').inUse = true) (hsi : (w'.peer i').serial = (w.peer i).serial)
    (hj' : (w'.conn j').inUse = true) (hsj : (w'.peer j').serial = (w.peer j).serial) :
    ∃ handled queued, (w'.peer i').handled = (w.peer i).handled ++ handled ∧
      (w'.peer j').queued = (w.peer j).queued ++ queued ∧
        queued.filterMap (deliveredFrom (w.conn i).name) =
          handled.filterMap (sentTo (w.conn j).name) := by
  obtain ⟨v, hv, href⟩ := (Refines.boot b).steps .refl h
  obtain ⟨v', hv', href'⟩ := href.steps h hsteps
  have hok : v.Ok := (Bus.ok_start _).steps hv
  obtain ⟨⟨handled, hhandled⟩, -⟩ := records_grow h hsteps hi.1 hi' hsi
  obtain ⟨-, queued, hqueued⟩ := records_grow h hsteps hj.1 hj' hsj
  obtain ⟨a, mi, hmi, hrepi, hai⟩ := href.named hi
  obtain ⟨c, mj, hmj, hrepj, hcj⟩ := href.named hj
  obtain ⟨mi', hmi', hrepi'⟩ := href'.present hi'
  obtain ⟨mj', hmj', hrepj'⟩ := href'.present hj'
  obtain ⟨-, -, said, heard, hsaid, hheard, heq⟩ := Bus.relay_in_order hok hv' hmi hmj hai.1 hcj.1
    (hsi ▸ hmi') (hsj ▸ hmj')
  have hsaid' : said = handled.map requestOf := by
    rw [hrepi'.said, hrepi.said, ← hhandled, List.map_append] at hsaid
    exact (List.append_cancel_left hsaid).symm
  have hheard' : queued = heard.map replyFrame := by
    have hq := hrepj'.heard
    rw [hheard, List.map_append, ← hrepj.heard, ← hqueued] at hq
    exact List.append_cancel_left hq
  refine ⟨handled, queued, hhandled.symm, hqueued.symm, ?_⟩
  calc queued.filterMap (deliveredFrom (w.conn i).name)
      = heard.filterMap (Reply.from? a) := by
        rw [hheard', List.filterMap_map, hai.2]
        exact List.filterMap_congr fun x _ => deliveredFrom_replyFrame a x
    _ = said.filterMap (Request.to? c) := heq
    _ = handled.filterMap (sentTo (w.conn j).name) := by
        rw [hsaid', List.filterMap_map, hcj.2]
        exact List.filterMap_congr fun f _ => (sentTo_eq c f).symm

/-! ## Requests and answers -/

def isRelay (f : Frame) : Bool :=
  decide (MsgType.ofCode? f.type = some .send) && decide (nameMax ≤ f.payload.length)

/-- The frame comes of a relay: it is the message, or tells that nobody has that name. -/
def ofRelay (g : Frame) : Bool :=
  decide (g.type = MsgType.deliver.code) || decide (g = errorFrame .unknownDest)

/-- `g` answers `f`, which does not ask for a relay. -/
def Answers (f g : Frame) : Prop :=
  match MsgType.ofCode? f.type with
  | some .stateGet => ∃ s : SatelliteState, g = ⟨MsgType.stateValue.code, s.encode⟩
  | some .stateSet =>
    if f.payload.length = stateSize then g = ⟨MsgType.stateValue.code, f.payload⟩
    else g = errorFrame .badMessage
  | some .ping => g = ⟨MsgType.pong.code, []⟩
  | _ => g = errorFrame .badMessage

theorem isRelay_eq (f : Frame) : isRelay f = (requestOf f).isSend := by
  rcases requestOf_send_or f with ⟨ht, hlen, hreq⟩ | ⟨hno, hreq⟩
  · simp [isRelay, ht, hlen, hreq, Request.isSend]
  · rw [hreq, isRelay, ← Bool.decide_and]
    exact decide_eq_false hno

theorem ofRelay_replyFrame (x : ClientReply) : ofRelay (replyFrame x) = x.ofSend := by
  cases x with
  | fault f => cases f <;> decide
  | message => rfl
  | welcome | pong => decide
  | value s => simp [ofRelay, replyFrame, errorFrame, MsgType.code, Reply.ofSend]

theorem answers_of_fits {f : Frame} {x : ClientReply} (h : (requestOf f).Fits x) :
    Answers f (replyFrame x) := by
  have hbad {r : ClientRequest} (hr : r = .garbled ∨ ∃ n, r = .register n) (hx : r.Fits x) :
      replyFrame x = errorFrame .badMessage := by
    rcases hr with rfl | ⟨n, rfl⟩
    all_goals
      cases x with
      | fault e =>
        cases e with
        | garbled => rfl
        | notRegistered | nameTaken | unknownName => exact hx.elim
      | welcome | value | pong | message => exact hx.elim
  unfold Answers
  split
  case h_1 ht =>
    simp only [requestOf, ht] at h
    cases x with
    | value s => exact ⟨s, rfl⟩
    | welcome | pong | message | fault => exact h.elim
  case h_2 ht =>
    simp only [requestOf, ht] at h
    split_ifs at h ⊢ with hlen
    · cases x with
      | value s =>
        obtain rfl : s = SatelliteState.decode f.payload := h
        rw [replyFrame, SatelliteState.encode_decode hlen]
      | welcome | pong | message | fault => exact h.elim
    · exact hbad (.inl rfl) h
  case h_3 ht =>
    simp only [requestOf, ht] at h
    cases x with
    | pong => rfl
    | welcome | value | message | fault => exact h.elim
  case h_4 hget hset hping =>
    rcases requestOf_send_or f with ⟨-, -, hreq⟩ | ⟨hno, -⟩
    · rw [hreq] at h
      cases x <;> exact h.elim
    · exact hbad (requestOf_malformed hget hping (fun ht => absurd ht hset)
        fun ht => not_le.mp fun hlen => hno ⟨ht, hlen⟩) h

/-- At every point of every run, a registered client has had its `DMSG_REGISTER` handled and
answered first; and of what came after, messages and what they lead to apart, every frame
handled has been answered once, by what it asks for, in the order of the frames. -/
theorem requests_answered_in_order {b : Boot} {w : World} (h : Reachable b w) {i : Slot}
    (hi : w.Routable i) :
    ∃ first later more, (w.peer i).handled = first :: later ∧
      MsgType.ofCode? first.type = some .register ∧
      (w.peer i).queued = ⟨MsgType.registerOk.code, []⟩ :: more ∧
      List.Forall₂ Answers (later.filter fun f => !isRelay f) (more.filter fun g => !ofRelay g) := by
  obtain ⟨v, hv, href⟩ := (Refines.boot b).steps .refl h
  obtain ⟨n, m, hm, hrep, hstand, -⟩ := href.named hi
  have hserved : m.Served := Bus.served_steps (fun k m hm => by cases hm) hv _ m hm
  cases hserved with
  | stranger | dismissed => cases hstand
  | named n' said heard hfits =>
    have hsaid := hrep.said
    cases hh : (w.peer i).handled with
    | nil => simp [hh] at hsaid
    | cons first later =>
      rw [hh, List.map_cons, List.cons.injEq] at hsaid
      obtain ⟨hfirst, rfl⟩ := hsaid
      refine ⟨first, later, heard.map replyFrame, rfl, ?_, hrep.heard, ?_⟩
      · by_contra hne
        exact requestOf_ne_register hne _ hfirst.symm
      · rw [List.filter_map] at hfits ⊢
        have hl : (fun r : ClientRequest => !r.isSend) ∘ requestOf = fun f => !isRelay f :=
          funext fun f => by simp [isRelay_eq]
        have hr : (fun g => !ofRelay g) ∘ replyFrame = fun x : ClientReply => !x.ofSend :=
          funext fun x => by simp [ofRelay_replyFrame]
        rw [hl, List.forall₂_map_left_iff] at hfits
        rw [hr, List.forall₂_map_right_iff]
        exact hfits.imp fun _ _ => answers_of_fits

theorem requests_answered_in_chat : chatRead.Routable 0 ∧
    ∃ first later more, (chatRead.peer 0).handled = first :: later ∧
      MsgType.ofCode? first.type = some .register ∧
      (chatRead.peer 0).queued = ⟨MsgType.registerOk.code, []⟩ :: more ∧
      List.Forall₂ Answers (later.filter fun f => !isRelay f) (more.filter fun g => !ofRelay g) := by
  have hroute : chatRead.Routable 0 := by
    unfold World.Routable
    decide +kernel
  exact ⟨hroute, requests_answered_in_order (chat_reachable.trans chatRead_steps) hroute⟩

end PiDaemon.Server
