import PiDaemon.Server.Connection
import PiDaemon.Store.Atomicity

/-!
# The IPC server and its dispatcher

`ipc_server.c` as a transformation of one value, the `World`: the client table
and the satellite state the daemon keeps in memory, the files behind
`sat_state_store`, and the answers the kernel has yet to give. Next to every
`client_conn_t` stands the other end of its socket: what the client writes and
how much of it is still unread, the bytes the kernel has accepted, and a record
of the frames queued and handled. The program never reads that record; it is
what the theorems talk about.
-/

namespace PiDaemon.Server

open Base Proto Store

abbrev Slot := Fin maxClients

instance : NeZero maxClients := ⟨by decide⟩

structure Peer where
  /-- which `accept4` call this connection came from -/
  serial : ℕ := 0
  /-- all bytes the client writes before it closes its end -/
  stream : List UInt8 := []
  /-- the part of `stream` that no `recv()` has returned yet -/
  unread : List UInt8 := []
  /-- `unread` as it was when the last service round reached this connection -/
  atPoll : List UInt8 := []
  /-- bytes accepted from the daemon -/
  wire : List UInt8 := []
  /-- frames passed to `queue_send` -/
  queued : List Frame := []
  /-- frames passed to `handle_message` -/
  handled : List Frame := []
  /-- an output error or a full backlog has condemned the connection -/
  outputFailed : Bool := false
  deriving DecidableEq, Repr

structure Endpoint where
  conn : ClientConn := {}
  peer : Peer := {}
  deriving DecidableEq, Repr

/-- One call of `handle_message`: by whom, whether registered at that time, the
frame, and the outcome `sat_state_store` has if the frame makes the server call it. -/
structure Handled where
  serial : ℕ
  registered : Bool
  frame : Frame
  storeOk : Bool
  deriving DecidableEq, Repr

structure World where
  listenFd : ℤ := 0
  clients : Slot → Endpoint := fun _ => {}
  slotMap : List (Option Slot) := []
  state : SatelliteState
  disk : Fs
  /-- what is in the padding of the headers that `queue_send` makes -/
  paddings : List UInt16 := []
  sends : List SendResult := []
  reallocs : List Bool := []
  stores : List StoreScript := []
  accepted : ℕ := 0
  log : List Handled := []
  closed : List Endpoint := []

/-! ## Output -/

namespace Endpoint

/-- Set `should_close`. -/
def condemn (e : Endpoint) : Endpoint := { e with conn := { e.conn with shouldClose := true } }

/-- `queue_send` on this connection, recorded on both ends. -/
def queueSend (e : Endpoint) (f : Frame) (padding : UInt16) (r : SendResult) (reallocOk : Bool) :
    Endpoint :=
  let out := Server.queueSend e.conn f padding r reallocOk
  { conn := out.1
    peer := { e.peer with
      wire := e.peer.wire ++ out.2
      queued := e.peer.queued ++ [f]
      outputFailed := e.peer.outputFailed || (out.1.shouldClose && !e.conn.shouldClose) } }

/-- `flush_tx` on this connection, recorded on both ends. -/
def flush (e : Endpoint) (rs : List SendResult) : Endpoint :=
  let out := flushTx e.conn rs
  { conn := out.1
    peer := { e.peer with
      wire := e.peer.wire ++ out.2.1
      outputFailed := e.peer.outputFailed || (out.1.shouldClose && !e.conn.shouldClose) } }

/-- `strncpy(c->name, name, DAEMON_NAME_MAX - 1); c->registered = 1;` -/
def setName (e : Endpoint) (name : List UInt8) : Endpoint :=
  { e with conn := { e.conn with
      name := strncpy (nameMax - 1) name ++ e.conn.name.drop (nameMax - 1)
      registered := true } }

/-- Record that a frame is passed to `handle_message`. -/
def note (e : Endpoint) (f : Frame) : Endpoint :=
  { e with peer := { e.peer with handled := e.peer.handled ++ [f] } }

def setRx (e : Endpoint) (rx : List UInt8) : Endpoint :=
  { e with conn := { e.conn with rxbuf := rx } }

section Fields
variable (e : Endpoint) (f : Frame) (p : UInt16) (r : SendResult) (ok : Bool) (rs : List SendResult)

@[simp] theorem condemn_conn : e.condemn.conn = { e.conn with shouldClose := true } := rfl
@[simp] theorem condemn_peer : e.condemn.peer = e.peer := rfl
@[simp] theorem note_conn : (e.note f).conn = e.conn := rfl
@[simp] theorem setRx_conn (rx : List UInt8) :
    (e.setRx rx).conn = { e.conn with rxbuf := rx } := rfl
@[simp] theorem setRx_peer (rx : List UInt8) : (e.setRx rx).peer = e.peer := rfl
@[simp] theorem setName_peer (name : List UInt8) : (e.setName name).peer = e.peer := rfl

theorem queueSend_conn : OutputOnly e.conn (e.queueSend f p r ok).conn :=
  queueSend_outputOnly e.conn f p r ok

theorem flush_conn : OutputOnly e.conn (e.flush rs).conn := flushTx_outputOnly rs e.conn

@[simp] theorem queueSend_inUse : (e.queueSend f p r ok).conn.inUse = e.conn.inUse :=
  (queueSend_conn e f p r ok).inUse

@[simp] theorem queueSend_registered :
    (e.queueSend f p r ok).conn.registered = e.conn.registered :=
  (queueSend_conn e f p r ok).registered

@[simp] theorem queueSend_rxbuf : (e.queueSend f p r ok).conn.rxbuf = e.conn.rxbuf :=
  (queueSend_conn e f p r ok).rxbuf

@[simp] theorem flush_inUse : (e.flush rs).conn.inUse = e.conn.inUse := (flush_conn e rs).inUse

@[simp] theorem flush_rxbuf : (e.flush rs).conn.rxbuf = e.conn.rxbuf := (flush_conn e rs).rxbuf

@[simp] theorem queueSend_unread : (e.queueSend f p r ok).peer.unread = e.peer.unread := rfl

@[simp] theorem flush_unread : (e.flush rs).peer.unread = e.peer.unread := rfl

end Fields

end Endpoint

namespace World

abbrev conn (w : World) (i : Slot) : ClientConn := (w.clients i).conn
abbrev peer (w : World) (i : Slot) : Peer := (w.clients i).peer

def modify (w : World) (i : Slot) (g : Endpoint → Endpoint) : World :=
  { w with clients := Function.update w.clients i (g (w.clients i)) }

def condemn (w : World) (i : Slot) : World := w.modify i .condemn

/-- `queue_send(&clients[i], ...)`; it takes the next answers of `send()` and
`realloc()`, whether or not it comes to calling them. -/
def queueSend (w : World) (i : Slot) (f : Frame) : World :=
  { w.modify i fun e =>
      e.queueSend f (w.paddings.headD 0) (w.sends.headD .again) (w.reallocs.headD true) with
    paddings := w.paddings.tail
    sends := w.sends.tail
    reallocs := w.reallocs.tail }

def flush (w : World) (i : Slot) : World :=
  { w.modify i fun e => e.flush w.sends with sends := (flushTx (w.conn i) w.sends).2.2 }

/-! ## Dispatch -/

/-- `find_client_by_name`. -/
def findClientByName (w : World) (name : List UInt8) (exclude : Option Slot) : Option Slot :=
  (List.finRange maxClients).find? fun j =>
    (w.conn j).inUse && (w.conn j).registered && some j ≠ exclude &&
      strncmpEq nameMax (w.conn j).name name

def nextStore (w : World) : StoreScript := w.stores.headD {}

/-- `memcpy(state, payload, ...)` and `sat_state_store(state)`, whose failure is only logged. -/
def storeState (w : World) (s : SatelliteState) : World :=
  { w with
    state := s
    disk := w.disk.run (satStateStore s w.nextStore).1
    stores := w.stores.tail }

def refuse (w : World) (i : Slot) (e : DaemonErr) : World :=
  (w.queueSend i (errorFrame e)).condemn i

/-- A name field read from the wire, with the last byte forced to NUL. -/
def nameField (payload : List UInt8) : List UInt8 := payload.take (nameMax - 1) ++ [0]

def setName (w : World) (i : Slot) (name : List UInt8) : World := w.modify i fun e => e.setName name

/-- The branch of `handle_message` for a connection that has not registered. -/
def handleRegister (w : World) (i : Slot) (f : Frame) : World :=
  if MsgType.ofCode? f.type ≠ some .register then w.refuse i .notRegistered
  else if f.payload.length < nameMax then w.refuse i .badMessage
  else
    let name := nameField f.payload
    if name.head? = some 0 then w.refuse i .badMessage
    else if (w.findClientByName name (some i)).isSome then w.refuse i .nameTaken
    else (w.setName i name).queueSend i ⟨MsgType.registerOk.code, []⟩

/-- The `DMSG_DELIVER` that a `DMSG_SEND` from the client named `src` becomes. -/
def deliverFrame (src : List UInt8) (f : Frame) : Frame :=
  ⟨MsgType.deliver.code, src ++ f.payload.drop nameMax⟩

/-- `DMSG_SEND` from a registered client. -/
def handleSend (w : World) (i : Slot) (f : Frame) : World :=
  if f.payload.length < nameMax then w.queueSend i (errorFrame .badMessage)
  else
    match w.findClientByName (nameField f.payload) none with
    | none => w.queueSend i (errorFrame .unknownDest)
    | some j => w.queueSend j (deliverFrame (w.conn i).name f)

/-- `DMSG_STATE_SET` from a registered client. -/
def handleStateSet (w : World) (i : Slot) (f : Frame) : World :=
  if f.payload.length ≠ stateSize then w.queueSend i (errorFrame .badMessage)
  else
    let s := SatelliteState.decode f.payload
    (w.storeState s).queueSend i ⟨MsgType.stateValue.code, s.encode⟩

def handleMessage (w : World) (i : Slot) (f : Frame) : World :=
  if !(w.conn i).registered then w.handleRegister i f
  else
    match MsgType.ofCode? f.type with
    | some .stateGet => w.queueSend i ⟨MsgType.stateValue.code, w.state.encode⟩
    | some .stateSet => w.handleStateSet i f
    | some .send => w.handleSend i f
    | some .ping => w.queueSend i ⟨MsgType.pong.code, []⟩
    | _ => w.queueSend i (errorFrame .badMessage)

def entry (w : World) (i : Slot) (f : Frame) : Handled where
  serial := (w.peer i).serial
  registered := (w.conn i).registered
  frame := f
  storeOk := (satStateStore (SatelliteState.decode f.payload) w.nextStore).2

/-- Record a call of `handle_message`. -/
def note (w : World) (i : Slot) (f : Frame) : World :=
  { w.modify i fun e => e.note f with log := w.log ++ [w.entry i f] }

def setRx (w : World) (i : Slot) (rx : List UInt8) : World :=
  w.modify i fun e => e.setRx rx

/-- Handle a complete frame and move what follows it to the front of `rxbuf`. -/
def dispatch (w : World) (i : Slot) (f : Frame) (rest : List UInt8) : World :=
  ((w.note i f).handleMessage i f).setRx i rest

/-! ## Frame conditions

Every operation replaces the endpoint of one slot. The lemmas say which endpoint
stands where afterwards and which other parts of the world stay as they were. -/

section Frame
variable (w : World) (i j : Slot) (f : Frame)

@[simp] theorem modify_clients (g : Endpoint → Endpoint) :
    (w.modify i g).clients j = if j = i then g (w.clients i) else w.clients j :=
  Function.update_apply _ _ _ _

@[simp] theorem modify_state (g : Endpoint → Endpoint) : (w.modify i g).state = w.state := rfl
@[simp] theorem modify_disk (g : Endpoint → Endpoint) : (w.modify i g).disk = w.disk := rfl
@[simp] theorem modify_log (g : Endpoint → Endpoint) : (w.modify i g).log = w.log := rfl
@[simp] theorem modify_closed (g : Endpoint → Endpoint) : (w.modify i g).closed = w.closed := rfl

theorem modify_modify (g h : Endpoint → Endpoint) :
    (w.modify i g).modify i h = w.modify i fun e => h (g e) := by
  simp [modify]

theorem modify_congr {g h : Endpoint → Endpoint} (heq : g (w.clients i) = h (w.clients i)) :
    w.modify i g = w.modify i h := by
  rw [modify, modify, heq]

theorem modify_self {g : Endpoint → Endpoint} (heq : g (w.clients i) = w.clients i) :
    w.modify i g = w := by
  rw [modify, heq, Function.update_eq_self]

@[simp] theorem queueSend_clients :
    (w.queueSend i f).clients j = if j = i then
      (w.clients i).queueSend f (w.paddings.headD 0) (w.sends.headD .again) (w.reallocs.headD true)
    else w.clients j :=
  Function.update_apply _ _ _ _

@[simp] theorem queueSend_state : (w.queueSend i f).state = w.state := rfl
@[simp] theorem queueSend_disk : (w.queueSend i f).disk = w.disk := rfl
@[simp] theorem queueSend_log : (w.queueSend i f).log = w.log := rfl
@[simp] theorem queueSend_closed : (w.queueSend i f).closed = w.closed := rfl

@[simp] theorem flush_clients :
    (w.flush i).clients j = if j = i then (w.clients i).flush w.sends else w.clients j :=
  Function.update_apply _ _ _ _

@[simp] theorem flush_state : (w.flush i).state = w.state := rfl
@[simp] theorem flush_disk : (w.flush i).disk = w.disk := rfl
@[simp] theorem flush_log : (w.flush i).log = w.log := rfl
@[simp] theorem flush_closed : (w.flush i).closed = w.closed := rfl

@[simp] theorem storeState_clients (s : SatelliteState) : (w.storeState s).clients = w.clients := rfl
@[simp] theorem storeState_log (s : SatelliteState) : (w.storeState s).log = w.log := rfl
@[simp] theorem storeState_closed (s : SatelliteState) : (w.storeState s).closed = w.closed := rfl
@[simp] theorem storeState_state (s : SatelliteState) : (w.storeState s).state = s := rfl

@[simp] theorem note_clients :
    (w.note i f).clients j = if j = i then (w.clients i).note f else w.clients j :=
  Function.update_apply _ _ _ _

@[simp] theorem note_state : (w.note i f).state = w.state := rfl
@[simp] theorem note_disk : (w.note i f).disk = w.disk := rfl
@[simp] theorem note_closed : (w.note i f).closed = w.closed := rfl

end Frame

/-! ## What a handled message can do -/

/-- Everything `handle_message` can do to the world, each case with the guard it is taken under. -/
inductive Effect (w : World) (i : Slot) (f : Frame) : World → Prop
  | refused (e : DaemonErr) : (w.conn i).registered = false → Effect w i f (w.refuse i e)
  | registered : (w.conn i).registered = false → MsgType.ofCode? f.type = some .register →
      nameMax ≤ f.payload.length → (nameField f.payload).head? ≠ some 0 →
      w.findClientByName (nameField f.payload) (some i) = none →
      Effect w i f ((w.setName i (nameField f.payload)).queueSend i ⟨MsgType.registerOk.code, []⟩)
  | value : (w.conn i).registered = true → MsgType.ofCode? f.type = some .stateGet →
      Effect w i f (w.queueSend i ⟨MsgType.stateValue.code, w.state.encode⟩)
  | stored : (w.conn i).registered = true → MsgType.ofCode? f.type = some .stateSet →
      f.payload.length = stateSize →
      Effect w i f ((w.storeState (SatelliteState.decode f.payload)).queueSend i
        ⟨MsgType.stateValue.code, (SatelliteState.decode f.payload).encode⟩)
  | delivered (j : Slot) : (w.conn i).registered = true → MsgType.ofCode? f.type = some .send →
      nameMax ≤ f.payload.length → w.findClientByName (nameField f.payload) none = some j →
      Effect w i f (w.queueSend j (deliverFrame (w.conn i).name f))
  | unknown : (w.conn i).registered = true → MsgType.ofCode? f.type = some .send →
      nameMax ≤ f.payload.length → w.findClientByName (nameField f.payload) none = none →
      Effect w i f (w.queueSend i (errorFrame .unknownDest))
  | pong : (w.conn i).registered = true → MsgType.ofCode? f.type = some .ping →
      Effect w i f (w.queueSend i ⟨MsgType.pong.code, []⟩)
  | malformed : (w.conn i).registered = true → MsgType.ofCode? f.type ≠ some .stateGet →
      MsgType.ofCode? f.type ≠ some .ping →
      (MsgType.ofCode? f.type = some .stateSet → f.payload.length ≠ stateSize) →
      (MsgType.ofCode? f.type = some .send → f.payload.length < nameMax) →
      Effect w i f (w.queueSend i (errorFrame .badMessage))

theorem handleRegister_effect {w : World} {i : Slot} (f : Frame)
    (h : (w.conn i).registered = false) : Effect w i f (w.handleRegister i f) := by
  unfold handleRegister
  dsimp only
  split_ifs with h1 h2 h3 h4
  · exact .refused _ h
  · exact .refused _ h
  · exact .refused _ h
  · exact .refused _ h
  · exact .registered h (not_not.mp h1) (by omega) h3 (by simpa using h4)

theorem handleMessage_effect (w : World) (i : Slot) (f : Frame) :
    Effect w i f (w.handleMessage i f) := by
  unfold handleMessage
  cases hreg : (w.conn i).registered with
  | false => simpa using handleRegister_effect f hreg
  | true =>
    simp only [Bool.not_true, Bool.false_eq_true, if_false]
    split
    case h_1 ht => exact .value hreg ht
    case h_2 ht =>
      unfold handleStateSet
      split_ifs with hl
      · exact .malformed hreg (by simp [ht]) (by simp [ht]) (fun _ => hl) (by simp [ht])
      · exact .stored hreg ht (not_not.mp hl)
    case h_3 ht =>
      unfold handleSend
      split_ifs with hl
      · exact .malformed hreg (by simp [ht]) (by simp [ht]) (by simp [ht]) (fun _ => hl)
      · cases hf : w.findClientByName (nameField f.payload) none with
        | none => exact .unknown hreg ht (by omega) hf
        | some j => exact .delivered j hreg ht (by omega) hf
    case h_4 ht => exact .pong hreg ht
    case h_5 hget hset hsend hping =>
      exact .malformed hreg hget hping (fun ht => absurd ht hset) (fun ht => absurd ht hsend)

/-- The rule for what handling a frame of slot `i` leaves true of every endpoint:
output may go anywhere, but only slot `i` is named or condemned, and only before
it has registered. -/
theorem Effect.pointwise {w w' : World} {i : Slot} {f : Frame} (h : Effect w i f w')
    {P : Slot → Endpoint → Prop}
    (hsend : ∀ j e g p r ok, P j e → P j (Endpoint.queueSend e g p r ok))
    (hcondemn : ∀ e, e.conn.registered = false → P i e → P i (Endpoint.condemn e))
    (hname : ∀ name, (w.conn i).registered = false → P i ((w.clients i).setName name))
    (hP : ∀ j, P j (w.clients j)) : ∀ j, P j (w'.clients j) := by
  have hqueue {v : World} (k : Slot) (g : Frame) (hv : ∀ j, P j (v.clients j)) :
      ∀ j, P j ((v.queueSend k g).clients j) := by
    intro j
    rw [queueSend_clients]
    split_ifs with hj
    · subst hj
      exact hsend _ _ _ _ _ _ (hv _)
    · exact hv j
  have hmod {v : World} {g : Endpoint → Endpoint} (hg : P i (v.clients i) → P i (g (v.clients i)))
      (hv : ∀ j, P j (v.clients j)) : ∀ j, P j ((v.modify i g).clients j) := by
    intro j
    rw [modify_clients]
    split_ifs with hj
    · subst hj
      exact hg (hv _)
    · exact hv j
  cases h with
  | refused e hreg => exact hmod (hcondemn _ (by simpa using hreg)) (hqueue i _ hP)
  | registered hreg => exact hqueue i _ (hmod (fun _ => hname _ hreg) hP)
  | stored => exact hqueue i _ hP
  | delivered j => exact hqueue j _ hP
  | value | unknown | pong | malformed => exact hqueue i _ hP

end World

end PiDaemon.Server
