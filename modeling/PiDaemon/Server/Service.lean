import PiDaemon.Server.World

/-!
# Polling rounds

`ipc_server_collect_pollfds`, `accept_new_connections` and `ipc_server_service`:
the loop the daemon runs around the dispatcher. `poll()`, `accept4()` and
`recv()` answer as the arguments say. `recv()` hands out a client's bytes in the
order they were written and reports end-of-file only behind the last of them;
within that, any split, delay or interruption can be asked for.
-/

namespace PiDaemon.Server

open Base Proto Store

inductive RecvChoice
  | bytes (n : ℕ)
  | again
  | intr
  | eof
  | fail
  deriving DecidableEq, Repr

/-- What `accept4()` is made to answer; a connection comes with all its client will write. -/
inductive AcceptChoice
  | conn (fd : ℤ) (stream : List UInt8)
  | intr
  | fail
  deriving DecidableEq, Repr

/-- The bits of `events` and `revents` the server uses. -/
structure Events where
  pollin : Bool := false
  pollout : Bool := false
  pollerr : Bool := false
  pollhup : Bool := false
  pollnval : Bool := false
  deriving DecidableEq, Repr

/-- `struct pollfd`, with the answers `recv()` gives on the descriptor in this round. -/
structure PollFd where
  fd : ℤ
  events : Events := {}
  revents : Events := {}
  recvs : List RecvChoice := []
  deriving DecidableEq, Repr

namespace Endpoint

def receive (e : Endpoint) (n : ℕ) : Endpoint where
  conn := { e.conn with rxbuf := e.conn.rxbuf ++ e.peer.unread.take n }
  peer := { e.peer with unread := e.peer.unread.drop n }

/-- The receive loop of one service pass. A window of size zero makes `recv()`
return 0, which the code takes for end-of-file. -/
def recvLoop (e : Endpoint) : List RecvChoice → Endpoint
  | [] => if rxCap ≤ e.conn.rxbuf.length then e.condemn else e
  | r :: rs =>
    if rxCap ≤ e.conn.rxbuf.length then e.condemn
    else
      match r with
      | .again => e
      | .intr => e.recvLoop rs
      | .fail => e.condemn
      | .eof => if e.peer.unread = [] then e.condemn else e
      | .bytes n =>
        if e.peer.unread = [] then e
        else
          let e' := e.receive (min (max n 1) (rxCap - e.conn.rxbuf.length))
          if rxCap ≤ e'.conn.rxbuf.length then e' else e'.recvLoop rs

/-- Note where the client's stream stands when a round reaches the connection. -/
def markPoll (e : Endpoint) : Endpoint := { e with peer := { e.peer with atPoll := e.peer.unread } }

def accepted (fd : ℤ) (serial : ℕ) (stream : List UInt8) : Endpoint where
  conn := { fd := fd, inUse := true }
  peer := { serial := serial, stream := stream, unread := stream }

@[simp] theorem markPoll_conn (e : Endpoint) : e.markPoll.conn = e.conn := rfl

theorem recvLoop_rule {P : Endpoint → Prop} (hcondemn : ∀ e, P e → P (condemn e))
    (hreceive : ∀ e n, P e → P (receive e n)) (rs : List RecvChoice) :
    ∀ e, P e → P (e.recvLoop rs) := by
  induction rs with
  | nil =>
    intro e he
    unfold recvLoop
    split_ifs
    · exact hcondemn e he
    · exact he
  | cons r rs ih =>
    intro e he
    unfold recvLoop
    by_cases hfull : rxCap ≤ e.conn.rxbuf.length
    · rw [if_pos hfull]
      exact hcondemn e he
    · rw [if_neg hfull]
      cases r with
      | again => exact he
      | intr => exact ih e he
      | fail => exact hcondemn e he
      | eof =>
        dsimp only
        split_ifs
        · exact hcondemn e he
        · exact he
      | bytes n =>
        dsimp only
        split_ifs
        · exact he
        · exact hreceive e _ he
        · exact ih _ (hreceive e _ he)

end Endpoint

namespace World

/-- The parse loop of one service pass. Each round takes a header off the buffer,
so the length of the buffer bounds the number of rounds. -/
def parseLoop : ℕ → World → Slot → World
  | 0, w, _ => w
  | fuel + 1, w, i =>
    if (w.conn i).shouldClose then w
    else
      match frameFormat.head (w.conn i).rxbuf with
      | .short => w
      | .oversized => w.condemn i
      | .frame hdr body rest => parseLoop fuel (w.dispatch i ⟨hdrType hdr, body⟩ rest) i

/-- `close_client`. -/
def closeClient (w : World) (i : Slot) : World :=
  { w.modify i fun _ => {} with closed := w.closed ++ [w.clients i] }

def markPoll (w : World) (i : Slot) : World := w.modify i .markPoll

/-- `if (rev & (POLLHUP | POLLERR | POLLNVAL)) c->should_close = 1;` -/
def hangUp (w : World) (i : Slot) (rev : Events) : World :=
  if rev.pollhup || rev.pollerr || rev.pollnval then w.condemn i else w

def readAndParse (w : World) (i : Slot) (p : PollFd) : World :=
  if !(w.conn i).shouldClose && p.revents.pollin then
    let w := w.modify i fun e => e.recvLoop p.recvs
    parseLoop (w.conn i).rxbuf.length w i
  else w

def finish (w : World) (i : Slot) : World :=
  let w := if (w.conn i).shouldClose then w else w.flush i
  if (w.conn i).shouldClose then w.closeClient i else w

/-- The body of the service loop once the slot has been matched with its descriptor. -/
def serveSlot (w : World) (i : Slot) (p : PollFd) : World :=
  (((w.markPoll i).hangUp i p.revents).readAndParse i p).finish i

/-- One index `k ≥ 1` of the service loop, with `slot_map[k]` and `fds[k]`. -/
def serveEntry (w : World) (entry : Option Slot × PollFd) : World :=
  match entry.1 with
  | none => w
  | some i =>
    if (w.conn i).inUse = false ∨ (w.conn i).fd ≠ entry.2.fd then w
    else w.serveSlot i entry.2

def freeSlot (w : World) : Option Slot :=
  (List.finRange maxClients).find? fun i => !(w.conn i).inUse

def accept (w : World) (i : Slot) (fd : ℤ) (stream : List UInt8) : World :=
  { w.modify i fun _ => .accepted fd w.accepted stream with accepted := w.accepted + 1 }

theorem accept_clients (w : World) (i : Slot) (fd : ℤ) (stream : List UInt8) (k : Slot) :
    (w.accept i fd stream).clients k =
      if k = i then .accepted fd w.accepted stream else w.clients k :=
  modify_clients w i k fun _ => .accepted fd w.accepted stream

theorem closeClient_clients (w : World) (i k : Slot) :
    (w.closeClient i).clients k = if k = i then {} else w.clients k :=
  modify_clients w i k fun _ => {}

def acceptNewConnections (w : World) : List AcceptChoice → World
  | [] => w
  | .intr :: rest => w.acceptNewConnections rest
  | .fail :: _ => w
  | .conn fd stream :: rest =>
    match w.freeSlot with
    | none => w.acceptNewConnections rest
    | some i => (w.accept i fd stream).acceptNewConnections rest

/-- `ipc_server_collect_pollfds`: the descriptors, and the table that matches them to slots. -/
def collectPollfds (w : World) (maxFds : ℕ) : World × List PollFd :=
  let used := (List.finRange maxClients).filter fun i => (w.conn i).inUse
  let entries : List (Option Slot × PollFd) :=
    ((none, { fd := w.listenFd, events := { pollin := true } }) ::
      used.map fun i => (some i,
        { fd := (w.conn i).fd
          events := { pollin := true, pollout := decide ((w.conn i).tx.sent < (w.conn i).tx.len) } })).take
      maxFds
  ({ w with slotMap := entries.map Prod.fst }, entries.map Prod.snd)

/-- `ipc_server_service`. -/
def service (w : World) (fds : List PollFd) (accepts : List AcceptChoice) : World :=
  match fds with
  | [] => w
  | listener :: rest =>
    let w := if listener.revents.pollin || listener.revents.pollerr then
        w.acceptNewConnections accepts else w
    (w.slotMap.tail.zip rest).foldl serveEntry w

/-- What `poll()` reports for one descriptor, and what `recv()` then answers on it. -/
structure Ready where
  revents : Events := {}
  recvs : List RecvChoice := []
  deriving DecidableEq, Repr

/-- One turn of the main loop as far as the server is concerned: collect, poll, serve. -/
def round (w : World) (ready : List Ready) (accepts : List AcceptChoice) : World :=
  let collected := w.collectPollfds (maxClients + 1)
  let fds := collected.2.mapIdx fun k p =>
    { p with revents := (ready.getD k {}).revents, recvs := (ready.getD k {}).recvs }
  collected.1.service fds accepts

end World

/-! ## Runs -/

/-- A daemon that has come up: `sat_state_init` succeeded on files it can have
found, and the kernel will answer as listed. -/
structure Boot where
  found : Fs
  reachable : Store.Reachable found
  script : InitScript
  disk : Fs
  state : SatelliteState
  init : satStateInit found script = (disk, some state)
  listenFd : ℤ
  paddings : List UInt16
  sends : List SendResult
  reallocs : List Bool
  stores : List StoreScript

def Boot.world (b : Boot) : World where
  listenFd := b.listenFd
  state := b.state
  disk := b.disk
  paddings := b.paddings
  sends := b.sends
  reallocs := b.reallocs
  stores := b.stores

/-- A daemon started for the first time, before there is a state file. -/
def Boot.fresh (sends : List SendResult) (stores : List StoreScript) : Boot where
  found := ⟨none, none⟩
  reachable := .boot none none
  script := {}
  disk := (satStateInit ⟨none, none⟩ {}).1
  state := stateDefaults
  init := rfl
  listenFd := 3
  paddings := []
  sends := sends
  reallocs := []
  stores := stores

def letterName (c : UInt8) : List UInt8 := c :: List.replicate (nameMax - 1) 0

/-- The `DMSG_REGISTER` of a client with a one-letter name. -/
def registerAs (c : UInt8) : Frame := ⟨MsgType.register.code, letterName c⟩

inductive Run (b : Boot) : World → Prop
  | boot : Run b b.world
  | round {w : World} (ready : List World.Ready) (accepts : List AcceptChoice) :
      Run b w → Run b (w.round ready accepts)

end PiDaemon.Server
