import PiDaemon.Base.Transition
import PiDaemon.Server.Service

/-!
# The server as a transition system

A service round is cut into the steps between which nothing else of interest
happens: a connection is accepted, bytes are received, one frame is handled, the
output of one connection is flushed, a connection is closed. `Step` relates two
worlds by one such step, and every round is a sequence of them. Invariants are
proved over single steps and hold at every point of every round.

Most of them speak about one connection at a time. For these the rule `Local`
leaves one obligation for each operation on an endpoint, and none for the world.
-/

namespace PiDaemon.Server

open Base Proto Store

/-! ## A frame may be taken off the buffer before it is handled -/

theorem queueRest_withRx (c : ClientConn) (rx data : List UInt8) (ok : Bool) :
    queueRest { c with rxbuf := rx } data ok = { queueRest c data ok with rxbuf := rx } := by
  unfold queueRest
  split <;> simp_all

theorem queueSend_withRx (c : ClientConn) (rx : List UInt8) (f : Frame) (p : UInt16) (r : SendResult)
    (ok : Bool) : queueSend { c with rxbuf := rx } f p r ok =
      ({ (queueSend c f p r ok).1 with rxbuf := rx }, (queueSend c f p r ok).2) := by
  unfold queueSend
  by_cases h : c.tx.len = c.tx.sent
  · simp only [h, if_true]
    cases r with
    | sent n =>
      by_cases hn : min n (f.encode p).length = (f.encode p).length
      · simp only [if_pos hn]
      · simp only [if_neg hn, queueRest_withRx]
    | again => simp [queueRest_withRx]
    | intr | fail => rfl
  · simp [h, queueRest_withRx]

theorem Endpoint.setRx_queueSend (e : Endpoint) (rx : List UInt8) (f : Frame) (p : UInt16)
    (r : SendResult) (ok : Bool) : (e.queueSend f p r ok).setRx rx = (e.setRx rx).queueSend f p r ok := by
  simp [Endpoint.setRx, Endpoint.queueSend, queueSend_withRx]

namespace World

theorem setRx_modify {w : World} {i j : Slot} {g : Endpoint → Endpoint} {rx : List UInt8}
    (hg : ∀ e : Endpoint, (g e).setRx rx = g (e.setRx rx)) :
    (w.modify j g).setRx i rx = (w.setRx i rx).modify j g := by
  unfold setRx modify
  congr 1
  funext k
  by_cases hij : i = j
  · subst hij
    simp [hg]
  · by_cases hk : k = j
    · subst hk
      simp [Ne.symm hij]
    · simp [Function.update_apply, hk, Ne.symm hij, hij]

section Commute
variable (w : World) (i j : Slot) (rx : List UInt8)

theorem setRx_condemn : (w.condemn j).setRx i rx = (w.setRx i rx).condemn j :=
  setRx_modify fun _ => rfl

theorem setRx_setName (name : List UInt8) :
    (w.setName j name).setRx i rx = (w.setRx i rx).setName j name :=
  setRx_modify fun _ => rfl

theorem setRx_queueSend (f : Frame) :
    (w.queueSend j f).setRx i rx = (w.setRx i rx).queueSend j f := by
  have h : (w.modify j fun e =>
      e.queueSend f (w.paddings.headD 0) (w.sends.headD .again) (w.reallocs.headD true)).setRx i rx =
      (w.setRx i rx).modify j fun e =>
        e.queueSend f (w.paddings.headD 0) (w.sends.headD .again) (w.reallocs.headD true) :=
    setRx_modify fun e => e.setRx_queueSend rx f _ _ _
  simp only [setRx, queueSend, modify] at h ⊢
  simp_all

theorem setRx_refuse (e : DaemonErr) : (w.refuse j e).setRx i rx = (w.setRx i rx).refuse j e := by
  rw [refuse, setRx_condemn, setRx_queueSend, refuse]

theorem conn_setRx : (w.setRx i rx).conn j =
    { w.conn j with rxbuf := if j = i then rx else (w.conn j).rxbuf } := by
  by_cases h : j = i
  · subst h
    simp [conn, setRx, Endpoint.setRx]
  · simp [conn, setRx, h]

@[simp] theorem setRx_findClientByName (name : List UInt8) (exclude : Option Slot) :
    (w.setRx i rx).findClientByName name exclude = w.findClientByName name exclude := by
  simp [findClientByName, conn_setRx]

theorem setRx_handleRegister (f : Frame) :
    (w.handleRegister j f).setRx i rx = (w.setRx i rx).handleRegister j f := by
  simp only [handleRegister, setRx_findClientByName, ← setRx_refuse, ← setRx_setName,
    ← setRx_queueSend]
  split_ifs <;> rfl

theorem setRx_handleMessage (f : Frame) :
    (w.handleMessage j f).setRx i rx = (w.setRx i rx).handleMessage j f := by
  have hreg : ((w.setRx i rx).conn j).registered = (w.conn j).registered := by rw [conn_setRx]
  have hname : ((w.setRx i rx).conn j).name = (w.conn j).name := by rw [conn_setRx]
  have hstore (s : SatelliteState) :
    (w.setRx i rx).storeState s = (w.storeState s).setRx i rx := rfl
  unfold handleMessage
  rw [hreg]
  split_ifs
  · exact setRx_handleRegister w i j rx f
  · split
    · exact setRx_queueSend w i j rx _
    · simp only [handleStateSet, hstore, ← setRx_queueSend]
      split_ifs <;> rfl
    · simp only [handleSend, hname, setRx_findClientByName, ← setRx_queueSend]
      split_ifs
      · rfl
      · split <;> rfl
    · exact setRx_queueSend w i j rx _
    · exact setRx_queueSend w i j rx _

end Commute

section Consume
variable (w : World) (i : Slot) (f : Frame) (rest : List UInt8)

def consume : World := (w.note i f).setRx i rest

theorem consume_clients (k : Slot) : (w.consume i f rest).clients k =
    if k = i then ((w.clients i).note f).setRx rest else w.clients k := by
  by_cases hk : k = i
  · subst hk
    simp [consume, setRx]
  · simp [consume, setRx, hk]

theorem consume_conn (k : Slot) : (w.consume i f rest).conn k =
    { w.conn k with rxbuf := if k = i then rest else (w.conn k).rxbuf } := by
  rw [conn, consume_clients]
  split_ifs with hk
  · subst hk
    rfl
  · rfl

theorem consume_queued (k : Slot) :
    ((w.consume i f rest).peer k).queued = (w.peer k).queued := by
  rw [peer, consume_clients]
  split_ifs with hk
  · subst hk
    rfl
  · rfl

theorem consume_entry (g : Frame) : (w.consume i f rest).entry i g = w.entry i g := by
  simp [entry, consume, setRx, conn, peer, Endpoint.note, nextStore, note, modify]

@[simp] theorem consume_findClientByName (name : List UInt8) (exclude : Option Slot) :
    (w.consume i f rest).findClientByName name exclude = w.findClientByName name exclude := by
  simp [findClientByName, consume_conn]

theorem dispatch_eq : w.dispatch i f rest = (w.consume i f rest).handleMessage i f :=
  setRx_handleMessage _ i i rest f

/-- Everything that handling a complete frame can do. -/
theorem dispatch_effect : Effect (w.consume i f rest) i f (w.dispatch i f rest) := by
  rw [dispatch_eq]
  exact handleMessage_effect _ i f

end Consume

def receive (w : World) (i : Slot) (n : ℕ) : World := w.modify i fun e => e.receive n

end World

/-! ## Steps -/

inductive Step : World → World → Prop
  | collect (w : World) (m : List (Option Slot)) : Step w { w with slotMap := m }
  | accept (w : World) (i : Slot) (fd : ℤ) (stream : List UInt8) :
      (w.conn i).inUse = false → Step w (w.accept i fd stream)
  | markPoll (w : World) (i : Slot) : (w.conn i).inUse = true → Step w (w.markPoll i)
  | condemn (w : World) (i : Slot) : (w.conn i).inUse = true → Step w (w.condemn i)
  | receive (w : World) (i : Slot) (n : ℕ) : (w.conn i).inUse = true →
      (w.conn i).shouldClose = false → n ≤ rxCap - (w.conn i).rxbuf.length → Step w (w.receive i n)
  | handle (w : World) (i : Slot) {hdr body rest : List UInt8} : (w.conn i).inUse = true →
      (w.conn i).shouldClose = false → frameFormat.head (w.conn i).rxbuf = .frame hdr body rest →
      Step w (w.dispatch i ⟨hdrType hdr, body⟩ rest)
  | flush (w : World) (i : Slot) : (w.conn i).inUse = true → (w.conn i).shouldClose = false →
      Step w (w.flush i)
  | close (w : World) (i : Slot) : (w.conn i).inUse = true → (w.conn i).shouldClose = true →
      Step w (w.closeClient i)

/-- Only handling a frame touches the satellite state, the files and the log. -/
theorem Step.quiet_or_handle {w w' : World} (h : Step w w') :
    (w'.state = w.state ∧ w'.disk = w.disk ∧ w'.log = w.log) ∨
      ∃ i f rest, (w.conn i).inUse = true ∧ (w.conn i).shouldClose = false ∧
        w' = w.dispatch i f rest := by
  cases h with
  | handle i huse hopen => exact .inr ⟨i, _, _, huse, hopen, rfl⟩
  | collect | accept | markPoll | condemn | receive | flush | close => exact .inl ⟨rfl, rfl, rfl⟩

abbrev Steps : World → World → Prop := Relation.ReflTransGen Step

/-- The worlds a daemon passes through, also in the middle of a round. -/
def Reachable (b : Boot) : World → Prop := Steps b.world

structure Local (P : Endpoint → Prop) : Prop where
  fresh : P {}
  accepted (fd : ℤ) (serial : ℕ) (stream : List UInt8) : P (.accepted fd serial stream)
  markPoll {e : Endpoint} : P e → P e.markPoll
  condemn {e : Endpoint} : P e → P e.condemn
  receive {e : Endpoint} (n : ℕ) : e.conn.shouldClose = false →
    n ≤ rxCap - e.conn.rxbuf.length → P e → P (e.receive n)
  consume {e : Endpoint} {hdr body rest : List UInt8} : e.conn.shouldClose = false →
    frameFormat.head e.conn.rxbuf = .frame hdr body rest → P e →
      P ((e.note ⟨hdrType hdr, body⟩).setRx rest)
  setName {e : Endpoint} (name : List UInt8) : e.conn.registered = false → P e → P (e.setName name)
  queueSend {e : Endpoint} (f : Frame) (p : UInt16) (r : SendResult) (ok : Bool) :
    P e → P (e.queueSend f p r ok)
  flush {e : Endpoint} (rs : List SendResult) : e.conn.shouldClose = false → P e → P (e.flush rs)

/-- `P` holds of every slot and held of every connection when it was closed. -/
structure Everywhere (P : Endpoint → Prop) (w : World) : Prop where
  live (i : Slot) : P (w.clients i)
  closed {e : Endpoint} : e ∈ w.closed → P e

namespace World

theorem Effect.log {w w' : World} {i : Slot} {f : Frame} (h : Effect w i f w') :
    w'.log = w.log := by
  cases h <;> rfl

theorem dispatch_log (w : World) (i : Slot) (f : Frame) (rest : List UInt8) :
    (w.dispatch i f rest).log = w.log ++ [w.entry i f] := by
  rw [(w.dispatch_effect i f rest).log]
  rfl

theorem Effect.closed {w w' : World} {i : Slot} {f : Frame} (h : Effect w i f w') :
    w'.closed = w.closed := by
  cases h <;> rfl

theorem dispatch_closed (w : World) (i : Slot) (f : Frame) (rest : List UInt8) :
    (w.dispatch i f rest).closed = w.closed := by
  rw [(w.dispatch_effect i f rest).closed]
  rfl

/-- The frame of slot `i` is consumed first, then its effect reaches any slot. -/
theorem dispatch_pointwise {w : World} {i : Slot} {f : Frame} {rest : List UInt8}
    {P : Slot → Endpoint → Prop}
    (hsend : ∀ j e g p r ok, P j e → P j (Endpoint.queueSend e g p r ok))
    (hcondemn : ∀ e, e.conn.registered = false → P i e → P i (Endpoint.condemn e))
    (hname : ∀ name, (w.conn i).registered = false →
      P i ((((w.clients i).note f).setRx rest).setName name))
    (hconsume : P i (((w.clients i).note f).setRx rest))
    (hP : ∀ j, j ≠ i → P j (w.clients j)) : ∀ j, P j ((w.dispatch i f rest).clients j) := by
  have hi : (w.consume i f rest).clients i = ((w.clients i).note f).setRx rest := by
    rw [consume_clients, if_pos rfl]
  refine (w.dispatch_effect i f rest).pointwise hsend hcondemn ?_ fun j => ?_
  · intro name hreg
    rw [conn, hi] at hreg
    exact hi ▸ hname name hreg
  · by_cases hj : j = i
    · subst hj
      exact hi ▸ hconsume
    · rw [consume_clients, if_neg hj]
      exact hP j hj

end World

theorem Everywhere.modify {P : Endpoint → Prop} {w : World} {i : Slot} {g : Endpoint → Endpoint}
    (h : Everywhere P w) (hg : P (w.clients i) → P (g (w.clients i))) :
    Everywhere P (w.modify i g) where
  live j := by
    rw [World.modify_clients]
    split_ifs
    · exact hg (h.live i)
    · exact h.live j
  closed he := h.closed he

namespace Local

variable {P : Endpoint → Prop} (hP : Local P)
include hP

theorem step {w w' : World} (h : Everywhere P w) (hstep : Step w w') : Everywhere P w' := by
  cases hstep with
  | collect => exact ⟨h.live, h.closed⟩
  | accept i fd stream =>
    have hm : Everywhere P (w.modify i fun _ => .accepted fd w.accepted stream) :=
      h.modify fun _ => hP.accepted _ _ _
    exact ⟨hm.live, hm.closed⟩
  | markPoll i => exact h.modify hP.markPoll
  | condemn i => exact h.modify hP.condemn
  | receive i n _ hopen hn => exact h.modify (hP.receive n hopen hn)
  | handle i _ hopen hhead =>
    have hconsume := hP.consume hopen hhead (h.live i)
    refine ⟨World.dispatch_pointwise (fun _ _ f p r ok => hP.queueSend f p r ok)
      (fun _ _ => hP.condemn) (fun name hreg => hP.setName name hreg hconsume) hconsume
      (fun j _ => h.live j), fun he => ?_⟩
    rw [World.dispatch_closed] at he
    exact h.closed he
  | flush i _ hopen =>
    have hm : Everywhere P (w.modify i fun e => e.flush w.sends) :=
      h.modify (hP.flush w.sends hopen)
    exact ⟨hm.live, hm.closed⟩
  | close i =>
    have hm : Everywhere P (w.modify i fun _ => {}) := h.modify fun _ => hP.fresh
    refine ⟨hm.live, fun he => ?_⟩
    obtain he | he := List.mem_append.mp he
    · exact h.closed he
    · exact List.mem_singleton.mp he ▸ h.live i

theorem steps {w w' : World} (h : Everywhere P w) (hsteps : Steps w w') : Everywhere P w' :=
  steps_invariant (I := Everywhere P) (fun _ _ => hP.step) hsteps h

theorem reachable {b : Boot} {w : World} (h : Reachable b w) : Everywhere P w :=
  hP.steps ⟨fun _ => hP.fresh, fun he => by cases he⟩ h

end Local

/-! ## Every pass is a sequence of steps, and every round goes from pass to pass -/

namespace World

theorem dispatch_inUse (w : World) (i : Slot) (f : Frame) (rest : List UInt8) (j : Slot) :
    ((w.dispatch i f rest).conn j).inUse = (w.conn j).inUse := by
  refine dispatch_pointwise (P := fun j e => e.conn.inUse = (w.conn j).inUse) (w := w) (i := i)
    (f := f) ?_ (fun _ _ h => h) ?_ ?_ (fun _ _ => rfl) j
  · intro j e g p r ok h
    rw [Endpoint.queueSend_inUse, h]
  · exact fun _ _ => rfl
  · rfl

theorem recvLoop_steps {i : Slot} (rs : List RecvChoice) : ∀ {w : World},
    (w.conn i).inUse = true → (w.conn i).shouldClose = false →
      Steps w (w.modify i fun e => e.recvLoop rs) := by
  have hcondemn {w : World} {rs : List RecvChoice} (huse : (w.conn i).inUse = true)
      (h : (w.clients i).recvLoop rs = (w.clients i).condemn) :
      Steps w (w.modify i fun e => e.recvLoop rs) := by
    rw [modify_congr w i (h := Endpoint.condemn) h]
    exact .single (.condemn w i huse)
  have hstay {w : World} {rs : List RecvChoice}
      (h : (w.clients i).recvLoop rs = w.clients i) :
      Steps w (w.modify i fun e => e.recvLoop rs) := by
    rw [modify_self w i h]
  induction rs with
  | nil =>
    intro w huse _
    by_cases hfull : rxCap ≤ (w.conn i).rxbuf.length
    · exact hcondemn huse (by simp [Endpoint.recvLoop, hfull])
    · exact hstay (by simp [Endpoint.recvLoop, hfull])
  | cons r rs ih =>
    intro w huse hopen
    by_cases hfull : rxCap ≤ (w.conn i).rxbuf.length
    · exact hcondemn huse (by simp [Endpoint.recvLoop, hfull])
    · cases r with
      | again => exact hstay (by simp [Endpoint.recvLoop, hfull])
      | intr =>
        rw [modify_congr w i (h := fun e => e.recvLoop rs) (by simp [Endpoint.recvLoop, hfull])]
        exact ih huse hopen
      | fail => exact hcondemn huse (by simp [Endpoint.recvLoop, hfull])
      | eof =>
        by_cases hend : (w.peer i).unread = []
        · exact hcondemn huse (by simp [Endpoint.recvLoop, hfull, hend])
        · exact hstay (by simp [Endpoint.recvLoop, hfull, hend])
      | bytes n =>
        by_cases hend : (w.peer i).unread = []
        · exact hstay (by simp [Endpoint.recvLoop, hfull, hend])
        · -- one `recv()`, and then either the window is full or the loop goes on
          let m := min (max n 1) (rxCap - (w.conn i).rxbuf.length)
          have hrecv : Step w (w.receive i m) := .receive w i m huse hopen (min_le_right _ _)
          have hat : (w.receive i m).clients i = (w.clients i).receive m := by simp [receive]
          by_cases hfull' : rxCap ≤ ((w.clients i).receive m).conn.rxbuf.length
          · rw [modify_congr w i (h := fun e => e.receive m)
              (by simp [Endpoint.recvLoop, hfull, hend, m, hfull'])]
            exact .single hrecv
          · rw [modify_congr w i (h := fun e => (e.receive m).recvLoop rs)
              (by simp [Endpoint.recvLoop, hfull, hend, m, hfull']),
              ← modify_modify w i (fun e => e.receive m) fun e => e.recvLoop rs]
            refine .head hrecv (ih ?_ ?_)
            · rw [conn, hat]; exact huse
            · rw [conn, hat]; exact hopen

theorem parseLoop_steps {i : Slot} (fuel : ℕ) : ∀ {w : World}, (w.conn i).inUse = true →
    Steps w (parseLoop fuel w i) ∧ ((parseLoop fuel w i).conn i).inUse = true := by
  induction fuel with
  | zero => exact fun huse => ⟨.refl, huse⟩
  | succ fuel ih =>
    intro w huse
    unfold parseLoop
    split_ifs with hclose
    · exact ⟨.refl, huse⟩
    · split
      · exact ⟨.refl, huse⟩
      · exact ⟨.single (.condemn w i huse), by simpa [conn, World.condemn] using huse⟩
      · rename_i hhead
        obtain ⟨hsteps, huse'⟩ := ih ((dispatch_inUse w i _ _ i).trans huse)
        exact ⟨.head (.handle w i huse (by simpa using hclose) hhead) hsteps, huse'⟩

theorem hangUp_steps {w : World} {i : Slot} (rev : Events) (huse : (w.conn i).inUse = true) :
    Steps w (w.hangUp i rev) ∧ ((w.hangUp i rev).conn i).inUse = true := by
  unfold hangUp
  split_ifs
  · exact ⟨.single (.condemn w i huse), by simpa [conn, World.condemn] using huse⟩
  · exact ⟨.refl, huse⟩

theorem recvLoop_inUse (rs : List RecvChoice) (e : Endpoint) :
    (e.recvLoop rs).conn.inUse = e.conn.inUse :=
  Endpoint.recvLoop_rule (P := fun e' => e'.conn.inUse = e.conn.inUse) (fun _ h => h)
    (fun _ _ h => h) rs e rfl

theorem readAndParse_steps {w : World} {i : Slot} (p : PollFd) (huse : (w.conn i).inUse = true) :
    Steps w (w.readAndParse i p) ∧ ((w.readAndParse i p).conn i).inUse = true := by
  unfold readAndParse
  split_ifs with h
  · have hopen : (w.conn i).shouldClose = false := by simp_all
    have huse' : ((w.modify i fun e => e.recvLoop p.recvs).conn i).inUse = true := by
      simpa [conn, recvLoop_inUse] using huse
    obtain ⟨hsteps, hend⟩ := parseLoop_steps
      ((w.modify i fun e => e.recvLoop p.recvs).conn i).rxbuf.length huse'
    exact ⟨(recvLoop_steps p.recvs huse hopen).trans hsteps, hend⟩
  · exact ⟨.refl, huse⟩

theorem finish_of_condemned {w : World} {i : Slot} (h : (w.conn i).shouldClose = true) :
    w.finish i = w.closeClient i := by
  simp [finish, h]

theorem finish_of_open {w : World} {i : Slot} (h : (w.conn i).shouldClose = false) :
    w.finish i =
      if ((w.flush i).conn i).shouldClose then (w.flush i).closeClient i else w.flush i := by
  simp only [finish, h, Bool.false_eq_true, if_false]

theorem finish_steps {w : World} {i : Slot} (huse : (w.conn i).inUse = true) :
    Steps w (w.finish i) := by
  cases hclose : (w.conn i).shouldClose with
  | true =>
    rw [finish_of_condemned hclose]
    exact .single (.close w i huse hclose)
  | false =>
    have hflush : Step w (w.flush i) := .flush w i huse hclose
    rw [finish_of_open hclose]
    split_ifs with hfail
    · exact .head hflush (.single (.close _ i (by simpa [conn] using huse) hfail))
    · exact .single hflush

theorem serveSlot_steps {w : World} {i : Slot} (p : PollFd) (huse : (w.conn i).inUse = true) :
    Steps w (w.serveSlot i p) := by
  have hmark : ((w.markPoll i).conn i).inUse = true := by simpa [conn, markPoll] using huse
  obtain ⟨h1, hu1⟩ := hangUp_steps p.revents hmark
  obtain ⟨h2, hu2⟩ := readAndParse_steps p hu1
  exact .head (.markPoll w i huse) (h1.trans (h2.trans (finish_steps hu2)))

end World

/-- The worlds between two passes: new connections are accepted and connections are
served, in any order. -/
inductive Serving (b : Boot) : World → Prop
  | boot : Serving b b.world
  | collect {w : World} (m : List (Option Slot)) : Serving b w → Serving b { w with slotMap := m }
  | accept {w : World} (i : Slot) (fd : ℤ) (stream : List UInt8) : (w.conn i).inUse = false →
      Serving b w → Serving b (w.accept i fd stream)
  | pass {w : World} (i : Slot) (p : PollFd) : (w.conn i).inUse = true → Serving b w →
      Serving b (w.serveSlot i p)

namespace Serving

variable {b : Boot} {w : World}

theorem reachable (h : Serving b w) : Reachable b w := by
  induction h with
  | boot => exact .refl
  | collect m _ ih => exact ih.tail (.collect _ m)
  | accept i fd stream hfree _ ih => exact ih.tail (.accept _ i fd stream hfree)
  | pass i p huse _ ih => exact ih.trans (World.serveSlot_steps p huse)

theorem serveEntries (entries : List (Option Slot × PollFd)) : ∀ {w : World}, Serving b w →
    Serving b (entries.foldl World.serveEntry w) := by
  induction entries with
  | nil => exact id
  | cons entry entries ih =>
    intro w h
    refine ih ?_
    unfold World.serveEntry
    split
    · exact h
    · split_ifs with hskip
      · exact h
      · exact .pass _ _ (by simpa using (not_or.mp hskip).1) h

theorem acceptNewConnections (as : List AcceptChoice) : ∀ {w : World}, Serving b w →
    Serving b (w.acceptNewConnections as) := by
  induction as with
  | nil => exact id
  | cons a as ih =>
    intro w h
    cases a with
    | intr => exact ih h
    | fail => exact h
    | conn fd stream =>
      unfold World.acceptNewConnections
      cases hfree : w.freeSlot with
      | none => exact ih h
      | some i => exact ih (.accept i fd stream (by simpa using List.find?_some hfree) h)

end Serving

/-- Every run of the main loop goes from pass to pass. -/
theorem Run.serving {b : Boot} {w : World} (h : Run b w) : Serving b w := by
  induction h with
  | boot => exact .boot
  | round ready accepts _ ih =>
    unfold World.round World.service
    dsimp only
    split
    · exact .collect _ ih
    · refine Serving.serveEntries _ ?_
      split_ifs
      · exact Serving.acceptNewConnections _ (.collect _ ih)
      · exact .collect _ ih

/-- Whatever is shown of every reachable world holds between the rounds of every run. -/
theorem Run.reachable {b : Boot} {w : World} (h : Run b w) : Reachable b w := h.serving.reachable

end PiDaemon.Server
