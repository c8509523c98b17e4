import PiDaemon.Client.Ipc
import PiDaemon.Server.Durability
import PiDaemon.Server.Outgoing
import PiDaemon.Server.Registration

/-!
# Seeding a client from the daemon's state

At startup `payload_app` and `network` register and then ask for the satellite
state, taking the next frame they read for the reply. From the moment the
registration is handled, other clients can send to the new name. The invariant
follows one connection through the log: what is queued to it before the answer to
its second frame is the relays of the messages addressed to it in between.
-/

namespace PiDaemon.Client

open Base Proto Store Server

/-! ## A connection in the log -/

/-- `e` is the first entry of connection `serial` in `log`, between `pre` and `rest`. -/
structure First (serial : ℕ) (log pre : List Handled) (e : Handled) (rest : List Handled) :
    Prop where
  split : log = pre ++ e :: rest
  before : ∀ h ∈ pre, h.serial ≠ serial
  own : e.serial = serial

theorem First.concat {serial : ℕ} {log : List Handled} {e : Handled}
    (h : ∀ g ∈ log, g.serial ≠ serial) (he : e.serial = serial) :
    First serial (log ++ [e]) log e [] :=
  ⟨rfl, h, he⟩

theorem First.append {serial : ℕ} {log pre rest : List Handled} {e : Handled}
    (h : First serial log pre e rest) (more : List Handled) :
    First serial (log ++ more) pre e (rest ++ more) :=
  ⟨by simp [h.split], h.before, h.own⟩

theorem First.mem {serial : ℕ} {log pre rest : List Handled} {e : Handled}
    (h : First serial log pre e rest) : e ∈ log := by
  simp [h.split]

theorem First.unique {serial : ℕ} {e e' : Handled} {pre : List Handled} :
    ∀ {log pre' rest rest' : List Handled}, First serial log pre e rest →
      First serial log pre' e' rest' → pre = pre' ∧ e = e' ∧ rest = rest' := by
  induction pre with
  | nil =>
    intro log pre' rest rest' h h'
    have heq := h.split.symm.trans h'.split
    cases pre' with
    | nil => simpa using heq
    | cons g pre' =>
      obtain ⟨rfl, -⟩ := List.cons.inj heq
      exact absurd h.own (h'.before e (by simp))
  | cons g pre ih =>
    intro log pre' rest rest' h h'
    have heq := h.split.symm.trans h'.split
    cases pre' with
    | nil =>
      obtain ⟨rfl, -⟩ := List.cons.inj heq
      exact absurd h'.own (h.before g (by simp))
    | cons g' pre' =>
      obtain ⟨rfl, htail⟩ := List.cons.inj heq
      have htail' : First serial (pre ++ e :: rest) pre e rest :=
        ⟨rfl, fun x hx => h.before x (by simp [hx]), h.own⟩
      obtain ⟨rfl, he, hrest⟩ := ih htail'
        ⟨htail, fun x hx => h'.before x (by simp [hx]), h'.own⟩
      exact ⟨rfl, he, hrest⟩

/-! ## What is queued before the second answer -/

def RelayOf (h : Handled) (d : Frame) : Prop :=
  h.frame.payload.length ≤ maxMsgPayload ∧
    ∃ src : List UInt8, src.length = nameMax ∧ d = World.deliverFrame src h.frame

def Relays (name : List UInt8) (log : List Handled) (ds : List Frame) : Prop :=
  List.Forall₂ RelayOf (log.filter (Handled.addressed name)) ds

theorem RelayOf.length {h : Handled} {d : Frame} (hd : RelayOf h d) :
    nameMax ≤ d.payload.length ∧ d.payload.length < 2 ^ 32 := by
  obtain ⟨hlen, src, hsrc, rfl⟩ := hd
  simp only [World.deliverFrame, List.length_append, List.length_drop, hsrc]
  have : nameMax + maxMsgPayload < 2 ^ 32 := by decide
  omega

theorem Relays.skip {name : List UInt8} {log : List Handled} {ds : List Frame}
    (h : Relays name log ds) {e : Handled} (he : e.addressed name = false) :
    Relays name (log ++ [e]) ds := by
  simpa [Relays, List.filter_append, he] using h

theorem Relays.relay {name : List UInt8} {log : List Handled} {ds : List Frame}
    (h : Relays name log ds) {e : Handled} {d : Frame} (he : e.addressed name = true)
    (hd : RelayOf e d) : Relays name (log ++ [e]) (ds ++ [d]) := by
  simp only [Relays, List.filter_append, List.filter_cons, he, if_true, List.filter_nil]
  exact List.rel_append h (.cons hd .nil)

theorem Relays.nil_iff {name : List UInt8} {log : List Handled} {ds : List Frame}
    (h : Relays name log ds) : ds = [] ↔ ∀ e ∈ log, e.addressed name = false := by
  rw [← List.length_eq_zero_iff, ← List.Forall₂.length_eq h, List.length_eq_zero_iff,
    List.filter_eq_nil_iff]
  simp

def registerOkFrame : Frame := ⟨MsgType.registerOk.code, []⟩

def stateValueFrame (s : SatelliteState) : Frame := ⟨MsgType.stateValue.code, s.encode⟩

/-- How far a connection has come, and what has been queued to it so far; `s₀` is
the state the daemon came up with. -/
inductive Stage (s₀ : SatelliteState) (log : List Handled) (e : Endpoint) : Prop
  | silent : e.conn.registered = false → e.peer.queued = [] →
      (∀ h ∈ log, h.serial ≠ e.peer.serial) → Stage s₀ log e
  | waiting {pre mid : List Handled} {reg : Handled} {ds : List Frame} :
      e.conn.registered = true → First e.peer.serial log pre reg mid →
      (∀ h ∈ mid, h.serial ≠ e.peer.serial) → Relays e.conn.name mid ds →
      e.peer.queued = registerOkFrame :: ds → Stage s₀ log e
  | served {pre rest mid post : List Handled} {reg get : Handled} {ds more : List Frame} :
      e.conn.registered = true → First e.peer.serial log pre reg rest →
      First e.peer.serial rest mid get post → Relays e.conn.name mid ds →
      e.peer.queued = registerOkFrame :: (ds ++ more) →
      (MsgType.ofCode? get.frame.type = some .stateGet →
        ∃ more', more = stateValueFrame (latest Handled.update? s₀ (pre ++ reg :: mid)) :: more') →
      Stage s₀ log e

namespace Stage

variable {s₀ : SatelliteState} {log : List Handled} {e e' : Endpoint}

theorem same (h : Stage s₀ log e) (hsame : Same e e') : Stage s₀ log e' := by
  have hreg := hsame.registered
  have hqueued := hsame.queued
  cases h with
  | silent hr hq hlog => exact .silent (hreg.trans hr) (hqueued.trans hq) (hsame.serial ▸ hlog)
  | waiting hr hf hmid hrel hq =>
    exact .waiting (hreg.trans hr) (hsame.serial ▸ hf) (hsame.serial ▸ hmid) (hsame.name ▸ hrel)
      (hqueued.trans hq)
  | served hr hf hf' hrel hq hval =>
    exact .served (hreg.trans hr) (hsame.serial ▸ hf) (hsame.serial ▸ hf') (hsame.name ▸ hrel)
      (hqueued.trans hq) hval

/-- Another connection's frame that is not relayed to this one. -/
theorem other {g : Handled} (h : Stage s₀ log e) (hg : g.serial ≠ e.peer.serial)
    (haddr : e.conn.registered = true → g.addressed e.conn.name = false) :
    Stage s₀ (log ++ [g]) e := by
  have hnew {l : List Handled} (hl : ∀ x ∈ l, x.serial ≠ e.peer.serial) :
      ∀ x ∈ l ++ [g], x.serial ≠ e.peer.serial := by
    intro x hx
    rcases List.mem_append.mp hx with hx | hx
    · exact hl x hx
    · exact List.mem_singleton.mp hx ▸ hg
  cases h with
  | silent hr hq hlog => exact .silent hr hq (hnew hlog)
  | waiting hr hf hmid hrel hq => exact .waiting hr (hf.append _) (hnew hmid) (hrel.skip (haddr hr)) hq
  | served hr hf hf' hrel hq hval => exact .served hr (hf.append _) (hf'.append _) hrel hq hval

/-- Another connection's message, relayed to this one. -/
theorem relayed {g : Handled} {d : Frame} (h : Stage s₀ log e) (hg : g.serial ≠ e.peer.serial)
    (hr : e.conn.registered = true) (haddr : g.addressed e.conn.name = true) (hd : RelayOf g d)
    (p : UInt16) (r : SendResult) (ok : Bool) : Stage s₀ (log ++ [g]) (e.queueSend d p r ok) := by
  have hr' : (e.queueSend d p r ok).conn.registered = true := by simpa using hr
  have hname : (e.queueSend d p r ok).conn.name = e.conn.name := (e.queueSend_conn d p r ok).name
  have hqueued : (e.queueSend d p r ok).peer.queued = e.peer.queued ++ [d] := rfl
  cases h with
  | silent hno => simp [hr] at hno
  | waiting _ hf hmid hrel hq =>
    refine .waiting hr' (hf.append _) ?_ (hname ▸ hrel.relay haddr hd) (hqueued.trans (by simp [hq]))
    intro x hx
    rcases List.mem_append.mp hx with hx | hx
    · exact hmid x hx
    · exact List.mem_singleton.mp hx ▸ hg
  | @served _ _ _ _ _ _ ds more _ hf hf' hrel hq hval =>
    have hq' : (e.queueSend d p r ok).peer.queued = registerOkFrame :: (ds ++ (more ++ [d])) := by
      rw [hqueued, hq, List.cons_append, List.append_assoc]
    refine .served hr' (hf.append _) (hf'.append _) (hname ▸ hrel) hq' fun ht => ?_
    obtain ⟨more', hmore⟩ := hval ht
    exact ⟨more' ++ [d], by rw [hmore, List.cons_append]⟩

theorem enrolled {g : Handled} (h : Stage s₀ log e) (hno : e.conn.registered = false)
    (hg : g.serial = e.peer.serial) (hserial : e'.peer.serial = e.peer.serial)
    (hr : e'.conn.registered = true) (hq : e'.peer.queued = e.peer.queued ++ [registerOkFrame]) :
    Stage s₀ (log ++ [g]) e' := by
  cases h with
  | silent _ hqueued hlog =>
    have hnone : Relays e'.conn.name [] [] := .nil
    refine .waiting hr (hserial.symm ▸ First.concat hlog hg) (by simp) hnone ?_
    rw [hq, hqueued, List.nil_append]
  | waiting hyes | served hyes => simp [hno] at hyes

theorem own {g : Handled} {out : List Frame} (h : Stage s₀ log e) (hg : g.serial = e.peer.serial)
    (hserial : e'.peer.serial = e.peer.serial) (hname : e'.conn.name = e.conn.name)
    (hyes : e.conn.registered = true) (hr : e'.conn.registered = true)
    (hq : e'.peer.queued = e.peer.queued ++ out)
    (hval : MsgType.ofCode? g.frame.type = some .stateGet →
      out = [stateValueFrame (latest Handled.update? s₀ log)]) : Stage s₀ (log ++ [g]) e' := by
  cases h with
  | silent hno => simp [hyes] at hno
  | waiting _ hf hmid hrel hqueued =>
    rw [hqueued, List.cons_append] at hq
    refine .served hr (hserial.symm ▸ hf.append _) (hserial.symm ▸ First.concat hmid hg)
      (hname.symm ▸ hrel) hq fun ht => ⟨[], ?_⟩
    rw [hval ht, hf.split]
  | served _ hf hf' hrel hqueued hval' =>
    rw [hqueued, List.cons_append, List.append_assoc] at hq
    refine .served hr (hserial.symm ▸ hf.append _) (hserial.symm ▸ hf'.append _)
      (hname.symm ▸ hrel) hq fun ht => ?_
    obtain ⟨more', hmore⟩ := hval' ht
    exact ⟨more' ++ out, by rw [hmore, List.cons_append]⟩

end Stage

/-! ## Over whole runs -/

theorem dispatch_opened (w : World) (i : Slot) (f : Frame) (rest : List UInt8) (k : Slot) :
    ((w.dispatch i f rest).conn k).shouldClose = false → (w.conn k).shouldClose = false := by
  have hall : ∀ k, ((w.dispatch i f rest).clients k).conn.shouldClose = false →
      (w.conn k).shouldClose = false := by
    apply World.dispatch_pointwise (P := fun k e =>
      e.conn.shouldClose = false → (w.conn k).shouldClose = false)
    · intro k e g p r ok h hopen
      exact h ((e.queueSend_conn g p r ok).opened hopen)
    · intro e _ _ hopen
      simp at hopen
    · exact fun _ _ h => h
    · exact fun h => h
    · exact fun _ _ h => h
  exact hall k

theorem dispatch_unregistered {w : World} {i : Slot} (hno : (w.conn i).registered = false)
    (f : Frame) (rest : List UInt8) (hopen : ((w.dispatch i f rest).conn i).shouldClose = false) :
    ((w.dispatch i f rest).conn i).registered = true ∧
      ((w.dispatch i f rest).peer i).queued = (w.peer i).queued ++ [registerOkFrame] := by
  have hno' : ((w.consume i f rest).conn i).registered = false := by
    rw [World.consume_conn]
    exact hno
  have hpeer := w.consume_queued i f rest i
  have heff := w.dispatch_effect i f rest
  generalize w.dispatch i f rest = w' at heff hopen
  cases heff with
  | refused e => simp [World.refuse, World.condemn, World.conn] at hopen
  | registered =>
    constructor
    · rw [(World.queueSend_outputOnly _ i _ i).registered]
      simp [World.setName, World.conn, Endpoint.setName]
    · simp [World.peer, Endpoint.queueSend, World.setName, hpeer, registerOkFrame]
  | value hyes | stored hyes | delivered _ hyes | unknown hyes | pong hyes | malformed hyes =>
    simp [hno'] at hyes

/-- A frame of a registered connection: its registration stands, and `DMSG_STATE_GET`
is answered with the state in memory. -/
theorem dispatch_registered {w : World} {i : Slot} (hyes : (w.conn i).registered = true)
    (f : Frame) (rest : List UInt8) :
    ((w.dispatch i f rest).conn i).registered = true ∧
      ((w.dispatch i f rest).conn i).name = (w.conn i).name ∧
        ∃ out, ((w.dispatch i f rest).peer i).queued = (w.peer i).queued ++ out ∧
          (MsgType.ofCode? f.type = some .stateGet → out = [stateValueFrame w.state]) := by
  have hyes' : ((w.consume i f rest).conn i).registered = true := by
    rw [World.consume_conn]
    exact hyes
  have hname : ((w.consume i f rest).conn i).name = (w.conn i).name := by rw [World.consume_conn]
  have hpeer := w.consume_queued i f rest i
  have hqueue (v : World) (hv : v.clients = (w.consume i f rest).clients) (j : Slot) (g : Frame)
      (hg : MsgType.ofCode? f.type = some .stateGet → j = i ∧ g = stateValueFrame w.state) :
      ((v.queueSend j g).conn i).registered = true ∧
        ((v.queueSend j g).conn i).name = (w.conn i).name ∧
          ∃ out, ((v.queueSend j g).peer i).queued = (w.peer i).queued ++ out ∧
            (MsgType.ofCode? f.type = some .stateGet → out = [stateValueFrame w.state]) := by
    refine ⟨?_, ?_, if i = j then [g] else [], ?_, ?_⟩
    · rw [(World.queueSend_outputOnly v j g i).registered, World.conn, hv]
      exact hyes'
    · rw [(World.queueSend_outputOnly v j g i).name, World.conn, hv]
      exact hname
    · rw [World.peer, World.queueSend_clients, ← hpeer]
      split_ifs with hij
      · subst hij
        simp [Endpoint.queueSend, hv]
      · simp [hv]
    · intro ht
      obtain ⟨rfl, rfl⟩ := hg ht
      simp
  have heff := w.dispatch_effect i f rest
  generalize w.dispatch i f rest = w' at heff
  cases heff with
  | refused _ hno | registered hno => simp [hyes'] at hno
  | value => exact hqueue _ rfl i _ fun _ => ⟨rfl, rfl⟩
  | stored _ ht => exact hqueue _ rfl i _ fun ht' => by simp [ht] at ht'
  | delivered j _ ht => exact hqueue _ rfl j _ fun ht' => by simp [ht] at ht'
  | unknown _ ht => exact hqueue _ rfl i _ fun ht' => by simp [ht] at ht'
  | pong _ ht => exact hqueue _ rfl i _ fun ht' => by simp [ht] at ht'
  | malformed _ hget => exact hqueue _ rfl i _ fun ht => absurd ht hget

def Staged (b : Boot) (w : World) : Prop :=
  ∀ k, (w.conn k).inUse = true → (w.conn k).shouldClose = false →
    Stage b.state w.log (w.clients k)

theorem Staged.dispatch {b : Boot} {w : World} (h : Staged b w) (hreg : Registry w)
    (hname : ∀ k, NameField (w.clients k)) (hm : Mirrors b w) {i : Slot} {f : Frame}
    (huse : (w.conn i).inUse = true) (hlen : f.payload.length ≤ maxMsgPayload)
    (rest : List UInt8) : Staged b (w.dispatch i f rest) := by
  intro k hk hopen
  rw [World.dispatch_inUse] at hk
  have hstage := h k hk (dispatch_opened w i f rest k hopen)
  have hserial := w.dispatch_serial i f rest k
  rw [World.dispatch_log]
  by_cases hki : k = i
  · subst hki
    cases hr : (w.conn k).registered with
    | false =>
      obtain ⟨hr', hq⟩ := dispatch_unregistered hr f rest hopen
      exact hstage.enrolled hr rfl hserial hr' hq
    | true =>
      obtain ⟨hr', hname', out, hq, hval⟩ := dispatch_registered hr f rest
      exact hstage.own rfl hserial hname' hr hr' hq fun ht => hm.memory ▸ hval ht
  · have hne : (w.entry i f).serial ≠ (w.peer k).serial :=
      fun heq => hki (hreg.serial_inj k i hk huse heq.symm)
    rcases hreg.dispatch_other hki f rest with ⟨hno, heq⟩ | ⟨⟨hroute, haddr⟩, p, r, ok, heq⟩
    · rw [heq]
      exact hstage.other hne fun hr => by simpa using fun haddr => hno ⟨⟨hk, hr⟩, haddr⟩
    · rw [heq]
      exact hstage.relayed hne hroute.2 haddr ⟨hlen, _, (hname i).length, rfl⟩ p r ok

theorem staged_of_reachable {b : Boot} {w : World} (h : Reachable b w) : Staged b w := by
  induction h with
  | refl => exact fun k huse => by cases huse
  | @tail v w hv hstep ih =>
    have hreg := registry_of_reachable hv
    cases hstep.turn with
    | calm hsame hlog =>
      intro k huse hopen
      rw [hlog]
      exact (ih k ((hsame k).inUse ▸ huse) ((hsame k).opened hopen)).same (hsame k)
    | accept i fd stream =>
      intro k huse hopen
      rw [World.conn, World.accept_clients] at huse hopen
      rw [World.accept_clients]
      split_ifs at huse hopen ⊢
      · -- the log has no entry of a connection that is only now accepted
        exact .silent rfl rfl fun e he => (hreg.log_lt e he).ne
      · exact ih k huse hopen
    | close i =>
      intro k huse hopen
      rw [World.conn, World.closeClient_clients] at huse hopen
      rw [World.closeClient_clients]
      split_ifs at huse hopen ⊢
      exact ih k huse hopen
    | dispatch i f rest huse _ hlen =>
      exact ih.dispatch hreg (nameField_local.reachable hv).live (mirrors_of_reachable hv) huse
        hlen rest

/-! ## The two calls -/

theorem daemonClientConnect_spec {s : Socket} (h : s.Sound) {padding : UInt16}
    {rest : List UInt8} (hin : s.incoming = registerOkFrame.encode padding ++ rest)
    (name : List UInt8) :
    ∃ (s' : Socket) (padding' : UInt16), s'.Sound ∧ s'.incoming = rest ∧
      s'.outgoing = s.outgoing ++ (registerFrame name).encode padding' ∧
        daemonClientConnect name s = (s', .ok ()) := by
  obtain ⟨s₁, padding', hs₁, hin₁, hout, hsend⟩ := daemonSend_spec h (registerFrame name)
  obtain ⟨rs, hrs, hrecv⟩ := daemonRecv_spec hs₁ (hin₁.trans hin) (by decide) errorBodySize
  refine ⟨{ s₁ with incoming := rest, reads := rs }, padding', ⟨hrs, hs₁.writes⟩, rfl, hout, ?_⟩
  rw [daemonClientConnect, hsend]
  dsimp only
  rw [hrecv]
  rfl

theorem stateRequest_spec {s : Socket} (h : s.Sound) {f : Frame} {padding : UInt16}
    {rest : List UInt8} (hin : s.incoming = f.encode padding ++ rest)
    (hlen : f.payload.length < 2 ^ 32) (request : Frame) :
    (∃ padding', (stateRequest s request).1.outgoing = s.outgoing ++ request.encode padding') ∧
      (stateRequest s request).2 =
        if stateSize < f.payload.length then .error .io
        else if f.type ≠ MsgType.stateValue.code ∨ f.payload.length ≠ stateSize then .error .eproto
        else .ok (SatelliteState.decode f.payload) := by
  obtain ⟨s₁, padding', hs₁, hin₁, hout, hsend⟩ := daemonSend_spec h request
  obtain ⟨rs, hrs, hrecv⟩ := daemonRecv_spec hs₁ (hin₁.trans hin) hlen stateSize
  simp only [stateRequest, hsend, hrecv, Bool.not_true, Bool.false_eq_true, if_false]
  by_cases hfit : f.payload.length ≤ stateSize
  · simp only [if_pos hfit, if_neg (Nat.not_lt.mpr hfit)]
    split_ifs <;> exact ⟨⟨padding', hout⟩, rfl⟩
  · simp only [if_neg hfit, if_pos (Nat.lt_of_not_le hfit)]
    exact ⟨⟨padding', hout⟩, trivial⟩

/-- A client that registers and then asks for the state gets the state that was in
memory when its request was handled, exactly when no message addressed to it was
handled between its two frames. -/
theorem seeding_iff {b : Boot} {w : World} (h : Reachable b w) {i : Slot}
    (huse : (w.conn i).inUse = true) (hopen : (w.conn i).shouldClose = false)
    {pre mid post : List Handled} {reg get : Handled} {name : List UInt8}
    (hreg : First (w.peer i).serial w.log pre reg (mid ++ get :: post))
    (hget : First (w.peer i).serial (mid ++ get :: post) mid get post)
    (hregister : reg.frame = registerFrame name) (hrequest : get.frame = stateGetFrame)
    {s : Socket} (hs : s.Sound) (hnew : s.outgoing = []) {later : List UInt8}
    (hin : s.incoming = (w.peer i).wire ++ (w.conn i).tx.pending ++ later) :
    let connected := daemonClientConnect name s
    let seeded := daemonClientGetState connected.1
    connected.2 = .ok () ∧ Encodes [reg.frame, get.frame] seeded.1.outgoing ∧
      (seeded.2 = .ok (latest Handled.update? b.state (pre ++ reg :: mid)) ↔
        ∀ e ∈ mid, e.addressed (w.conn i).name = false) := by
  have hstream := ((faithful_local.reachable h).live i).stream hopen
  cases staged_of_reachable h i huse hopen with
  | silent _ _ hlog => exact absurd hreg.own (hlog reg hreg.mem)
  | waiting _ hf hmid =>
    obtain ⟨-, -, rfl⟩ := hf.unique hreg
    exact absurd hget.own (hmid get hget.mem)
  | @served _ _ _ _ _ _ ds more _ hf hf' hrel hq hval =>
    obtain ⟨rfl, rfl, rfl⟩ := hf.unique hreg
    obtain ⟨rfl, rfl, rfl⟩ := hf'.unique hget
    obtain ⟨more', rfl⟩ := hval (by rw [hrequest]; rfl)
    rw [hq] at hstream
    obtain ⟨padding, rest, hwire, hrest⟩ := hstream.uncons
    rw [hwire, List.append_assoc] at hin
    obtain ⟨s', padding', hs', hin', hout, hconnect⟩ := daemonClientConnect_spec hs hin name
    rw [hnew, List.nil_append] at hout
    -- whatever frame comes next, the request is the second one that is written
    have hwritten {request : Frame} (h : ∃ p, (stateRequest s' request).1.outgoing =
        s'.outgoing ++ request.encode p) :
        Encodes [registerFrame name, request] (stateRequest s' request).1.outgoing := by
      obtain ⟨p, hp⟩ := h
      rw [hp, hout]
      exact .cons _ padding' (.single _ p)
    dsimp only
    rw [hconnect, ← hrel.nil_iff, hregister, hrequest]
    cases ds with
    | nil =>
      obtain ⟨p, later', rfl, -⟩ := hrest.uncons
      rw [List.append_assoc] at hin'
      obtain ⟨hout', hret⟩ := stateRequest_spec hs' hin' (by simp [stateValueFrame, stateSize])
        stateGetFrame
      exact ⟨rfl, hwritten hout', by simp [daemonClientGetState, hret, stateValueFrame]⟩
    | cons d ds =>
      -- the relayed message is longer than the state the client has room for
      obtain ⟨e, -, hd, -, -⟩ := List.forall₂_cons_right_iff.mp hrel
      obtain ⟨p, later', rfl, -⟩ := hrest.uncons
      rw [List.append_assoc] at hin'
      obtain ⟨hout', hret⟩ := stateRequest_spec hs' hin' hd.length.2 stateGetFrame
      have hbig : stateSize < d.payload.length :=
        lt_of_lt_of_le (by decide) hd.length.1
      exact ⟨rfl, hwritten hout', by simp [daemonClientGetState, hret, hbig]⟩

/-- Client "a" registers and sends to "b"; client "b" registers and asks for the
state. If `early`, the message of "a" is handled before the request of "b". -/
def startup (early : Bool) : World :=
  let registers : World.Ready := { revents := { pollin := true }, recvs := [.bytes 40, .again] }
  let writes : World.Ready := { revents := { pollin := true }, recvs := [.bytes 64, .again] }
  let w := ((Boot.fresh (List.replicate 4 (.sent 64)) []).world.round [registers]
    [.conn 5 ((registerAs 97).encode 0 ++ sendToB.encode 0),
      .conn 6 ((registerFrame [98]).encode 0 ++ stateGetFrame.encode 0)]).round
        [{}, registers, registers] []
  if early then (w.round [{}, writes] []).round [{}, {}, writes] []
  else (w.round [{}, {}, writes] []).round [{}, writes] []

theorem startup_run (early : Bool) :
    Run (Boot.fresh (List.replicate 4 (.sent 64)) []) (startup early) := by
  unfold startup
  dsimp only
  split_ifs
  · exact .round _ _ (.round _ _ (.round _ _ (.round _ _ .boot)))
  · exact .round _ _ (.round _ _ (.round _ _ (.round _ _ .boot)))

def socketOfB (early : Bool) : Socket where
  incoming := ((startup early).peer 1).wire ++ ((startup early).conn 1).tx.pending ++ []

theorem socketOfB_sound (early : Bool) : (socketOfB early).Sound :=
  ⟨by simp [socketOfB], by simp [Writable, socketOfB]⟩

theorem seeding_undisturbed :
    (daemonClientGetState (daemonClientConnect [98] (socketOfB false)).1).2 = .ok stateDefaults := by
  have hlog : (startup false).log = [⟨0, false, registerAs 97, true⟩] ++
      ⟨1, false, registerFrame [98], true⟩ ::
        ([] ++ ⟨1, true, stateGetFrame, true⟩ :: [⟨0, true, sendToB, true⟩]) := by
    decide +kernel
  have hserial : ((startup false).peer 1).serial = 1 := by decide +kernel
  have h := seeding_iff (startup_run false).reachable (i := 1) (by decide +kernel)
    (by decide +kernel) ⟨hlog, by simp [hserial], by simp [hserial]⟩
    ⟨rfl, by simp, by simp [hserial]⟩ rfl rfl (socketOfB_sound false) rfl rfl
  exact h.2.2.mpr (by simp)

/-- A message that is handled between the two frames of the client costs it the seed. -/
theorem seeding_disturbed : ∃ (b : Boot) (w : World), Reachable b w ∧
    ∃ (i : Slot) (pre mid post : List Handled) (reg get : Handled) (name : List UInt8) (s : Socket),
      (w.conn i).inUse = true ∧ (w.conn i).shouldClose = false ∧
      First (w.peer i).serial w.log pre reg (mid ++ get :: post) ∧
      First (w.peer i).serial (mid ++ get :: post) mid get post ∧
      reg.frame = registerFrame name ∧ get.frame = stateGetFrame ∧ s.Sound ∧ s.outgoing = [] ∧
      s.incoming = (w.peer i).wire ++ (w.conn i).tx.pending ∧
      (daemonClientConnect name s).2 = .ok () ∧
      (daemonClientGetState (daemonClientConnect name s).1).2 ≠
        .ok (latest Handled.update? b.state (pre ++ reg :: mid)) := by
  have hlog : (startup true).log = [⟨0, false, registerAs 97, true⟩] ++
      ⟨1, false, registerFrame [98], true⟩ ::
        ([⟨0, true, sendToB, true⟩] ++ ⟨1, true, stateGetFrame, true⟩ :: []) := by
    decide +kernel
  have hserial : ((startup true).peer 1).serial = 1 := by decide +kernel
  refine ⟨_, _, (startup_run true).reachable, 1, _, _, _, _, _, [98], socketOfB true,
    by decide +kernel, by decide +kernel, ⟨hlog, ?_, ?_⟩, ⟨rfl, ?_, ?_⟩, rfl, rfl,
    socketOfB_sound true, rfl, List.append_nil _, by decide +kernel, by decide +kernel⟩ <;>
  simp [hserial]

end PiDaemon.Client
