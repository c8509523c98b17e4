import PiDaemon.App.Commands
import PiDaemon.Server.Updates

/-!
# The application's state and the daemon's copy of it

The application and the daemon as one system: deliveries with arbitrary bytes, ticks,
frames of the application that the daemon handles in the order they were sent, steps of
the daemon for its other clients, and restarts of the application that seed from the
daemon. The application is the only one to set the state.

What the daemon will hold once it has handled every frame under way is what the
application holds, at every point of every run.
-/

namespace PiDaemon.App

open Base Proto Client Server Store

/-! ## What the application sends -/

/-- The frame that reaches the daemon; `none` would be an overrun in `send_to_network`. -/
def Output.frame? : Output → Option Frame
  | .toNetwork m => (netIpcFrame m.apid m.data).map (sendFrame networkName)
  | .stateSet st => some ⟨MsgType.stateSet.code, st.encode⟩

/-- The state the daemon holds after handling what `os` sends it, if it holds `st` before. -/
def afterPushes (st : SatelliteState) (os : List Output) : SatelliteState :=
  os.foldl (fun st o => match o with | .toNetwork _ => st | .stateSet st' => st') st

theorem afterPushes_append (st : SatelliteState) (os os' : List Output) :
    afterPushes st (os ++ os') = afterPushes (afterPushes st os) os' :=
  List.foldl_append

theorem afterPushes_cons (st : SatelliteState) (o : Output) (os : List Output) :
    afterPushes st (o :: os) = afterPushes (afterPushes st [o]) os := rfl

theorem afterPushes_of_none {os : List Output} (h : ∀ st, .stateSet st ∉ os) :
    ∀ st, afterPushes st os = st := by
  induction os with
  | nil => exact fun _ => rfl
  | cons o os ih =>
    intro st
    cases o with
    | toNetwork m => exact ih (fun st' hst => h st' (by simp [hst])) st
    | stateSet st' => exact absurd (List.mem_cons_self ..) (h st')

theorem afterPushes_toNetwork (st : SatelliteState) (ms : List ToNetwork) :
    afterPushes st (ms.map .toNetwork) = st :=
  afterPushes_of_none (by simp) st

/-! ## Handlers -/

structure Agrees (s : SimState) (st : SatelliteState) : Prop where
  opState : st.opState = s.opState.toUInt32
  activeExperimentId : st.activeExperimentId = s.activeExperimentId
  dceAuthorityHeld : st.dceAuthorityHeld = s.dceAuthorityHeld

structure SimState.Valid (s : SimState) : Prop where
  idle : s.opState = opIdle → s.activeExperimentId = 0
  authority : s.dceAuthorityHeld = 0 ∨ s.dceAuthorityHeld = 1

theorem agrees_pushed (s : SimState) (padding : UInt16) : Agrees s (s.pushed padding) :=
  ⟨rfl, rfl, rfl⟩

/-- A change of the application's state that it tells the daemon of in `os`. -/
structure Told (s s' : SimState) (os : List Output) : Prop where
  agrees {st : SatelliteState} : Agrees s st → Agrees s' (afterPushes st os)
  valid : s.Valid → s'.Valid

theorem Told.of_same {s s' : SimState} (ms : List ToNetwork) (hop : s'.opState = s.opState)
    (hid : s'.activeExperimentId = s.activeExperimentId)
    (hdce : s'.dceAuthorityHeld = s.dceAuthorityHeld) : Told s s' (ms.map .toNetwork) where
  agrees h := by
    rw [afterPushes_toNetwork]
    exact ⟨by rw [hop, h.opState], by rw [hid, h.activeExperimentId], by rw [hdce, h.dceAuthorityHeld]⟩
  valid h := ⟨by rw [hop, hid]; exact h.idle, by rw [hdce]; exact h.authority⟩

theorem Told.of_push {s s' : SimState} {padding : UInt16} (os : List Output)
    (hvalid : s.Valid → s'.Valid) : Told s s' (os ++ [pushState s' padding]) where
  agrees _ := by
    rw [afterPushes_append]
    exact agrees_pushed s' padding
  valid := hvalid

theorem valid_perform {s : SimState} (h : s.Valid) (arg : UInt32) (c : Command) :
    (s.perform arg c).Valid := by
  cases c with
  | grantDceAuthority => exact ⟨h.idle, .inr rfl⟩
  | revokeDceAuthority => exact ⟨h.idle, .inl rfl⟩
  | timeSyncPing => exact ⟨h.idle, h.authority⟩
  | runExperiment =>
    exact ⟨fun hidle => absurd hidle (show opExperimentRunning ≠ opIdle by decide), h.authority⟩
  | abortExperiment => exact ⟨fun _ => rfl, h.authority⟩
  | emergencyHalt => exact ⟨fun hidle => absurd hidle (show opFault ≠ opIdle by decide), h.authority⟩

theorem handlePayloadCommand_told (s : SimState) (f : Inbound) (padding : UInt16) :
    Told s (handlePayloadCommand s f padding).1 (handlePayloadCommand s f padding).2 := by
  by_cases hlen : f.len < 1
  · rw [handlePayloadCommand, if_pos hlen]
    exact .of_same [] rfl rfl rfl
  · rcases hc : Command.ofCode? f.opcode with _ | c
    · rw [handlePayloadCommand_unknown padding (by omega) hc]
      exact .of_push [_] id
    · rw [handlePayloadCommand_known padding (by omega) hc]
      exact .of_push [_] fun h => valid_perform h f.arg c

theorem handleAdcsTelemetry_told (s : SimState) (f : Inbound) :
    Told s (handleAdcsTelemetry s f) [] := by
  unfold handleAdcsTelemetry
  split_ifs <;> exact .of_same [] rfl rfl rfl

theorem handleAdcsResponse_told (s : SimState) (f : Inbound) (padding : UInt16) :
    Told s (handleAdcsResponse s f padding).1 (handleAdcsResponse s f padding).2 := by
  unfold handleAdcsResponse
  dsimp only
  split_ifs
  · exact .of_same [] rfl rfl rfl
  · exact .of_push [] fun h => ⟨h.idle, .inr rfl⟩
  · exact .of_push [] fun h => ⟨h.idle, .inl rfl⟩
  · exact .of_push [] fun h => ⟨h.idle, .inl rfl⟩
  · exact .of_same [] rfl rfl rfl

namespace PayloadApp

theorem deliver_told (a : PayloadApp) (buf : Inbound) (padding : UInt16) :
    Told a.sim (a.deliver buf padding).app.sim (a.deliver buf padding).sent := by
  unfold deliver
  rcases handleDeliver buf with _ | ⟨apid, f⟩
  · exact .of_same [] rfl rfl rfl
  · cases apid with
    | payloadCommand => exact handlePayloadCommand_told a.sim f padding
    | adcsTelemetry => exact handleAdcsTelemetry_told a.sim f
    | adcsResponse => exact handleAdcsResponse_told a.sim f padding
    | experimentTable | controlAlgorithm => exact .of_same _ rfl rfl rfl
    | bulkDataResponse => exact .of_same [] rfl rfl rfl

theorem onTick_told (a : PayloadApp) (cpuTemp : ℕ → UInt32) (stack : Mem) :
    Told a.sim (a.onTick cpuTemp stack).1.sim (a.onTick cpuTemp stack).2 := by
  unfold onTick
  exact .of_same _ rfl rfl rfl

theorem mem_sent_handleBulkChunk {rx : BulkRx} {buf : Mem} {f : Inbound} {m : ToNetwork}
    (h : m ∈ (handleBulkChunk rx buf f).sent) : m = ackMessage f.transferId := by
  unfold handleBulkChunk at h
  dsimp only at h
  split_ifs at h
  · cases h
  · cases h
  · cases h
  · exact List.mem_singleton.mp h

theorem handle_nack {a : PayloadApp} {d : Delivery} {padding : UInt16} {opcode : UInt8}
    (h : .toNetwork ⟨apidCmdRespTx, [opcode, statusNack]⟩ ∈ (a.handle d padding).sent) :
    (a.handle d padding).app = a := by
  have hchunk {rx : BulkRx} {f : Inbound} : Output.toNetwork ⟨apidCmdRespTx, [opcode, statusNack]⟩ ∉
      (handleBulkChunk rx a.assembleBuf f).sent.map Output.toNetwork := by
    intro hm
    obtain ⟨m, hm, heq⟩ := List.mem_map.mp hm
    rw [mem_sent_handleBulkChunk hm] at heq
    injection heq with heq
    exact absurd (congrArg ToNetwork.apid heq) (show apidBulkAckBidi ≠ apidCmdRespTx by decide)
  obtain ⟨apid, f⟩ := d
  cases apid with
  | payloadCommand =>
    by_cases hlen : f.len < 1
    · simp [handle, handlePayloadCommand, hlen] at h
    · rcases hc : Command.ofCode? f.opcode with _ | c
      · simp only [handle, handlePayloadCommand_unknown padding (Nat.le_of_not_lt hlen) hc]
      · simp only [handle, handlePayloadCommand_known padding (Nat.le_of_not_lt hlen) hc] at h
        simp [pushState, statusAck, statusNack] at h
  | adcsTelemetry => cases h
  | adcsResponse =>
    simp only [handle, handleAdcsResponse] at h
    split_ifs at h <;> simp [pushState] at h
  | experimentTable | controlAlgorithm => exact absurd h hchunk
  | bulkDataResponse => rfl

theorem deliver_nack {a : PayloadApp} {buf : Inbound} {padding : UInt16} {opcode : UInt8}
    (h : .toNetwork ⟨apidCmdRespTx, [opcode, statusNack]⟩ ∈ (a.deliver buf padding).sent) :
    (a.deliver buf padding).app = a := by
  rcases hd : handleDeliver buf with _ | d
  · rw [deliver, hd]
  · rw [deliver, hd] at h ⊢
    exact handle_nack h

end PayloadApp

/-! ## The system -/

/-- The application, the daemon, the connection between them, and what the application
has sent that the daemon has not handled. -/
structure Ground where
  app : PayloadApp
  daemon : World
  slot : Slot
  underway : List Output := []

def Ground.send (g : Ground) (app : PayloadApp) (os : List Output) : Ground :=
  { g with app := app, underway := g.underway ++ os }

/-- The daemon can handle frame `f` of slot `i`, with `rest` behind it, and the
connection is registered. -/
structure Handles (w : World) (i : Slot) (f : Frame) (rest : List UInt8) : Prop where
  inUse : (w.conn i).inUse = true
  opened : (w.conn i).shouldClose = false
  registered : (w.conn i).registered = true
  head : ∃ hdr, frameFormat.head (w.conn i).rxbuf = .frame hdr f.payload rest ∧ hdrType hdr = f.type

inductive Ground.Step : Ground → Ground → Prop
  /-- `handle_deliver` on a buffer with any bytes in it -/
  | deliver (g : Ground) (buf : Inbound) (padding : UInt16) :
      Step g (g.send (g.app.deliver buf padding).app (g.app.deliver buf padding).sent)
  | tick (g : Ground) (cpuTemp : ℕ → UInt32) (stack : Mem) :
      Step g (g.send (g.app.onTick cpuTemp stack).1 (g.app.onTick cpuTemp stack).2)
  /-- the daemon handles the oldest frame under way -/
  | handle (g : Ground) {o : Output} {os : List Output} {f : Frame} {rest : List UInt8} :
      g.underway = o :: os → o.frame? = some f → Handles g.daemon g.slot f rest →
      Step g { g with daemon := g.daemon.dispatch g.slot f rest, underway := os }
  /-- a step of the daemon in which nobody sets the state -/
  | other (g : Ground) {w : World} : Server.Step g.daemon w →
      (∀ more, w.log = g.daemon.log ++ more → ∀ e ∈ more, e.update? = none) →
      Step g { g with daemon := w }
  /-- a new application on a new connection takes the reply to its `DMSG_STATE_GET` -/
  | restart (g : Ground) (i : Slot) {rest payload : List UInt8} :
      (∀ st, .stateSet st ∉ g.underway) → Handles g.daemon i stateGetFrame rest →
      ((g.daemon.dispatch i stateGetFrame rest).peer i).queued.getLast? =
        some ⟨MsgType.stateValue.code, payload⟩ →
      Step g { app := { sim := .seed (some (SatelliteState.decode payload)) }
               daemon := g.daemon.dispatch i stateGetFrame rest
               slot := i }

/-! ## What the daemon holds -/

section Daemon
variable {w w' : World} {i : Slot} {f : Frame} {rest : List UInt8}

theorem state_of_quiet (h : Server.Step w w')
    (hquiet : ∀ more, w'.log = w.log ++ more → ∀ e ∈ more, e.update? = none) :
    w'.state = w.state := by
  obtain ⟨hstate, -, -⟩ | ⟨i, f, rest, -, -, rfl⟩ := h.quiet_or_handle
  · exact hstate
  · have hnone := hquiet [w.entry i f] (w.dispatch_log i f rest) _ (List.mem_singleton_self _)
    rw [(w.dispatch_update i f rest).1, hnone, Option.getD_none]

/-- Handling what the application sent does to the daemon's state what sending it promised. -/
theorem state_of_handled {o : Output} (hf : o.frame? = some f) (h : Handles w i f rest) :
    (w.dispatch i f rest).state = afterPushes w.state [o] := by
  rw [(w.dispatch_update i f rest).1]
  cases o with
  | toNetwork m =>
    obtain ⟨frame, -, rfl⟩ := Option.map_eq_some_iff.mp hf
    have hnone : (w.entry i (sendFrame networkName frame)).update? = none :=
      if_neg fun hset => by simpa [World.entry, sendFrame] using hset.2.1
    rw [hnone]
    rfl
  | stateSet st =>
    obtain rfl := Option.some.inj hf
    have hsome : (w.entry i ⟨MsgType.stateSet.code, st.encode⟩).update? = some st := by
      simp [Handled.update?, World.entry, h.registered]
    rw [hsome]
    rfl

/-- A `DMSG_STATE_GET` changes nothing and is answered with the state. -/
theorem state_of_get (h : Handles w i stateGetFrame rest) :
    (w.dispatch i stateGetFrame rest).state = w.state ∧
      ((w.dispatch i stateGetFrame rest).peer i).queued.getLast? =
        some ⟨MsgType.stateValue.code, w.state.encode⟩ := by
  have hreg : ((w.consume i stateGetFrame rest).conn i).registered = true := by
    rw [World.consume_conn]
    exact h.registered
  have hnone : (w.entry i stateGetFrame).update? = none :=
    if_neg fun hset => by simpa [World.entry, stateGetFrame] using hset.2.1
  refine ⟨by rw [(w.dispatch_update i stateGetFrame rest).1, hnone]; rfl, ?_⟩
  have htype : MsgType.ofCode? stateGetFrame.type = some .stateGet := rfl
  rw [World.dispatch_eq, World.handleMessage, hreg, htype]
  simp [World.peer, Endpoint.queueSend, World.consume, World.setRx]

end Daemon

/-! ## Runs -/

/-- The two sides agree, as soon as everything under way is handled. -/
structure Ground.Inv (g : Ground) : Prop where
  agrees : Agrees g.app.sim (afterPushes g.daemon.state g.underway)
  valid : g.app.sim.Valid

theorem Ground.Inv.send {g : Ground} (h : g.Inv) {app : PayloadApp} {os : List Output}
    (htold : Told g.app.sim app.sim os) : (g.send app os).Inv where
  agrees := by
    rw [Ground.send, afterPushes_append]
    exact htold.agrees h.agrees
  valid := htold.valid h.valid

/-- What a new application reads from the daemon is what the old one held. -/
theorem Agrees.seed {s : SimState} {st : SatelliteState} (h : Agrees s st) (hvalid : s.Valid) :
    Agrees (.seed (some st)) st ∧ (SimState.seed (some st)).Valid := by
  have hop : (SimState.seed (some st)).opState = s.opState := by
    simp [SimState.seed, h.opState]
  have hid : (SimState.seed (some st)).activeExperimentId = s.activeExperimentId :=
    h.activeExperimentId
  have hdce : (SimState.seed (some st)).dceAuthorityHeld = s.dceAuthorityHeld := h.dceAuthorityHeld
  exact ⟨⟨by rw [hop, h.opState], rfl, rfl⟩, ⟨by rw [hop, hid]; exact hvalid.idle,
    by rw [hdce]; exact hvalid.authority⟩⟩

theorem Ground.Inv.step {g g' : Ground} (h : g.Inv) (hstep : g.Step g') : g'.Inv := by
  cases hstep with
  | deliver buf padding => exact h.send (g.app.deliver_told buf padding)
  | tick cpuTemp stack => exact h.send (g.app.onTick_told cpuTemp stack)
  | handle hunder hf hhandles =>
    have hagrees := h.agrees
    rw [hunder, afterPushes_cons, ← state_of_handled hf hhandles] at hagrees
    exact ⟨hagrees, h.valid⟩
  | other hstep hquiet =>
    refine ⟨?_, h.valid⟩
    rw [state_of_quiet hstep hquiet]
    exact h.agrees
  | restart i hdone hhandles hreply =>
    obtain ⟨hstate, hanswer⟩ := state_of_get hhandles
    rw [hanswer] at hreply
    injection hreply with hreply
    injection hreply with _ hpayload
    subst hpayload
    have hagrees := h.agrees
    rw [afterPushes_of_none hdone] at hagrees
    obtain ⟨hseed, hvalid⟩ := hagrees.seed h.valid
    rw [SatelliteState.decode_encode]
    exact ⟨by rw [hstate]; exact hseed, hvalid⟩

def Ground.start (b : Boot) (i : Slot) : Ground where
  app := { sim := .boot }
  daemon := b.world
  slot := i

theorem Ground.start_inv {b : Boot} (hb : b.state = stateDefaults) (i : Slot) :
    (Ground.start b i).Inv where
  agrees := by
    change Agrees .boot b.state
    rw [hb]
    exact ⟨rfl, rfl, rfl⟩
  valid := ⟨fun _ => rfl, .inl rfl⟩

theorem Output.Fits.frame? {o : Output} (h : o.Fits) :
    ∃ f, o.frame? = some f ∧ f.payload.length ≤ maxMsgPayload := by
  cases o with
  | toNetwork m =>
    obtain ⟨hdr, hframe, -, -⟩ := netIpcFrame_spec m.apid h
    refine ⟨sendFrame networkName (hdr.encode ++ m.data), by rw [Output.frame?, hframe]; rfl, ?_⟩
    have hlen : m.data.length ≤ netIpcMaxData := h
    simp [sendFrame, nameBody, netIpcMaxData, netIpcHdrSize, nameMax, maxMsgPayload] at hlen ⊢
    omega
  | stateSet st => exact ⟨_, rfl, by rw [SatelliteState.length_encode]; decide⟩

/-- At every point of every run from the default state: once its pushes are handled the
daemon holds the application's operating state, experiment and authority; an idle
application has no experiment; authority is 0 or 1; and a command that is answered with
a NACK leaves the application as it was. -/
theorem daemon_mirrors_app {b : Boot} (hb : b.state = stateDefaults) (i : Slot) {g : Ground}
    (h : Relation.ReflTransGen Ground.Step (.start b i) g) :
    ((∀ st, .stateSet st ∉ g.underway) →
      g.daemon.state.opState = g.app.sim.opState.toUInt32 ∧
      g.daemon.state.activeExperimentId = g.app.sim.activeExperimentId ∧
      g.daemon.state.dceAuthorityHeld = g.app.sim.dceAuthorityHeld) ∧
    (g.app.sim.opState = opIdle → g.app.sim.activeExperimentId = 0) ∧
    (g.app.sim.dceAuthorityHeld = 0 ∨ g.app.sim.dceAuthorityHeld = 1) ∧
    ∀ (buf : Inbound) (padding : UInt16) (opcode : UInt8),
      .toNetwork ⟨apidCmdRespTx, [opcode, statusNack]⟩ ∈ (g.app.deliver buf padding).sent →
        (g.app.deliver buf padding).app = g.app := by
  have hinv : g.Inv := steps_invariant (fun _ _ hs hst => hs.step hst) h (Ground.start_inv hb i)
  refine ⟨fun hdone => ?_, hinv.valid.idle, hinv.valid.authority, fun buf padding opcode hnack =>
    PayloadApp.deliver_nack hnack⟩
  have hagrees := hinv.agrees
  rw [afterPushes_of_none hdone] at hagrees
  exact ⟨hagrees.opState, hagrees.activeExperimentId, hagrees.dceAuthorityHeld⟩

/-! ## An experiment is started -/

theorem log_of_step {w w' : World} (h : Server.Step w w') : ∃ more, w'.log = w.log ++ more := by
  obtain ⟨-, -, hlog⟩ | ⟨i, f, rest, -, -, rfl⟩ := h.quiet_or_handle
  · exact ⟨[], by rw [hlog, List.append_nil]⟩
  · exact ⟨_, w.dispatch_log i f rest⟩

theorem Ground.others {g : Ground} {w : World} (h : Steps g.daemon w) :
    ∀ more, w.log = g.daemon.log ++ more → (∀ e ∈ more, e.update? = none) →
      Relation.ReflTransGen Ground.Step g { g with daemon := w } := by
  induction h with
  | refl => exact fun _ _ _ => .refl
  | @tail v w hsteps hstep ih =>
    intro more hmore hquiet
    have hprefix : ∃ pre, v.log = g.daemon.log ++ pre :=
      steps_invariant (I := fun u => ∃ pre, u.log = g.daemon.log ++ pre)
        (fun s t ⟨pre, hpre⟩ hst => by
          obtain ⟨new, hnew⟩ := log_of_step hst
          exact ⟨pre ++ new, by rw [hnew, hpre, List.append_assoc]⟩)
        hsteps ⟨[], (List.append_nil _).symm⟩
    obtain ⟨pre, hpre⟩ := hprefix
    obtain ⟨new, hnew⟩ := log_of_step hstep
    obtain rfl : more = pre ++ new := by
      rw [hnew, hpre, List.append_assoc] at hmore
      exact (List.append_cancel_left hmore).symm
    refine (ih pre hpre fun e he => hquiet e (by simp [he])).tail (.other _ hstep ?_)
    intro new' hnew' e he
    obtain rfl : new' = new := List.append_cancel_left (hnew'.symm.trans hnew)
    exact hquiet e (by simp [he])

theorem Handles.of_rxbuf {w : World} {i : Slot} {f : Frame} (padding : UInt16) {rest : List UInt8}
    (huse : (w.conn i).inUse = true) (hopen : (w.conn i).shouldClose = false)
    (hreg : (w.conn i).registered = true) (hlen : f.payload.length ≤ maxMsgPayload)
    (hrx : (w.conn i).rxbuf = f.encode padding ++ rest) : Handles w i f rest :=
  ⟨huse, hopen, hreg, _, by rw [hrx, head_encode hlen], hdrType_hdrBytes _ _ _⟩

def runSeven : Inbound := .ofBytes ((⟨0x010, 5⟩ : NetIpcHdr).encode ++ [0x20, 0, 0, 0, 7])

def ackSeven : Frame := sendFrame networkName ((⟨0x012, 2⟩ : NetIpcHdr).encode ++ [0x20, 0x00])
def pushSeven : Frame := ⟨MsgType.stateSet.code, experimentSeven.encode⟩

def answered : World :=
  let readable : World.Ready := { revents := { pollin := true }, recvs := [.bytes 40, .again] }
  (((Boot.fresh [.sent 8] []).world.round [readable]
    [.conn 5 ((registerFrame payloadAppName).encode 0 ++
      (ackSeven.encode 0 ++ pushSeven.encode 0))]).round [{}, readable] []).receive 0 70

theorem answered_reachable : Steps (Boot.fresh [.sent 8] []).world answered := by
  unfold answered
  exact (Run.round _ _ (.round _ _ .boot)).reachable.tail
    (.receive _ 0 70 (by decide +kernel) (by decide +kernel) (by decide +kernel))

/-- The daemon has handled the answer and holds what the application holds. -/
theorem daemon_mirrors_seven :
    let g : Ground :=
      { app := (PayloadApp.deliver { sim := .boot } runSeven 0).app
        daemon := (answered.dispatch 0 ackSeven (pushSeven.encode 0)).dispatch 0 pushSeven []
        slot := 0 }
    g.app.sim.activeExperimentId = 7 ∧ g.daemon.state.opState = g.app.sim.opState.toUInt32 ∧
      g.daemon.state.activeExperimentId = g.app.sim.activeExperimentId ∧
      g.daemon.state.dceAuthorityHeld = g.app.sim.dceAuthorityHeld := by
  intro g
  let start := Ground.start (Boot.fresh [.sent 8] []) 0
  have hsent : (PayloadApp.deliver { sim := .boot } runSeven 0).sent =
      [.toNetwork ⟨apidCmdRespTx, [0x20, 0x00]⟩, .stateSet experimentSeven] := by decide +kernel
  have hup : Relation.ReflTransGen Ground.Step start { start with daemon := answered } :=
    Ground.others answered_reachable _ rfl (by decide +kernel)
  have hcommand : Ground.Step { start with daemon := answered }
      (Ground.send { start with daemon := answered } (PayloadApp.deliver { sim := .boot } runSeven 0).app
        (PayloadApp.deliver { sim := .boot } runSeven 0).sent) := .deliver _ runSeven 0
  have hack : Handles answered 0 ackSeven (pushSeven.encode 0) :=
    .of_rxbuf 0 (by decide +kernel) (by decide +kernel) (by decide +kernel) (by decide +kernel)
      (eq_of_beq (by decide +kernel))
  have hpush : Handles (answered.dispatch 0 ackSeven (pushSeven.encode 0)) 0 pushSeven [] :=
    .of_rxbuf 0 (by decide +kernel) (by decide +kernel) (by decide +kernel) (by decide +kernel)
      (eq_of_beq (by decide +kernel))
  rw [hsent] at hcommand
  have hrun : Relation.ReflTransGen Ground.Step start g :=
    ((hup.tail hcommand).tail (.handle _ rfl (by decide +kernel) hack)).tail
      (.handle _ rfl rfl hpush)
  exact ⟨by decide +kernel, (daemon_mirrors_app rfl 0 hrun).1 (by simp [g])⟩

end PiDaemon.App
