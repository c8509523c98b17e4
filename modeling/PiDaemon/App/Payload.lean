import PiDaemon.App.Deliver
import PiDaemon.App.Sending

/-!
# The payload application

`sim_state_t`, the handlers behind `handle_deliver`, the 1 Hz tick and the seeding of
`payload_app.c`. A handler returns the state it leaves and what it sends, in order: a
message to the network process, or the `DMSG_STATE_SET` of `push_state`. The results of
these sends are ignored by the code.

A `float` is the 32 bits of its encoding. The two bytes of padding in the struct of
`push_state` are uninitialised, so they are an argument.
-/

namespace PiDaemon.App

open Base Proto

/-! ## State -/

/-- `sim_state_t`. -/
structure SimState where
  metMs : UInt64
  opState : UInt8
  activeExperimentId : UInt8
  cpuTempC : UInt32
  storageMbRemaining : UInt32
  currentQuat : Vector UInt32 4
  angularRates : Vector UInt32 3
  dceAuthorityHeld : UInt8
  deriving DecidableEq, Repr

/-- The values of `op_state` that the application sets. -/
def opIdle : UInt8 := 0x00
def opExperimentRunning : UInt8 := 0x01
def opFault : UInt8 := 0xFF

/-- `sim_state_t` before it is seeded: 35 °C, 32000 MB and the identity quaternion. -/
def SimState.boot : SimState where
  metMs := 0
  opState := opIdle
  activeExperimentId := 0
  cpuTempC := 0x420C0000
  storageMbRemaining := 32000
  currentQuat := #v[0, 0, 0, 0x3F800000]
  angularRates := #v[0, 0, 0]
  dceAuthorityHeld := 0

/-- The state after `daemon_client_get_state`, if it succeeded. -/
def SimState.seed : Option SatelliteState → SimState
  | none => .boot
  | some persisted =>
    { SimState.boot with
      opState := persisted.opState.toUInt8
      activeExperimentId := persisted.activeExperimentId
      dceAuthorityHeld := persisted.dceAuthorityHeld
      metMs := persisted.lastUpdatedMet }

inductive Output
  | toNetwork (m : ToNetwork)
  | stateSet (st : SatelliteState)
  deriving DecidableEq, Repr

/-- The struct that `push_state` sends. -/
def SimState.pushed (s : SimState) (padding : UInt16) : SatelliteState where
  opState := s.opState.toUInt32
  activeExperimentId := s.activeExperimentId
  dceAuthorityHeld := s.dceAuthorityHeld
  padding := padding
  lastUpdatedMet := s.metMs

def pushState (s : SimState) (padding : UInt16) : Output := .stateSet (s.pushed padding)

/-! ## Commands -/

/-- The opcodes of `handle_payload_command`. -/
inductive Command
  | grantDceAuthority
  | revokeDceAuthority
  | timeSyncPing
  | runExperiment
  | abortExperiment
  | emergencyHalt
  deriving DecidableEq, Repr

namespace Command

def code : Command → UInt8
  | grantDceAuthority => 0x01
  | revokeDceAuthority => 0x02
  | timeSyncPing => 0x03
  | runExperiment => 0x20
  | abortExperiment => 0x21
  | emergencyHalt => 0xFF

def ofCode? (opcode : UInt8) : Option Command :=
  [grantDceAuthority, revokeDceAuthority, timeSyncPing, runExperiment, abortExperiment,
    emergencyHalt].find? fun c => c.code = opcode

@[simp] theorem ofCode?_code (c : Command) : ofCode? c.code = some c := by
  cases c <;> rfl

theorem code_of_ofCode? {opcode : UInt8} {c : Command} (h : ofCode? opcode = some c) :
    c.code = opcode := by
  simpa using List.find?_some h

end Command

def SimState.perform (s : SimState) (arg : UInt32) : Command → SimState
  | .grantDceAuthority => { s with dceAuthorityHeld := 1 }
  | .revokeDceAuthority => { s with dceAuthorityHeld := 0 }
  | .timeSyncPing => { s with metMs := arg.toUInt64 }
  | .runExperiment => { s with opState := opExperimentRunning, activeExperimentId := arg.toUInt8 }
  | .abortExperiment => { s with opState := opIdle, activeExperimentId := 0 }
  | .emergencyHalt => { s with opState := opFault }

/-- `APID_CMD_RESP_TX`. -/
def apidCmdRespTx : UInt16 := 0x012

def statusAck : UInt8 := 0x00
def statusNack : UInt8 := 0x01

/-- `build_cmd_response`. -/
def buildCmdResponse (opcode status : UInt8) : List UInt8 := [opcode, status]

def Inbound.opcode (f : Inbound) : UInt8 := f.mem 0

/-- `arg`, which is 0 for a frame without one. -/
def Inbound.arg (f : Inbound) : UInt32 := if 5 ≤ f.len then f.mem.be32At 1 else 0

def handlePayloadCommand (s : SimState) (f : Inbound) (padding : UInt16) : SimState × List Output :=
  if f.len < 1 then (s, [])
  else
    let out : SimState × UInt8 :=
      match Command.ofCode? f.opcode with
      | some c => (s.perform f.arg c, statusAck)
      | none => (s, statusNack)
    (out.1, [.toNetwork ⟨apidCmdRespTx, buildCmdResponse f.opcode out.2⟩, pushState out.1 padding])

/-! ## The other handlers -/

/-- `unpack_be_float_array`. -/
def unpackBeFloatArray (m : Mem) (off n : ℕ) : Vector UInt32 n :=
  Vector.ofFn fun i => m.be32At (off + 4 * i)

/-- Quaternion and angular rates of an ADCS telemetry packet. -/
def handleAdcsTelemetry (s : SimState) (f : Inbound) : SimState :=
  if f.len < 80 then s
  else
    { s with
      currentQuat := unpackBeFloatArray f.mem 8 4
      angularRates := unpackBeFloatArray f.mem 68 3 }

inductive AdcsReq
  | targetOrientation
  | targetSpinRate
  | requestDce
  | relinquishDce
  deriving DecidableEq, Repr

def AdcsReq.code : AdcsReq → UInt8
  | targetOrientation => 0x01
  | targetSpinRate => 0x02
  | requestDce => 0xA0
  | relinquishDce => 0xA1

def handleAdcsResponse (s : SimState) (f : Inbound) (padding : UInt16) : SimState × List Output :=
  if f.len < 2 then (s, [])
  else
    let requestType := f.mem 0
    let status := f.mem 1
    if requestType = AdcsReq.requestDce.code then
      let s := { s with dceAuthorityHeld := if status = 0x00 then 1 else 0 }
      (s, [pushState s padding])
    else if requestType = AdcsReq.relinquishDce.code ∧ status = 0x00 then
      let s := { s with dceAuthorityHeld := 0 }
      (s, [pushState s padding])
    else (s, [])

/-- `BULK_ACK_HEADER_SIZE`. -/
def bulkAckHeaderSize : ℕ := 5

/-- What `handle_bulk_ack_response` reports of a transfer: an ACK, or how many chunks are missing. -/
structure BulkAck where
  transferId : UInt32
  missing : Option ℕ
  deriving DecidableEq, Repr

def handleBulkAckResponse (f : Inbound) : Option BulkAck :=
  if f.len < bulkAckHeaderSize then none
  else
    some ⟨f.mem.be32At 0,
      if f.mem 4 = 0x00 then none else some ((f.len - bulkAckHeaderSize) / 4)⟩

/-! ## Deliveries -/

/-- The application: its view of the satellite, the two inbound transfers and the
buffer they are assembled in, and the counters of `main` and of the transfers it sends. -/
structure PayloadApp where
  sim : SimState
  expTableRx : BulkRx := {}
  ctrlAlgoRx : BulkRx := {}
  assembleBuf : Mem := fun _ => 0
  nextTransferId : UInt32 := 1
  tick : ℕ := 0
  cmdStep : ℕ := 0
  bulkStep : ℕ := 0

/-- What a delivery comes to: the state it leaves, what is sent, the size of a transfer
it completes, and the report on a transfer sent earlier. -/
structure Reaction where
  app : PayloadApp
  sent : List Output := []
  completed : Option ℕ := none
  report : Option BulkAck := none

namespace PayloadApp

def bulkReaction (a : PayloadApp) (rx : BulkRx) (update : BulkRx → PayloadApp) (f : Inbound) :
    Reaction :=
  let out := handleBulkChunk rx a.assembleBuf f
  { app := { update out.rx with assembleBuf := out.assembleBuf }
    sent := out.sent.map .toNetwork
    completed := out.completed }

/-- The switch of `handle_deliver`. -/
def handle (a : PayloadApp) (d : Delivery) (padding : UInt16) : Reaction :=
  match d.apid with
  | .payloadCommand =>
    let out := handlePayloadCommand a.sim d.data padding
    { app := { a with sim := out.1 }, sent := out.2 }
  | .adcsTelemetry => { app := { a with sim := handleAdcsTelemetry a.sim d.data } }
  | .adcsResponse =>
    let out := handleAdcsResponse a.sim d.data padding
    { app := { a with sim := out.1 }, sent := out.2 }
  | .experimentTable => a.bulkReaction a.expTableRx (fun rx => { a with expTableRx := rx }) d.data
  | .controlAlgorithm => a.bulkReaction a.ctrlAlgoRx (fun rx => { a with ctrlAlgoRx := rx }) d.data
  | .bulkDataResponse => { app := a, report := handleBulkAckResponse d.data }

/-- `handle_deliver`. -/
def deliver (a : PayloadApp) (buf : Inbound) (padding : UInt16) : Reaction :=
  match handleDeliver buf with
  | none => { app := a }
  | some d => a.handle d padding

end PayloadApp

/-! ## The tick -/

/-- `APID_TELEM_TX`. -/
def apidTelemTx : UInt16 := 0x011

/-- `APID_ADCS_REQ_TX`. -/
def apidAdcsReqTx : UInt16 := 0x021

def buildTelemetry (s : SimState) : List UInt8 :=
  be64 s.metMs ++ ([s.opState, s.activeExperimentId] ++ (be32 s.cpuTempC ++ be32 s.storageMbRemaining))

def buildAdcsRequest (requestType : AdcsReq) (quat : Vector UInt32 4) (rates : Vector UInt32 3)
    (durationMs : UInt32) : List UInt8 :=
  requestType.code ::
    if requestType ≠ .requestDce ∧ requestType ≠ .relinquishDce then
      packBeFloatArray quat ++ (packBeFloatArray rates ++ be32 durationMs)
    else []

/-- `send_dummy_command`: authority, an orientation, a spin rate, and authority back. -/
def sendDummyCommand (step : ℕ) : ToNetwork :=
  let quat := #v[0, 0, 0, 0x3F800000]
  let rates := #v[0x3C23D70A, 0xBCA3D70A, 0]
  ⟨apidAdcsReqTx, match step % 4 with
    | 0 => buildAdcsRequest .requestDce quat rates 0
    | 1 => buildAdcsRequest .targetOrientation quat rates 5000
    | 2 => buildAdcsRequest .targetSpinRate quat rates 3000
    | _ => buildAdcsRequest .relinquishDce quat rates 0⟩

/-- The entries of `send_bulk_calc_dummy`: 0.001, -0.002 and the torques, times `i` where the code does. -/
def calcDummyEntries (s : SimState) : List BulkCalcEntry :=
  [(0x00000000, 0x80000000), (0x3A83126F, 0xBB03126F), (0x3B03126F, 0xBB83126F),
    (0x3B449BA6, 0xBBC49BA6), (0x3B83126F, 0xBC03126F)].mapIdx fun i accel =>
      ⟨s.metMs + UInt64.ofNat i * 100, #v[accel.1, accel.2, 0],
        #v[0x3C23D70A, 0x3CA3D70A, 0, 0xBC23D70A]⟩

/-- The entries of `send_bulk_ft_dummy`, with 0.1 and -0.01 times `i`. -/
def ftDummyEntries (s : SimState) : List BulkFtEntry :=
  [(0x00000000, 0x80000000), (0x3DCCCCCD, 0xBC23D70A), (0x3E4CCCCD, 0xBCA3D70A),
    (0x3E99999A, 0xBCF5C28F), (0x3ECCCCCD, 0xBD23D70A)].mapIdx fun i sample =>
      ⟨s.metMs + UInt64.ofNat i * 100, #v[sample.1, 0xBD4CCCCD, 0], #v[0, 0x3CA3D70A, sample.2]⟩

/-- `send_dummy_bulk` with the three functions it cycles through; `stack` is what their
buffers held before. -/
def sendDummyBulk (s : SimState) (tid : UInt32) (stack : Mem) (step : ℕ) : List ToNetwork :=
  match step % 3 with
  | 0 =>
    let flat := flatten packCalcEntry stack (calcDummyEntries s)
    sendBulk apidBulkCalcTx tid flat.1 (UInt32.ofNat flat.2)
      (UInt16.ofNat (maxCalcEntriesPerChunk * bulkCalcEntrySize))
  | 1 =>
    let flat := flatten packFtEntry stack (ftDummyEntries s)
    sendBulk apidBulkFtTx tid flat.1 (UInt32.ofNat flat.2)
      (UInt16.ofNat (maxFtEntriesPerChunk * bulkFtEntrySize))
  | _ => sendBulk apidBulkVidTx tid (fun i => UInt8.ofNat i) 1200 (UInt16.ofNat maxChunkData)

/-- One tick of the main loop: mission time, health telemetry, and at their rates an
ADCS request and a bulk transfer. `cpuTemp` is `35.0f + (float)(tick % 10) * 0.3f` as the
target rounds it. -/
def PayloadApp.onTick (a : PayloadApp) (cpuTemp : ℕ → UInt32) (stack : Mem) :
    PayloadApp × List Output :=
  let tick := a.tick + 1
  let sim := { a.sim with metMs := a.sim.metMs + 1000, cpuTempC := cpuTemp (tick % 10) }
  let command := tick % 5 = 0
  let bulk := tick % 10 = 0
  ({ a with
      sim := sim
      tick := tick
      cmdStep := if command then a.cmdStep + 1 else a.cmdStep
      bulkStep := if bulk then a.bulkStep + 1 else a.bulkStep
      nextTransferId := if bulk then a.nextTransferId + 1 else a.nextTransferId },
    (⟨apidTelemTx, buildTelemetry sim⟩ ::
      ((if command then [sendDummyCommand a.cmdStep] else []) ++
        if bulk then sendDummyBulk sim a.nextTransferId stack a.bulkStep else [])).map .toNetwork)

/-! ## The frame buffer of `send_to_network` -/

def Output.Fits : Output → Prop
  | .toNetwork m => m.data.length ≤ netIpcMaxData
  | .stateSet _ => True

theorem handlePayloadCommand_fits (s : SimState) (f : Inbound) (padding : UInt16) :
    ∀ o ∈ (handlePayloadCommand s f padding).2, o.Fits := by
  unfold handlePayloadCommand
  split_ifs <;> simp [Output.Fits, pushState, buildCmdResponse, netIpcMaxData]

theorem handleAdcsResponse_fits (s : SimState) (f : Inbound) (padding : UInt16) :
    ∀ o ∈ (handleAdcsResponse s f padding).2, o.Fits := by
  unfold handleAdcsResponse
  dsimp only
  split_ifs <;> simp [Output.Fits, pushState]

theorem handleBulkChunk_fits (rx : BulkRx) (buf : Mem) (f : Inbound) :
    ∀ m ∈ (handleBulkChunk rx buf f).sent, m.data.length ≤ netIpcMaxData := by
  unfold handleBulkChunk
  dsimp only
  split_ifs <;> simp [ackMessage, netIpcMaxData]

theorem PayloadApp.deliver_fits (a : PayloadApp) (buf : Inbound) (padding : UInt16) :
    ∀ o ∈ (a.deliver buf padding).sent, o.Fits := by
  have hchunk (rx : BulkRx) (f : Inbound) :
      ∀ o ∈ (handleBulkChunk rx a.assembleBuf f).sent.map Output.toNetwork, o.Fits := by
    intro o ho
    obtain ⟨m, hm, rfl⟩ := List.mem_map.mp ho
    exact handleBulkChunk_fits rx _ f m hm
  unfold deliver
  rcases handleDeliver buf with _ | ⟨apid, f⟩
  · simp
  · cases apid with
    | payloadCommand => exact handlePayloadCommand_fits a.sim f padding
    | adcsResponse => exact handleAdcsResponse_fits a.sim f padding
    | experimentTable => exact hchunk a.expTableRx f
    | controlAlgorithm => exact hchunk a.ctrlAlgoRx f
    | adcsTelemetry | bulkDataResponse => simp [handle]

theorem sendDummyCommand_fits (step : ℕ) : (sendDummyCommand step).data.length ≤ netIpcMaxData := by
  unfold sendDummyCommand
  dsimp only
  split <;> simp [buildAdcsRequest, netIpcMaxData]

theorem sendDummyBulk_fits (s : SimState) (tid : UInt32) (stack : Mem) (step : ℕ) :
    ∀ m ∈ sendDummyBulk s tid stack step, m.data.length ≤ netIpcMaxData := by
  intro m hm
  unfold sendDummyBulk at hm
  split at hm
  · exact (length_of_mem_sendBulk hm).trans (by decide)
  · exact (length_of_mem_sendBulk hm).trans (by decide)
  · exact (length_of_mem_sendBulk hm).trans (by decide)

theorem PayloadApp.onTick_fits (a : PayloadApp) (cpuTemp : ℕ → UInt32) (stack : Mem) :
    ∀ o ∈ (a.onTick cpuTemp stack).2, o.Fits := by
  unfold onTick
  intro o ho
  obtain ⟨m, hm, rfl⟩ := List.mem_map.mp ho
  rcases List.mem_cons.mp hm with rfl | hm
  · simp [Output.Fits, buildTelemetry, netIpcMaxData]
  · rcases List.mem_append.mp hm with hm | hm
    · split_ifs at hm
      · rw [List.mem_singleton.mp hm]
        exact sendDummyCommand_fits a.cmdStep
      · cases hm
    · split_ifs at hm
      · exact sendDummyBulk_fits _ _ _ _ m hm
      · cases hm

end PiDaemon.App
