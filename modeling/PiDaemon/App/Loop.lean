import PiDaemon.App.Mirror
import PiDaemon.Client.Relay
import PiDaemon.Process.Manager

/-!
# The main loop of the payload application

`main` of `payload_app.c` behind the seeding. In every round the loop reads the clock, waits
for the daemon's socket until the next tick is due, and then takes one message or ticks. The
readings of the clock, the answers of `poll()` and what the stack holds are given round by
round.

A message is never taken for a tick, so that traffic can hold ticks up but not multiply them;
and ticks that were held up are made up for, without waiting in between.
-/

namespace PiDaemon.App

open Base Proto Client
open Process (Timespec nanos)

/-! ## The loop -/

/-- How `poll()` on the daemon's socket returns. -/
inductive Polled
  | failed
  | interrupted
  | timedOut
  | ready (pollin : Bool)
  deriving DecidableEq, Repr

/-- What the environment does in a round: the clock at its top, the answer of `poll()` and the
clock when it comes, and the bytes on the stack. -/
structure Round where
  now : Timespec
  polled : Polled
  woken : Timespec
  stack : Mem := fun _ => 0
  padding : UInt16 := 0

/-- The application in its loop, with everything it has sent so far. -/
structure MainLoop where
  app : PayloadApp
  socket : Socket
  nextTick : Timespec
  sent : List Output := []

/-- `remaining_ms`, as the `int` that `poll()` takes. -/
def pollTimeout (nextTick now : Timespec) : ℤ :=
  let remainingMs := (nextTick.sec - now.sec) * 1000 + (nextTick.nsec - now.nsec).tdiv 1000000
  (if remainingMs < 0 then 0 else remainingMs).bmod (2 ^ 32)

/-- The socket after one send, whose result is ignored; `none` when the frame buffer of
`send_to_network` is overrun. -/
def transmit (s : Socket) : Output → Option Socket
  | .toNetwork m => (sendToNetwork s m.apid m.data).map Prod.fst
  | .stateSet st => some (daemonSend s ⟨MsgType.stateSet.code, st.encode⟩).1

namespace MainLoop

/-- Behind the seeding, with the first reading of the clock. -/
def start (sim : SimState) (s : Socket) (clock : Timespec) : MainLoop where
  app := { sim := sim }
  socket := s
  nextTick := { clock with sec := clock.sec + 1 }

def send (l : MainLoop) (app : PayloadApp) (os : List Output) : Option MainLoop :=
  (os.foldlM transmit l.socket).map fun s => { l with app := app, socket := s, sent := l.sent ++ os }

/-- A message of the daemon; `DMSG_ERROR` and `DMSG_STATE_VALUE` are only read. -/
def receive (l : MainLoop) (t : Round) (m : Message) : Option MainLoop :=
  if m.type = MsgType.deliver.code then
    let reaction := l.app.deliver ⟨t.stack.store 0 m.payload, m.payload.length⟩ t.padding
    l.send reaction.app reaction.sent
  else some l

def tick (cpuTemp : ℕ → UInt32) (l : MainLoop) (t : Round) : Option MainLoop :=
  let out := l.app.onTick cpuTemp t.stack
  { l with nextTick := { l.nextTick with sec := l.nextTick.sec + 1 } }.send out.1 out.2

def round (cpuTemp : ℕ → UInt32) (l : MainLoop) (t : Round) : Option (MainLoop × Bool) :=
  match t.polled with
  | .failed => some (l, false)
  | .interrupted => some (l, true)
  | .ready true =>
    match daemonClientRecv l.socket maxMsgPayload with
    | (s, .error _) => some ({ l with socket := s }, false)
    | (s, .ok m) => ({ l with socket := s }.receive t m).map fun l => (l, true)
  | .ready false | .timedOut => (l.tick cpuTemp t).map fun l => (l, true)

inductive Runs (cpuTemp : ℕ → UInt32) (l₀ : MainLoop) : List Round → MainLoop → Prop
  | start : Runs cpuTemp l₀ [] l₀
  | round {ts : List Round} {l l' : MainLoop} {t : Round} : Runs cpuTemp l₀ ts l →
      l.round cpuTemp t = some (l', true) → Runs cpuTemp l₀ (ts ++ [t]) l'

end MainLoop

/-! ## What a round does -/

section Round
variable {cpuTemp : ℕ → UInt32} {l l' : MainLoop} {t : Round}

theorem MainLoop.send_eq_some {app : PayloadApp} {os : List Output} (h : l.send app os = some l') :
    ∃ s, os.foldlM transmit l.socket = some s ∧
      l' = { l with app := app, socket := s, sent := l.sent ++ os } := by
  obtain ⟨s, hs, rfl⟩ := Option.map_eq_some_iff.mp h
  exact ⟨s, hs, rfl⟩

/-- The three ways to go on: an interrupted `poll()`, a message, a tick. -/
theorem MainLoop.round_cases (h : l.round cpuTemp t = some (l', true)) :
    (t.polled = .interrupted ∧ l' = l) ∨
    (∃ s m, t.polled = .ready true ∧ daemonClientRecv l.socket maxMsgPayload = (s, .ok m) ∧
      { l with socket := s }.receive t m = some l') ∨
    ((t.polled = .timedOut ∨ t.polled = .ready false) ∧ l.tick cpuTemp t = some l') := by
  have htick {out : Option MainLoop} (h : out.map (fun l => (l, true)) = some (l', true)) :
      out = some l' := by
    obtain ⟨l₁, hl₁, heq⟩ := Option.map_eq_some_iff.mp h
    rw [hl₁, (Prod.mk.inj heq).1]
  unfold round at h
  rcases hpolled : t.polled with _ | _ | _ | pollin
  all_goals rw [hpolled] at h
  · cases h
  · cases h
    exact .inl ⟨rfl, rfl⟩
  · exact .inr (.inr ⟨.inl rfl, htick h⟩)
  · cases pollin with
    | false => exact .inr (.inr ⟨.inr rfl, htick h⟩)
    | true =>
      rcases hrecv : daemonClientRecv l.socket maxMsgPayload with ⟨s, e | m⟩
      all_goals
        dsimp only at h
        rw [hrecv] at h
      · cases h
      · exact .inr (.inl ⟨s, m, rfl, rfl, htick h⟩)

/-- What happens to the application in a round, if anything does: a delivery or a tick, of
which it sends the output. -/
inductive MainLoop.Moves (cpuTemp : ℕ → UInt32) (l : MainLoop) (t : Round) : MainLoop → Prop
  | stays {l' : MainLoop} : l'.app = l.app → l'.nextTick = l.nextTick → l'.sent = l.sent →
      t.polled ≠ .timedOut → Moves cpuTemp l t l'
  | delivers {l' : MainLoop} (payload : List UInt8) :
      l'.app = (l.app.deliver ⟨t.stack.store 0 payload, payload.length⟩ t.padding).app →
      l'.nextTick = l.nextTick →
      l'.sent = l.sent ++ (l.app.deliver ⟨t.stack.store 0 payload, payload.length⟩ t.padding).sent →
      t.polled ≠ .timedOut → Moves cpuTemp l t l'
  | ticks {l' : MainLoop} : l'.app = (l.app.onTick cpuTemp t.stack).1 →
      l'.nextTick = { l.nextTick with sec := l.nextTick.sec + 1 } →
      l'.sent = l.sent ++ (l.app.onTick cpuTemp t.stack).2 →
      (t.polled = .timedOut ∨ t.polled = .ready false) → Moves cpuTemp l t l'

theorem MainLoop.round_moves (h : l.round cpuTemp t = some (l', true)) : l.Moves cpuTemp t l' := by
  rcases MainLoop.round_cases h with ⟨hpolled, rfl⟩ | ⟨s, m, hpolled, -, hreceive⟩ | ⟨hpolled, htick⟩
  · exact .stays rfl rfl rfl (by rw [hpolled]; simp)
  · have hne : t.polled ≠ .timedOut := by rw [hpolled]; simp
    unfold MainLoop.receive at hreceive
    split_ifs at hreceive with htype
    · obtain ⟨s', -, rfl⟩ := MainLoop.send_eq_some hreceive
      exact .delivers m.payload rfl rfl rfl hne
    · cases hreceive
      exact .stays rfl rfl rfl hne
  · obtain ⟨s', -, rfl⟩ := MainLoop.send_eq_some htick
    exact .ticks rfl rfl rfl hpolled

theorem foldlM_transmit_isSome {os : List Output} (h : ∀ o ∈ os, o.Fits) :
    ∀ s : Socket, ∃ s', os.foldlM transmit s = some s' := by
  induction os with
  | nil => exact fun s => ⟨s, rfl⟩
  | cons o os ih =>
    intro s
    have hfirst : ∃ s₁, transmit s o = some s₁ := by
      cases o with
      | toNetwork m =>
        have hfits : m.data.length ≤ netIpcMaxData := h _ (List.mem_cons_self ..)
        obtain ⟨hdr, hframe, -⟩ := netIpcFrame_spec m.apid hfits
        exact ⟨_, by rw [transmit, sendToNetwork, hframe]; rfl⟩
      | stateSet st => exact ⟨_, rfl⟩
    obtain ⟨s₁, hs₁⟩ := hfirst
    obtain ⟨s', hs'⟩ := ih (fun o ho => h o (List.mem_cons_of_mem _ ho)) s₁
    exact ⟨s', by rw [List.foldlM_cons, hs₁]; exact hs'⟩

theorem MainLoop.tick_isSome (cpuTemp : ℕ → UInt32) (l : MainLoop) (t : Round) :
    ∃ l', l.tick cpuTemp t = some l' := by
  obtain ⟨s', hs'⟩ := foldlM_transmit_isSome (l.app.onTick_fits cpuTemp t.stack) l.socket
  exact ⟨_, by rw [tick, send, hs']; rfl⟩

end Round

/-! ## The clock -/

/-- The timeout is the time to the tick, to within a millisecond, and 0 once it is due. -/
theorem pollTimeout_spec (nextTick now : Timespec) (h : nanos nextTick < nanos now + 2000000000) :
    nanos nextTick - nanos now < pollTimeout nextTick now * 1000000 + 1000000 ∧
      pollTimeout nextTick now * 1000000 < max 0 (nanos nextTick - nanos now) + 1000000 := by
  unfold nanos at *
  set q := (nextTick.nsec - now.nsec).tdiv 1000000 with hq
  -- truncation is off by less than the divisor, whatever the sign of the difference
  have hdiv := Int.mul_tdiv_add_tmod (nextTick.nsec - now.nsec) 1000000
  have hlt := Int.tmod_lt_of_pos (nextTick.nsec - now.nsec) (b := 1000000) (by decide)
  have hgt := Int.lt_tmod_of_pos (nextTick.nsec - now.nsec) (b := 1000000) (by decide)
  rw [← hq] at hdiv
  have hcast : pollTimeout nextTick now = max 0 ((nextTick.sec - now.sec) * 1000 + q) := by
    unfold pollTimeout
    rw [← hq, Int.bmod_eq_of_le] <;> split_ifs <;> omega
  rw [hcast]
  omega

/-- In a fair round the clock does not run backwards, `poll()` does not time out early, and it
reports the socket for nothing but data. -/
structure Round.Fair (t : Round) (clock : Timespec) (timeout : ℤ) : Prop where
  now : nanos clock ≤ nanos t.now
  woken : nanos t.now ≤ nanos t.woken
  timed : t.polled = .timedOut → nanos t.now + timeout * 1000000 ≤ nanos t.woken
  data : t.polled ≠ .ready false

/-- A run of fair rounds from `l₀` at `clock₀` to `l` at `clock`. -/
inductive MainLoop.Paced (cpuTemp : ℕ → UInt32) (l₀ : MainLoop) (clock₀ : Timespec) :
    MainLoop → Timespec → Prop
  | start : Paced cpuTemp l₀ clock₀ l₀ clock₀
  | round {l l' : MainLoop} {clock : Timespec} {t : Round} : Paced cpuTemp l₀ clock₀ l clock →
      t.Fair clock (pollTimeout l.nextTick t.now) → l.round cpuTemp t = some (l', true) →
      Paced cpuTemp l₀ clock₀ l' t.woken

/-! ## What is sent on which APID -/

def Output.dataOn (apid : UInt16) : Output → Option (List UInt8)
  | .toNetwork m => if m.apid = apid then some m.data else none
  | .stateSet _ => none

def dataOn (apid : UInt16) (os : List Output) : List (List UInt8) := os.filterMap (Output.dataOn apid)

theorem dataOn_append (apid : UInt16) (os os' : List Output) :
    dataOn apid (os ++ os') = dataOn apid os ++ dataOn apid os' := List.filterMap_append

theorem dataOn_cons (apid : UInt16) (o : Output) (os : List Output) :
    dataOn apid (o :: os) = (o.dataOn apid).toList ++ dataOn apid os := by
  rw [dataOn, List.filterMap_cons]
  cases o.dataOn apid <;> rfl

theorem dataOn_eq_nil {apid : UInt16} {os : List Output}
    (h : ∀ m, .toNetwork m ∈ os → m.apid ≠ apid) : dataOn apid os = [] := by
  apply List.filterMap_eq_nil_iff.mpr
  intro o ho
  cases o with
  | toNetwork m => exact if_neg (h m ho)
  | stateSet st => rfl

/-- The response to a command, which depends on nothing but its opcode. -/
def cmdResponse (opcode : UInt8) : List UInt8 :=
  buildCmdResponse opcode (if (Command.ofCode? opcode).isSome then statusAck else statusNack)

theorem handlePayloadCommand_dataOn (apid : UInt16) (s : SimState) (f : Inbound) (padding : UInt16) :
    dataOn apid (handlePayloadCommand s f padding).2 =
      if apid = apidCmdRespTx ∧ 1 ≤ f.len then [cmdResponse f.opcode] else [] := by
  by_cases hlen : 1 ≤ f.len
  swap
  · rw [if_neg fun h => hlen h.2, handlePayloadCommand, if_pos (by omega)]
    rfl
  have hsent : ∃ s', (handlePayloadCommand s f padding).2 =
      [.toNetwork ⟨apidCmdRespTx, cmdResponse f.opcode⟩, pushState s' padding] := by
    rcases hcode : Command.ofCode? f.opcode with _ | c
    · rw [handlePayloadCommand_unknown padding hlen hcode, cmdResponse, hcode]
      exact ⟨s, rfl⟩
    · rw [handlePayloadCommand_known padding hlen hcode, cmdResponse, hcode]
      exact ⟨_, rfl⟩
  obtain ⟨s', hs'⟩ := hsent
  rw [hs']
  by_cases hapid : apidCmdRespTx = apid
  · simp [dataOn, Output.dataOn, pushState, hapid, hlen]
  · simp [dataOn, Output.dataOn, pushState, hapid, Ne.symm hapid]

theorem handleAdcsResponse_dataOn (apid : UInt16) (s : SimState) (f : Inbound) (padding : UInt16) :
    dataOn apid (handleAdcsResponse s f padding).2 = [] := by
  unfold handleAdcsResponse
  dsimp only
  split_ifs <;> rfl

theorem handleBulkChunk_dataOn (apid : UInt16) (rx : BulkRx) (buf : Mem) (f : Inbound) :
    dataOn apid ((handleBulkChunk rx buf f).sent.map .toNetwork) =
      if apid = apidBulkAckBidi then (handleBulkChunk rx buf f).sent.map ToNetwork.data else [] := by
  have hacks : ∀ m ∈ (handleBulkChunk rx buf f).sent, m.apid = apidBulkAckBidi := by
    intro m hm
    rw [PayloadApp.mem_sent_handleBulkChunk hm]
    rfl
  generalize (handleBulkChunk rx buf f).sent = ms at hacks
  split_ifs with hapid
  · rw [dataOn, List.filterMap_map, ← List.filterMap_eq_map]
    apply List.filterMap_congr
    intro m hm
    exact if_pos ((hacks m hm).trans hapid.symm)
  · apply dataOn_eq_nil
    intro m hm
    obtain ⟨m', hm', heq⟩ := List.mem_map.mp hm
    cases heq
    rw [hacks m hm']
    exact Ne.symm hapid

namespace PayloadApp

variable (a : PayloadApp) (buf : Inbound) (padding : UInt16) (cpuTemp : ℕ → UInt32) (stack : Mem)

theorem deliver_tick : (a.deliver buf padding).app.tick = a.tick := by
  unfold deliver
  rcases handleDeliver buf with _ | ⟨apid, f⟩
  · rfl
  · cases apid <;> rfl

theorem deliver_dataOn_nil {apid : UInt16} (hresp : apid ≠ apidCmdRespTx)
    (hack : apid ≠ apidBulkAckBidi) :
    dataOn apid (a.deliver buf padding).sent = [] := by
  unfold deliver
  rcases handleDeliver buf with _ | ⟨rxApid, f⟩
  · rfl
  · cases rxApid with
    | payloadCommand =>
      exact (handlePayloadCommand_dataOn _ a.sim f padding).trans (if_neg fun h => hresp h.1)
    | adcsResponse => exact handleAdcsResponse_dataOn _ a.sim f padding
    | experimentTable => exact (handleBulkChunk_dataOn _ a.expTableRx _ f).trans (if_neg hack)
    | controlAlgorithm => exact (handleBulkChunk_dataOn _ a.ctrlAlgoRx _ f).trans (if_neg hack)
    | adcsTelemetry | bulkDataResponse => rfl

theorem apid_of_mem_sendDummyBulk {s : SimState} {tid : UInt32} {step : ℕ} {m : ToNetwork}
    (h : m ∈ sendDummyBulk s tid stack step) :
    m.apid = apidBulkCalcTx ∨ m.apid = apidBulkFtTx ∨ m.apid = apidBulkVidTx := by
  have hbulk {apid : UInt16} {data : Mem} {totalLen : UInt32} {maxData : UInt16}
      (h : m ∈ sendBulk apid tid data totalLen maxData) : m.apid = apid := by
    obtain ⟨i, -, rfl⟩ := List.mem_map.mp h
    rfl
  unfold sendDummyBulk at h
  split at h
  · exact .inl (hbulk h)
  · exact .inr (.inl (hbulk h))
  · exact .inr (.inr (hbulk h))

def commandDue : List ToNetwork :=
  if (a.tick + 1) % 5 = 0 then [sendDummyCommand a.cmdStep] else []

def transferDue (sim : SimState) : List ToNetwork :=
  if (a.tick + 1) % 10 = 0 then sendDummyBulk sim a.nextTransferId stack a.bulkStep else []

theorem onTick_sent : (a.onTick cpuTemp stack).2 =
    .toNetwork ⟨apidTelemTx, buildTelemetry (a.onTick cpuTemp stack).1.sim⟩ ::
      (a.commandDue ++ a.transferDue stack (a.onTick cpuTemp stack).1.sim).map .toNetwork := rfl

theorem apid_of_mem_commandDue {m : ToNetwork} (h : m ∈ a.commandDue) : m.apid = apidAdcsReqTx := by
  unfold commandDue at h
  split_ifs at h
  · rw [List.mem_singleton.mp h]
    rfl
  · cases h

theorem apid_of_mem_transferDue {sim : SimState} {m : ToNetwork} (h : m ∈ a.transferDue stack sim) :
    m.apid = apidBulkCalcTx ∨ m.apid = apidBulkFtTx ∨ m.apid = apidBulkVidTx := by
  unfold transferDue at h
  split_ifs at h
  · exact apid_of_mem_sendDummyBulk stack h
  · cases h

theorem onTick_dataOn {apid : UInt16}
    (h : apid ∉ [apidAdcsReqTx, apidBulkCalcTx, apidBulkFtTx, apidBulkVidTx]) :
    dataOn apid (a.onTick cpuTemp stack).2 =
      if apid = apidTelemTx then [buildTelemetry (a.onTick cpuTemp stack).1.sim] else [] := by
  have hrest : dataOn apid ((a.commandDue ++
      a.transferDue stack (a.onTick cpuTemp stack).1.sim).map .toNetwork) = [] := by
    apply dataOn_eq_nil
    intro m hm heq
    obtain ⟨m', hm', hmm⟩ := List.mem_map.mp hm
    cases hmm
    apply h
    rw [← heq]
    rcases List.mem_append.mp hm' with hm' | hm'
    · rw [a.apid_of_mem_commandDue hm']
      decide
    · simpa using .inr (a.apid_of_mem_transferDue stack hm')
  rw [onTick_sent, dataOn_cons, hrest, Output.dataOn]
  by_cases hapid : apidTelemTx = apid
  · rw [if_pos hapid, if_pos hapid.symm]
    rfl
  · rw [if_neg hapid, if_neg (Ne.symm hapid)]
    rfl

end PayloadApp

/-! ## The heartbeat -/

/-- What the loop keeps true of the clock: ticks are counted by the telemetry sent and by
the deadline, and none came more than a millisecond early. -/
structure MainLoop.OnTime (clock₀ : Timespec) (l : MainLoop) (clock : Timespec) : Prop where
  telemetry : (dataOn apidTelemTx l.sent).length = l.app.tick
  deadline : nanos l.nextTick = nanos clock₀ + (l.app.tick + 1) * 1000000000
  notEarly : l.app.tick * 1000000000 < nanos clock - nanos clock₀ + 1000000

theorem MainLoop.OnTime.round {cpuTemp : ℕ → UInt32} {clock₀ clock : Timespec} {l l' : MainLoop}
    {t : Round} (h : l.OnTime clock₀ clock) (hfair : t.Fair clock (pollTimeout l.nextTick t.now))
    (hround : l.round cpuTemp t = some (l', true)) : l'.OnTime clock₀ t.woken := by
  obtain ⟨htelemetry, hdeadline, hearly⟩ := h
  have hclock : nanos clock ≤ nanos t.woken := hfair.now.trans hfair.woken
  cases MainLoop.round_moves hround with
  | stays happ hnext hsent =>
    refine ⟨?_, ?_, ?_⟩
    · rw [happ, hsent, htelemetry]
    · rw [happ, hnext, hdeadline]
    · rw [happ]
      omega
  | delivers payload happ hnext hsent =>
    have htick : l'.app.tick = l.app.tick := by rw [happ, PayloadApp.deliver_tick]
    refine ⟨?_, ?_, ?_⟩
    · rw [htick, hsent, dataOn_append, PayloadApp.deliver_dataOn_nil _ _ _ (by decide) (by decide),
        List.append_nil, htelemetry]
    · rw [htick, hnext, hdeadline]
    · rw [htick]
      omega
  | ticks happ hnext hsent hpolled =>
    have htick : l'.app.tick = l.app.tick + 1 := by rw [happ]; rfl
    have htimed := hfair.timed (hpolled.resolve_right hfair.data)
    have hnow := hfair.now
    have hwait := (pollTimeout_spec l.nextTick t.now (by omega)).1
    refine ⟨?_, ?_, ?_⟩
    · rw [hsent, dataOn_append, PayloadApp.onTick_dataOn _ _ _ (by decide), if_pos rfl,
        List.length_append, htelemetry, htick]
      rfl
    · have hnanos : nanos l'.nextTick = nanos l.nextTick + 1000000000 := by
        rw [hnext]
        unfold nanos
        dsimp only
        omega
      rw [hnanos, hdeadline, htick]
      push_cast
      ring
    · rw [htick]
      push_cast
      omega

theorem MainLoop.OnTime.start (sim : SimState) (s : Socket) (clock₀ : Timespec) :
    (MainLoop.start sim s clock₀).OnTime clock₀ clock₀ where
  telemetry := rfl
  deadline := by
    unfold MainLoop.start nanos
    dsimp only
    omega
  notEarly := by
    change ((0 : ℕ) : ℤ) * 1000000000 < _
    omega

theorem MainLoop.Paced.onTime {cpuTemp : ℕ → UInt32} {sim : SimState} {s : Socket}
    {clock₀ clock : Timespec} {l : MainLoop}
    (h : Paced cpuTemp (MainLoop.start sim s clock₀) clock₀ l clock) : l.OnTime clock₀ clock := by
  induction h with
  | start => exact .start sim s clock₀
  | round _ hfair hround ih => exact ih.round hfair hround

/-- The heartbeat of the application, in every run in which the clock does not run backwards
and `poll()` does not time out early, whatever traffic there is: the health telemetry has been
sent at most once for every second since the loop began, to within a millisecond; and whenever
the loop goes to sleep, at least once for every whole second. It sleeps for 1001 ms at most. -/
theorem heartbeat_keeps_pace {cpuTemp : ℕ → UInt32} {sim : SimState} {s : Socket}
    {clock₀ clock : Timespec} {l : MainLoop}
    (h : MainLoop.Paced cpuTemp (MainLoop.start sim s clock₀) clock₀ l clock) :
    let beats := (dataOn apidTelemTx l.sent).length
    beats * 1000000000 < nanos clock - nanos clock₀ + 1000000 ∧
      ∀ now, nanos clock ≤ nanos now → pollTimeout l.nextTick now ≤ 1001 ∧
        (0 < pollTimeout l.nextTick now → nanos now - nanos clock₀ < (beats + 1) * 1000000000) := by
  obtain ⟨htelemetry, hdeadline, hearly⟩ := h.onTime
  intro beats
  have hbeats : beats = l.app.tick := htelemetry
  rw [hbeats]
  refine ⟨hearly, fun now hnow => ?_⟩
  have hwait := (pollTimeout_spec l.nextTick now (by omega)).2
  refine ⟨?_, fun hpos => ?_⟩ <;> omega

/-- A loop that begins half a millisecond after a full second, with a `DMSG_ERROR` to read. -/
def quietLoop : MainLoop :=
  .start .boot { incoming := (⟨MsgType.error.code, le32 2⟩ : Frame).encode 0 }
    { sec := 10, nsec := 500000 }

def errorRound : Round where
  now := { sec := 10, nsec := 600000 }
  polled := .ready true
  woken := { sec := 10, nsec := 900500000 }

/-- `poll()` is called again for the 101 ms that are left, and times out. -/
def tickRound : Round where
  now := { sec := 10, nsec := 900500001 }
  polled := .timedOut
  woken := { sec := 11, nsec := 1500001 }

def MainLoop.after (cpuTemp : ℕ → UInt32) (l : MainLoop) (t : Round) : MainLoop :=
  ((l.round cpuTemp t).map Prod.fst).getD l

theorem heartbeat_keeps_pace_quiet :
    let cpuTemp : ℕ → UInt32 := fun _ => 0x420C0000
    let l := (quietLoop.after cpuTemp errorRound).after cpuTemp tickRound
    let clock : Timespec := { sec := 11, nsec := 1500001 }
    (dataOn apidTelemTx l.sent).length = 1 ∧ pollTimeout l.nextTick clock = 999 ∧
      (1 : ℤ) * 1000000000 < nanos clock - nanos { sec := 10, nsec := 500000 } + 1000000 ∧
      nanos clock - nanos { sec := 10, nsec := 500000 } < (1 + 1 : ℤ) * 1000000000 := by
  intro cpuTemp l clock
  have herror : MainLoop.Paced cpuTemp quietLoop { sec := 10, nsec := 500000 }
      (quietLoop.after cpuTemp errorRound) errorRound.woken :=
    .round .start ⟨by decide, by decide, by decide, by decide⟩ rfl
  have htick : MainLoop.Paced cpuTemp quietLoop { sec := 10, nsec := 500000 } l tickRound.woken :=
    .round herror ⟨by decide, by decide, by decide, by decide⟩ rfl
  obtain ⟨hearly, hwait⟩ := heartbeat_keeps_pace htick
  exact ⟨rfl, rfl, hearly, (hwait clock le_rfl).2 (by decide)⟩

/-! ## What becomes of messages -/

/-- What the application `a₀` may have come to when it has read the messages `ms`: its state,
and everything it has sent. -/
inductive Reacts (cpuTemp : ℕ → UInt32) (a₀ : PayloadApp) :
    List Message → PayloadApp → List Output → Prop
  | start : Reacts cpuTemp a₀ [] a₀ []
  | ignore {ms : List Message} {a : PayloadApp} {os : List Output} {m : Message} :
      Reacts cpuTemp a₀ ms a os → m.type ≠ MsgType.deliver.code → Reacts cpuTemp a₀ (ms ++ [m]) a os
  | deliver {ms : List Message} {a : PayloadApp} {os : List Output} {m : Message} (stack : Mem)
      (padding : UInt16) : Reacts cpuTemp a₀ ms a os → m.type = MsgType.deliver.code →
      Reacts cpuTemp a₀ (ms ++ [m])
        (a.deliver ⟨stack.store 0 m.payload, m.payload.length⟩ padding).app
        (os ++ (a.deliver ⟨stack.store 0 m.payload, m.payload.length⟩ padding).sent)
  | tick {ms : List Message} {a : PayloadApp} {os : List Output} (stack : Mem) :
      Reacts cpuTemp a₀ ms a os →
      Reacts cpuTemp a₀ ms (a.onTick cpuTemp stack).1 (os ++ (a.onTick cpuTemp stack).2)

theorem transmit_spec {o : Output} (h : o.Fits) {s : Socket} (hs : s.Sound) :
    ∃ (f : Frame) (s' : Socket), s'.Sound ∧ s'.incoming = s.incoming ∧
      Extends s.outgoing [f] s'.outgoing ∧ o.frame? = some f ∧ transmit s o = some s' := by
  cases o with
  | toNetwork m =>
    have hfits : m.data.length ≤ netIpcMaxData := h
    obtain ⟨hdr, hframe, -⟩ := netIpcFrame_spec m.apid hfits
    have hlen : (hdr.encode ++ m.data).length ≤ maxMsgPayload := by
      rw [List.length_append, NetIpcHdr.length_encode]
      exact (Nat.add_le_add_left hfits _).trans (by decide)
    obtain ⟨s', padding, hs', hin, hout, hsend⟩ := daemonClientSend_spec hs networkName hlen
    refine ⟨_, s', hs', hin, .single hout, by rw [Output.frame?, hframe]; rfl, ?_⟩
    rw [transmit, sendToNetwork, hframe, Option.map_some, hsend]
    rfl
  | stateSet st =>
    obtain ⟨s', padding, hs', hin, hout, hsend⟩ :=
      daemonSend_spec hs ⟨MsgType.stateSet.code, st.encode⟩
    exact ⟨_, s', hs', hin, .single hout, rfl, by rw [transmit, hsend]⟩

theorem foldlM_transmit_spec {os : List Output} (h : ∀ o ∈ os, o.Fits) : ∀ {s : Socket}, s.Sound →
    ∃ s' : Socket, s'.Sound ∧ s'.incoming = s.incoming ∧
      Extends s.outgoing (os.filterMap Output.frame?) s'.outgoing ∧
      os.foldlM transmit s = some s' := by
  induction os with
  | nil => exact fun {s} hs => ⟨s, hs, rfl, .refl _, rfl⟩
  | cons o os ih =>
    intro s hs
    obtain ⟨f, s₁, hs₁, hin₁, hout₁, hframe, htransmit⟩ :=
      transmit_spec (h o (List.mem_cons_self ..)) hs
    obtain ⟨s', hs', hin', hout', hrest⟩ := ih (fun o ho => h o (List.mem_cons_of_mem _ ho)) hs₁
    refine ⟨s', hs', hin'.trans hin₁, ?_, ?_⟩
    · rw [List.filterMap_cons_some hframe]
      exact hout₁.trans hout'
    · rw [List.foldlM_cons, htransmit]
      exact hrest

/-! ## Bulk transfers -/

def bulkApids : List UInt16 := [apidBulkCalcTx, apidBulkFtTx, apidBulkVidTx]

def Output.bulk? : Output → Option ToNetwork
  | .toNetwork m => if m.apid ∈ bulkApids then some m else none
  | .stateSet _ => none

def WholeTransfer (tid : UInt32) (ms : List ToNetwork) : Prop :=
  ∃ apid size content ws, apid ∈ bulkApids ∧ size ≤ maxChunkData ∧ Covers tid size content ws ∧
    ms = ws.map (ToNetwork.mk apid)

inductive Transfers : ℕ → List ToNetwork → Prop
  | none : Transfers 0 []
  | more {k : ℕ} {ms ms' : List ToNetwork} : Transfers k ms →
      WholeTransfer (UInt32.ofNat (k + 1)) ms' → Transfers (k + 1) (ms ++ ms')

theorem sendBulk_whole {apid : UInt16} (hapid : apid ∈ bulkApids) (tid : UInt32) (data : Mem)
    {totalLen : UInt32} {maxData : UInt16} (hpos : 0 < maxData.toNat)
    (hmax : maxData.toNat ≤ maxChunkData) (hlen : totalLen.toNat + maxChunkData < 2 ^ 32) :
    WholeTransfer tid (sendBulk apid tid data totalLen maxData) := by
  have hwide : maxData.toUInt32.toNat = maxData.toNat := UInt16.toNat_toUInt32 maxData
  have hload : totalLen.toNat = (data.load 0 totalLen.toNat).length := (Mem.length_load _ _ _).symm
  refine ⟨apid, maxData.toNat, data.load 0 totalLen.toNat, _, hapid, hmax, ?_,
    sendBulk_spec apid tid data totalLen hpos⟩
  rw [← hwide]
  apply (covers_wrappers_iff tid (by omega) (by omega) hload).mpr
  omega

theorem length_flatten_calc (s : SimState) (stack : Mem) :
    (flatten packCalcEntry stack (calcDummyEntries s)).2 = 180 := by
  rw [(flatten_spec _ _ _).2, List.length_flatMap, List.map_congr_left fun e _ => length_packCalcEntry e]
  rfl

theorem length_flatten_ft (s : SimState) (stack : Mem) :
    (flatten packFtEntry stack (ftDummyEntries s)).2 = 160 := by
  rw [(flatten_spec _ _ _).2, List.length_flatMap, List.map_congr_left fun e _ => length_packFtEntry e]
  rfl

theorem sendDummyBulk_whole (s : SimState) (tid : UInt32) (stack : Mem) (step : ℕ) :
    WholeTransfer tid (sendDummyBulk s tid stack step) := by
  unfold sendDummyBulk
  split
  · apply sendBulk_whole (by decide) tid _ (by decide) (by decide)
    rw [length_flatten_calc]
    decide
  · apply sendBulk_whole (by decide) tid _ (by decide) (by decide)
    rw [length_flatten_ft]
    decide
  · exact sendBulk_whole (by decide) tid _ (by decide) (by decide) (by decide)

theorem filterMap_bulk_toNetwork (ms : List ToNetwork) :
    (ms.map Output.toNetwork).filterMap Output.bulk? = ms.filter fun m => m.apid ∈ bulkApids := by
  rw [List.filterMap_map, ← List.filterMap_eq_filter]
  apply List.filterMap_congr
  intro m _
  by_cases hm : m.apid ∈ bulkApids <;> simp [Output.bulk?, Option.guard, hm]

theorem deliver_bulk (a : PayloadApp) (buf : Inbound) (padding : UInt16) :
    (a.deliver buf padding).sent.filterMap Output.bulk? = [] := by
  apply List.filterMap_eq_nil_iff.mpr
  intro o ho
  cases o with
  | stateSet st => rfl
  | toNetwork m =>
    apply if_neg
    intro hm
    have hnil : dataOn m.apid (a.deliver buf padding).sent = [] :=
      a.deliver_dataOn_nil buf padding (fun h => absurd (h ▸ hm) (by decide))
        (fun h => absurd (h ▸ hm) (by decide))
    have hnone := List.filterMap_eq_nil_iff.mp hnil _ ho
    exact absurd (if_pos rfl) (hnone ▸ Option.some_ne_none _).symm

theorem onTick_bulk (a : PayloadApp) (cpuTemp : ℕ → UInt32) (stack : Mem) :
    (a.onTick cpuTemp stack).2.filterMap Output.bulk? =
      a.transferDue stack (a.onTick cpuTemp stack).1.sim := by
  have hcommand : a.commandDue.filter (fun m => m.apid ∈ bulkApids) = [] := by
    apply List.filter_eq_nil_iff.mpr
    intro m hm
    rw [a.apid_of_mem_commandDue hm]
    decide
  have htransfer : (a.transferDue stack (a.onTick cpuTemp stack).1.sim).filter
      (fun m => m.apid ∈ bulkApids) = a.transferDue stack (a.onTick cpuTemp stack).1.sim := by
    apply List.filter_eq_self.mpr
    intro m hm
    simpa [bulkApids] using a.apid_of_mem_transferDue stack hm
  have htelem : Output.bulk? (.toNetwork ⟨apidTelemTx,
      buildTelemetry (a.onTick cpuTemp stack).1.sim⟩) = none := by
    have hnot : apidTelemTx ∉ bulkApids := by decide
    simp [Output.bulk?, hnot]
  rw [PayloadApp.onTick_sent, List.filterMap_cons_none htelem, filterMap_bulk_toNetwork,
    List.filter_append, hcommand, htransfer, List.nil_append]

structure MainLoop.Numbered (l : MainLoop) : Prop where
  steps : l.app.bulkStep = l.app.tick / 10
  next : l.app.nextTransferId = UInt32.ofNat (l.app.bulkStep + 1)
  transfers : Transfers l.app.bulkStep (l.sent.filterMap Output.bulk?)

theorem deliver_counters (a : PayloadApp) (buf : Inbound) (padding : UInt16) :
    (a.deliver buf padding).app.bulkStep = a.bulkStep ∧
      (a.deliver buf padding).app.nextTransferId = a.nextTransferId := by
  unfold PayloadApp.deliver
  rcases handleDeliver buf with _ | ⟨apid, f⟩
  · exact ⟨rfl, rfl⟩
  · cases apid <;> exact ⟨rfl, rfl⟩

theorem MainLoop.Numbered.round {cpuTemp : ℕ → UInt32} {l l' : MainLoop} {t : Round} (h : l.Numbered)
    (hround : l.round cpuTemp t = some (l', true)) : l'.Numbered := by
  obtain ⟨hsteps, hnext, htransfers⟩ := h
  cases MainLoop.round_moves hround with
  | stays happ _ hsent =>
    exact ⟨by rw [happ, hsteps], by rw [happ, hnext], by rw [happ, hsent]; exact htransfers⟩
  | delivers payload happ _ hsent =>
    obtain ⟨hstep', hnext'⟩ := deliver_counters l.app ⟨t.stack.store 0 payload, payload.length⟩ t.padding
    refine ⟨?_, ?_, ?_⟩
    · rw [happ, hstep', PayloadApp.deliver_tick, hsteps]
    · rw [happ, hnext', hstep', hnext]
    · rw [happ, hstep', hsent, List.filterMap_append, deliver_bulk, List.append_nil]
      exact htransfers
  | ticks happ _ hsent hpolled =>
    have htick : l'.app.tick = l.app.tick + 1 := by rw [happ]; rfl
    have hstep' : l'.app.bulkStep =
        if (l.app.tick + 1) % 10 = 0 then l.app.bulkStep + 1 else l.app.bulkStep := by rw [happ]; rfl
    have hnext' : l'.app.nextTransferId =
        if (l.app.tick + 1) % 10 = 0 then l.app.nextTransferId + 1 else l.app.nextTransferId := by
      rw [happ]; rfl
    have hbulk : l'.sent.filterMap Output.bulk? = l.sent.filterMap Output.bulk? ++
        l.app.transferDue t.stack l'.app.sim := by
      rw [hsent, happ, List.filterMap_append, onTick_bulk]
    by_cases hdue : (l.app.tick + 1) % 10 = 0
    · rw [if_pos hdue] at hstep' hnext'
      refine ⟨by omega, ?_, ?_⟩
      · rw [hnext', hstep', hnext]
        rw [UInt32.ofNat_add (l.app.bulkStep + 1) 1]
        rfl
      · rw [hstep', hbulk, PayloadApp.transferDue, if_pos hdue, hnext]
        exact .more htransfers (sendDummyBulk_whole _ _ _ _)
    · rw [if_neg hdue] at hstep' hnext'
      refine ⟨by omega, by rw [hnext', hstep', hnext], ?_⟩
      rw [hstep', hbulk, PayloadApp.transferDue, if_neg hdue, List.append_nil]
      exact htransfers

/-- In every run of the loop, whatever is delivered to it and whenever it ticks: every tenth
tick begins a bulk transfer, the transfers have the ids 1, 2, ... in turn, and each one is sent
as a whole, chunk by chunk on one APID, with no chunk of another transfer in between. -/
theorem bulk_transfers_whole {cpuTemp : ℕ → UInt32} {sim : SimState} {s : Socket} {clock : Timespec}
    {ts : List Round} {l : MainLoop}
    (h : MainLoop.Runs cpuTemp (MainLoop.start sim s clock) ts l) :
    Transfers (l.app.tick / 10) (l.sent.filterMap Output.bulk?) := by
  have hnumbered : l.Numbered := by
    induction h with
    | start => exact ⟨(Nat.zero_div 10).symm, rfl, .none⟩
    | round _ hround ih => exact ih.round hround
  rw [← hnumbered.steps]
  exact hnumbered.transfers

theorem runs_ticking (cpuTemp : ℕ → UInt32) (l₀ : MainLoop) (n : ℕ) : ∃ l,
    MainLoop.Runs cpuTemp l₀ (List.replicate n tickRound) l ∧ l.app.tick = l₀.app.tick + n := by
  induction n with
  | zero => exact ⟨l₀, .start, rfl⟩
  | succ n ih =>
    obtain ⟨l, hl, htick⟩ := ih
    obtain ⟨l', hl'⟩ := l.tick_isSome cpuTemp tickRound
    have hround : l.round cpuTemp tickRound = some (l', true) := by
      change (l.tick cpuTemp tickRound).map (fun l => (l, true)) = _
      rw [hl']
      rfl
    refine ⟨l', ?_, ?_⟩
    · rw [List.replicate_succ']
      exact hl.round hround
    · obtain ⟨s, -, rfl⟩ := MainLoop.send_eq_some hl'
      change l.app.tick + 1 = _
      omega

/-- After twenty ticks there have been two transfers. -/
theorem bulk_transfers_whole_ticking : ∃ l,
    MainLoop.Runs (fun _ => 0x420C0000) quietLoop (List.replicate 20 tickRound) l ∧
      Transfers 2 (l.sent.filterMap Output.bulk?) := by
  obtain ⟨l, hl, htick⟩ := runs_ticking (fun _ => 0x420C0000) quietLoop 20
  have htransfers := bulk_transfers_whole hl
  rw [htick] at htransfers
  exact ⟨l, hl, htransfers⟩

end PiDaemon.App
