import PiDaemon.Server.Steps

/-!
# Incoming streams

The frames handled for a connection and the frames still in front of it (in the
receive buffer or unread in the kernel) are together the parse of what the client
writes; this holds at every step and does not depend on how the bytes arrive.

A client that closes its end is a different matter. A hang-up or an end-of-file
condemns the connection before the parse loop is entered, so whatever arrived
since the last round is dropped. `handled_all_iff` says exactly when that costs
a frame.
-/

namespace PiDaemon.Server

open Base Proto Store

def NoFrame (bs : List UInt8) : Prop :=
  ∀ hdr body rest, frameFormat.head bs ≠ .frame hdr body rest

theorem noFrame_nil : NoFrame [] := by
  simp [NoFrame, Format.head_nil]

/-! ## Handled and still to come -/

def Endpoint.ahead (e : Endpoint) : List UInt8 := e.conn.rxbuf ++ e.peer.unread

structure Parsed (e : Endpoint) : Prop where
  frames : parseFrames e.peer.stream = e.peer.handled ++ parseFrames e.ahead
  left : frameFormat.leftover e.peer.stream = frameFormat.leftover e.ahead

theorem Parsed.of_ahead_eq {e e' : Endpoint} (h : Parsed e) (hstream : e'.peer.stream = e.peer.stream)
    (hhandled : e'.peer.handled = e.peer.handled) (hahead : e'.ahead = e.ahead) : Parsed e' := by
  constructor
  · rw [hstream, hhandled, hahead, h.frames]
  · rw [hstream, hahead, h.left]

theorem Endpoint.ahead_receive (e : Endpoint) (n : ℕ) : (e.receive n).ahead = e.ahead := by
  simp [ahead, receive]

theorem Parsed.consume {e : Endpoint} (h : Parsed e) {hdr body rest : List UInt8}
    (hhead : frameFormat.head e.conn.rxbuf = .frame hdr body rest) :
    Parsed ((e.note ⟨hdrType hdr, body⟩).setRx rest) := by
  have hfirst := frameFormat.head_append_frame e.peer.unread hhead
  constructor
  · calc
      parseFrames e.peer.stream = e.peer.handled ++ parseFrames (e.conn.rxbuf ++ e.peer.unread) :=
        h.frames
      _ = e.peer.handled ++ (⟨hdrType hdr, body⟩ :: parseFrames (rest ++ e.peer.unread)) := by
        rw [parseFrames, frameFormat.frames_of_frame hfirst]
        rfl
      _ = (e.peer.handled ++ [⟨hdrType hdr, body⟩]) ++ parseFrames (rest ++ e.peer.unread) := by
        simp
  · exact h.left.trans (frameFormat.leftover_of_frame hfirst)

theorem parsed_local : Local Parsed where
  fresh := ⟨rfl, rfl⟩
  accepted _ _ _ := ⟨rfl, rfl⟩
  markPoll h := h.of_ahead_eq rfl rfl rfl
  condemn h := h.of_ahead_eq rfl rfl rfl
  receive n _ _ h := h.of_ahead_eq rfl rfl (Endpoint.ahead_receive _ n)
  consume _ hhead h := h.consume hhead
  setName _ _ h := h.of_ahead_eq rfl rfl rfl
  queueSend f p r ok h := h.of_ahead_eq rfl rfl (by simp [Endpoint.ahead])
  flush rs _ h := h.of_ahead_eq rfl rfl (by simp [Endpoint.ahead])

/-! ## Between two passes over a connection -/

/-- Outside its own pass a connection is condemned only by failing output, and
otherwise waits for more bytes. -/
structure Idle (e : Endpoint) : Prop where
  condemned : e.conn.shouldClose = true → e.peer.outputFailed = true
  waiting : e.conn.shouldClose = false → NoFrame e.conn.rxbuf

/-- Within its pass a connection is condemned by failing output, by a refused
registration, or by a stream that is not made of whole frames. -/
def Excused (e : Endpoint) : Prop :=
  e.conn.shouldClose = true →
    e.peer.outputFailed = true ∨ e.conn.registered = false ∨
      frameFormat.leftover e.peer.stream ≠ []

/-- A connection of a registered client that wrote whole frames, with no output
failure, has frames ahead when it is closed exactly if bytes were unread when the
closing pass began. -/
def Accounted (e : Endpoint) : Prop :=
  e.conn.registered = true → e.peer.outputFailed = false →
    frameFormat.leftover e.peer.stream = [] → (e.ahead = [] ↔ e.peer.atPoll = [])

theorem Excused.accounted {e : Endpoint} (h : Excused e) (hclose : e.conn.shouldClose = true) :
    Accounted e := by
  intro hreg hout hleft
  obtain h | h | h := h hclose
  · simp [h] at hout
  · simp [h] at hreg
  · exact absurd hleft h

theorem Excused.of_open {e : Endpoint} (h : e.conn.shouldClose = false) : Excused e := by
  intro hc
  simp [h] at hc

theorem Idle.excused {e : Endpoint} (h : Idle e) : Excused e := fun hc => .inl (h.condemned hc)

theorem Endpoint.queueSend_outputFailed (e : Endpoint) (f : Frame) (p : UInt16) (r : SendResult)
    (ok : Bool) (hafter : (e.queueSend f p r ok).conn.shouldClose = true) :
    e.conn.shouldClose = true ∨ (e.queueSend f p r ok).peer.outputFailed = true := by
  cases hbefore : e.conn.shouldClose with
  | true => exact .inl rfl
  | false =>
    have : (Server.queueSend e.conn f p r ok).1.shouldClose = true := hafter
    exact .inr (by simp [Endpoint.queueSend, this, hbefore])

theorem Endpoint.flush_outputFailed (e : Endpoint) (rs : List SendResult)
    (hbefore : e.conn.shouldClose = false) (hafter : (e.flush rs).conn.shouldClose = true) :
    (e.flush rs).peer.outputFailed = true := by
  have : (flushTx e.conn rs).1.shouldClose = true := hafter
  simp [Endpoint.flush, this, hbefore]

theorem Idle.queueSend {e : Endpoint} (h : Idle e) (f : Frame) (p : UInt16) (r : SendResult)
    (ok : Bool) :
    Idle (e.queueSend f p r ok) := by
  constructor
  · intro hc
    obtain hbefore | hfail := e.queueSend_outputFailed f p r ok hc
    · simp [Endpoint.queueSend, h.condemned hbefore]
    · exact hfail
  · intro hc
    rw [Endpoint.queueSend_rxbuf]
    exact h.waiting ((e.queueSend_conn f p r ok).opened hc)

theorem Excused.queueSend {e : Endpoint} (h : Excused e) (f : Frame) (p : UInt16) (r : SendResult)
    (ok : Bool) :
    Excused (e.queueSend f p r ok) := by
  intro hc
  obtain hbefore | hfail := e.queueSend_outputFailed f p r ok hc
  · obtain h | h | h := h hbefore
    · exact .inl (by simp [Endpoint.queueSend, h])
    · exact .inr (.inl (by simpa using h))
    · exact .inr (.inr h)
  · exact .inl hfail

theorem accounted_of_unparsed {e e' : Endpoint} (hidle : Idle e) (hopen : e.conn.shouldClose = false)
    (hparsed : Parsed e) (hstream : e'.peer.stream = e.peer.stream) (hahead : e'.ahead = e.ahead)
    (hpoll : e'.peer.atPoll = e.peer.unread) : Accounted e' := by
  intro _ _ hleft
  rw [hahead, hpoll]
  constructor
  · intro h
    exact (List.append_eq_nil_iff.mp h).2
  · intro h
    rw [hstream, hparsed.left, Endpoint.ahead, h, List.append_nil] at hleft
    rw [Endpoint.ahead, h, List.append_nil, ← hleft]
    exact (frameFormat.readFrames_stop (hidle.waiting hopen)).2.symm

/-! ## One pass -/

structure Between (w : World) : Prop where
  idle (i : Slot) : Idle (w.clients i)
  parsed : Everywhere Parsed w
  accounted {e : Endpoint} : e ∈ w.closed → Accounted e

structure Passing (w : World) (i : Slot) : Prop where
  inUse : (w.conn i).inUse = true
  others (j : Slot) : j ≠ i → Idle (w.clients j)
  excused : Excused (w.clients i)
  parsed : Everywhere Parsed w
  accounted {e : Endpoint} : e ∈ w.closed → Accounted e

namespace World

theorem between_closeClient {w : World} {i : Slot} (hothers : ∀ j, j ≠ i → Idle (w.clients j))
    (hparsed : Everywhere Parsed w) (hclosed : ∀ {e}, e ∈ w.closed → Accounted e)
    (hi : Accounted (w.clients i)) : Between (w.closeClient i) := by
  have hfresh : Everywhere Parsed (w.modify i fun _ => {}) :=
    hparsed.modify fun _ => parsed_local.fresh
  refine ⟨fun j => ?_, ⟨hfresh.live, fun he => ?_⟩, fun he => ?_⟩
  · by_cases hj : j = i
    · subst hj
      simpa [closeClient] using ⟨fun h => by simp at h, fun _ => noFrame_nil⟩
    · simpa [closeClient, modify, hj] using hothers j hj
  · obtain he | he := List.mem_append.mp he
    · exact hparsed.closed he
    · exact List.mem_singleton.mp he ▸ hparsed.live i
  · obtain he | he := List.mem_append.mp he
    · exact hclosed he
    · exact List.mem_singleton.mp he ▸ hi

end World

theorem Passing.dispatch {w : World} {i : Slot} (h : Passing w i)
    (hopen : (w.conn i).shouldClose = false) {hdr body rest : List UInt8}
    (hhead : frameFormat.head (w.conn i).rxbuf = .frame hdr body rest) :
    Passing (w.dispatch i ⟨hdrType hdr, body⟩ rest) i := by
  have hpoint : ∀ j, if j = i then Excused ((w.dispatch i ⟨hdrType hdr, body⟩ rest).clients j)
      else Idle ((w.dispatch i ⟨hdrType hdr, body⟩ rest).clients j) := by
    refine World.dispatch_pointwise (P := fun j e => if j = i then Excused e else Idle e)
      ?_ ?_ ?_ ?_ ?_
    · intro j e g p r ok he
      split_ifs with hj
      · exact Excused.queueSend (by simpa [hj] using he) g p r ok
      · exact Idle.queueSend (by simpa [hj] using he) g p r ok
    · intro e hreg _
      rw [if_pos rfl]
      exact fun _ => .inr (.inl hreg)
    · intro name _
      rw [if_pos rfl]
      exact .of_open hopen
    · rw [if_pos rfl]
      exact .of_open hopen
    · intro j hj
      simpa [hj] using h.others j hj
  refine ⟨(World.dispatch_inUse w i _ _ i).trans h.inUse, fun j hj => ?_, ?_,
    parsed_local.step h.parsed (.handle w i h.inUse hopen hhead), fun he => ?_⟩
  · simpa [hj] using hpoint j
  · simpa using hpoint i
  · rw [World.dispatch_closed] at he
    exact h.accounted he

theorem World.dispatch_rxbuf (w : World) (i : Slot) (f : Frame) (rest : List UInt8) :
    ((w.dispatch i f rest).conn i).rxbuf = rest := by
  refine World.dispatch_pointwise (w := w) (i := i) (f := f)
    (P := fun j e => j = i → e.conn.rxbuf = rest) ?_ ?_ ?_ ?_ ?_ i rfl
  · intro j e g p r ok h hj
    rw [Endpoint.queueSend_rxbuf, h hj]
  · exact fun e _ h => h
  · exact fun _ _ _ => rfl
  · exact fun _ => rfl
  · exact fun j hj h => absurd h hj

/-- The parse loop keeps to the pass and stops only where no complete frame is left. -/
theorem Passing.parseLoop {i : Slot} (fuel : ℕ) : ∀ {w : World}, Passing w i →
    (w.conn i).rxbuf.length ≤ fuel →
    Passing (World.parseLoop fuel w i) i ∧
      (((World.parseLoop fuel w i).conn i).shouldClose = false →
        NoFrame ((World.parseLoop fuel w i).conn i).rxbuf) := by
  induction fuel with
  | zero =>
    intro w h hlen
    have hempty : (w.conn i).rxbuf = [] := List.length_eq_zero_iff.mp (by omega)
    refine ⟨h, fun _ => ?_⟩
    rw [World.parseLoop, hempty]
    exact noFrame_nil
  | succ fuel ih =>
    intro w h hlen
    unfold World.parseLoop
    split_ifs with hclose
    · exact ⟨h, fun hopen => by simp [hclose] at hopen⟩
    · have hopen : (w.conn i).shouldClose = false := by simpa using hclose
      cases hhead : frameFormat.head (w.conn i).rxbuf with
      | short => exact ⟨h, fun _ hdr body rest hf => by simp [hhead] at hf⟩
      | oversized =>
        -- the oversized header stays at the front of the stream, so the stream has a leftover
        have hlong := frameFormat.head_append_oversized (w.peer i).unread hhead
        have hstop : frameFormat.leftover (w.clients i).ahead = (w.clients i).ahead :=
          (frameFormat.readFrames_stop (by simp [Endpoint.ahead, hlong])).2
        have hleft : frameFormat.leftover (w.peer i).stream ≠ [] := by
          rw [(h.parsed.live i).left, hstop]
          intro hnil
          rw [Endpoint.ahead] at hnil
          rw [hnil, Format.head_nil] at hlong
          cases hlong
        have hexcused : Excused (w.clients i).condemn := fun _ => .inr (.inr hleft)
        refine ⟨⟨?_, fun j hj => ?_, ?_, h.parsed.modify parsed_local.condemn, h.accounted⟩, ?_⟩
        · simpa [World.conn, World.condemn] using h.inUse
        · simpa [World.condemn, hj] using h.others j hj
        · simpa [World.condemn] using hexcused
        · simp [World.conn, World.condemn]
      | frame hdr body rest =>
        have hshort := frameFormat.rest_length_lt hhead
        refine ih (h.dispatch hopen hhead) ?_
        rw [World.dispatch_rxbuf]
        omega

theorem Passing.finish {w : World} {i : Slot} (h : Passing w i)
    (hwait : (w.conn i).shouldClose = false → NoFrame (w.conn i).rxbuf) :
    Between (w.finish i) := by
  cases hclose : (w.conn i).shouldClose with
  | true =>
    rw [World.finish_of_condemned hclose]
    exact World.between_closeClient h.others h.parsed h.accounted (h.excused.accounted hclose)
  | false =>
    have hflush : (w.flush i).clients i = (w.clients i).flush w.sends := by simp
    have hothers (j : Slot) (hj : j ≠ i) : Idle ((w.flush i).clients j) := by
      simpa [hj] using h.others j hj
    have hparsed : Everywhere Parsed (w.flush i) :=
      parsed_local.step h.parsed (.flush w i h.inUse hclose)
    rw [World.finish_of_open hclose]
    split_ifs with hfail
    · refine World.between_closeClient hothers hparsed h.accounted ?_
      rw [World.conn, hflush] at hfail
      have hout := (w.clients i).flush_outputFailed w.sends hclose hfail
      exact Excused.accounted (e := (w.flush i).clients i) (fun _ => .inl (hflush ▸ hout))
        (hflush ▸ hfail)
    · refine ⟨fun j => ?_, hparsed, h.accounted⟩
      by_cases hj : j = i
      · subst hj
        refine ⟨fun hc => absurd hc hfail, fun _ => ?_⟩
        rw [hflush, Endpoint.flush_rxbuf]
        exact hwait hclose
      · exact hothers j hj

theorem Between.closeUnparsed {w : World} {i : Slot} (h : Between w)
    (hopen : (w.conn i).shouldClose = false) {g : Endpoint → Endpoint}
    (hstream : (g (w.clients i)).peer.stream = (w.peer i).stream)
    (hhandled : (g (w.clients i)).peer.handled = (w.peer i).handled)
    (hahead : (g (w.clients i)).ahead = (w.clients i).ahead)
    (hpoll : (g (w.clients i)).peer.atPoll = (w.peer i).unread) :
    Between ((w.modify i g).closeClient i) := by
  have hg : (w.modify i g).clients i = g (w.clients i) := by simp
  refine World.between_closeClient (fun j hj => ?_)
    (h.parsed.modify fun hp => hp.of_ahead_eq hstream hhandled hahead) h.accounted ?_
  · simpa [hj] using h.idle j
  · rw [hg]
    exact accounted_of_unparsed (h.idle i) hopen (h.parsed.live i) hstream hahead hpoll

namespace World

theorem condemn_of_condemned {w : World} {i : Slot} (h : (w.conn i).shouldClose = true) :
    w.condemn i = w := by
  apply modify_self
  rw [Endpoint.condemn, ← h]

theorem parseLoop_of_condemned {w : World} {i : Slot} (h : (w.conn i).shouldClose = true)
    (fuel : ℕ) : parseLoop fuel w i = w := by
  cases fuel with
  | zero => rfl
  | succ fuel => rw [parseLoop, if_pos h]

theorem readAndParse_of_condemned {w : World} {i : Slot} (h : (w.conn i).shouldClose = true)
    (p : PollFd) : w.readAndParse i p = w := by
  simp [readAndParse, h]

end World

theorem recvLoop_spec (e : Endpoint) (rs : List RecvChoice) :
    (e.recvLoop rs).peer.stream = e.peer.stream ∧ (e.recvLoop rs).peer.handled = e.peer.handled ∧
      (e.recvLoop rs).ahead = e.ahead ∧ (e.recvLoop rs).peer.atPoll = e.peer.atPoll := by
  refine Endpoint.recvLoop_rule (P := fun e' => e'.peer.stream = e.peer.stream ∧
    e'.peer.handled = e.peer.handled ∧ e'.ahead = e.ahead ∧ e'.peer.atPoll = e.peer.atPoll)
    (fun _ h => h) ?_ rs e ⟨rfl, rfl, rfl, rfl⟩
  rintro e' n ⟨h1, h2, h3, h4⟩
  exact ⟨h1, h2, (e'.ahead_receive n).trans h3, h4⟩

theorem Between.passing {w : World} {i : Slot} (h : Between w) (huse : (w.conn i).inUse = true) :
    Passing (w.markPoll i) i := by
  have hmark : (w.markPoll i).clients i = (w.clients i).markPoll := by simp [World.markPoll]
  refine ⟨?_, fun j hj => ?_, ?_, parsed_local.step h.parsed (.markPoll w i huse), h.accounted⟩
  · simpa [World.conn, hmark] using huse
  · simpa [World.markPoll, hj] using h.idle j
  · rw [hmark]
    exact (h.idle i).excused

theorem Between.readAndParse {w : World} {i : Slot} (h : Between w)
    (huse : (w.conn i).inUse = true) (hopen : (w.conn i).shouldClose = false) (p : PollFd)
    (hin : p.revents.pollin = true) : Between (((w.markPoll i).readAndParse i p).finish i) := by
  obtain ⟨hs, hh, ha, hp⟩ := recvLoop_spec (w.clients i).markPoll p.recvs
  let g : Endpoint → Endpoint := fun e => e.markPoll.recvLoop p.recvs
  have hread : (w.markPoll i).readAndParse i p =
      World.parseLoop ((w.modify i g).conn i).rxbuf.length (w.modify i g) i := by
    have hopen' : ((w.markPoll i).conn i).shouldClose = false := by
      simpa [World.conn, World.markPoll] using hopen
    simp only [World.readAndParse, hopen', hin, Bool.not_false, Bool.and_true, if_true]
    rw [World.markPoll, World.modify_modify]
  rw [hread]
  cases hclose : ((w.modify i g).conn i).shouldClose with
  | true =>
    rw [World.parseLoop_of_condemned hclose, World.finish_of_condemned hclose]
    exact h.closeUnparsed hopen hs hh ha hp
  | false =>
    have hpass : Passing (w.modify i g) i := by
      refine ⟨?_, fun j hj => ?_, .of_open hclose,
        h.parsed.modify fun hp => hp.of_ahead_eq hs hh ha, h.accounted⟩
      · simpa [World.conn, g, World.recvLoop_inUse] using huse
      · simpa [hj] using h.idle j
    obtain ⟨hend, hwait⟩ := hpass.parseLoop _ le_rfl
    exact hend.finish hwait

/-- One pass over a connection, whatever `poll()` and `recv()` report for it. -/
theorem Between.serveSlot {w : World} {i : Slot} (h : Between w) (huse : (w.conn i).inUse = true)
    (p : PollFd) : Between (w.serveSlot i p) := by
  have hpass := h.passing huse
  have hmark : (w.markPoll i).clients i = (w.clients i).markPoll := by simp [World.markPoll]
  have hcondemned : (((w.markPoll i).condemn i).conn i).shouldClose = true := by
    simp [World.conn, World.condemn]
  unfold World.serveSlot World.hangUp
  cases hclose : (w.conn i).shouldClose with
  | true =>
    have hmarked : ((w.markPoll i).conn i).shouldClose = true := by
      simpa [World.conn, hmark] using hclose
    rw [World.condemn_of_condemned hmarked, ite_self, World.readAndParse_of_condemned hmarked]
    exact hpass.finish fun hopen => by simp [hmarked] at hopen
  | false =>
    split_ifs
    · rw [World.readAndParse_of_condemned hcondemned, World.finish_of_condemned hcondemned,
        World.condemn, World.markPoll, World.modify_modify]
      exact h.closeUnparsed hclose rfl rfl rfl rfl
    · cases hin : p.revents.pollin with
      | true => exact h.readAndParse huse hclose p hin
      | false =>
        have hskip : (w.markPoll i).readAndParse i p = w.markPoll i := by
          simp [World.readAndParse, hin]
        rw [hskip]
        refine hpass.finish fun _ => ?_
        rw [World.conn, hmark]
        exact (h.idle i).waiting hclose

/-! ## Whole runs -/

theorem Between.accept {w : World} (h : Between w) {i : Slot} (hi : (w.conn i).inUse = false)
    (fd : ℤ) (stream : List UInt8) : Between (w.accept i fd stream) := by
  refine ⟨fun j => ?_, parsed_local.step h.parsed (.accept w i fd stream hi), h.accounted⟩
  rw [World.accept_clients]
  split_ifs
  · exact ⟨fun hc => by simp [Endpoint.accepted] at hc, fun _ => noFrame_nil⟩
  · exact h.idle j

theorem Serving.between {b : Boot} {w : World} (h : Serving b w) : Between w := by
  induction h with
  | boot =>
    exact ⟨fun i => ⟨fun hc => by simp [Boot.world] at hc, fun _ => noFrame_nil⟩,
      parsed_local.reachable .refl, fun he => by cases he⟩
  | collect m _ ih => exact ⟨ih.idle, ⟨ih.parsed.live, ih.parsed.closed⟩, ih.accounted⟩
  | accept i fd stream hfree _ ih => exact ih.accept hfree fd stream
  | pass i p huse _ ih => exact ih.serveSlot huse p

theorem Run.between {b : Boot} {w : World} (h : Run b w) : Between w := h.serving.between

/-- A registered client wrote whole frames and closed its end, and no output to it
failed. Every one of its frames was handled, once and in order, if and only if the
service pass that closed the connection found no byte of it unread. -/
theorem handled_all_iff {b : Boot} {w : World} (h : Run b w) {e : Endpoint} (he : e ∈ w.closed)
    (hreg : e.conn.registered = true) (hout : e.peer.outputFailed = false)
    (hwhole : frameFormat.leftover e.peer.stream = []) :
    e.peer.handled = parseFrames e.peer.stream ↔ e.peer.atPoll = [] := by
  have hparsed : Parsed e := h.between.parsed.closed he
  rw [← h.between.accounted he hreg hout hwhole, hparsed.frames, List.self_eq_append_right]
  constructor
  · intro hnone
    by_contra hne
    have hleft : frameFormat.leftover e.ahead = [] := hparsed.left.symm.trans hwhole
    exact frameFormat.frames_ne_nil hne hleft (List.map_eq_nil_iff.mp hnone)
  · intro hnil
    rw [hnil]
    rfl

/-- A client registers, sends a `DMSG_PING` and closes its end. The registration is
read in one round; the next two rounds are as given. -/
def pingAndLeave (third fourth : World.Ready) : World :=
  let stream := (registerAs 97).encode 0 ++ (⟨MsgType.ping.code, []⟩ : Frame).encode 0
  let readable : World.Ready := { revents := { pollin := true }, recvs := [.bytes 40, .again] }
  ((((Boot.fresh [.sent 8, .sent 8] []).world.round [readable] [.conn 5 stream]).round
    [{}, readable] []).round [{}, third] []).round [{}, fourth] []

theorem pingAndLeave_run (third fourth : World.Ready) :
    Run (Boot.fresh [.sent 8, .sent 8] []) (pingAndLeave third fourth) := by
  unfold pingAndLeave
  exact .round _ _ (.round _ _ (.round _ _ (.round _ _ .boot)))

def pingThenHangUp : World :=
  pingAndLeave { revents := { pollin := true }, recvs := [.bytes 8, .again] }
    { revents := { pollin := true, pollhup := true } }

theorem handled_all_pingThenHangUp :
    (pingThenHangUp.closed.headD {}).peer.handled.length = 2 ∧
      (pingThenHangUp.closed.headD {}).peer.handled =
        parseFrames (pingThenHangUp.closed.headD {}).peer.stream :=
  ⟨by decide +kernel, (handled_all_iff (w := pingThenHangUp) (pingAndLeave_run _ _)
    (e := pingThenHangUp.closed.headD {})
    (by decide +kernel) (by decide +kernel) (by decide +kernel) (by decide +kernel)).mpr
      (by decide +kernel)⟩

/-- When the hang-up is reported together with the ping, the ping is dropped. -/
theorem frame_lost_at_hangUp : ∃ (b : Boot) (w : World), Run b w ∧ ∃ e ∈ w.closed,
    e.conn.registered = true ∧ e.peer.outputFailed = false ∧
      frameFormat.leftover e.peer.stream = [] ∧ e.peer.handled ≠ parseFrames e.peer.stream :=
  ⟨_, _, pingAndLeave_run { revents := { pollin := true, pollhup := true } } {}, by decide +kernel⟩

end PiDaemon.Server
