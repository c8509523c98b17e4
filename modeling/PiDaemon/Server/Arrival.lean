import PiDaemon.Server.Incoming

/-!
# Framing does not depend on how the bytes arrive

A client's bytes come in pieces: `recv()` returns any part of them, is interrupted or
has nothing yet, and the rest is read in a later pass. Whatever the pieces are, the
frames handled so far are the frames of the bytes received so far, and the receive
buffer holds what is behind the last of them. That is always less than the buffer's
size, so `recv()` always has room to read into.
-/

namespace PiDaemon.Server

open Base Proto Store

/-! ## Received bytes -/

/-- `received` has been taken from the stream, and whatever follows it, the frames are
those handled and those found in the receive buffer. -/
structure Reads (e : Endpoint) (received : List UInt8) : Prop where
  stream : e.peer.stream = received ++ e.peer.unread
  frames (more : List UInt8) :
    parseFrames (received ++ more) = e.peer.handled ++ parseFrames (e.conn.rxbuf ++ more)
  left (more : List UInt8) :
    frameFormat.leftover (received ++ more) = frameFormat.leftover (e.conn.rxbuf ++ more)

namespace Reads

variable {e e' : Endpoint} {received : List UInt8}

theorem congr (h : Reads e received) (hstream : e'.peer.stream = e.peer.stream)
    (hunread : e'.peer.unread = e.peer.unread) (hhandled : e'.peer.handled = e.peer.handled)
    (hrx : e'.conn.rxbuf = e.conn.rxbuf) : Reads e' received where
  stream := by rw [hstream, hunread, h.stream]
  frames more := by rw [hhandled, hrx, h.frames]
  left more := by rw [hrx, h.left]

theorem receive (h : Reads e received) (n : ℕ) :
    Reads (e.receive n) (received ++ e.peer.unread.take n) where
  stream := by
    rw [List.append_assoc]
    exact h.stream.trans (by rw [Endpoint.receive, List.take_append_drop])
  frames more := by
    rw [List.append_assoc, h.frames, ← List.append_assoc]
    rfl
  left more := by
    rw [List.append_assoc, h.left, ← List.append_assoc]
    rfl

theorem consume (h : Reads e received) {hdr body rest : List UInt8}
    (hhead : frameFormat.head e.conn.rxbuf = .frame hdr body rest) :
    Reads ((e.note ⟨hdrType hdr, body⟩).setRx rest) received where
  stream := h.stream
  frames more := by
    have hfirst := frameFormat.head_append_frame more hhead
    rw [h.frames, parseFrames, frameFormat.frames_of_frame hfirst, List.map_cons]
    simp [Endpoint.note, Endpoint.setRx, parseFrames, ofRaw]
  left more := by
    rw [h.left]
    exact frameFormat.leftover_of_frame (frameFormat.head_append_frame more hhead)

theorem settled (h : Reads e received) (hwait : NoFrame e.conn.rxbuf) :
    e.peer.handled = parseFrames received ∧ e.conn.rxbuf = frameFormat.leftover received := by
  obtain ⟨hnone, hrest⟩ := frameFormat.readFrames_stop hwait
  have hframes := h.frames []
  have hleft := h.left []
  simp only [List.append_nil] at hframes hleft
  constructor
  · rw [hframes, parseFrames, hnone, List.map_nil, List.append_nil]
  · rw [hleft, hrest]

theorem unique {received' : List UInt8} (h : Reads e received) (h' : Reads e' received')
    (hstream : e'.peer.stream = e.peer.stream) (hunread : e'.peer.unread = e.peer.unread) :
    received' = received := by
  have heq := h'.stream.symm.trans (hstream.trans h.stream)
  rw [hunread] at heq
  exact List.append_cancel_right heq

end Reads

theorem reads_local : Local fun e => ∃ received, Reads e received where
  fresh := ⟨[], rfl, fun _ => rfl, fun _ => rfl⟩
  accepted _ _ _ := ⟨[], rfl, fun _ => rfl, fun _ => rfl⟩
  markPoll := fun ⟨r, h⟩ => ⟨r, h.congr rfl rfl rfl rfl⟩
  condemn := fun ⟨r, h⟩ => ⟨r, h.congr rfl rfl rfl rfl⟩
  receive n _ _ := fun ⟨_, h⟩ => ⟨_, h.receive n⟩
  consume _ hhead := fun ⟨r, h⟩ => ⟨r, h.consume hhead⟩
  setName _ _ := fun ⟨r, h⟩ => ⟨r, h.congr rfl rfl rfl rfl⟩
  queueSend f p r ok := fun ⟨r', h⟩ => ⟨r', h.congr rfl rfl rfl (Endpoint.queueSend_rxbuf _ f p r ok)⟩
  flush rs _ := fun ⟨r, h⟩ => ⟨r, h.congr rfl rfl rfl (Endpoint.flush_rxbuf _ rs)⟩

/-! ## How a pass ends -/

inductive ParseExit
  /-- a handled frame has marked the connection -/
  | closing
  /-- the rest of a frame is missing -/
  | waiting
  | oversized
  deriving DecidableEq, Repr

def World.parseExit : ℕ → World → Slot → ParseExit
  | 0, _, _ => .waiting
  | fuel + 1, w, i =>
    if (w.conn i).shouldClose then .closing
    else
      match frameFormat.head (w.conn i).rxbuf with
      | .short => .waiting
      | .oversized => .oversized
      | .frame hdr body rest => parseExit fuel (w.dispatch i ⟨hdrType hdr, body⟩ rest) i

/-- The size of the window of each `recv()` of a receive loop. -/
def Endpoint.recvWindows (e : Endpoint) : List RecvChoice → List ℕ
  | [] => [rxCap - e.conn.rxbuf.length]
  | r :: rs =>
    (rxCap - e.conn.rxbuf.length) ::
      if rxCap ≤ e.conn.rxbuf.length then []
      else
        match r with
        | .again | .fail | .eof => []
        | .intr => e.recvWindows rs
        | .bytes n =>
          if e.peer.unread = [] then []
          else
            let e' := e.receive (min (max n 1) (rxCap - e.conn.rxbuf.length))
            if rxCap ≤ e'.conn.rxbuf.length then [] else e'.recvWindows rs

theorem recvWindows_pos (rs : List RecvChoice) : ∀ {e : Endpoint}, e.conn.rxbuf.length < rxCap →
    ∀ n ∈ e.recvWindows rs, 0 < n := by
  induction rs with
  | nil =>
    intro e hroom n hn
    obtain rfl := List.mem_singleton.mp hn
    exact Nat.sub_pos_of_lt hroom
  | cons r rs ih =>
    intro e hroom n hn
    unfold Endpoint.recvWindows at hn
    rw [if_neg (not_le.mpr hroom)] at hn
    rcases List.mem_cons.mp hn with rfl | hn
    · exact Nat.sub_pos_of_lt hroom
    · cases r with
      | again | fail | eof => simp at hn
      | intr => exact ih hroom n hn
      | bytes m =>
        dsimp only at hn
        split_ifs at hn with hend hfull
        · simp at hn
        · simp at hn
        · exact ih (not_le.mp hfull) n hn

theorem recvLoop_open (rs : List RecvChoice) (hrs : ∀ r ∈ rs, r ≠ .eof ∧ r ≠ .fail) :
    ∀ {e : Endpoint}, e.conn.rxbuf.length < rxCap → e.conn.shouldClose = false →
      (e.recvLoop rs).conn.shouldClose = false := by
  induction rs with
  | nil =>
    intro e hroom hopen
    rw [Endpoint.recvLoop, if_neg (not_le.mpr hroom)]
    exact hopen
  | cons r rs ih =>
    intro e hroom hopen
    have hr := hrs r (List.mem_cons_self ..)
    have hrest : ∀ r ∈ rs, r ≠ .eof ∧ r ≠ .fail := fun r' hr' =>
      hrs r' (List.mem_cons_of_mem r hr')
    unfold Endpoint.recvLoop
    rw [if_neg (not_le.mpr hroom)]
    cases r with
    | again => exact hopen
    | intr => exact ih hrest hroom hopen
    | fail => exact absurd rfl hr.2
    | eof => exact absurd rfl hr.1
    | bytes n =>
      dsimp only
      split_ifs with hend hfull
      · exact hopen
      · exact hopen
      · exact ih hrest (not_le.mp hfull) hopen

theorem parseExit_spec {i : Slot} (fuel : ℕ) : ∀ {w : World}, (w.conn i).rxbuf.length ≤ fuel →
    match World.parseExit fuel w i with
    | .closing => ((World.parseLoop fuel w i).conn i).shouldClose = true
    | .waiting => frameFormat.head ((World.parseLoop fuel w i).conn i).rxbuf = .short
    | .oversized => ((World.parseLoop fuel w i).conn i).shouldClose = true ∧
        frameFormat.head ((World.parseLoop fuel w i).conn i).rxbuf = .oversized := by
  induction fuel with
  | zero =>
    intro w hlen
    have hempty : (w.conn i).rxbuf = [] := List.length_eq_zero_iff.mp (by omega)
    simp [World.parseExit, World.parseLoop, hempty, Format.head_nil]
  | succ fuel ih =>
    intro w hlen
    unfold World.parseExit World.parseLoop
    cases hclose : (w.conn i).shouldClose with
    | true => simpa using hclose
    | false =>
      simp only [Bool.false_eq_true, if_false]
      cases hhead : frameFormat.head (w.conn i).rxbuf with
      | short => simpa using hhead
      | oversized => simpa [World.conn, World.condemn] using hhead
      | frame hdr body rest =>
        have hshort := frameFormat.rest_length_lt hhead
        refine ih ?_
        rw [World.dispatch_rxbuf]
        omega

def Settled (w : World) : Prop :=
  ∀ i, (w.conn i).shouldClose = false → frameFormat.head (w.conn i).rxbuf = .short

structure Beside (e e' : Endpoint) : Prop where
  inUse : e'.conn.inUse = e.conn.inUse
  fd : e'.conn.fd = e.conn.fd
  serial : e'.peer.serial = e.peer.serial
  rxbuf : e'.conn.rxbuf = e.conn.rxbuf
  opened : e'.conn.shouldClose = false → e.conn.shouldClose = false

namespace Beside

variable {e e' e'' : Endpoint}

theorem refl (e : Endpoint) : Beside e e := ⟨rfl, rfl, rfl, rfl, id⟩

theorem trans (h : Beside e e') (h' : Beside e' e'') : Beside e e'' where
  inUse := h'.inUse.trans h.inUse
  fd := h'.fd.trans h.fd
  serial := h'.serial.trans h.serial
  rxbuf := h'.rxbuf.trans h.rxbuf
  opened ho := h.opened (h'.opened ho)

theorem output {c : ClientConn} {p : Peer} (hc : OutputOnly e.conn c)
    (hp : p.serial = e.peer.serial) : Beside e ⟨c, p⟩ :=
  ⟨hc.inUse, hc.fd, hp, hc.rxbuf, hc.opened⟩

theorem condemn (e : Endpoint) : Beside e e.condemn := ⟨rfl, rfl, rfl, rfl, by simp⟩

end Beside

theorem parseLoop_beside {i j : Slot} (hj : j ≠ i) (fuel : ℕ) : ∀ {w : World},
    Beside (w.clients j) ((World.parseLoop fuel w i).clients j) := by
  induction fuel with
  | zero => exact .refl _
  | succ fuel ih =>
    intro w
    unfold World.parseLoop
    split_ifs
    · exact .refl _
    · split
      · exact .refl _
      · rw [World.condemn, World.modify_clients, if_neg hj]
        exact .refl _
      · rename_i hdr body rest _
        have hstep : ∀ k, k ≠ i →
            Beside (w.clients k) ((w.dispatch i ⟨hdrType hdr, body⟩ rest).clients k) := by
          refine World.dispatch_pointwise (P := fun k e => k ≠ i → Beside (w.clients k) e) ?_ ?_ ?_ ?_ ?_
          · exact fun k e g p r ok h hk => (h hk).trans (.output (e.queueSend_conn g p r ok) rfl)
          · exact fun _ _ _ hk => absurd rfl hk
          · exact fun _ _ hk => absurd rfl hk
          · exact fun hk => absurd rfl hk
          · exact fun _ _ _ => .refl _
        exact (hstep j hj).trans ih

theorem Settled.of_beside {w w' : World} (h : Settled w)
    (hbeside : ∀ j, Beside (w.clients j) (w'.clients j)) : Settled w' := by
  intro j hopen
  rw [World.conn, (hbeside j).rxbuf]
  exact h j ((hbeside j).opened hopen)

theorem Settled.markPoll {w : World} (h : Settled w) (i : Slot) : Settled (w.markPoll i) := by
  refine h.of_beside fun j => ?_
  rw [World.markPoll, World.modify_clients]
  split_ifs with hj
  · subst hj
    exact ⟨rfl, rfl, rfl, rfl, id⟩
  · exact .refl _

theorem Settled.hangUp {w : World} (h : Settled w) (i : Slot) (rev : Events) :
    Settled (w.hangUp i rev) := by
  unfold World.hangUp
  split_ifs
  · refine h.of_beside fun j => ?_
    rw [World.condemn, World.modify_clients]
    split_ifs with hj
    · subst hj
      exact .condemn _
    · exact .refl _
  · exact h

theorem Settled.parseLoop {w : World} {i : Slot} {fuel : ℕ} (hlen : (w.conn i).rxbuf.length ≤ fuel)
    (hothers : ∀ j, j ≠ i → (w.conn j).shouldClose = false →
      frameFormat.head (w.conn j).rxbuf = .short) : Settled (World.parseLoop fuel w i) := by
  intro j hopen
  by_cases hj : j = i
  · subst hj
    have hexit := parseExit_spec fuel hlen
    split at hexit
    · simp [hopen] at hexit
    · exact hexit
    · simp [hopen] at hexit
  · have hb := parseLoop_beside hj fuel (w := w)
    rw [World.conn, hb.rxbuf]
    exact hothers j hj (hb.opened hopen)

theorem Settled.readAndParse {w : World} (h : Settled w) (i : Slot) (p : PollFd) :
    Settled (w.readAndParse i p) := by
  unfold World.readAndParse
  split_ifs
  · refine Settled.parseLoop le_rfl fun j hj hopen => ?_
    simp only [World.conn, World.modify_clients, if_neg hj] at hopen ⊢
    exact h j hopen
  · exact h

theorem Settled.closeClient {w : World} (h : Settled w) (i : Slot) : Settled (w.closeClient i) := by
  intro j hopen
  rw [World.conn, World.closeClient_clients] at hopen ⊢
  split_ifs at hopen ⊢
  · exact frameFormat.head_nil
  · exact h j hopen

theorem Settled.finish {w : World} (h : Settled w) (i : Slot) : Settled (w.finish i) := by
  have hflush : Settled (w.flush i) := by
    refine h.of_beside fun j => ?_
    rw [World.flush_clients]
    split_ifs with hj
    · subst hj
      exact .output (Endpoint.flush_conn _ _) rfl
    · exact .refl _
  cases hclose : (w.conn i).shouldClose with
  | true =>
    rw [World.finish_of_condemned hclose]
    exact h.closeClient i
  | false =>
    rw [World.finish_of_open hclose]
    split_ifs
    · exact hflush.closeClient i
    · exact hflush

theorem Settled.serveSlot {w : World} (h : Settled w) (i : Slot) (p : PollFd) :
    Settled (w.serveSlot i p) :=
  (((h.markPoll i).hangUp i p.revents).readAndParse i p).finish i

theorem Settled.accept {w : World} (h : Settled w) (i : Slot) (fd : ℤ) (stream : List UInt8) :
    Settled (w.accept i fd stream) := by
  intro j hopen
  rw [World.conn, World.accept_clients] at hopen ⊢
  split_ifs at hopen ⊢
  · exact frameFormat.head_nil
  · exact h j hopen

/-! ## Whole runs -/

theorem Serving.settled {b : Boot} {w : World} (h : Serving b w) : Settled w := by
  induction h with
  | boot => exact fun _ _ => frameFormat.head_nil
  | collect m _ ih => exact ih
  | accept i fd stream _ _ ih => exact ih.accept i fd stream
  | pass i p _ _ ih => exact ih.serveSlot i p

namespace World

def afterRecv (w : World) (i : Slot) (p : PollFd) : World :=
  (w.markPoll i).modify i fun e => e.recvLoop p.recvs

def afterParse (w : World) (i : Slot) (p : PollFd) : World :=
  parseLoop ((w.afterRecv i p).conn i).rxbuf.length (w.afterRecv i p) i

def passExit (w : World) (i : Slot) (p : PollFd) : ParseExit :=
  parseExit ((w.afterRecv i p).conn i).rxbuf.length (w.afterRecv i p) i

theorem afterRecv_clients (w : World) (i : Slot) (p : PollFd) :
    (w.afterRecv i p).clients i = (w.clients i).markPoll.recvLoop p.recvs := by
  simp [afterRecv, markPoll]

theorem serveSlot_readable {w : World} {i : Slot} {p : PollFd}
    (hopen : (w.conn i).shouldClose = false) (hin : p.revents.pollin = true)
    (hquiet : (p.revents.pollhup || p.revents.pollerr || p.revents.pollnval) = false) :
    w.serveSlot i p = (w.afterParse i p).finish i := by
  have hopen' : ((w.markPoll i).conn i).shouldClose = false := by
    simpa [conn, markPoll] using hopen
  simp only [serveSlot, hangUp, hquiet, Bool.false_eq_true, if_false, readAndParse, hopen', hin,
    Bool.not_false, Bool.and_true, if_true]
  rfl

theorem parseLoop_peer {i : Slot} (fuel : ℕ) : ∀ {w : World},
    ((parseLoop fuel w i).peer i).stream = (w.peer i).stream ∧
      ((parseLoop fuel w i).peer i).unread = (w.peer i).unread := by
  induction fuel with
  | zero => exact ⟨rfl, rfl⟩
  | succ fuel ih =>
    intro w
    unfold parseLoop
    split_ifs
    · exact ⟨rfl, rfl⟩
    · split
      · exact ⟨rfl, rfl⟩
      · simp [peer, World.condemn]
      · rename_i hdr body rest _
        have hstep : ∀ k, ((w.dispatch i ⟨hdrType hdr, body⟩ rest).clients k).peer.stream =
              (w.peer k).stream ∧
            ((w.dispatch i ⟨hdrType hdr, body⟩ rest).clients k).peer.unread = (w.peer k).unread :=
          dispatch_pointwise (P := fun k e => e.peer.stream = (w.peer k).stream ∧
            e.peer.unread = (w.peer k).unread) (fun _ _ _ _ _ _ h => h) (fun _ _ h => h)
            (fun _ _ => ⟨rfl, rfl⟩) ⟨rfl, rfl⟩ (fun _ _ => ⟨rfl, rfl⟩)
        have hrest := ih (w := w.dispatch i ⟨hdrType hdr, body⟩ rest)
        exact ⟨hrest.1.trans (hstep i).1, hrest.2.trans (hstep i).2⟩

end World

/-- What a pass over an open connection reads, and how that ends. -/
theorem Serving.pass_spec {b : Boot} {w : World} (h : Serving b w) {i : Slot}
    (huse : (w.conn i).inUse = true) (hopen : (w.conn i).shouldClose = false) (p : PollFd) :
    ∃ received, (w.peer i).stream = received ++ ((w.afterRecv i p).peer i).unread ∧
      (w.passExit i p ≠ .closing →
        ((w.afterParse i p).peer i).handled = parseFrames received ∧
        (w.passExit i p = .oversized ↔
          frameFormat.head (frameFormat.leftover received) = .oversized)) ∧
      (w.passExit i p = .oversized → ((w.afterParse i p).conn i).shouldClose = true) := by
  have hmark : ((w.markPoll i).conn i).shouldClose = false := by
    simpa [World.conn, World.markPoll] using hopen
  have huse' : ((w.markPoll i).conn i).inUse = true := by
    simpa [World.conn, World.markPoll] using huse
  have huse'' : ((w.afterRecv i p).conn i).inUse = true := by
    rw [World.conn, World.afterRecv_clients, World.recvLoop_inUse]
    exact huse
  have hrecv : Reachable b (w.afterRecv i p) :=
    (h.reachable.tail (.markPoll w i huse)).trans (World.recvLoop_steps p.recvs huse' hmark)
  have hparse : Reachable b (w.afterParse i p) :=
    hrecv.trans (World.parseLoop_steps _ huse'').1
  obtain ⟨received, hreads⟩ := (reads_local.reachable hrecv).live i
  obtain ⟨received', hreads'⟩ := (reads_local.reachable hparse).live i
  obtain ⟨hstream, hunread⟩ := World.parseLoop_peer (i := i)
    ((w.afterRecv i p).conn i).rxbuf.length (w := w.afterRecv i p)
  obtain rfl := hreads.unique hreads' hstream hunread
  have hsame : ((w.afterRecv i p).peer i).stream = (w.peer i).stream := by
    rw [World.peer, World.afterRecv_clients]
    exact (recvLoop_spec (w.clients i).markPoll p.recvs).1
  have hexit := parseExit_spec (i := i) ((w.afterRecv i p).conn i).rxbuf.length
    (w := w.afterRecv i p) le_rfl
  refine ⟨received', hsame.symm.trans hreads.stream, fun hne => ?_, fun hover => ?_⟩
  · -- in both other cases the buffer holds what is behind the last frame
    cases hcase : w.passExit i p with
    | closing => exact absurd hcase hne
    | waiting =>
      rw [World.passExit] at hcase
      rw [hcase] at hexit
      obtain ⟨hhandled, hleft⟩ := hreads'.settled fun hdr body rest hf => by
        rw [World.afterParse, hexit] at hf
        cases hf
      refine ⟨hhandled, by simp, fun hbig => ?_⟩
      rw [← hleft, World.afterParse, hexit] at hbig
      cases hbig
    | oversized =>
      rw [World.passExit] at hcase
      rw [hcase] at hexit
      obtain ⟨hhandled, hleft⟩ := hreads'.settled fun hdr body rest hf => by
        rw [World.afterParse, hexit.2] at hf
        cases hf
      refine ⟨hhandled, fun _ => ?_, fun _ => rfl⟩
      rw [← hleft]
      exact hexit.2
  · rw [World.passExit] at hover
    rw [hover] at hexit
    exact hexit.1

/-- Between any two passes of any run, for every open connection: the frames handled are
the frames of the bytes received, whatever pieces and rounds these came in; the buffer
holds the bytes behind the last frame, with room for more, so that every `recv()` has a
window and none is taken for the end of the stream. In the next pass the parse loop
finds the stream oversized, and the connection is closed for it, exactly when the header
behind the last frame says so, provided that no handled frame has marked the connection. -/
theorem framing_independent {b : Boot} {w : World} (h : Serving b w) {i : Slot}
    (huse : (w.conn i).inUse = true) (hopen : (w.conn i).shouldClose = false) :
    (∃ received, (w.peer i).stream = received ++ (w.peer i).unread ∧
      (w.peer i).handled = parseFrames received ∧
      (w.conn i).rxbuf = frameFormat.leftover received) ∧
    (∀ b' w' j, Serving b' w' → (w'.conn j).shouldClose = false →
      (w'.peer j).stream = (w.peer i).stream → (w'.peer j).unread = (w.peer i).unread →
        (w'.peer j).handled = (w.peer i).handled) ∧
    (NoFrame (w.conn i).rxbuf ∧ (w.conn i).rxbuf.length < rxCap ∧
      ∀ rs, (∀ n ∈ (w.clients i).recvWindows rs, 0 < n) ∧
        ((∀ r ∈ rs, r ≠ .eof ∧ r ≠ .fail) →
          ((w.clients i).recvLoop rs).conn.shouldClose = false)) ∧
    ∀ p : PollFd, p.revents.pollin = true →
      (p.revents.pollhup || p.revents.pollerr || p.revents.pollnval) = false →
      ∃ received, (w.peer i).stream = received ++ ((w.afterRecv i p).peer i).unread ∧
        (w.passExit i p ≠ .closing →
          ((w.afterParse i p).peer i).handled = parseFrames received ∧
          (w.passExit i p = .oversized ↔
            frameFormat.head (frameFormat.leftover received) = .oversized)) ∧
        (w.passExit i p = .oversized → w.serveSlot i p = (w.afterParse i p).closeClient i) := by
  have hnoframe {w : World} (hw : Settled w) {i : Slot} (ho : (w.conn i).shouldClose = false) :
      NoFrame (w.conn i).rxbuf := fun hdr body rest hf => by
    rw [hw i ho] at hf
    cases hf
  have hroom : (w.conn i).rxbuf.length < rxCap := frameFormat.length_of_short (h.settled i hopen)
  obtain ⟨received, hreads⟩ := (reads_local.reachable h.reachable).live i
  obtain ⟨hhandled, hleft⟩ := hreads.settled (hnoframe h.settled hopen)
  refine ⟨⟨received, hreads.stream, hhandled, hleft⟩, ?_, ⟨hnoframe h.settled hopen, hroom,
    fun rs => ⟨recvWindows_pos rs hroom, fun hrs => recvLoop_open rs hrs hroom hopen⟩⟩, ?_⟩
  · intro b' w' j h' hopen' hstream hunread
    obtain ⟨received', hreads'⟩ := (reads_local.reachable h'.reachable).live j
    rw [(hreads'.settled (hnoframe h'.settled hopen')).1, hhandled,
      hreads.unique hreads' hstream hunread]
  · intro p hin hquiet
    obtain ⟨received', hstream, hspec, hover⟩ := h.pass_spec huse hopen p
    refine ⟨received', hstream, hspec, fun hbig => ?_⟩
    rw [World.serveSlot_readable hopen hin hquiet, World.finish_of_condemned (hover hbig)]

/-- A client whose stream arrives in three pieces, none of which ends at a frame. -/
def inPieces : World :=
  let stream := (registerAs 97).encode 0 ++ (⟨MsgType.ping.code, []⟩ : Frame).encode 0
  let piece (n : ℕ) : World.Ready := { revents := { pollin := true }, recvs := [.intr, .bytes n, .again] }
  ((((Boot.fresh [.sent 8, .sent 8] []).world.round [piece 0] [.conn 5 stream]).round
    [{}, piece 3] []).round [{}, piece 40] []).round [{}, piece 5] []

theorem inPieces_run : Run (Boot.fresh [.sent 8, .sent 8] []) inPieces := by
  unfold inPieces
  exact .round _ _ (.round _ _ (.round _ _ (.round _ _ .boot)))

theorem framing_independent_inPieces :
    (inPieces.peer 0).handled = [registerAs 97, ⟨MsgType.ping.code, []⟩] ∧
      ∃ received, (inPieces.peer 0).stream = received ++ (inPieces.peer 0).unread ∧
        (inPieces.peer 0).handled = parseFrames received ∧
        (inPieces.conn 0).rxbuf = frameFormat.leftover received :=
  ⟨by decide +kernel, (framing_independent inPieces_run.serving (i := 0) (by decide +kernel)
    (by decide +kernel)).1⟩

end PiDaemon.Server
