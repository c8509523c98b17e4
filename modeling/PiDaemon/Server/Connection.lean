import PiDaemon.Base.CString
import PiDaemon.Proto.Wire

/-!
# One connection of the IPC server

`client_conn_t` and the functions of `ipc_server.c` that work on a single
connection: the receive window, the transmit buffer with its compaction, growth
and shrinking, and the two ways output reaches the socket. Kernel answers are
arguments: `send()` and `realloc()` return what the caller of the model says,
which ranges over everything they can return.

The receive buffer is represented by its first `rx_len` bytes; the transmit
buffer by all `tx_cap` allocated bytes together with its three counters.
-/

namespace PiDaemon.Server

open Base Proto

/-- `TX_BACKLOG_LIMIT`. -/
def txBacklogLimit : ℕ := 256 * 1024

/-- `TX_MIN_CAP`. -/
def txMinCap : ℕ := 4096

/-- `sizeof(rxbuf)`: one frame of the largest accepted size. -/
def rxCap : ℕ := hdrSize + maxMsgPayload

/-- What `send()` can return: a byte count, or an error by its `errno` class. -/
inductive SendResult
  | sent (n : ℕ)
  | again
  | intr
  | fail
  deriving DecidableEq, Repr

/-- `txbuf` with `tx_len`, `tx_sent` and `tx_cap`. -/
structure TxBuf where
  buf : List UInt8 := []
  len : ℕ := 0
  sent : ℕ := 0
  cap : ℕ := 0
  deriving DecidableEq, Repr

/-- `client_conn_t`; the default value is a slot after `memset` with `fd = -1`. -/
structure ClientConn where
  fd : ℤ := -1
  inUse : Bool := false
  registered : Bool := false
  shouldClose : Bool := false
  name : List UInt8 := List.replicate nameMax 0
  rxbuf : List UInt8 := []
  tx : TxBuf := {}
  deriving DecidableEq, Repr

/-! ## Transmit buffer -/

namespace TxBuf

/-- Bytes queued and not yet accepted by the kernel: `txbuf[tx_sent..tx_len)`. -/
def pending (t : TxBuf) : List UInt8 := slice t.buf t.sent (t.len - t.sent)

/-- The counters delimit initialised bytes of the allocated block. -/
structure Ok (t : TxBuf) : Prop where
  sent_le : t.sent ≤ t.len
  len_le : t.len ≤ t.cap
  alloc : t.buf.length = t.cap

def compact (t : TxBuf) : TxBuf :=
  if 0 < t.sent then
    { t with buf := write t.buf 0 t.pending, len := t.len - t.sent, sent := 0 }
  else t

def realloc (t : TxBuf) (cap : ℕ) : TxBuf := { t with buf := resize 0 t.buf cap, cap := cap }

def put (t : TxBuf) (data : List UInt8) : TxBuf :=
  { t with buf := write t.buf t.len data, len := t.len + data.length }

def needed (t : TxBuf) (data : List UInt8) : ℕ := t.len - t.sent + data.length

end TxBuf

/-- `while (cap < needed) cap *= 2`, with a bound on the number of rounds. -/
def doubleUntil : ℕ → ℕ → ℕ → ℕ
  | 0, cap, _ => cap
  | fuel + 1, cap, needed => if cap < needed then doubleUntil fuel (cap * 2) needed else cap

/-- `append_tx`, with the answer `realloc()` gives should it be called; the flag
of the result is the return value being zero. -/
def appendTx (t : TxBuf) (data : List UInt8) (reallocOk : Bool) : TxBuf × Bool :=
  let t := t.compact
  let needed := t.len + data.length
  if txBacklogLimit < needed then (t, false)
  else if t.cap < needed then
    let newcap := doubleUntil needed (if t.cap = 0 then txMinCap else t.cap * 2) needed
    if reallocOk then ((t.realloc newcap).put data, true) else (t, false)
  else if txMinCap < t.cap ∧ needed < t.cap / 4 then
    let newcap := doubleUntil needed txMinCap needed
    if newcap < t.cap ∧ reallocOk then ((t.realloc newcap).put data, true)
    else (t.put data, true)
  else (t.put data, true)

theorem le_doubleUntil (fuel : ℕ) : ∀ {cap needed : ℕ}, 0 < cap → needed ≤ fuel + cap →
    needed ≤ doubleUntil fuel cap needed := by
  induction fuel with
  | zero => intro cap needed _ h; simpa [doubleUntil] using h
  | succ fuel ih =>
    intro cap needed hpos h
    unfold doubleUntil
    split_ifs with hlt
    · exact ih (by omega) (by omega)
    · omega

namespace TxBuf

theorem length_pending {t : TxBuf} (h : t.Ok) : t.pending.length = t.len - t.sent :=
  length_slice (by have := h.sent_le; have := h.len_le; have := h.alloc; omega)

theorem compact_spec {t : TxBuf} (h : t.Ok) :
    t.compact.Ok ∧ t.compact.pending = t.pending ∧ t.compact.sent = 0 := by
  have hp := length_pending h
  obtain ⟨hs, hl, ha⟩ := h
  unfold compact
  split_ifs with hpos
  · refine ⟨⟨by simp, by simp; omega, ?_⟩, ?_, rfl⟩
    · rw [length_write (by omega), ha]
    · have : slice (write t.buf 0 t.pending) 0 t.pending.length = t.pending :=
        slice_write_self (by omega)
      rw [hp] at this
      simpa [pending] using this
  · exact ⟨⟨hs, hl, ha⟩, rfl, by omega⟩

theorem compact_cap (t : TxBuf) : t.compact.cap = t.cap := by
  unfold compact
  split_ifs <;> rfl

theorem compact_len {t : TxBuf} (h : t.Ok) : t.compact.len = t.len - t.sent := by
  have := h.sent_le
  unfold compact
  split_ifs
  · rfl
  · omega

theorem realloc_spec {t : TxBuf} (h : t.Ok) {cap : ℕ} (hcap : t.len ≤ cap) :
    (t.realloc cap).Ok ∧ (t.realloc cap).pending = t.pending := by
  obtain ⟨hs, hl, ha⟩ := h
  refine ⟨⟨hs, hcap, length_resize _ _ _⟩, ?_⟩
  exact slice_resize (by simp only [realloc]; omega) (by simp only [realloc]; omega)

theorem put_spec {t : TxBuf} (h : t.Ok) {data : List UInt8} (hcap : t.len + data.length ≤ t.cap) :
    (t.put data).Ok ∧ (t.put data).pending = t.pending ++ data := by
  obtain ⟨hs, hl, ha⟩ := h
  refine ⟨⟨by simp [put]; omega, by simpa [put] using hcap, ?_⟩, ?_⟩
  · simp only [put]
    rw [length_write (by omega), ha]
  · have hsplit : t.len + data.length - t.sent = (t.len - t.sent) + data.length := by omega
    have hmid : t.sent + (t.len - t.sent) = t.len := by omega
    simp only [pending, put]
    rw [hsplit, slice_add, hmid, slice_write_self (by omega), slice_write_left (by omega) (by omega)]

end TxBuf

/-- Everything `append_tx` can do: refuse, store after a reallocation, or store in place. -/
theorem appendTx_cases (t : TxBuf) (data : List UInt8) (reallocOk : Bool) :
    appendTx t data reallocOk = (t.compact, false) ∨
    (∃ cap, t.compact.len + data.length ≤ cap ∧
      appendTx t data reallocOk = ((t.compact.realloc cap).put data, true)) ∨
    (t.compact.len + data.length ≤ t.compact.cap ∧
      appendTx t data reallocOk = (t.compact.put data, true)) := by
  unfold appendTx
  simp only
  split_ifs
  · exact .inl rfl
  · exact .inr (.inl ⟨_, le_doubleUntil _ (by simp [txMinCap]) (by omega), rfl⟩)
  · exact .inr (.inl ⟨_, le_doubleUntil _ (by omega) (by omega), rfl⟩)
  · exact .inl rfl
  · exact .inr (.inl ⟨_, le_doubleUntil _ (by simp [txMinCap]) (by omega), rfl⟩)
  · exact .inr (.inr ⟨by omega, rfl⟩)
  · exact .inr (.inr ⟨by omega, rfl⟩)

theorem appendTx_spec {t t' : TxBuf} {data : List UInt8} {reallocOk ok : Bool} (h : t.Ok)
    (happ : appendTx t data reallocOk = (t', ok)) :
    t'.Ok ∧ t'.pending = if ok then t.pending ++ data else t.pending := by
  obtain ⟨hc, hp, -⟩ := TxBuf.compact_spec h
  have hcases := appendTx_cases t data reallocOk
  simp only [happ, Prod.mk.injEq] at hcases
  obtain ⟨rfl, rfl⟩ | ⟨cap, hcap, rfl, rfl⟩ | ⟨hcap, rfl, rfl⟩ := hcases
  · simpa using ⟨hc, hp⟩
  · obtain ⟨hr, hrp⟩ := TxBuf.realloc_spec hc ((Nat.le_add_right _ _).trans hcap)
    rw [if_pos rfl, ← hp, ← hrp]
    exact TxBuf.put_spec hr hcap
  · rw [if_pos rfl, ← hp]
    exact TxBuf.put_spec hc hcap

theorem appendTx_fails_iff {t : TxBuf} (h : t.Ok) (data : List UInt8) (reallocOk : Bool) :
    (appendTx t data reallocOk).2 = false ↔
      txBacklogLimit < t.needed data ∨ t.cap < t.needed data ∧ reallocOk = false := by
  have hneeded : t.compact.len + data.length = t.needed data := by
    rw [TxBuf.compact_len h, TxBuf.needed]
  unfold appendTx
  dsimp only
  rw [hneeded, TxBuf.compact_cap]
  split_ifs <;> simp_all

/-! ## Sending -/

/-- `flush_tx` against the answers of successive `send()` calls; running out of
answers stands for `EAGAIN`. Also returns the bytes the kernel accepted and the
answers that were not used. -/
def flushTx (c : ClientConn) : List SendResult → ClientConn × List UInt8 × List SendResult
  | [] =>
    if c.tx.sent < c.tx.len then (c, [], [])
    else ({ c with tx := { c.tx with len := 0, sent := 0 } }, [], [])
  | r :: rest =>
    if c.tx.sent < c.tx.len then
      match r with
      | .again => (c, [], rest)
      | .intr => flushTx c rest
      | .fail => ({ c with shouldClose := true }, [], rest)
      | .sent n =>
        let n := min n (c.tx.len - c.tx.sent)
        let out := flushTx { c with tx := { c.tx with sent := c.tx.sent + n } } rest
        (out.1, slice c.tx.buf c.tx.sent n ++ out.2.1, out.2.2)
    else ({ c with tx := { c.tx with len := 0, sent := 0 } }, [], r :: rest)

/-- Hand the unsent part of a frame to `append_tx`; a refusal condemns the connection. -/
def queueRest (c : ClientConn) (data : List UInt8) (reallocOk : Bool) : ClientConn :=
  match appendTx c.tx data reallocOk with
  | (tx, true) => { c with tx := tx }
  | (tx, false) => { c with tx := tx, shouldClose := true }

/-- `queue_send`, with the answers of `send()` and `realloc()` should they be
called. Also returns the bytes the kernel accepted. Unlike `flush_tx`, the
direct send does not retry after `EINTR`. -/
def queueSend (c : ClientConn) (f : Frame) (padding : UInt16) (r : SendResult)
    (reallocOk : Bool) : ClientConn × List UInt8 :=
  let frame := f.encode padding
  if c.tx.len = c.tx.sent then
    match r with
    | .sent n =>
      let n := min n frame.length
      if n = frame.length then (c, frame)
      else (queueRest c (frame.drop n) reallocOk, frame.take n)
    | .again => (queueRest c frame reallocOk, [])
    | .intr | .fail => ({ c with shouldClose := true }, [])
  else (queueRest c frame reallocOk, [])

/-- Output touches only the transmit buffer and the close flag, which it never lowers. -/
structure OutputOnly (c c' : ClientConn) : Prop where
  fd : c'.fd = c.fd
  inUse : c'.inUse = c.inUse
  registered : c'.registered = c.registered
  name : c'.name = c.name
  rxbuf : c'.rxbuf = c.rxbuf
  shouldClose : c.shouldClose = true → c'.shouldClose = true

theorem OutputOnly.opened {c c' : ClientConn} (h : OutputOnly c c')
    (hopen : c'.shouldClose = false) : c.shouldClose = false := by
  by_contra hc
  simp [h.shouldClose (by simpa using hc)] at hopen

theorem OutputOnly.tx (c : ClientConn) (tx : TxBuf) : OutputOnly c { c with tx := tx } :=
  ⟨rfl, rfl, rfl, rfl, rfl, id⟩

theorem OutputOnly.condemn (c : ClientConn) (tx : TxBuf) :
    OutputOnly c { c with tx := tx, shouldClose := true } :=
  ⟨rfl, rfl, rfl, rfl, rfl, fun _ => rfl⟩

theorem flushTx_outputOnly (rs : List SendResult) :
    ∀ c : ClientConn, OutputOnly c (flushTx c rs).1 := by
  induction rs with
  | nil =>
    intro c
    unfold flushTx
    split_ifs
    · exact .tx c c.tx
    · exact .tx c _
  | cons r rs ih =>
    intro c
    unfold flushTx
    split_ifs
    · cases r with
      | again => exact .tx c c.tx
      | intr => exact ih c
      | fail => exact .condemn c c.tx
      | sent n =>
        obtain ⟨h1, h2, h3, h4, h5, h6⟩ :=
          ih { c with tx := { c.tx with sent := c.tx.sent + min n (c.tx.len - c.tx.sent) } }
        exact ⟨h1, h2, h3, h4, h5, h6⟩
    · exact .tx c _

/-- Flushing moves bytes from the pending buffer to the socket, in order. -/
theorem flushTx_stream (rs : List SendResult) : ∀ {c : ClientConn}, c.tx.Ok →
    (flushTx c rs).1.tx.Ok ∧ (flushTx c rs).2.1 ++ (flushTx c rs).1.tx.pending = c.tx.pending := by
  have hdone {c : ClientConn} (h : c.tx.Ok) (hlt : ¬c.tx.sent < c.tx.len) :
      ({ c.tx with len := 0, sent := 0 } : TxBuf).Ok ∧
        ({ c.tx with len := 0, sent := 0 } : TxBuf).pending = c.tx.pending := by
    refine ⟨⟨le_rfl, Nat.zero_le _, h.alloc⟩, ?_⟩
    simp [TxBuf.pending, show c.tx.len - c.tx.sent = 0 by omega]
  induction rs with
  | nil =>
    intro c h
    unfold flushTx
    split_ifs with hlt
    · exact ⟨h, rfl⟩
    · exact hdone h hlt
  | cons r rs ih =>
    intro c h
    unfold flushTx
    split_ifs with hlt
    · cases r with
      | again => exact ⟨h, rfl⟩
      | intr => exact ih h
      | fail => exact ⟨h, rfl⟩
      | sent n =>
        -- the accepted prefix leaves the buffer, the rest of it is the new pending part
        obtain ⟨hok, hstream⟩ :=
          ih (c := { c with tx := { c.tx with sent := c.tx.sent + min n (c.tx.len - c.tx.sent) } })
            ⟨by simp only; omega, h.len_le, h.alloc⟩
        refine ⟨hok, ?_⟩
        simp only [List.append_assoc, hstream]
        have hsplit : c.tx.len - c.tx.sent = min n (c.tx.len - c.tx.sent) +
            (c.tx.len - (c.tx.sent + min n (c.tx.len - c.tx.sent))) := by omega
        simp only [TxBuf.pending]
        conv_rhs => rw [hsplit, slice_add]
    · exact hdone h hlt

theorem queueRest_outputOnly (c : ClientConn) (data : List UInt8) (reallocOk : Bool) :
    OutputOnly c (queueRest c data reallocOk) := by
  unfold queueRest
  split
  · exact .tx c _
  · exact .condemn c _

theorem queueRest_stream {c : ClientConn} (h : c.tx.Ok) (data : List UInt8) (reallocOk : Bool) :
    (queueRest c data reallocOk).tx.Ok ∧
      ((queueRest c data reallocOk).shouldClose = false →
        (queueRest c data reallocOk).tx.pending = c.tx.pending ++ data) := by
  unfold queueRest
  split
  case h_1 happ =>
    obtain ⟨hok, hp⟩ := appendTx_spec h happ
    exact ⟨hok, fun _ => by simpa using hp⟩
  case h_2 happ =>
    exact ⟨(appendTx_spec h happ).1, fun hc => by simp at hc⟩

theorem queueSend_outputOnly (c : ClientConn) (f : Frame) (padding : UInt16) (r : SendResult)
    (reallocOk : Bool) :
    OutputOnly c (queueSend c f padding r reallocOk).1 := by
  unfold queueSend
  split_ifs
  · cases r with
    | sent n =>
      dsimp only
      split_ifs
      · exact .tx c c.tx
      · exact queueRest_outputOnly _ _ _
    | again => exact queueRest_outputOnly _ _ _
    | intr => exact .condemn c c.tx
    | fail => exact .condemn c c.tx
  · exact queueRest_outputOnly _ _ _

/-- Both send paths put exactly one more frame behind what was pending. -/
theorem queueSend_stream {c : ClientConn} (h : c.tx.Ok) (f : Frame) (padding : UInt16) (r : SendResult)
    (reallocOk : Bool) :
    (queueSend c f padding r reallocOk).1.tx.Ok ∧
      ((queueSend c f padding r reallocOk).1.shouldClose = false →
        (queueSend c f padding r reallocOk).2 ++ (queueSend c f padding r reallocOk).1.tx.pending =
          c.tx.pending ++ f.encode padding) := by
  have hrest (data : List UInt8) := queueRest_stream h data reallocOk
  unfold queueSend
  split_ifs with heq
  · have hempty : c.tx.pending = [] := by simp [TxBuf.pending, heq]
    cases r with
    | sent n =>
      dsimp only
      split_ifs with hn
      · exact ⟨h, fun _ => by simp [hempty]⟩
      · refine ⟨(hrest _).1, fun hc => ?_⟩
        rw [(hrest _).2 hc, hempty, List.nil_append, List.nil_append, List.take_append_drop]
    | again => simpa only [List.nil_append] using hrest (f.encode padding)
    | intr => exact ⟨h, fun hc => by simp at hc⟩
    | fail => exact ⟨h, fun hc => by simp at hc⟩
  · simpa only [List.nil_append] using hrest (f.encode padding)

/-! ### When a connection is given up -/

/-- What `queue_send` passes to `append_tx`: the whole frame if output is pending, else
what the direct `send()` left of it. -/
def unsent (c : ClientConn) (f : Frame) (padding : UInt16) (r : SendResult) : List UInt8 :=
  if c.tx.len = c.tx.sent then
    match r with
    | .sent n => (f.encode padding).drop n
    | .again => f.encode padding
    | .intr | .fail => []
  else f.encode padding

/-- Why `queue_send` leaves a connection with `should_close` set. -/
inductive QueueFails (c : ClientConn) (f : Frame) (padding : UInt16) (r : SendResult)
    (reallocOk : Bool) : Prop
  | marked (h : c.shouldClose = true)
  | sendError (hempty : c.tx.len = c.tx.sent) (h : r = .intr ∨ r = .fail)
  | backlog (h : txBacklogLimit < c.tx.needed (unsent c f padding r))
  | memory (h : c.tx.cap < c.tx.needed (unsent c f padding r)) (hrealloc : reallocOk = false)

theorem queueRest_shouldClose_iff {c : ClientConn} (h : c.tx.Ok) (data : List UInt8)
    (reallocOk : Bool) :
    (queueRest c data reallocOk).shouldClose = true ↔
      c.shouldClose = true ∨ txBacklogLimit < c.tx.needed data ∨
        c.tx.cap < c.tx.needed data ∧ reallocOk = false := by
  rw [← appendTx_fails_iff h, queueRest]
  split
  case h_1 happ => simp [happ]
  case h_2 happ => simp [happ]

theorem queueFails_iff {c : ClientConn} {f : Frame} {padding : UInt16} {r : SendResult}
    {reallocOk : Bool} :
    QueueFails c f padding r reallocOk ↔
      (c.tx.len = c.tx.sent ∧ (r = .intr ∨ r = .fail)) ∨ c.shouldClose = true ∨
        txBacklogLimit < c.tx.needed (unsent c f padding r) ∨
          c.tx.cap < c.tx.needed (unsent c f padding r) ∧ reallocOk = false := by
  constructor
  · rintro (h | ⟨hempty, h⟩ | h | ⟨h, hrealloc⟩)
    · exact .inr (.inl h)
    · exact .inl ⟨hempty, h⟩
    · exact .inr (.inr (.inl h))
    · exact .inr (.inr (.inr ⟨h, hrealloc⟩))
  · rintro (⟨hempty, h⟩ | h | h | ⟨h, hrealloc⟩)
    · exact .sendError hempty h
    · exact .marked h
    · exact .backlog h
    · exact .memory h hrealloc

/-- The causes are all there are. -/
theorem queueSend_shouldClose_iff {c : ClientConn} (h : c.tx.Ok) (f : Frame) (padding : UInt16)
    (r : SendResult) (reallocOk : Bool) :
    (queueSend c f padding r reallocOk).1.shouldClose = true ↔ QueueFails c f padding r reallocOk := by
  have hrest (data : List UInt8) := queueRest_shouldClose_iff h data reallocOk
  rw [queueFails_iff]
  by_cases hempty : c.tx.len = c.tx.sent
  · cases r with
    | sent n =>
      by_cases hall : hdrSize + f.payload.length ≤ n
      · -- nothing is left of the frame, so the buffer needs no more than it holds
        have hnone : unsent c f padding (.sent n) = [] := by simp [unsent, hempty, hall]
        simp [queueSend, hempty, hnone, hall, TxBuf.needed]
      · have hmin : min n (hdrSize + f.payload.length) = n := min_eq_left (by omega)
        have hne : n ≠ hdrSize + f.payload.length := by omega
        simp [queueSend, hempty, unsent, hmin, hne, hrest]
    | again => simp [queueSend, hempty, unsent, hrest]
    | intr => simp [queueSend, hempty]
    | fail => simp [queueSend, hempty]
  · simp [queueSend, hempty, unsent, hrest]

end PiDaemon.Server
