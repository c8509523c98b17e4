import PiDaemon.Base.Memory
import PiDaemon.Server.Outgoing

/-!
# The transmit buffer

The counters and the capacity of `txbuf` over all histories of `append_tx`, `flush_tx` and
`queue_send`. The capacity is doubled from `TX_MIN_CAP` on, and `TX_BACKLOG_LIMIT` is one of
the values it goes through: so what is needed never exceeds the limit, and neither does the
next capacity that holds it. `append_tx` is given once more with its copies checked.
-/

namespace PiDaemon.Server

open Base Proto

/-! ## Doubling -/

/-- The loop `while (cap < needed) cap *= 2` ends after this many rounds. -/
structure Doubles (cap needed rounds : ℕ) : Prop where
  before (k : ℕ) : k < rounds → cap * 2 ^ k < needed
  after : needed ≤ cap * 2 ^ rounds

theorem doubleUntil_rounds (fuel : ℕ) : ∀ cap needed : ℕ, 0 < cap → needed ≤ fuel + cap →
    ∃ rounds, Doubles cap needed rounds ∧ doubleUntil fuel cap needed = cap * 2 ^ rounds := by
  induction fuel with
  | zero =>
    intro cap needed _ hfuel
    exact ⟨0, ⟨by simp, by simpa using hfuel⟩, by simp [doubleUntil]⟩
  | succ fuel ih =>
    intro cap needed hpos hfuel
    unfold doubleUntil
    split_ifs with hlt
    · obtain ⟨rounds, hdoubles, heq⟩ := ih (cap * 2) needed (by omega) (by omega)
      have hshift (k : ℕ) : cap * 2 ^ (k + 1) = cap * 2 * 2 ^ k := by rw [pow_succ']; ring
      refine ⟨rounds + 1, ⟨fun k hk => ?_, ?_⟩, by rw [heq, hshift]⟩
      · cases k with
        | zero => simpa using hlt
        | succ k =>
          rw [hshift]
          exact hdoubles.before k (Nat.lt_of_succ_lt_succ hk)
      · rw [hshift]
        exact hdoubles.after
    · exact ⟨0, ⟨by simp, by simpa using hlt⟩, by simp⟩

structure Capacity (cap : ℕ) : Prop where
  doubled : ∃ i, cap = txMinCap * 2 ^ i
  le_limit : cap ≤ txBacklogLimit

theorem capacity_min : Capacity txMinCap := ⟨⟨0, by simp⟩, by decide⟩

theorem Capacity.pos {cap : ℕ} (h : Capacity cap) : 0 < cap := by
  obtain ⟨i, rfl⟩ := h.doubled
  exact Nat.mul_pos (by decide) (Nat.two_pow_pos i)

/-- Below the limit there is room for the next capacity: the limit is itself `TX_MIN_CAP`
doubled a number of times. -/
theorem Capacity.double {cap : ℕ} (h : Capacity cap) (hlt : cap < txBacklogLimit) :
    Capacity (cap * 2) := by
  obtain ⟨i, rfl⟩ := h.doubled
  have hlimit : txBacklogLimit = txMinCap * 2 ^ 6 := by decide
  have hi : i < 6 := by
    rw [hlimit] at hlt
    exact (Nat.pow_lt_pow_iff_right (by decide)).mp (Nat.lt_of_mul_lt_mul_left hlt)
  have hnext : txMinCap * 2 ^ i * 2 = txMinCap * 2 ^ (i + 1) := by rw [pow_succ, Nat.mul_assoc]
  refine ⟨⟨i + 1, hnext⟩, ?_⟩
  rw [hnext, hlimit]
  exact Nat.mul_le_mul_left _ (Nat.pow_le_pow_right (by decide) hi)

theorem Doubles.capacity {cap needed rounds : ℕ} (h : Doubles cap needed rounds)
    (hcap : Capacity cap) (hneeded : needed ≤ txBacklogLimit) : Capacity (cap * 2 ^ rounds) := by
  have hup : ∀ k ≤ rounds, Capacity (cap * 2 ^ k) := by
    intro k
    induction k with
    | zero => intro _; simpa using hcap
    | succ k ih =>
      intro hk
      have hbefore := (h.before k hk).trans_le hneeded
      rw [pow_succ, ← Nat.mul_assoc]
      exact (ih (Nat.le_of_lt hk)).double hbefore
  exact hup rounds le_rfl

/-- Looked for from `cap` on, a capacity that holds what is needed is found, within the limit. -/
def Found (cap needed : ℕ) : Prop :=
  ∃ rounds, Doubles cap needed rounds ∧ doubleUntil needed cap needed = cap * 2 ^ rounds ∧
    Capacity (cap * 2 ^ rounds)

theorem Capacity.found {cap needed : ℕ} (hcap : Capacity cap) (hneeded : needed ≤ txBacklogLimit) :
    Found cap needed := by
  obtain ⟨rounds, hrounds, heq⟩ :=
    doubleUntil_rounds needed cap needed hcap.pos (Nat.le_add_right _ _)
  exact ⟨rounds, hrounds, heq, hrounds.capacity hcap hneeded⟩

theorem Found.newcap {cap needed : ℕ} (h : Found cap needed) :
    Capacity (doubleUntil needed cap needed) ∧ needed ≤ doubleUntil needed cap needed := by
  obtain ⟨rounds, hrounds, heq, hcap⟩ := h
  rw [heq]
  exact ⟨hcap, hrounds.after⟩

/-! ## Appending -/

namespace TxBuf

/-- The capacity with which `append_tx` begins to look for a larger block. -/
def growthCap (t : TxBuf) : ℕ := if t.cap = 0 then txMinCap else t.cap * 2

structure Sound (t : TxBuf) : Prop where
  ok : t.Ok
  cap : t.cap = 0 ∨ Capacity t.cap
  drained : t.sent = t.len → t.len = 0

theorem sound_empty : Sound {} := ⟨txBuf_empty_ok, .inl rfl, fun _ => rfl⟩

variable {t : TxBuf}

theorem capacity_growthCap (h : t.cap = 0 ∨ Capacity t.cap) (hlt : t.cap < txBacklogLimit) :
    Capacity t.growthCap := by
  unfold growthCap
  split_ifs with hzero
  · exact capacity_min
  · exact (h.resolve_left hzero).double hlt

def compact? (t : TxBuf) : Option TxBuf := do
  if 0 < t.sent ∧ 0 < t.len - t.sent then
    access t.cap t.sent (t.len - t.sent)
    access t.cap 0 (t.len - t.sent)
  return t.compact

/-- `realloc`, if the new block holds all bytes that are in use. -/
def realloc? (t : TxBuf) (cap : ℕ) : Option TxBuf := do
  access cap 0 t.len
  return t.realloc cap

def put? (t : TxBuf) (data : List UInt8) : Option TxBuf := do
  access t.cap t.len data.length
  return t.put data

end TxBuf

/-- `append_tx` with checked copies; `none` when one is out of bounds or a reallocation cuts
bytes that are in use. -/
def appendTx? (t : TxBuf) (data : List UInt8) (reallocOk : Bool) : Option (TxBuf × Bool) := do
  let t ← t.compact?
  let needed := t.len + data.length
  if txBacklogLimit < needed then return (t, false)
  else if t.cap < needed then
    let newcap := doubleUntil needed (if t.cap = 0 then txMinCap else t.cap * 2) needed
    if reallocOk then
      let t ← t.realloc? newcap
      return (← t.put? data, true)
    else return (t, false)
  else if txMinCap < t.cap ∧ needed < t.cap / 4 then
    let newcap := doubleUntil needed txMinCap needed
    if newcap < t.cap ∧ reallocOk then
      let t ← t.realloc? newcap
      return (← t.put? data, true)
    else return (← t.put? data, true)
  else return (← t.put? data, true)

namespace TxBuf

variable {t : TxBuf}

theorem compact?_eq (h : t.Ok) : t.compact? = some t.compact := by
  have := h.sent_le
  have := h.len_le
  unfold compact?
  split_ifs
  · rw [access_ok (by omega), access_ok (by omega)]
    rfl
  · rfl

theorem put?_eq {data : List UInt8} (h : t.len + data.length ≤ t.cap) :
    t.put? data = some (t.put data) := by
  rw [put?, access_ok h]
  rfl

theorem grown?_eq {cap : ℕ} {data : List UInt8} (h : t.len + data.length ≤ cap) :
    (do let t ← t.realloc? cap; return (← t.put? data, true) : Option (TxBuf × Bool)) =
      some ((t.realloc cap).put data, true) := by
  rw [realloc?, access_ok (by omega)]
  simp [put?_eq (t := t.realloc cap) h]

end TxBuf

theorem appendTx?_eq {t : TxBuf} (h : t.Ok) (data : List UInt8) (reallocOk : Bool) :
    appendTx? t data reallocOk = some (appendTx t data reallocOk) := by
  rw [appendTx?, TxBuf.compact?_eq h]
  simp only [Option.bind_eq_bind, Option.bind_some]
  unfold appendTx
  dsimp only
  -- the cases are those of `append_tx`, in the order of its text
  split_ifs
  · rfl
  · exact TxBuf.grown?_eq (le_doubleUntil _ (by simp [txMinCap]) (by omega))
  · exact TxBuf.grown?_eq (le_doubleUntil _ (by omega) (by omega))
  · rfl
  · exact TxBuf.grown?_eq (le_doubleUntil _ (by simp [txMinCap]) (by omega))
  · rw [TxBuf.put?_eq (by omega)]
    rfl
  · rw [TxBuf.put?_eq (by omega)]
    rfl

/-- Everything `append_tx` can do, with the reason: it refuses, it stores in a block of another
capacity, or it stores in place. -/
theorem appendTx_outcome {t : TxBuf} (h : t.Sound) (data : List UInt8) (reallocOk : Bool) :
    ((txBacklogLimit < t.needed data ∨ t.cap < t.needed data ∧ reallocOk = false) ∧
      appendTx t data reallocOk = (t.compact, false)) ∨
    (t.needed data ≤ txBacklogLimit ∧ reallocOk = true ∧ ∃ cap, Capacity cap ∧
      t.needed data ≤ cap ∧ appendTx t data reallocOk = ((t.compact.realloc cap).put data, true)) ∨
    (t.needed data ≤ txBacklogLimit ∧ t.needed data ≤ t.cap ∧
      appendTx t data reallocOk = (t.compact.put data, true)) := by
  have hneeded : t.compact.len + data.length = t.needed data := by
    rw [TxBuf.compact_len h.ok, TxBuf.needed]
  unfold appendTx
  dsimp only
  rw [hneeded, TxBuf.compact_cap]
  generalize t.needed data = needed
  rcases Nat.lt_or_ge txBacklogLimit needed with hlimit | hlimit
  · rw [if_pos hlimit]
    exact .inl ⟨.inl hlimit, rfl⟩
  rw [if_neg (not_lt.mpr hlimit)]
  rcases Nat.lt_or_ge t.cap needed with hgrow | hroom
  · rw [if_pos hgrow]
    have hgrowth : Capacity t.growthCap := TxBuf.capacity_growthCap h.cap (hgrow.trans_le hlimit)
    obtain ⟨hcap, hroom⟩ := (hgrowth.found hlimit).newcap
    cases reallocOk with
    | true => exact .inr (.inl ⟨hlimit, rfl, _, hcap, hroom, rfl⟩)
    | false => exact .inl ⟨.inr ⟨hgrow, rfl⟩, rfl⟩
  · rw [if_neg (not_lt.mpr hroom)]
    obtain ⟨hcap, hsmall⟩ := (capacity_min.found hlimit).newcap
    split_ifs with _ hshrink
    · exact .inr (.inl ⟨hlimit, hshrink.2, _, hcap, hsmall, rfl⟩)
    · exact .inr (.inr ⟨hlimit, hroom, rfl⟩)
    · exact .inr (.inr ⟨hlimit, hroom, rfl⟩)

/-- What `append_tx` does with a buffer, for an answer of `realloc()`. -/
structure Appends (t : TxBuf) (data : List UInt8) (reallocOk : Bool) : Prop where
  /-- every copy is inside the block, and no reallocation cuts what is pending -/
  inBounds : appendTx? t data reallocOk = some (appendTx t data reallocOk)
  fails : (appendTx t data reallocOk).2 = false ↔
    txBacklogLimit < t.needed data ∨ t.cap < t.needed data ∧ reallocOk = false
  pending : (appendTx t data reallocOk).1.pending =
    if (appendTx t data reallocOk).2 then t.pending ++ data else t.pending
  /-- the two loops end, where they are reached -/
  grows : t.cap < t.needed data → t.needed data ≤ txBacklogLimit →
    Found t.growthCap (t.needed data)
  shrinks : t.needed data ≤ txBacklogLimit → Found txMinCap (t.needed data)

namespace TxBuf.Sound

variable {t : TxBuf} (h : t.Sound) (data : List UInt8) (reallocOk : Bool)
include h

theorem appends : Appends t data reallocOk where
  inBounds := appendTx?_eq h.ok data reallocOk
  fails := appendTx_fails_iff h.ok data reallocOk
  pending := (appendTx_spec h.ok rfl).2
  grows hgrow hlimit := (capacity_growthCap h.cap (hgrow.trans_le hlimit)).found hlimit
  shrinks hlimit := capacity_min.found hlimit

theorem appendTx : (appendTx t data reallocOk).1.Sound := by
  have hok : (Server.appendTx t data reallocOk).1.Ok := (appendTx_spec h.ok rfl).1
  have hfront := (compact_spec h.ok).2.2
  rcases appendTx_outcome h data reallocOk with ⟨-, heq⟩ | ⟨-, -, cap, hcap, -, heq⟩ | ⟨-, -, heq⟩
  · rw [heq] at hok ⊢
    exact ⟨hok, compact_cap t ▸ h.cap, fun heq => heq.symm.trans hfront⟩
  · rw [heq] at hok ⊢
    exact ⟨hok, .inr hcap, fun heq => heq.symm.trans hfront⟩
  · rw [heq] at hok ⊢
    exact ⟨hok, compact_cap t ▸ h.cap, fun heq => heq.symm.trans hfront⟩

end TxBuf.Sound

/-! ## Every call -/

/-- `flush_tx` leaves something to send, or it leaves the buffer empty. -/
theorem flushTx_tx (rs : List SendResult) : ∀ c : ClientConn,
    (flushTx c rs).1.tx.cap = c.tx.cap ∧
      ((flushTx c rs).1.tx.sent < (flushTx c rs).1.tx.len ∨ (flushTx c rs).1.tx.len = 0) := by
  induction rs with
  | nil =>
    intro c
    unfold flushTx
    split_ifs with hlt
    · exact ⟨rfl, .inl hlt⟩
    · exact ⟨rfl, .inr rfl⟩
  | cons r rs ih =>
    intro c
    unfold flushTx
    split_ifs with hlt
    · cases r with
      | again => exact ⟨rfl, .inl hlt⟩
      | intr => exact ih c
      | fail => exact ⟨rfl, .inl hlt⟩
      | sent n => exact ih { c with tx := { c.tx with sent := _ } }
    · exact ⟨rfl, .inr rfl⟩

theorem queueRest_tx (c : ClientConn) (data : List UInt8) (reallocOk : Bool) :
    (queueRest c data reallocOk).tx = (appendTx c.tx data reallocOk).1 := by
  unfold queueRest
  split
  case h_1 happ => rw [happ]
  case h_2 happ => rw [happ]

/-- `queue_send` leaves the buffer alone or appends to it. -/
theorem queueSend_tx (c : ClientConn) (f : Frame) (p : UInt16) (r : SendResult) (reallocOk : Bool) :
    (queueSend c f p r reallocOk).1.tx = c.tx ∨
      ∃ data, (queueSend c f p r reallocOk).1.tx = (appendTx c.tx data reallocOk).1 := by
  unfold queueSend
  split_ifs
  · cases r with
    | sent n =>
      dsimp only
      split_ifs
      · exact .inl rfl
      · exact .inr ⟨_, queueRest_tx c _ reallocOk⟩
    | again => exact .inr ⟨_, queueRest_tx c _ reallocOk⟩
    | intr => exact .inl rfl
    | fail => exact .inl rfl
  · exact .inr ⟨_, queueRest_tx c _ reallocOk⟩

theorem TxBuf.Sound.flushTx {c : ClientConn} (h : c.tx.Sound) (rs : List SendResult) :
    (flushTx c rs).1.tx.Sound := by
  obtain ⟨hcap, hleft⟩ := flushTx_tx rs c
  refine ⟨(flushTx_stream rs h.ok).1, hcap ▸ h.cap, fun heq => ?_⟩
  rcases hleft with hlt | hempty
  · exact absurd heq hlt.ne
  · exact hempty

theorem TxBuf.Sound.queueSend {c : ClientConn} (h : c.tx.Sound) (f : Frame) (p : UInt16)
    (r : SendResult) (reallocOk : Bool) : (queueSend c f p r reallocOk).1.tx.Sound := by
  rcases queueSend_tx c f p r reallocOk with hsame | ⟨data, happend⟩
  · rwa [hsame]
  · rw [happend]
    exact h.appendTx data reallocOk

/-- A call of one of the three functions on a slot, with the answers it gets. -/
inductive TxCall
  | append (data : List UInt8) (reallocOk : Bool)
  | flush (sends : List SendResult)
  | queue (f : Frame) (p : UInt16) (r : SendResult) (reallocOk : Bool)
  deriving DecidableEq, Repr

namespace ClientConn

def transmit (c : ClientConn) : TxCall → ClientConn
  | .append data reallocOk => { c with tx := (appendTx c.tx data reallocOk).1 }
  | .flush sends => (flushTx c sends).1
  | .queue f p r reallocOk => (queueSend c f p r reallocOk).1

theorem transmit_sound {c : ClientConn} (h : c.tx.Sound) (call : TxCall) :
    (c.transmit call).tx.Sound := by
  cases call with
  | append data reallocOk => exact h.appendTx data reallocOk
  | flush sends => exact h.flushTx sends
  | queue f p r reallocOk => exact h.queueSend f p r reallocOk

/-- A slot whose buffer is as `memset` leaves it, after any sequence of calls: the counters are
in order and within the block, the block has the least capacity doubled some number of times,
up to the limit, and once everything is sent the counters are back at 0. The next `append_tx`
stays inside the block, finds a new capacity if it looks for one, and fails exactly for a
backlog beyond the limit or a block it needs and does not get. -/
theorem transmit_buffer_invariant (slot : ClientConn) (calls : List TxCall) :
    let t := (calls.foldl transmit { slot with tx := {} }).tx
    t.sent ≤ t.len ∧ t.len ≤ t.cap ∧
      (t.cap = 0 ∨ ∃ i, t.cap = txMinCap * 2 ^ i) ∧ t.cap ≤ txBacklogLimit ∧
      (t.sent = t.len → t.sent = 0 ∧ t.len = 0) ∧
      ∀ data reallocOk, Appends t data reallocOk := by
  intro t
  have hsound : t.Sound :=
    List.foldlRecOn (motive := fun c : ClientConn => c.tx.Sound) calls transmit TxBuf.sound_empty
      fun _ hc call _ => transmit_sound hc call
  refine ⟨hsound.ok.sent_le, hsound.ok.len_le, hsound.cap.imp_right Capacity.doubled, ?_, ?_,
    hsound.appends⟩
  · rcases hsound.cap with hzero | hcap
    · rw [hzero]
      exact Nat.zero_le _
    · exact hcap.le_limit
  · intro heq
    have hempty := hsound.drained heq
    exact ⟨heq.trans hempty, hempty⟩

end ClientConn

/-! ## The server -/

theorem sound_local : Local fun e => e.conn.tx.Sound where
  fresh := TxBuf.sound_empty
  accepted _ _ _ := TxBuf.sound_empty
  markPoll h := h
  condemn h := h
  receive _ _ _ h := h
  consume _ _ h := h
  setName _ _ h := h
  queueSend f p r ok h := h.queueSend f p r ok
  flush rs _ h := h.flushTx rs

/-- The buffers of the server are sound at every point of every run. -/
theorem backlog_sound {b : Boot} {w : World} (h : Reachable b w) (i : Slot) :
    (w.conn i).tx.Sound :=
  (sound_local.reachable h).live i

end PiDaemon.Server
