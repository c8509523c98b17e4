import PiDaemon.App.Bulk

/-!
# Reassembly of bulk transfers

The abstract view of a receiver is a `Session`: the chunks accepted since the
session was opened, in order of arrival, each with the data its frame carries. The
first chunk that arrives for an index counts, and the transfer is the concatenation
of these. `Tracks` relates the counters, flags and slots of `bulk_rx_t` to a session.

The receiver completes a session when it has as many different indices as the
session has chunks, and copies the size a chunk declares. The first is the same as
having all chunks if no index lies beyond the last one; the second copies the
chunk's data if its frame is that long, and what lies behind the frame otherwise.
The code checks neither.
-/

namespace PiDaemon.App

open Base

/-! ## Sessions -/

/-- A chunk as it arrives: its index, the size it declares, and the data that the
frame has of it. -/
structure Chunk where
  seq : ℕ
  n : ℕ
  data : List UInt8
  deriving DecidableEq, Repr

def Chunk.Whole (c : Chunk) : Prop := c.data.length = c.n

def Inbound.chunk (f : Inbound) : Chunk :=
  ⟨f.chunkSeq, f.n, f.mem.load bulkWrapperHeaderSize (min f.n (f.len - bulkWrapperHeaderSize))⟩

theorem Inbound.data_chunk (f : Inbound) : f.chunk.data <+: f.chunkData := by
  have hn : f.n = min f.n (f.len - bulkWrapperHeaderSize) +
      (f.n - min f.n (f.len - bulkWrapperHeaderSize)) := by omega
  rw [Inbound.chunkData, hn, Mem.load_add]
  exact ⟨_, rfl⟩

/-- The chunks accepted in a session, oldest first. -/
structure Session where
  id : UInt32
  total : ℕ
  chunks : List Chunk
  deriving DecidableEq, Repr

namespace Session

def add (S : Session) (c : Chunk) : Session := { S with chunks := S.chunks ++ [c] }

def indices (S : Session) : Finset ℕ := (S.chunks.map Chunk.seq).toFinset

def first (S : Session) (i : ℕ) : Option Chunk := S.chunks.find? (·.seq = i)

def bytes (S : Session) : List UInt8 :=
  (List.range S.total).flatMap fun i => ((S.first i).map Chunk.data).getD []

variable (S : Session) {c : Chunk} {i : ℕ}

@[simp] theorem indices_add : (S.add c).indices = insert c.seq S.indices := by
  ext i
  simp [indices, add]

theorem first_isSome_iff (i : ℕ) : (S.first i).isSome ↔ i ∈ S.indices := by
  simp [first, indices, List.find?_isSome]

theorem first_add_of_ne (h : i ≠ c.seq) : (S.add c).first i = S.first i := by
  simp [first, add, List.find?_append, h.symm]

theorem first_add_self (h : c.seq ∉ S.indices) : (S.add c).first c.seq = some c := by
  have hnone : S.first c.seq = none := by
    rw [← Option.not_isSome_iff_eq_none, first_isSome_iff]
    exact h
  rw [first] at hnone
  rw [first, add, List.find?_append, hnone]
  simp

theorem first_add_of_mem (h : c.seq ∈ S.indices) (i : ℕ) : (S.add c).first i = S.first i := by
  by_cases hi : i = c.seq
  · obtain ⟨d, hd⟩ := Option.isSome_iff_exists.mp ((S.first_isSome_iff c.seq).mpr h)
    rw [first] at hd
    rw [hi, first, first, add, List.find?_append, hd, Option.some_or]
  · exact S.first_add_of_ne hi

end Session

/-! ## The receiver's state and the session -/

/-- The receive state represents a session. -/
structure Tracks (rx : BulkRx) (S : Session) : Prop where
  active : rx.active = true
  id : rx.transferId = S.id
  total : rx.totalChunks = S.total
  bounded (i : ℕ) : i ∈ S.indices → i < bulkRxMaxChunks
  seen (i : ℕ) : rx.seen i = true ↔ i ∈ S.indices
  received : rx.chunksReceived = S.indices.card
  stored (i : ℕ) (c : Chunk) : S.first i = some c → (rx.slot i).length = c.n ∧ c.data <+: rx.slot i
  fits (i : ℕ) : i ∈ S.indices → rx.chunkLen i ≤ maxChunkData

theorem tracks_begin_new {rx : BulkRx} {transferId : UInt32}
    (h : rx.active = false ∨ rx.transferId ≠ transferId) (totalChunks : ℕ) :
    Tracks (rx.begin transferId totalChunks) ⟨transferId, totalChunks, []⟩ := by
  rw [BulkRx.begin, if_pos h]
  constructor <;> simp [Session.indices, Session.first]

theorem begin_same {rx : BulkRx} {S : Session} (h : Tracks rx S) (totalChunks : ℕ) :
    rx.begin S.id totalChunks = rx := by
  simp [BulkRx.begin, h.active, h.id]

section Put

variable {rx : BulkRx} {S : Session} {c : Chunk} {seq i : ℕ} {bytes : List UInt8}

theorem put_seen (h : rx.seen seq = true) : rx.put seq bytes = rx := by
  simp [BulkRx.put, h]

theorem put_new (h : rx.seen seq = false) :
    rx.put seq bytes =
      { rx with
        data := rx.data.store (seq * maxChunkData) bytes
        chunkLen := Function.update rx.chunkLen seq bytes.length
        seen := Function.update rx.seen seq true
        chunksReceived := rx.chunksReceived + 1 } := by
  simp [BulkRx.put, h]

theorem slot_put_of_ne (hne : i ≠ seq) (hnew : rx.seen seq = false)
    (hb : bytes.length ≤ maxChunkData) (hi : rx.chunkLen i ≤ maxChunkData) :
    (rx.put seq bytes).slot i = rx.slot i := by
  have hapart : i * maxChunkData + rx.chunkLen i ≤ seq * maxChunkData ∨
      seq * maxChunkData + bytes.length ≤ i * maxChunkData := by
    rcases Nat.lt_or_gt_of_ne hne with hlt | hgt
    · left
      have := Nat.mul_le_mul_right maxChunkData (Nat.succ_le_of_lt hlt)
      rw [Nat.succ_mul] at this
      omega
    · right
      have := Nat.mul_le_mul_right maxChunkData (Nat.succ_le_of_lt hgt)
      rw [Nat.succ_mul] at this
      omega
  simp only [put_new hnew, BulkRx.slot, Function.update_of_ne hne]
  exact Mem.load_store_of_disjoint _ hapart

theorem slot_put_self (hnew : rx.seen seq = false) : (rx.put seq bytes).slot seq = bytes := by
  simp [put_new hnew, BulkRx.slot]

theorem Tracks.add_of_mem (h : Tracks rx S) (hmem : c.seq ∈ S.indices) : Tracks rx (S.add c) := by
  have hind : (S.add c).indices = S.indices := by simp [hmem]
  refine ⟨h.active, h.id, h.total, hind ▸ h.bounded, hind ▸ h.seen, hind ▸ h.received, ?_,
    hind ▸ h.fits⟩
  intro i d hd
  exact h.stored i d (S.first_add_of_mem hmem i ▸ hd)

theorem Tracks.stored_put (h : Tracks rx S) (hnew : rx.seen c.seq = false)
    (hmem : c.seq ∉ S.indices) (hlen : bytes.length = c.n) (hn : c.n ≤ maxChunkData)
    (hdata : c.data <+: bytes) {d : Chunk} (hd : (S.add c).first i = some d) :
    ((rx.put c.seq bytes).slot i).length = d.n ∧ d.data <+: (rx.put c.seq bytes).slot i := by
  by_cases hi : i = c.seq
  · rw [hi, S.first_add_self hmem, Option.some.injEq] at hd
    rw [hi, slot_put_self hnew, ← hd]
    exact ⟨hlen, hdata⟩
  · rw [S.first_add_of_ne hi] at hd
    have hin := (S.first_isSome_iff i).mp (Option.isSome_of_mem hd)
    rw [slot_put_of_ne hi hnew (hlen.trans_le hn) (h.fits i hin)]
    exact h.stored i d hd

theorem Tracks.put_add (h : Tracks rx S) (hnew : rx.seen c.seq = false)
    (hmem : c.seq ∉ S.indices) (hseq : c.seq < bulkRxMaxChunks) (hlen : bytes.length = c.n)
    (hn : c.n ≤ maxChunkData) (hdata : c.data <+: bytes) :
    Tracks (rx.put c.seq bytes) (S.add c) where
  active := by rw [put_new hnew]; exact h.active
  id := by rw [put_new hnew]; exact h.id
  total := by rw [put_new hnew]; exact h.total
  bounded i hi := by
    rw [Session.indices_add, Finset.mem_insert] at hi
    rcases hi with rfl | hi
    · exact hseq
    · exact h.bounded i hi
  seen i := by
    rw [put_new hnew, Session.indices_add, Finset.mem_insert, ← h.seen i]
    by_cases hi : i = c.seq <;> simp [hi]
  received := by
    rw [put_new hnew, Session.indices_add, Finset.card_insert_of_notMem hmem, h.received]
  stored _ _ hd := h.stored_put hnew hmem hlen hn hdata hd
  fits i hi := by
    rw [Session.indices_add, Finset.mem_insert] at hi
    by_cases his : i = c.seq
    · simpa [put_new hnew, his, hlen] using hn
    · have := h.fits i (hi.resolve_left his)
      simpa [put_new hnew, Function.update_of_ne his] using this

/-- A chunk joins the session. When its index is repeated nothing is stored, and the
session's first chunk stays the first. -/
theorem Tracks.put (h : Tracks rx S) (hseq : c.seq < bulkRxMaxChunks)
    (hlen : bytes.length = c.n) (hn : c.n ≤ maxChunkData) (hdata : c.data <+: bytes) :
    Tracks (rx.put c.seq bytes) (S.add c) := by
  cases hseen : rx.seen c.seq with
  | true =>
    rw [put_seen hseen]
    exact h.add_of_mem ((h.seen c.seq).mp hseen)
  | false =>
    have hmem : c.seq ∉ S.indices := fun hm => by simp [(h.seen c.seq).mpr hm] at hseen
    exact h.put_add hseen hmem hseq hlen hn hdata

end Put

def Session.Whole (S : Session) : Prop := ∀ i < S.total, ∀ c ∈ S.first i, c.Whole

/-- A session that has all its chunks is assembled from what was copied for them:
that is their data exactly if they are whole. -/
theorem Tracks.assembled_iff {rx : BulkRx} {S : Session} (h : Tracks rx S)
    (hall : ∀ i < S.total, i ∈ S.indices) (buf : Mem) :
    (rx.assemble buf).1.load 0 (rx.assemble buf).2 = S.bytes ↔ S.Whole := by
  have hfirst : ∀ i < S.total, ∃ c, S.first i = some c := fun i hi =>
    Option.isSome_iff_exists.mp ((S.first_isSome_iff i).mpr (hall i hi))
  rw [assemble_spec, h.total, eq_comm, Session.bytes, flatMap_eq_flatMap_iff]
  · simp only [List.mem_range, Session.Whole]
    refine forall₂_congr fun i hi => ?_
    obtain ⟨c, hc⟩ := hfirst i hi
    obtain ⟨hlen, hdata⟩ := h.stored i c hc
    simp only [hc, Option.map_some, Option.getD_some, Option.mem_some_iff, forall_eq']
    rw [Chunk.Whole, ← hlen]
    exact ⟨congrArg List.length, hdata.eq_of_length⟩
  · intro i hi
    obtain ⟨c, hc⟩ := hfirst i (List.mem_range.mp hi)
    simpa [hc] using (h.stored i c hc).2

/-! ## One chunk -/

theorem begin_transferId (rx : BulkRx) (transferId : UInt32) (totalChunks : ℕ) :
    (rx.begin transferId totalChunks).transferId = transferId := by
  unfold BulkRx.begin
  split_ifs with h
  · rfl
  · exact not_not.mp (not_or.mp h).2

/-- A chunk within the limits joins the session its frame belongs to: the session
goes on while indices are missing from the count, and is acknowledged otherwise. -/
theorem handleBulkChunk_join {rx : BulkRx} {S : Session} {f : Inbound} (buf : Mem)
    (hlen : bulkWrapperHeaderSize ≤ f.len) (hlim : ¬f.OverLimits)
    (hbegin : Tracks (rx.begin f.transferId f.totalChunks) S) :
    let T := S.add f.chunk
    let out := handleBulkChunk rx buf f
    (T.indices.card < T.total → Tracks out.rx T ∧ out.completed = none ∧ out.sent = []) ∧
    (T.total ≤ T.indices.card → out.rx.active = false ∧ out.sent = [ackMessage S.id] ∧
      ∃ total, out.completed = some total ∧
        ((∀ i < T.total, i ∈ T.indices) → (out.assembleBuf.load 0 total = T.bytes ↔ T.Whole))) := by
  intro T out
  have hseq : f.chunkSeq < bulkRxMaxChunks := by
    by_contra h
    exact hlim (.inl (by omega))
  have hn : f.n ≤ maxChunkData := by
    by_contra h
    exact hlim (.inr (.inr (by omega)))
  have hput : Tracks ((rx.begin f.transferId f.totalChunks).put f.chunkSeq f.chunkData) T :=
    hbegin.put hseq (Mem.length_load ..) hn f.data_chunk
  have hid : f.transferId = S.id := (begin_transferId rx _ _).symm.trans hbegin.id
  have hout : out = handleBulkChunk rx buf f := rfl
  simp only [handleBulkChunk, if_neg (Nat.not_lt.mpr hlen), if_neg hlim, hput.received,
    hput.total] at hout
  constructor
  · intro hmore
    rw [if_pos hmore] at hout
    rw [hout]
    exact ⟨hput, rfl, rfl⟩
  · intro hdone
    rw [if_neg (Nat.not_lt.mpr hdone)] at hout
    rw [hout]
    exact ⟨rfl, by rw [hid], _, rfl, fun hall => hput.assembled_iff hall buf⟩

/-! ## Arbitrary frames -/

structure Ack where
  session : Session
  message : ToNetwork
  assembled : List UInt8
  deriving DecidableEq, Repr

/-- All chunks have been received and the assembled bytes are their data. -/
def Ack.Sound (a : Ack) : Prop :=
  a.message = ackMessage a.session.id ∧
    (∀ i < a.session.total, (a.session.first i).isSome) ∧ a.assembled = a.session.bytes

/-- One `bulk_rx_t` with the assembly buffer, next to the session it is in and the
ACKs sent so far. -/
structure Receiver where
  rx : BulkRx := {}
  assembleBuf : Mem := fun _ => 0
  session : Option Session := none
  acks : List Ack := []

namespace Receiver

def joined (r : Receiver) (f : Inbound) : Session :=
  match r.session with
  | some S => if S.id = f.transferId then S else ⟨f.transferId, f.totalChunks, []⟩
  | none => ⟨f.transferId, f.totalChunks, []⟩

/-- `handle_bulk_chunk`, and the record of it. A session ends when it is dropped or
acknowledged. -/
def feed (r : Receiver) (f : Inbound) : Receiver :=
  let out := handleBulkChunk r.rx r.assembleBuf f
  let S := (r.joined f).add f.chunk
  { rx := out.rx
    assembleBuf := out.assembleBuf
    session :=
      if f.len < bulkWrapperHeaderSize then r.session
      else if out.rx.active then some S else none
    acks := r.acks ++ out.completed.toList.flatMap fun total =>
      out.sent.map fun m => ⟨S, m, out.assembleBuf.load 0 total⟩ }

end Receiver

def Session.InRange (S : Session) : Prop := S.total = 0 ∨ ∀ i ∈ S.indices, i < S.total

structure Receiver.Inv (r : Receiver) : Prop where
  idle : r.session = none → r.rx.active = false
  busy (S : Session) : r.session = some S → Tracks r.rx S ∧ S.indices.card < S.total
  acked (a : Ack) : a ∈ r.acks → (a.Sound ↔ a.session.InRange ∧ a.session.Whole)

theorem Receiver.Inv.begin {r : Receiver} (h : r.Inv) (f : Inbound) :
    Tracks (r.rx.begin f.transferId f.totalChunks) (r.joined f) ∧
      ((r.joined f).total = 0 ∨ (r.joined f).indices.card < (r.joined f).total) := by
  have hnew : (⟨f.transferId, f.totalChunks, []⟩ : Session).total = 0 ∨
      (⟨f.transferId, f.totalChunks, []⟩ : Session).indices.card < f.totalChunks := by
    simp [Session.indices, Nat.eq_zero_or_pos]
  unfold Receiver.joined
  cases hs : r.session with
  | none => exact ⟨tracks_begin_new (.inl (h.idle hs)) _, hnew⟩
  | some S =>
    obtain ⟨htracks, hcard⟩ := h.busy S hs
    by_cases hid : S.id = f.transferId
    · simp only [if_pos hid]
      rw [← hid, begin_same htracks]
      exact ⟨htracks, .inr hcard⟩
    · simp only [if_neg hid]
      exact ⟨tracks_begin_new (.inr (htracks.id ▸ hid)) _, hnew⟩

theorem all_mem_iff_of_card_eq {s : Finset ℕ} {n : ℕ} (h : s.card = n) :
    (∀ i < n, i ∈ s) ↔ ∀ i ∈ s, i < n := by
  have hcard : s.card = (Finset.range n).card := by rw [h, Finset.card_range]
  constructor
  · intro hall i hi
    have hsub : Finset.range n ⊆ s := fun k hk => hall k (Finset.mem_range.mp hk)
    rw [← Finset.eq_of_subset_of_card_le hsub hcard.le] at hi
    exact Finset.mem_range.mp hi
  · intro hall i hi
    have hsub : s ⊆ Finset.range n := fun k hk => Finset.mem_range.mpr (hall k hk)
    rw [Finset.eq_of_subset_of_card_le hsub hcard.ge]
    exact Finset.mem_range.mpr hi

theorem Session.all_mem_iff_inRange {S : Session} (h : S.total = 0 ∨ S.indices.card = S.total) :
    (∀ i < S.total, i ∈ S.indices) ↔ S.InRange := by
  rw [Session.InRange]
  obtain hzero | hcard := h
  · simp [hzero]
  · rw [all_mem_iff_of_card_eq hcard]
    constructor
    · exact .inr
    · rintro (hzero | h)
      · rw [hzero, Finset.card_eq_zero] at hcard
        simp [hcard]
      · exact h

theorem sound_iff_inRange {S : Session} {assembled : List UInt8}
    (hcount : S.total = 0 ∨ S.indices.card = S.total)
    (hbytes : (∀ i < S.total, i ∈ S.indices) → (assembled = S.bytes ↔ S.Whole)) :
    (Ack.mk S (ackMessage S.id) assembled).Sound ↔ S.InRange ∧ S.Whole := by
  rw [← Session.all_mem_iff_inRange hcount]
  constructor
  · rintro ⟨-, hall, hassembled⟩
    have hmem : ∀ i < S.total, i ∈ S.indices := fun i hi => (S.first_isSome_iff i).mp (hall i hi)
    exact ⟨hmem, (hbytes hmem).mp hassembled⟩
  · rintro ⟨hmem, hwhole⟩
    exact ⟨rfl, fun i hi => (S.first_isSome_iff i).mpr (hmem i hi), (hbytes hmem).mpr hwhole⟩

theorem Receiver.Inv.feed {r : Receiver} (h : r.Inv) (f : Inbound) : (r.feed f).Inv := by
  by_cases hlen : f.len < bulkWrapperHeaderSize
  · have hout : handleBulkChunk r.rx r.assembleBuf f = ⟨r.rx, r.assembleBuf, none, []⟩ := by
      simp [handleBulkChunk, hlen]
    simp only [Receiver.feed, hout, if_pos hlen]
    exact ⟨h.idle, h.busy, by simpa using h.acked⟩
  · by_cases hlim : f.OverLimits
    · have hout : handleBulkChunk r.rx r.assembleBuf f =
          ⟨{ r.rx.begin f.transferId f.totalChunks with active := false }, r.assembleBuf, none,
            []⟩ := by
        simp [handleBulkChunk, hlen, hlim]
      simp only [Receiver.feed, hout, if_neg hlen]
      exact ⟨fun _ => rfl, fun S hS => by simp at hS, by simpa using h.acked⟩
    · obtain ⟨hbegin, hroom⟩ := h.begin f
      obtain ⟨hmore, hdone⟩ :=
        handleBulkChunk_join r.assembleBuf (Nat.not_lt.mp hlen) hlim hbegin
      by_cases hcard : ((r.joined f).add f.chunk).indices.card <
          ((r.joined f).add f.chunk).total
      · obtain ⟨htracks, hcompleted, hsent⟩ := hmore hcard
        simp only [Receiver.feed, hcompleted, if_neg hlen, htracks.active, if_true]
        refine ⟨fun hnone => by simp at hnone, fun S hS => ?_, by simpa using h.acked⟩
        obtain rfl := Option.some.inj hS
        exact ⟨htracks, hcard⟩
      · obtain ⟨hidle, hsent, total, hcompleted, hbytes⟩ := hdone (Nat.not_lt.mp hcard)
        have hcount : ((r.joined f).add f.chunk).total = 0 ∨
            ((r.joined f).add f.chunk).indices.card =
              ((r.joined f).add f.chunk).total := by
          have hle := Finset.card_insert_le f.chunk.seq (r.joined f).indices
          rw [Session.indices_add] at hcard ⊢
          simp only [Session.add] at hcard ⊢
          omega
        simp only [Receiver.feed, hcompleted, hsent, if_neg hlen, hidle]
        refine ⟨fun _ => hidle, fun S hS => by simp at hS, fun a ha => ?_⟩
        rw [List.mem_append] at ha
        rcases ha with ha | ha
        · exact h.acked a ha
        · simp only [Option.toList_some, List.flatMap_cons, List.flatMap_nil, List.map_cons,
            List.map_nil, List.append_nil, List.mem_singleton] at ha
          subst ha
          exact sound_iff_inRange hcount hbytes

theorem Receiver.Inv.run (fs : List Inbound) : ∀ {r : Receiver}, r.Inv →
    (fs.foldl Receiver.feed r).Inv := by
  induction fs with
  | nil => exact id
  | cons f fs ih => exact fun h => ih (h.feed f)

theorem Receiver.inv_initial : Receiver.Inv {} where
  idle _ := rfl
  busy _ hS := by cases hS
  acked _ ha := by cases ha

/-- For every sequence of frames, an ACK is sound if and only if no chunk of its
session had an index beyond the announced number of chunks, and no first chunk
declared more data than its frame had. -/
theorem bulk_ack_sound_iff (fs : List Inbound) (a : Ack)
    (ha : a ∈ (fs.foldl Receiver.feed {}).acks) :
    a.Sound ↔ a.session.InRange ∧ a.session.Whole :=
  (Receiver.inv_initial.run fs).acked a ha

def inboundOf (transferId chunkSeq totalChunks : UInt32) (data : List UInt8) : Inbound :=
  let wrapper := packBulkWrapper transferId chunkSeq totalChunks data
  ⟨fun k => wrapper.getD k 0, wrapper.length⟩

/-- Two chunks, the second one first. -/
theorem bulk_ack_sound_out_of_order :
    ∃ a ∈ ([inboundOf 9 1 2 [20], inboundOf 9 0 2 [10]].foldl Receiver.feed {}).acks,
      a.session.bytes = [10, 20] ∧ a.Sound := by
  have hsession : ([inboundOf 9 1 2 [20], inboundOf 9 0 2 [10]].foldl
      Receiver.feed {}).acks.map Ack.session = [⟨9, 2, [⟨1, 1, [20]⟩, ⟨0, 1, [10]⟩]⟩] := by
    decide +kernel
  obtain ⟨a, ha, hS⟩ := List.mem_map.mp (hsession ▸ List.mem_singleton_self _)
  refine ⟨a, ha, by rw [hS]; decide, (bulk_ack_sound_iff _ a ha).mpr ⟨.inr ?_, ?_⟩⟩
  · rw [hS]
    decide
  · rw [hS]
    intro i hi
    interval_cases i <;> simp [Session.first, Chunk.Whole]

/-- A chunk that declares four bytes in a frame that ends with its header, in a buffer
that holds an older frame's bytes behind it. -/
def overlongFrame : Inbound :=
  ⟨fun k => (be32 9 ++ be32 0 ++ be32 1 ++ be16 4 ++ [0xAA, 0xBB, 0xCC, 0xDD]).getD k 0,
    bulkWrapperHeaderSize⟩

/-- Two chunks with indices beyond the announced two are acknowledged, and nothing
of the transfer is there. A chunk without its data is acknowledged, and stale bytes
of the buffer are assembled for it. -/
theorem bulk_ack_unsound :
    (∃ a ∈ ([inboundOf 9 5 2 [10], inboundOf 9 6 2 [20]].foldl Receiver.feed {}).acks, ¬a.Sound) ∧
      ∃ a ∈ ([overlongFrame].foldl Receiver.feed {}).acks,
        a.assembled = [0xAA, 0xBB, 0xCC, 0xDD] ∧ ¬a.Sound := by
  have hbeyond : ([inboundOf 9 5 2 [10], inboundOf 9 6 2 [20]].foldl
      Receiver.feed {}).acks.map Ack.session = [⟨9, 2, [⟨5, 1, [10]⟩, ⟨6, 1, [20]⟩]⟩] := by
    decide +kernel
  have hoverlong : ([overlongFrame].foldl Receiver.feed {}).acks =
      [⟨⟨9, 1, [⟨0, 4, []⟩]⟩, ackMessage 9, [0xAA, 0xBB, 0xCC, 0xDD]⟩] := by
    decide +kernel
  constructor
  · obtain ⟨a, ha, hS⟩ := List.mem_map.mp (hbeyond ▸ List.mem_singleton_self _)
    refine ⟨a, ha, fun hsound => ?_⟩
    have hfirst := hsound.2.1 0
    rw [hS] at hfirst
    exact absurd (hfirst (by decide)) (by decide)
  · rw [hoverlong]
    refine ⟨_, List.mem_singleton_self _, rfl, fun hsound => ?_⟩
    exact absurd hsound.2.2 (by decide)

/-! ## The chunks of one transfer, in any order -/

/-- The results of `handle_bulk_chunk` on a sequence of frames, with all that was sent. -/
def handleBulkChunks (st : ChunkResult) (fs : List Inbound) : ChunkResult :=
  fs.foldl (fun st f =>
    let out := handleBulkChunk st.rx st.assembleBuf f
    { out with sent := st.sent ++ out.sent }) st

section Transfer

variable (id : UInt32) (k : ℕ) (chunk : ℕ → List UInt8)

structure CarriesChunk (f : Inbound) (i : ℕ) : Prop where
  len : f.len = (packBulkWrapper id (.ofNat i) (.ofNat k) (chunk i)).length
  mem : f.mem.load 0 (packBulkWrapper id (.ofNat i) (.ofNat k) (chunk i)).length =
    packBulkWrapper id (.ofNat i) (.ofNat k) (chunk i)

def sessionOf (is : List ℕ) : Session := ⟨id, k, is.map fun i => ⟨i, (chunk i).length, chunk i⟩⟩

theorem sessionOf_concat (is : List ℕ) (i : ℕ) :
    sessionOf id k chunk (is ++ [i]) =
      (sessionOf id k chunk is).add ⟨i, (chunk i).length, chunk i⟩ := by
  simp [sessionOf, Session.add]

@[simp] theorem indices_sessionOf (is : List ℕ) :
    (sessionOf id k chunk is).indices = is.toFinset := by
  simp [sessionOf, Session.indices, Function.comp_def]

theorem first_sessionOf {is : List ℕ} {i : ℕ} (hi : i ∈ is) :
    (sessionOf id k chunk is).first i = some ⟨i, (chunk i).length, chunk i⟩ := by
  induction is with
  | nil => cases hi
  | cons j is ih =>
    simp only [sessionOf, Session.first, List.map_cons, List.find?_cons] at ih ⊢
    by_cases hij : j = i
    · simp [hij]
    · simp only [hij, decide_false]
      exact ih ((List.mem_cons.mp hi).resolve_left fun h => hij h.symm)

theorem whole_sessionOf {is : List ℕ} (hall : ∀ i < k, i ∈ is) :
    (sessionOf id k chunk is).Whole := by
  intro i hi c hc
  rw [first_sessionOf id k chunk (hall i hi), Option.mem_some_iff] at hc
  exact hc ▸ rfl

variable {id k chunk} (hk : k ≤ bulkRxMaxChunks) (hchunk : ∀ i < k, (chunk i).length ≤ maxChunkData)
include hk hchunk

theorem CarriesChunk.fields {f : Inbound} {i : ℕ} (h : CarriesChunk id k chunk f i) (hi : i < k) :
    bulkWrapperHeaderSize ≤ f.len ∧ ¬f.OverLimits ∧ f.transferId = id ∧ f.totalChunks = k ∧
      f.chunk = ⟨i, (chunk i).length, chunk i⟩ := by
  have hsize : bulkRxMaxChunks < 2 ^ 32 := by decide
  obtain ⟨hid, hseq, htotal, hn, hdata⟩ := unpack_packBulkWrapper (hchunk i hi) h.mem
  rw [UInt32.toNat_ofNat', Nat.mod_eq_of_lt (by omega)] at hseq htotal
  have hlen : f.len = bulkWrapperHeaderSize + (chunk i).length := by
    rw [h.len, length_packBulkWrapper]
  refine ⟨by omega, ?_, hid, htotal, ?_⟩
  · have := hchunk i hi
    rw [Inbound.OverLimits, hseq, htotal, hn]
    omega
  · have hmin : min f.n (f.len - bulkWrapperHeaderSize) = f.n := by omega
    rw [Inbound.chunk, hmin, hseq, ← hn, ← Inbound.chunkData, hdata]

omit hk hchunk in
def Awaiting (id : UInt32) (k : ℕ) (chunk : ℕ → List UInt8) (rx : BulkRx) (is : List ℕ) : Prop :=
  (is = [] ∧ (rx.active = false ∨ rx.transferId ≠ id)) ∨ Tracks rx (sessionOf id k chunk is)

omit hk hchunk in
theorem Awaiting.begin {rx : BulkRx} {is : List ℕ} (h : Awaiting id k chunk rx is) :
    Tracks (rx.begin id k) (sessionOf id k chunk is) := by
  obtain ⟨rfl, hidle⟩ | htracks := h
  · exact tracks_begin_new hidle k
  · have hid : (sessionOf id k chunk is).id = id := rfl
    rw [← hid, begin_same htracks]
    exact htracks

theorem Awaiting.arrive {rx : BulkRx} {is : List ℕ} (h : Awaiting id k chunk rx is) (buf : Mem)
    {f : Inbound} {i : ℕ} (hf : CarriesChunk id k chunk f i) (his : ∀ j ∈ is ++ [i], j < k) :
    ((∃ j < k, j ∉ is ++ [i]) →
      Awaiting id k chunk (handleBulkChunk rx buf f).rx (is ++ [i]) ∧
        (handleBulkChunk rx buf f).sent = []) ∧
    ((∀ j < k, j ∈ is ++ [i]) →
      (handleBulkChunk rx buf f).rx.active = false ∧
        (handleBulkChunk rx buf f).sent = [ackMessage id] ∧
        ∃ total, (handleBulkChunk rx buf f).completed = some total ∧
          (handleBulkChunk rx buf f).assembleBuf.load 0 total = (List.range k).flatMap chunk) := by
  obtain ⟨hlen, hlim, hid, htotal, hcarried⟩ := hf.fields hk hchunk (his i (by simp))
  have hbegin : Tracks (rx.begin f.transferId f.totalChunks) (sessionOf id k chunk is) := by
    rw [hid, htotal]
    exact h.begin
  obtain ⟨hmore, hdone⟩ := handleBulkChunk_join buf hlen hlim hbegin
  rw [hcarried, ← sessionOf_concat, indices_sessionOf] at hmore hdone
  have hsub : (is ++ [i]).toFinset ⊆ Finset.range k := by
    intro j hj
    exact Finset.mem_range.mpr (his j (List.mem_toFinset.mp hj))
  have hle : (is ++ [i]).toFinset.card ≤ k := by
    simpa using Finset.card_le_card hsub
  constructor
  · rintro ⟨j, hj, hmissing⟩
    have hlt : (is ++ [i]).toFinset.card < k := by
      refine lt_of_le_of_ne hle fun heq => hmissing ?_
      have hall := (all_mem_iff_of_card_eq heq).mpr fun m hm => his m (List.mem_toFinset.mp hm)
      exact List.mem_toFinset.mp (hall j hj)
    obtain ⟨htracks, -, hsent⟩ := hmore hlt
    exact ⟨.inr htracks, hsent⟩
  · intro hall
    have hge : k ≤ (is ++ [i]).toFinset.card := by
      have hcover : Finset.range k ⊆ (is ++ [i]).toFinset := fun j hj =>
        List.mem_toFinset.mpr (hall j (Finset.mem_range.mp hj))
      simpa using Finset.card_le_card hcover
    obtain ⟨hidle, hsent, total, hcompleted, hbytes⟩ := hdone hge
    refine ⟨hidle, hsent, total, hcompleted, ?_⟩
    rw [(hbytes fun j hj => List.mem_toFinset.mpr (hall j hj)).mpr (whole_sessionOf id k chunk hall)]
    apply List.flatMap_congr
    intro j hj
    rw [first_sessionOf id k chunk (hall j (List.mem_range.mp hj)), Option.map_some,
      Option.getD_some]

theorem Awaiting.arriveAll {fs : List Inbound} {js : List ℕ}
    (hfs : List.Forall₂ (CarriesChunk id k chunk) fs js) : ∀ {st : ChunkResult} {is : List ℕ},
    Awaiting id k chunk st.rx is → st.sent = [] → (∀ j ∈ is ++ js, j < k) →
      (∃ j < k, j ∉ is ++ js) →
      Awaiting id k chunk (handleBulkChunks st fs).rx (is ++ js) ∧
        (handleBulkChunks st fs).sent = [] := by
  induction hfs with
  | nil => intro st is h hsent _ _; simpa [handleBulkChunks] using ⟨h, hsent⟩
  | @cons f i fs js hf _ ih =>
    intro st is h hsent hbound hmissing
    have happend : is ++ i :: js = (is ++ [i]) ++ js := by simp
    rw [happend] at hbound hmissing ⊢
    have hstep := (h.arrive hk hchunk st.assembleBuf hf
      fun j hj => hbound j (List.mem_append_left _ hj)).1 ?_
    · obtain ⟨hnext, hnone⟩ := hstep
      refine ih ?_ ?_ hbound hmissing
      · exact hnext
      · simp [hsent, hnone]
    · obtain ⟨j, hj, hnot⟩ := hmissing
      exact ⟨j, hj, fun hmem => hnot (List.mem_append_left _ hmem)⟩

/-- The chunks of a transfer, in any order and with any repetition, up to the first
arrival that completes the set: nothing is sent before it, and it is answered by
the one ACK with the transfer in the assembly buffer. -/
theorem bulk_reassembly {rx : BulkRx} (hrx : rx.active = false ∨ rx.transferId ≠ id) (buf : Mem)
    {fs : List Inbound} {is : List ℕ}
    (hfs : List.Forall₂ (CarriesChunk id k chunk) fs is) {f : Inbound} {i : ℕ}
    (hf : CarriesChunk id k chunk f i) (hbound : ∀ j ∈ is ++ [i], j < k)
    (hbefore : ∃ j < k, j ∉ is) (hall : ∀ j < k, j ∈ is ++ [i]) :
    let st := handleBulkChunks ⟨rx, buf, none, []⟩ fs
    let out := handleBulkChunk st.rx st.assembleBuf f
    st.sent = [] ∧ out.sent = [ackMessage id] ∧ out.rx.active = false ∧
      ∃ total, out.completed = some total ∧
        out.assembleBuf.load 0 total = (List.range k).flatMap chunk := by
  intro st out
  have hstart : Awaiting id k chunk (⟨rx, buf, none, []⟩ : ChunkResult).rx [] := .inl ⟨rfl, hrx⟩
  obtain ⟨hmid, hnone⟩ := Awaiting.arriveAll hk hchunk hfs hstart rfl
    (fun j hj => hbound j (List.mem_append_left _ hj)) hbefore
  obtain ⟨hidle, hsent, hbytes⟩ := (hmid.arrive hk hchunk st.assembleBuf hf hbound).2 hall
  exact ⟨hnone, hsent, hidle, hbytes⟩

end Transfer

theorem carriesChunk_inboundOf {id : UInt32} {k i : ℕ} {chunk : ℕ → List UInt8} :
    CarriesChunk id k chunk (inboundOf id (.ofNat i) (.ofNat k) (chunk i)) i where
  len := rfl
  mem := by
    apply List.ext_getElem
    · simp
    · intro j _ hj
      simp [Mem.load, inboundOf, hj]

/-- The second of two chunks arrives twice before the first, over an unfinished
session of another transfer. -/
theorem bulk_reassembly_two_chunks :
    let chunk (i : ℕ) : List UInt8 := [UInt8.ofNat i, 7]
    let rx : BulkRx := { active := true, transferId := 3, totalChunks := 5, seen := fun _ => true }
    let st := handleBulkChunks ⟨rx, fun _ => 0, none, []⟩
      [inboundOf 9 1 2 (chunk 1), inboundOf 9 1 2 (chunk 1)]
    let out := handleBulkChunk st.rx st.assembleBuf (inboundOf 9 0 2 (chunk 0))
    out.sent = [ackMessage 9] ∧
      ∃ total, out.completed = some total ∧ out.assembleBuf.load 0 total = [0, 7, 1, 7] := by
  intro chunk rx st out
  have hother : rx.active = false ∨ rx.transferId ≠ 9 := .inr (by decide)
  have hframes : List.Forall₂ (CarriesChunk 9 2 chunk)
      [inboundOf 9 1 2 (chunk 1), inboundOf 9 1 2 (chunk 1)] [1, 1] :=
    .cons carriesChunk_inboundOf (.cons carriesChunk_inboundOf .nil)
  have hlast : CarriesChunk 9 2 chunk (inboundOf 9 0 2 (chunk 0)) 0 := carriesChunk_inboundOf
  obtain ⟨-, hsent, -, hbytes⟩ := bulk_reassembly (by decide) (by decide) hother (fun _ => 0)
    hframes hlast (by decide) ⟨0, by decide, by decide⟩ (by decide)
  exact ⟨hsent, hbytes⟩

end PiDaemon.App
