import PiDaemon.App.Bulk

/-!
# The arrays of the reassembly stay in bounds

`handle_bulk_chunk` once more, with every access to `seen`, `chunk_len`, `data` and
`g_bulk_assemble_buf` checked against the size of the array. The session is opened
with whatever `total_chunks` the frame claims, and the limits are tested only then;
but a session that was opened beyond the limits is closed by the same frame, so that
the loop which assembles a transfer always counts within them.
-/

namespace PiDaemon.App

open Base

/-- The size of `data` in `bulk_rx_t`, and of `g_bulk_assemble_buf`. -/
def bulkDataSize : ℕ := bulkRxMaxChunks * maxChunkData

namespace BulkRx

def put? (rx : BulkRx) (seq : ℕ) (bytes : List UInt8) : Option BulkRx := do
  access bulkRxMaxChunks seq 1
  if rx.seen seq then return rx
  access bulkDataSize (seq * maxChunkData) bytes.length
  access bulkRxMaxChunks seq 1
  return rx.put seq bytes

/-- `assemble` with its accesses: `chunk_len[i]`, then both ends of the copy. -/
def assemble? (rx : BulkRx) (buf : Mem) : Option (Mem × ℕ) :=
  (List.range rx.totalChunks).foldlM (fun out i => do
    access bulkRxMaxChunks i 1
    access bulkDataSize (i * maxChunkData) (rx.chunkLen i)
    access bulkDataSize out.2 (rx.chunkLen i)
    return (out.1.store out.2 (rx.slot i), out.2 + rx.chunkLen i)) (buf, 0)

def flags (rx : BulkRx) : Finset ℕ := (Finset.range bulkRxMaxChunks).filter fun i => rx.seen i = true

structure InBounds (rx : BulkRx) : Prop where
  total : rx.active = true → rx.totalChunks ≤ bulkRxMaxChunks
  received : rx.chunksReceived = rx.flags.card
  lengths (i : ℕ) : i < bulkRxMaxChunks → rx.chunkLen i ≤ maxChunkData

end BulkRx

/-- `handle_bulk_chunk` with checked accesses; `none` when one is out of bounds. -/
def handleBulkChunk? (rx : BulkRx) (assembleBuf : Mem) (f : Inbound) : Option ChunkResult :=
  if f.len < bulkWrapperHeaderSize then some ⟨rx, assembleBuf, none, []⟩
  else
    let rx := rx.begin f.transferId f.totalChunks
    if f.OverLimits then some ⟨{ rx with active := false }, assembleBuf, none, []⟩
    else do
      let rx ← rx.put? f.chunkSeq f.chunkData
      if rx.chunksReceived < rx.totalChunks then return ⟨rx, assembleBuf, none, []⟩
      let out ← rx.assemble? assembleBuf
      return ⟨{ rx with active := false }, out.1, some out.2, [ackMessage f.transferId]⟩

/-! ## One slot and the loop over all of them -/

theorem slot_in_data {i n : ℕ} (hi : i < bulkRxMaxChunks) (hn : n ≤ maxChunkData) :
    i * maxChunkData + n ≤ bulkDataSize := by
  have h := Nat.mul_le_mul_right maxChunkData (Nat.succ_le_of_lt hi)
  rw [Nat.succ_mul] at h
  unfold bulkDataSize
  omega

namespace BulkRx

variable {rx : BulkRx} {seq : ℕ} {bytes : List UInt8}

theorem put?_eq (hseq : seq < bulkRxMaxChunks) (hb : bytes.length ≤ maxChunkData) :
    rx.put? seq bytes = some (rx.put seq bytes) := by
  unfold put?
  rw [access_ok (Nat.succ_le_of_lt hseq), access_ok (slot_in_data hseq hb)]
  by_cases hseen : rx.seen seq = true
  · simp [hseen, put]
  · simp [hseen]

theorem flags_put (hseq : seq < bulkRxMaxChunks) (hnew : rx.seen seq = false) :
    (rx.put seq bytes).flags = insert seq rx.flags := by
  ext i
  simp only [flags, put, hnew, Bool.false_eq_true, if_false, Finset.mem_filter, Finset.mem_range,
    Finset.mem_insert]
  by_cases hi : i = seq
  · simp [hi, hseq]
  · simp [hi]

theorem InBounds.put (h : rx.InBounds) (hseq : seq < bulkRxMaxChunks)
    (hb : bytes.length ≤ maxChunkData) : (rx.put seq bytes).InBounds := by
  by_cases hseen : rx.seen seq = true
  · simpa [BulkRx.put, hseen] using h
  · have hnew : rx.seen seq = false := by simpa using hseen
    have hmem : seq ∉ rx.flags := by simp [flags, hnew]
    refine ⟨?_, ?_, fun i hi => ?_⟩
    · simpa [BulkRx.put, hnew] using h.total
    · rw [flags_put hseq hnew, Finset.card_insert_of_notMem hmem, ← h.received]
      simp [BulkRx.put, hnew]
    · by_cases his : i = seq
      · simpa [BulkRx.put, hnew, his] using hb
      · simpa [BulkRx.put, hnew, Function.update_of_ne his] using h.lengths i hi

/-- The loop reads and writes inside the arrays: with every slot it is done with, at
most one slot's length is used up. -/
theorem assemble?_eq (h : ∀ i < bulkRxMaxChunks, rx.chunkLen i ≤ maxChunkData)
    (htotal : rx.totalChunks ≤ bulkRxMaxChunks) (buf : Mem) :
    rx.assemble? buf = some (rx.assemble buf) ∧ (rx.assemble buf).2 ≤ bulkDataSize := by
  have hloop := foldlM_eq_foldl
    (P := fun (is : List ℕ) (out : Mem × ℕ) => (∀ i ∈ is, i < bulkRxMaxChunks) ∧
      out.2 + is.length * maxChunkData ≤ bulkDataSize)
    (f := fun (out : Mem × ℕ) i => (out.1.store out.2 (rx.slot i), out.2 + rx.chunkLen i))
    (g := fun out i => do
      access bulkRxMaxChunks i 1
      access bulkDataSize (i * maxChunkData) (rx.chunkLen i)
      access bulkDataSize out.2 (rx.chunkLen i)
      return (out.1.store out.2 (rx.slot i), out.2 + rx.chunkLen i))
    ?_ (List.range rx.totalChunks) (buf, 0) ⟨?_, ?_⟩
  · exact ⟨hloop.1, by simpa [assemble] using hloop.2.2⟩
  · rintro i is out ⟨his, hroom⟩
    have hi := his i (List.mem_cons_self ..)
    have hlen := h i hi
    rw [List.length_cons, Nat.succ_mul] at hroom
    rw [access_ok (Nat.succ_le_of_lt hi), access_ok (slot_in_data hi hlen), access_ok (by omega)]
    refine ⟨rfl, fun j hj => his j (List.mem_cons_of_mem i hj), ?_⟩
    dsimp only
    omega
  · exact fun i hi => (List.mem_range.mp hi).trans_le htotal
  · rw [List.length_range, Nat.zero_add]
    exact Nat.mul_le_mul_right maxChunkData htotal

theorem InBounds.begin (h : rx.InBounds) (transferId : UInt32) {totalChunks : ℕ}
    (htotal : totalChunks ≤ bulkRxMaxChunks) :
    (rx.begin transferId totalChunks).InBounds ∧
      (rx.begin transferId totalChunks).active = true := by
  unfold BulkRx.begin
  split_ifs with hnew
  · exact ⟨⟨fun _ => htotal, by simp [flags], h.lengths⟩, rfl⟩
  · exact ⟨h, by simpa using (not_or.mp hnew).1⟩

/-- A session that is closed keeps its flags and lengths; its total no longer counts. -/
theorem InBounds.close (h : rx.InBounds) : ({ rx with active := false } : BulkRx).InBounds where
  total hactive := by simp at hactive
  received := h.received
  lengths := h.lengths

theorem InBounds.beginClose (h : rx.InBounds) (transferId : UInt32) (totalChunks : ℕ) :
    ({ rx.begin transferId totalChunks with active := false } : BulkRx).InBounds := by
  unfold BulkRx.begin
  split_ifs
  · exact ⟨by simp, by simp [flags], h.lengths⟩
  · exact h.close

end BulkRx

/-! ## One frame and sequences of frames -/

theorem BulkRx.InBounds.handleBulkChunk {rx : BulkRx} (h : rx.InBounds) (buf : Mem) (f : Inbound) :
    handleBulkChunk? rx buf f = some (handleBulkChunk rx buf f) ∧
      (App.handleBulkChunk rx buf f).rx.InBounds ∧
      ∀ total, (App.handleBulkChunk rx buf f).completed = some total → total ≤ bulkDataSize := by
  unfold handleBulkChunk? App.handleBulkChunk
  by_cases hlen : f.len < bulkWrapperHeaderSize
  · simp only [if_pos hlen]
    exact ⟨trivial, h, by simp⟩
  · by_cases hlim : f.OverLimits
    · simp only [if_neg hlen, if_pos hlim]
      exact ⟨trivial, h.beginClose f.transferId f.totalChunks, by simp⟩
    · simp only [if_neg hlen, if_neg hlim]
      obtain ⟨hseq, hrest⟩ := not_or.mp hlim
      obtain ⟨htotal, hn⟩ := not_or.mp hrest
      have hb : f.chunkData.length ≤ maxChunkData := by
        rw [Inbound.chunkData, Mem.length_load]
        exact Nat.not_lt.mp hn
      obtain ⟨hbegin, hactive⟩ := h.begin f.transferId (Nat.not_lt.mp htotal)
      have hput := hbegin.put (Nat.not_le.mp hseq) hb
      have hopen : ((rx.begin f.transferId f.totalChunks).put f.chunkSeq f.chunkData).active =
          true := by
        unfold BulkRx.put
        split_ifs <;> exact hactive
      rw [BulkRx.put?_eq (Nat.not_le.mp hseq) hb]
      simp only [Option.bind_eq_bind, Option.bind_some]
      split_ifs with hmore
      · exact ⟨rfl, hput, by simp⟩
      · obtain ⟨hassemble, hsize⟩ := BulkRx.assemble?_eq hput.lengths (hput.total hopen) buf
        rw [hassemble]
        refine ⟨rfl, hput.close, fun total htotal' => ?_⟩
        obtain rfl := Option.some.inj htotal'
        exact hsize

/-- Whatever frames are fed to `handle_bulk_chunk`, from the initial `bulk_rx_t` on: no
access is out of bounds; an active session has at most `BULK_RX_MAX_CHUNKS` chunks,
`chunks_received` counts the flags that are set, and no chunk is longer than a slot; and an
assembled transfer fits `g_bulk_assemble_buf`. -/
theorem reassembly_in_bounds (buf : Mem) (fs : List Inbound) : ∃ out : ChunkResult,
    fs.foldlM (fun st f => handleBulkChunk? st.rx st.assembleBuf f) ⟨{}, buf, none, []⟩ = some out ∧
      out = fs.foldl (fun st f => handleBulkChunk st.rx st.assembleBuf f) ⟨{}, buf, none, []⟩ ∧
      (out.rx.active = true → out.rx.totalChunks ≤ bulkRxMaxChunks) ∧
      out.rx.chunksReceived = out.rx.flags.card ∧
      (∀ i < bulkRxMaxChunks, out.rx.chunkLen i ≤ maxChunkData) ∧
      ∀ total, out.completed = some total → total ≤ bulkRxMaxChunks * maxChunkData := by
  have hstart : ({} : BulkRx).InBounds := ⟨by simp, by simp [BulkRx.flags], by simp⟩
  obtain ⟨hfold, hbounds, hsize⟩ := foldlM_eq_foldl
    (P := fun (_ : List Inbound) (st : ChunkResult) => st.rx.InBounds ∧
      ∀ total, st.completed = some total → total ≤ bulkDataSize)
    (fun f _ st h => h.1.handleBulkChunk st.assembleBuf f) fs ⟨{}, buf, none, []⟩ ⟨hstart, by simp⟩
  exact ⟨_, hfold, rfl, hbounds.total, hbounds.received, hbounds.lengths, hsize⟩

end PiDaemon.App
