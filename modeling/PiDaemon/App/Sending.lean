import PiDaemon.App.Bulk
import PiDaemon.Base.Chunks

/-!
# Bulk transfers out of the payload application

`send_bulk` of `payload_app.c` and the dummy transfers it is used for. The chunk
count, the offsets and the sizes are computed in 32-bit arithmetic, as in the C
code; a `float` is the 32 bits of its IEEE 754 encoding.
-/

namespace PiDaemon.App

open Base Proto

/-- `APID_BULK_CALC_TX`. -/
def apidBulkCalcTx : UInt16 := 0x030

/-- `APID_BULK_FT_TX`. -/
def apidBulkFtTx : UInt16 := 0x031

/-- `APID_BULK_VID_TX`. -/
def apidBulkVidTx : UInt16 := 0x032

/-! ## Entries -/

/-- `struct bulk_calc_entry`. -/
structure BulkCalcEntry where
  missionTime : UInt64
  angularAccel : Vector UInt32 3
  commandedTorque : Vector UInt32 4
  deriving DecidableEq, Repr

/-- `struct bulk_ft_entry`. -/
structure BulkFtEntry where
  missionTime : UInt64
  forceVector : Vector UInt32 3
  torqueVector : Vector UInt32 3
  deriving DecidableEq, Repr

/-- `BULK_CALC_ENTRY_SIZE`. -/
def bulkCalcEntrySize : ℕ := 36

/-- `BULK_FT_ENTRY_SIZE`. -/
def bulkFtEntrySize : ℕ := 32

/-- `MAX_CALC_ENTRIES_PER_CHUNK`. -/
def maxCalcEntriesPerChunk : ℕ := maxChunkData / bulkCalcEntrySize

/-- `MAX_FT_ENTRIES_PER_CHUNK`. -/
def maxFtEntriesPerChunk : ℕ := maxChunkData / bulkFtEntrySize

def packBeFloatArray {n : ℕ} (vals : Vector UInt32 n) : List UInt8 := vals.toList.flatMap be32

def packCalcEntry (e : BulkCalcEntry) : List UInt8 :=
  be64 e.missionTime ++ (packBeFloatArray e.angularAccel ++ packBeFloatArray e.commandedTorque)

def packFtEntry (e : BulkFtEntry) : List UInt8 :=
  be64 e.missionTime ++ (packBeFloatArray e.forceVector ++ packBeFloatArray e.torqueVector)

@[simp] theorem length_packBeFloatArray {n : ℕ} (vals : Vector UInt32 n) :
    (packBeFloatArray vals).length = 4 * n := by
  rw [packBeFloatArray, length_flatMap_records length_be32, Vector.length_toList]

theorem length_packCalcEntry (e : BulkCalcEntry) : (packCalcEntry e).length = bulkCalcEntrySize := by
  simp [packCalcEntry, bulkCalcEntrySize]

theorem length_packFtEntry (e : BulkFtEntry) : (packFtEntry e).length = bulkFtEntrySize := by
  simp [packFtEntry, bulkFtEntrySize]

def flatten {α : Type*} (packEntry : α → List UInt8) (flat : Mem) (entries : List α) : Mem × ℕ :=
  entries.foldl (fun out e => (out.1.store out.2 (packEntry e), out.2 + (packEntry e).length)) (flat, 0)

theorem flatten_spec {α : Type*} (packEntry : α → List UInt8) (flat : Mem) (entries : List α) :
    (flatten packEntry flat entries).1.load 0 (entries.flatMap packEntry).length =
        entries.flatMap packEntry ∧
      (flatten packEntry flat entries).2 = (entries.flatMap packEntry).length := by
  obtain ⟨hload, hlen⟩ := Mem.load_foldl_store (fun e => rfl (a := (packEntry e).length)) entries flat
    [] rfl
  rw [List.nil_append, List.length_nil] at hload hlen
  exact ⟨by rw [← hlen]; exact hload, hlen⟩

/-! ## Sending a buffer -/

/-- `total_chunks`: an empty transfer still has one chunk. -/
def totalChunks32 (totalLen maxData : UInt32) : UInt32 :=
  if ceilDiv32 totalLen maxData = 0 then 1 else ceilDiv32 totalLen maxData

/-- `send_bulk`, as the calls of `send_to_network` it makes; their results are ignored. -/
def sendBulk (apid : UInt16) (transferId : UInt32) (data : Mem) (totalLen : UInt32)
    (maxData : UInt16) : List ToNetwork :=
  let totalChunks := totalChunks32 totalLen maxData.toUInt32
  (List.range totalChunks.toNat).map fun chunk =>
    let start := UInt32.ofNat chunk * maxData.toUInt32
    let n := (chunkSize32 totalLen start maxData.toUInt32).toUInt16
    ⟨apid, packBulkWrapper transferId (UInt32.ofNat chunk) totalChunks
      (data.load start.toNat n.toNat)⟩

def wrappers (transferId total : UInt32) (size : ℕ) (file : List UInt8) : List (List UInt8) :=
  (List.range total.toNat).map fun i =>
    packBulkWrapper transferId (UInt32.ofNat i) total (slice file (i * size) size)

/-- The count is right unless the rounding addition wraps, and then it is 1. -/
theorem toNat_totalChunks32 (totalLen : UInt32) {maxData : UInt32} (hmax : 0 < maxData.toNat) :
    (totalChunks32 totalLen maxData).toNat =
      if totalLen.toNat + (maxData.toNat - 1) < 2 ^ 32 then
        max 1 (totalLen.toNat ⌈/⌉ maxData.toNat) else 1 := by
  have hcount := toNat_ceilDiv32 totalLen hmax
  by_cases hzero : ceilDiv32 totalLen maxData = 0
  · rw [totalChunks32, if_pos hzero]
    rw [hzero, UInt32.toNat_zero] at hcount
    split_ifs at hcount ⊢
    · rw [← hcount]
      rfl
    · rfl
  · rw [totalChunks32, if_neg hzero]
    have hpos : (ceilDiv32 totalLen maxData).toNat ≠ 0 := fun h => hzero (UInt32.toNat_inj.mp h)
    split_ifs at hcount ⊢ <;> omega

theorem chunk_start_le {totalLen maxData : UInt32} (hmax : 0 < maxData.toNat) {i : ℕ}
    (hi : i < (totalChunks32 totalLen maxData).toNat) : i * maxData.toNat ≤ totalLen.toNat := by
  rw [toNat_totalChunks32 totalLen hmax] at hi
  rcases Nat.eq_zero_or_pos i with rfl | hpos
  · omega
  · split_ifs at hi with hfit
    · exact (mul_lt_of_lt_ceilDiv hmax (by omega)).le
    · omega

/-- `send_bulk` wraps the chunks of its buffer. -/
theorem sendBulk_spec (apid : UInt16) (transferId : UInt32) (data : Mem) (totalLen : UInt32)
    {maxData : UInt16} (hmax : 0 < maxData.toNat) :
    sendBulk apid transferId data totalLen maxData =
      (wrappers transferId (totalChunks32 totalLen maxData.toUInt32) maxData.toNat
        (data.load 0 totalLen.toNat)).map (ToNetwork.mk apid) := by
  have hwide : maxData.toUInt32.toNat = maxData.toNat := UInt16.toNat_toUInt32 maxData
  unfold sendBulk wrappers
  rw [List.map_map]
  apply List.map_congr_left
  intro i hi
  have hle := chunk_start_le (by omega) (List.mem_range.mp hi)
  rw [hwide] at hle
  have htotal := totalLen.toNat_lt
  have hi32 : i < 2 ^ 32 :=
    (List.mem_range.mp hi).trans (totalChunks32 totalLen maxData.toUInt32).toNat_lt
  have hstart : (UInt32.ofNat i * maxData.toUInt32).toNat = i * maxData.toNat := by
    rw [toNat_chunkStart _ hi32 (by rw [hwide]; omega), hwide]
  have hn : (chunkSize32 totalLen (UInt32.ofNat i * maxData.toUInt32) maxData.toUInt32).toUInt16.toNat
      = min maxData.toNat (totalLen.toNat - i * maxData.toNat) := by
    have h16 := maxData.toNat_lt
    rw [UInt32.toNat_toUInt16, toNat_chunkSize32 (by omega), hwide, hstart]
    omega
  simp only [Function.comp_apply, hstart, hn, Mem.slice_load]

theorem length_of_mem_sendBulk {apid : UInt16} {transferId : UInt32} {data : Mem} {totalLen : UInt32}
    {maxData : UInt16} {m : ToNetwork} (h : m ∈ sendBulk apid transferId data totalLen maxData) :
    m.data.length ≤ bulkWrapperHeaderSize + maxData.toNat := by
  obtain ⟨i, -, rfl⟩ := List.mem_map.mp h
  have hsize (start : UInt32) : (chunkSize32 totalLen start maxData.toUInt32).toUInt16.toNat ≤
      maxData.toNat := by
    rw [UInt32.toNat_toUInt16]
    exact (Nat.mod_le _ _).trans ((chunkSize32_le totalLen start maxData.toUInt32).trans_eq
      (UInt16.toNat_toUInt32 maxData))
  dsimp only
  rw [length_packBulkWrapper, Mem.length_load]
  exact Nat.add_le_add_left (hsize _) _

theorem map_data_sendBulk (apid : UInt16) (transferId : UInt32) (data : Mem) (totalLen : UInt32)
    {maxData : UInt16} (hmax : 0 < maxData.toNat) :
    (sendBulk apid transferId data totalLen maxData).map ToNetwork.data =
      wrappers transferId (totalChunks32 totalLen maxData.toUInt32) maxData.toNat
        (data.load 0 totalLen.toNat) := by
  have hdata : ToNetwork.data ∘ ToNetwork.mk apid = id := rfl
  rw [sendBulk_spec apid transferId data totalLen hmax, List.map_map, hdata, List.map_id]

/-! ## Complete transfers -/

/-- What a transfer of `file` in chunks of at most `size` bytes should send: chunks
`0, 1, …` of the right number, each with that number in it, whose data is the file. -/
def Covers (transferId : UInt32) (size : ℕ) (file : List UInt8) (sent : List (List UInt8)) : Prop :=
  let total := max 1 (file.length ⌈/⌉ size)
  ∃ data : ℕ → List UInt8, (∀ i < total, (data i).length ≤ size) ∧
    (List.range total).flatMap data = file ∧
    sent = (List.range total).map fun i =>
      packBulkWrapper transferId (UInt32.ofNat i) (UInt32.ofNat total) (data i)

theorem Covers.length {transferId : UInt32} {size : ℕ} {file : List UInt8} {sent : List (List UInt8)}
    (h : Covers transferId size file sent) : sent.length = max 1 (file.length ⌈/⌉ size) := by
  obtain ⟨data, -, -, rfl⟩ := h
  simp

theorem covers_wrappers {transferId total : UInt32} {size : ℕ} {file : List UInt8} (hsize : 0 < size)
    (htotal : total.toNat = max 1 (file.length ⌈/⌉ size)) :
    Covers transferId size file (wrappers transferId total size file) := by
  refine ⟨fun i => slice file (i * size) size, fun i _ => by simp [slice], ?_, ?_⟩
  · have hall : file.length ≤ max 1 (file.length ⌈/⌉ size) * size :=
      (le_ceilDiv_mul hsize _).trans (Nat.mul_le_mul_right _ (le_max_right _ _))
    have hflat := flatten_chunks size (max 1 (file.length ⌈/⌉ size)) file
    rwa [List.take_of_length_le hall] at hflat
  · rw [wrappers, ← htotal, UInt32.ofNat_toNat]

/-- Where the count is the code's, that is exactly as long as its rounding addition
does not wrap: after it the only chunk is far shorter than the file. -/
theorem covers_wrappers_iff (transferId : UInt32) {size totalLen : UInt32} {file : List UInt8}
    (hpos : 0 < size.toNat) (hsize : size.toNat ≤ maxChunkData) (hlen : totalLen.toNat = file.length) :
    Covers transferId size.toNat file
        (wrappers transferId (totalChunks32 totalLen size) size.toNat file) ↔
      file.length + (size.toNat - 1) < 2 ^ 32 := by
  have hcount := toNat_totalChunks32 totalLen hpos
  rw [hlen] at hcount
  constructor
  · intro h
    by_contra hwrap
    have hone := h.length
    rw [wrappers, List.length_map, List.length_range, hcount, if_neg hwrap] at hone
    have hshort := le_ceilDiv_mul hpos file.length
    have hle : (file.length ⌈/⌉ size.toNat) * size.toNat ≤ 1 * size.toNat :=
      Nat.mul_le_mul_right _ (by omega)
    have hmax : size.toNat ≤ 498 := hsize
    omega
  · intro hfit
    rw [if_pos hfit] at hcount
    exact covers_wrappers hpos hcount

end PiDaemon.App
