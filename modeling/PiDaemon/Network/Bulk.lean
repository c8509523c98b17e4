import PiDaemon.App.Upload
import PiDaemon.Network.Bridge

/-!
# Bulk transfers out of the network process

`send_bulk_calculation_data`, `send_bulk_force_torque_data` and `send_bulk_video_data`
of `Network/src/main.c`, which wrap entries and buffers on their own, and their
comparison with the encoders of the applications. The chunk of entries is counted in
entries here and in bytes there.
-/

namespace PiDaemon.Network

open Base Proto Client App

/-- The sending loops: every packet is handed to `link_send`, up to the first that
fails. The packets that were handed over are returned, and false for a negative result. -/
def sendPackets (link : PayloadLink) (apid : UInt16) :
    Bridge → List (List UInt8) → Bridge × List (List UInt8) × Bool
  | n, [] => (n, [], true)
  | n, packet :: packets =>
    let ret := linkSend link n apid packet
    if ret.2 then
      let out := sendPackets link apid ret.1 packets
      (out.1, packet :: out.2.1, out.2.2)
    else (ret.1, [packet], false)

/-! ## Packing -/

/-- `pack_be_float_array`; a float is its bits. -/
def packBeFloatArray (link : PayloadLink) {n : ℕ} (vals : Vector UInt32 n) : List UInt8 :=
  vals.toList.flatMap link.packBe32

def packCalcEntry (link : PayloadLink) (e : BulkCalcEntry) : List UInt8 :=
  link.packBe64 e.missionTime ++
    (packBeFloatArray link e.angularAccel ++ packBeFloatArray link e.commandedTorque)

def packFtEntry (link : PayloadLink) (e : BulkFtEntry) : List UInt8 :=
  link.packBe64 e.missionTime ++
    (packBeFloatArray link e.forceVector ++ packBeFloatArray link e.torqueVector)

/-- `pack_bulk_wrapper`, with `n` the length of `data`. -/
def packBulkWrapper (link : PayloadLink) (transferId chunkSeq totalChunks : UInt32)
    (data : List UInt8) : List UInt8 :=
  link.packBe32 transferId ++ (link.packBe32 chunkSeq ++ (link.packBe32 totalChunks ++
    (link.packBe16 (UInt16.ofNat data.length) ++ data)))

/-- The packets of `num_entries` entries, at most `maxEntries` in each. -/
def entryPackets {α : Type*} (link : PayloadLink) (packEntry : α → List UInt8)
    (maxEntries transferId : UInt32) (entries : ℕ → α) (numEntries : UInt32) : List (List UInt8) :=
  let totalChunks := ceilDiv32 numEntries maxEntries
  (List.range totalChunks.toNat).map fun chunk =>
    let start := UInt32.ofNat chunk * maxEntries
    let count := chunkSize32 numEntries start maxEntries
    packBulkWrapper link transferId (UInt32.ofNat chunk) totalChunks
      ((List.range count.toNat).flatMap fun i => packEntry (entries (start + UInt32.ofNat i).toNat))

def sendBulkCalculationData (link : PayloadLink) (n : Bridge) (transferId : UInt32)
    (entries : ℕ → BulkCalcEntry) (numEntries : UInt32) : Bridge × List (List UInt8) × Bool :=
  sendPackets link apidBulkCalcTx n
    (entryPackets link (packCalcEntry link) (UInt32.ofNat maxCalcEntriesPerChunk) transferId entries
      numEntries)

def sendBulkForceTorqueData (link : PayloadLink) (n : Bridge) (transferId : UInt32)
    (entries : ℕ → BulkFtEntry) (numEntries : UInt32) : Bridge × List (List UInt8) × Bool :=
  sendPackets link apidBulkFtTx n
    (entryPackets link (packFtEntry link) (UInt32.ofNat maxFtEntriesPerChunk) transferId entries
      numEntries)

def videoPackets (link : PayloadLink) (transferId : UInt32) (videoBuffer : Mem)
    (totalBytes : UInt32) : List (List UInt8) :=
  let totalChunks := ceilDiv32 totalBytes (UInt32.ofNat maxChunkData)
  (List.range totalChunks.toNat).map fun chunk =>
    let start := UInt32.ofNat chunk * UInt32.ofNat maxChunkData
    let count := (chunkSize32 totalBytes start (UInt32.ofNat maxChunkData)).toUInt16
    packBulkWrapper link transferId (UInt32.ofNat chunk) totalChunks
      (videoBuffer.load start.toNat count.toNat)

def sendBulkVideoData (link : PayloadLink) (n : Bridge) (transferId : UInt32) (videoBuffer : Mem)
    (totalBytes : UInt32) : Bridge × List (List UInt8) × Bool :=
  sendPackets link apidBulkVidTx n (videoPackets link transferId videoBuffer totalBytes)

theorem sendPackets_ok (link : PayloadLink) (apid : UInt16) (packets : List (List UInt8)) :
    ∀ n : Bridge, (sendPackets link apid n packets).2.2 = true →
      (sendPackets link apid n packets).2.1 = packets := by
  induction packets with
  | nil => exact fun _ _ => rfl
  | cons packet packets ih =>
    intro n hok
    unfold sendPackets at hok ⊢
    dsimp only at hok ⊢
    split_ifs at hok ⊢
    rw [ih _ hok]

theorem PayloadLink.BigEndian.packers {link : PayloadLink} (hbe : link.BigEndian) :
    packCalcEntry link = App.packCalcEntry ∧ packFtEntry link = App.packFtEntry ∧
      packBulkWrapper link = App.packBulkWrapper := by
  have h16 : link.packBe16 = be16 := funext hbe.packBe16
  have h32 : link.packBe32 = be32 := funext hbe.packBe32
  have h64 : link.packBe64 = be64 := funext hbe.packBe64
  refine ⟨funext fun e => ?_, funext fun e => ?_, ?_⟩
  · rw [packCalcEntry, packBeFloatArray, packBeFloatArray, h32, h64]
    rfl
  · rw [packFtEntry, packBeFloatArray, packBeFloatArray, h32, h64]
    rfl
  · funext transferId chunkSeq totalChunks data
    rw [packBulkWrapper, h16, h32]
    rfl

/-! ## Counting entries and counting bytes -/

theorem toNat_ceilDiv32_pos {len size : UInt32} (hsize : 0 < size.toNat)
    (hfit : len.toNat + (size.toNat - 1) < 2 ^ 32) :
    (ceilDiv32 len size).toNat = len.toNat ⌈/⌉ size.toNat := by
  rw [toNat_ceilDiv32 len hsize, if_pos hfit]

section Entries
variable {link : PayloadLink} {α : Type*} {packEntry : α → List UInt8}
  {maxEntries numEntries : UInt32} {width : ℕ}

theorem entryPackets_spec (transferId : UInt32) (entries : ℕ → α) (hmax : 0 < maxEntries.toNat)
    (hfit : numEntries.toNat + (maxEntries.toNat - 1) < 2 ^ 32) :
    entryPackets link packEntry maxEntries transferId entries numEntries =
      (List.range (numEntries.toNat ⌈/⌉ maxEntries.toNat)).map fun i =>
        packBulkWrapper link transferId (UInt32.ofNat i)
          (UInt32.ofNat (numEntries.toNat ⌈/⌉ maxEntries.toNat))
          ((slice ((List.range numEntries.toNat).map entries) (i * maxEntries.toNat)
            maxEntries.toNat).flatMap packEntry) := by
  have hcount := toNat_ceilDiv32_pos hmax hfit
  unfold entryPackets
  dsimp only
  rw [hcount]
  apply List.map_congr_left
  intro i hi
  have hlt := mul_lt_of_lt_ceilDiv hmax (List.mem_range.mp hi)
  have hnum := numEntries.toNat_lt
  have hi32 : i < 2 ^ 32 := by
    have := (ceilDiv32 numEntries maxEntries).toNat_lt
    have := List.mem_range.mp hi
    omega
  have hstart := toNat_chunkStart maxEntries hi32 (by omega)
  have hn := toNat_chunkSize32 (hstart.trans_le hlt.le) maxEntries
  rw [hstart] at hn
  rw [← hcount, UInt32.ofNat_toNat, hn, slice_map_range, List.flatMap_map]
  congr 1
  apply List.flatMap_congr
  intro k hk
  have hk := List.mem_range.mp hk
  have hk32 : k < 2 ^ 32 := by omega
  rw [UInt32.toNat_add, hstart, UInt32.toNat_ofNat_of_lt' hk32, Nat.mod_eq_of_lt (by omega)]

/-- Both ways of counting come to the same packets. -/
theorem entryPackets_eq_sendBulk (hbe : link.BigEndian) (apid : UInt16) (transferId : UInt32)
    (entries : ℕ → α) (flat : Mem) {maxData : UInt16} (hpack : ∀ e, (packEntry e).length = width)
    (hwidth : 0 < width) (hmax : 0 < maxEntries.toNat)
    (hdata : maxData.toNat = width * maxEntries.toNat) (hnum : 0 < numEntries.toNat)
    (hfit : width * numEntries.toNat + width * maxEntries.toNat < 2 ^ 32) :
    let list := (List.range numEntries.toNat).map entries
    let buf := flatten packEntry flat list
    entryPackets link packEntry maxEntries transferId entries numEntries =
      (sendBulk apid transferId buf.1 (UInt32.ofNat buf.2) maxData).map ToNetwork.data := by
  intro list buf
  have hlen : (list.flatMap packEntry).length = width * numEntries.toNat := by
    rw [length_flatMap_records hpack, List.length_map, List.length_range]
  obtain ⟨hload, hoff⟩ := flatten_spec packEntry flat list
  have htotal : (UInt32.ofNat buf.2).toNat = width * numEntries.toNat := by
    have hsmall : buf.2 < 2 ^ 32 := by
      rw [hoff, hlen]
      omega
    rw [UInt32.toNat_ofNat_of_lt' hsmall, hoff, hlen]
  have hwide : maxData.toUInt32.toNat = width * maxEntries.toNat := by
    rw [UInt16.toNat_toUInt32, hdata]
  have hpos : 0 < width * maxEntries.toNat := Nat.mul_pos hwidth hmax
  have hentries : numEntries.toNat + (maxEntries.toNat - 1) < 2 ^ 32 := by
    have h := Nat.le_mul_of_pos_left (numEntries.toNat + maxEntries.toNat) hwidth
    rw [Nat.mul_add] at h
    omega
  have hsome := ceilDiv_ne_zero hmax hnum
  have hcount : (totalChunks32 (UInt32.ofNat buf.2) maxData.toUInt32).toNat =
      numEntries.toNat ⌈/⌉ maxEntries.toNat := by
    rw [toNat_totalChunks32 _ (hwide.symm ▸ hpos), htotal, hwide, if_pos (by omega),
      ceilDiv_mul_left hwidth hmax]
    omega
  rw [entryPackets_spec transferId entries hmax hentries, hbe.packers.2.2,
    map_data_sendBulk apid transferId _ _ (hdata.symm ▸ hpos), wrappers, hcount, htotal, ← hlen,
    hload, hdata]
  apply List.map_congr_left
  intro i _
  rw [slice_flatMap_records hpack, ← hcount, UInt32.ofNat_toNat]

/-- No entry is split: the packets carry groups of whole entries, in order. -/
def WholeEntries (link : PayloadLink) (packEntry : α → List UInt8) (transferId : UInt32)
    (entries : List α) (sent : List (List UInt8)) : Prop :=
  ∃ (total : ℕ) (group : ℕ → List α), (List.range total).flatMap group = entries ∧
    sent = (List.range total).map fun i => packBulkWrapper link transferId (UInt32.ofNat i)
      (UInt32.ofNat total) ((group i).flatMap packEntry)

theorem entryPackets_whole (transferId : UInt32) (entries : ℕ → α) (hmax : 0 < maxEntries.toNat)
    (hfit : numEntries.toNat + (maxEntries.toNat - 1) < 2 ^ 32) :
    WholeEntries link packEntry transferId ((List.range numEntries.toNat).map entries)
      (entryPackets link packEntry maxEntries transferId entries numEntries) := by
  refine ⟨_, fun i => slice ((List.range numEntries.toNat).map entries) (i * maxEntries.toNat)
    maxEntries.toNat, ?_, entryPackets_spec transferId entries hmax hfit⟩
  have hflat := flatten_chunks maxEntries.toNat (numEntries.toNat ⌈/⌉ maxEntries.toNat)
    ((List.range numEntries.toNat).map entries)
  rwa [List.take_of_length_le (by simpa using le_ceilDiv_mul hmax numEntries.toNat)] at hflat

end Entries

/-- A buffer that is not empty is cut as `send_bulk` cuts it. -/
theorem videoPackets_eq_sendBulk {link : PayloadLink} (hbe : link.BigEndian) (transferId : UInt32)
    (videoBuffer : Mem) {totalBytes : UInt32} (hpos : 0 < totalBytes.toNat)
    (hfit : totalBytes.toNat + maxChunkData < 2 ^ 32) :
    videoPackets link transferId videoBuffer totalBytes =
      (sendBulk apidBulkVidTx transferId videoBuffer totalBytes
        (UInt16.ofNat maxChunkData)).map ToNetwork.data := by
  have hsize : (UInt32.ofNat maxChunkData).toNat = maxChunkData := rfl
  have hmax : 0 < (UInt32.ofNat maxChunkData).toNat := by decide
  have hnowrap : totalBytes.toNat + ((UInt32.ofNat maxChunkData).toNat - 1) < 2 ^ 32 := by omega
  have hsome : ceilDiv32 totalBytes (UInt32.ofNat maxChunkData) ≠ 0 := by
    intro hzero
    have hcount := toNat_ceilDiv32_pos hmax hnowrap
    rw [hzero] at hcount
    exact ceilDiv_ne_zero hmax hpos hcount.symm
  have htotal : totalChunks32 totalBytes (UInt16.ofNat maxChunkData).toUInt32 =
      ceilDiv32 totalBytes (UInt32.ofNat maxChunkData) := if_neg hsome
  unfold videoPackets sendBulk
  rw [htotal, List.map_map, hbe.packers.2.2]
  rfl

/-! ## The two encoders -/

/-- An entry-wise encoder hands to the link what the application sends after packing
the same entries into a buffer, and splits no entry. -/
def EncodersAgree {α : Type*} (link : PayloadLink)
    (encode : (ℕ → α) → UInt32 → Bridge × List (List UInt8) × Bool)
    (packEntry appPackEntry : α → List UInt8) (apid : UInt16) (maxEntries width : ℕ)
    (transferId : UInt32) : Prop :=
  ∀ (entries : ℕ → α) (numEntries : UInt32) (flat : Mem), 0 < numEntries.toNat →
    width * numEntries.toNat + width * maxEntries < 2 ^ 32 → (encode entries numEntries).2.2 = true →
      let list := (List.range numEntries.toNat).map entries
      let buf := flatten appPackEntry flat list
      (encode entries numEntries).2.1 = (sendBulk apid transferId buf.1 (UInt32.ofNat buf.2)
          (UInt16.ofNat (maxEntries * width))).map ToNetwork.data ∧
        WholeEntries link packEntry transferId list (encode entries numEntries).2.1

theorem encodersAgree_of_entryPackets {α : Type*} {packEntry : α → List UInt8} {apid : UInt16}
    {maxEntries width : ℕ} {link : PayloadLink} (hbe : link.BigEndian) (n : Bridge)
    (transferId : UInt32) (hpack : ∀ e, (packEntry e).length = width) (hwidth : 0 < width)
    (hmax : 0 < maxEntries) (hdata : width * maxEntries ≤ maxChunkData) :
    EncodersAgree link (fun entries numEntries => sendPackets link apid n
      (entryPackets link packEntry (UInt32.ofNat maxEntries) transferId entries numEntries))
      packEntry packEntry apid maxEntries width transferId := by
  intro entries numEntries flat hnum hfit hok
  have hsmall : width * maxEntries < 2 ^ 16 := hdata.trans_lt (by decide)
  have hle : maxEntries ≤ width * maxEntries := Nat.le_mul_of_pos_left _ hwidth
  have hmax32 : (UInt32.ofNat maxEntries).toNat = maxEntries := by
    rw [UInt32.toNat_ofNat', Nat.mod_eq_of_lt (by omega)]
  have hdata16 : (UInt16.ofNat (maxEntries * width)).toNat = width * maxEntries := by
    rw [UInt16.toNat_ofNat', Nat.mul_comm, Nat.mod_eq_of_lt hsmall]
  have hentries : numEntries.toNat ≤ width * numEntries.toNat := Nat.le_mul_of_pos_left _ hwidth
  rw [sendPackets_ok link apid _ n hok]
  refine ⟨entryPackets_eq_sendBulk hbe apid transferId entries flat hpack hwidth ?_ ?_ hnum ?_,
    entryPackets_whole transferId entries ?_ ?_⟩ <;> rw [hmax32]
  · exact hmax
  · exact hdata16
  · exact hfit
  · exact hmax
  · omega

/-- The encoders of the network process and of the applications send the same wrappers,
if the packers of `payload_link` are big-endian. -/
theorem bulk_encoders_agree {link : PayloadLink} (hbe : link.BigEndian) (n : Bridge)
    (transferId : UInt32) :
    EncodersAgree link (sendBulkCalculationData link n transferId) (packCalcEntry link)
      App.packCalcEntry apidBulkCalcTx maxCalcEntriesPerChunk bulkCalcEntrySize transferId ∧
    EncodersAgree link (sendBulkForceTorqueData link n transferId) (packFtEntry link)
      App.packFtEntry apidBulkFtTx maxFtEntriesPerChunk bulkFtEntrySize transferId ∧
    ∀ (buffer : Mem) (totalBytes : UInt32), 0 < totalBytes.toNat →
      totalBytes.toNat + maxChunkData < 2 ^ 32 →
        let sent := (sendBulk apidBulkVidTx transferId buffer totalBytes
          (UInt16.ofNat maxChunkData)).map ToNetwork.data
        ((sendBulkVideoData link n transferId buffer totalBytes).2.2 = true →
          (sendBulkVideoData link n transferId buffer totalBytes).2.1 = sent) ∧
        ∀ (freads : List Bool) (s : Socket) (u : Upload),
          videoUploader (buffer.load 0 totalBytes.toNat) freads s transferId = some (u, true) →
            u.sent = sent := by
  obtain ⟨hcalc, hft, -⟩ := hbe.packers
  refine ⟨?_, ?_, ?_⟩
  · rw [← hcalc]
    exact encodersAgree_of_entryPackets hbe n transferId (hcalc ▸ length_packCalcEntry) (by decide)
      (by decide) (by decide)
  · rw [← hft]
    exact encodersAgree_of_entryPackets hbe n transferId (hft ▸ length_packFtEntry) (by decide)
      (by decide) (by decide)
  · intro buffer totalBytes hpos hfit sent
    constructor
    · intro hok
      rw [sendBulkVideoData, sendPackets_ok _ _ _ n hok]
      exact videoPackets_eq_sendBulk hbe transferId buffer hpos hfit
    · intro freads s u hok
      have hmax : 0 < (UInt16.ofNat maxChunkData).toNat := by decide
      obtain ⟨-, hsent⟩ := videoUploader_sent hok
      rw [hsent, uploadChunks, Mem.length_load, UInt32.ofNat_toNat]
      exact (map_data_sendBulk apidBulkVidTx transferId buffer totalBytes hmax).symm

/-- One entry, on the link of the test tool. -/
theorem bulk_encoders_agree_entry :
    let n : Bridge := { daemon := { incoming := [] } }
    let e : BulkCalcEntry := ⟨100, #v[1, 2, 3], #v[4, 5, 6, 7]⟩
    let out := sendBulkCalculationData obcLink n 7 (fun _ => e) 1
    out.2.2 = true ∧ WholeEntries obcLink (packCalcEntry obcLink) 7 [e] out.2.1 := by
  intro n e out
  have hok : out.2.2 = true := by decide +kernel
  exact ⟨hok, ((bulk_encoders_agree obcLink_bigEndian n 7).1 (fun _ => e) 1 (fun _ => 0) (by decide)
    (by decide) hok).2⟩

end PiDaemon.Network
