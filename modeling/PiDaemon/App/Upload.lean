import PiDaemon.App.Deliver
import PiDaemon.App.Sending
import PiDaemon.Client.Relay

/-!
# The video uploader

`video_uploader.c` from the size of the file on: the chunk count, and the loop that
reads a chunk, wraps it and sends it. The file is its contents; `fread` returns what
it is asked for as long as there is any, unless its answer in the script says
otherwise. A short read or a failed send ends the loop.
-/

namespace PiDaemon.App

open Base Proto Client

/-- The uploader in its loop: the connection, the file from its position on, the
answers of `fread`, `sent_bytes`, and the wrappers for which `send_chunk` succeeded. -/
structure Upload where
  socket : Socket
  file : List UInt8
  freads : List Bool := []
  sentBytes : UInt32 := 0
  sent : List (List UInt8) := []
  deriving DecidableEq, Repr

/-- `fread(chunk_data, 1, n, f)`; `none` when it does not return `n`. -/
def Upload.fread (u : Upload) (n : ℕ) : Upload × Option (List UInt8) :=
  ({ u with file := u.file.drop n, freads := u.freads.tail },
    if u.freads.head? = some false ∨ u.file.length < n then none else some (u.file.take n))

/-- `n > 0 && fread(...) != n`; nothing is read for an empty chunk. -/
def Upload.readChunk (u : Upload) (n : UInt16) : Upload × Option (List UInt8) :=
  if 0 < n then u.fread n.toNat else (u, some [])

/-- `pack_bulk_wrapper` of the uploader, with `n` the length of `data`. -/
def VideoUploader.packBulkWrapper (transferId chunkSeq totalChunks : UInt32) (data : List UInt8) :
    List UInt8 :=
  be32 transferId ++ (be32 chunkSeq ++ (be32 totalChunks ++
    (be16 (UInt16.ofNat data.length) ++ data)))

/-- `send_chunk`; `none` when its frame buffer is overrun. -/
def sendChunk (s : Socket) (wrapper : List UInt8) : Option (Socket × Except ClientErr Unit) :=
  sendToNetwork s apidBulkVidTx wrapper

def uploadChunk (transferId totalLen totalChunks : UInt32) (u : Upload) (chunk : ℕ) :
    Option (Upload × Bool) :=
  let n := (chunkSize32 totalLen u.sentBytes (UInt32.ofNat maxChunkData)).toUInt16
  match u.readChunk n with
  | (u, none) => some (u, false)
  | (u, some data) =>
    let wrapper := VideoUploader.packBulkWrapper transferId (UInt32.ofNat chunk) totalChunks data
    (sendChunk u.socket wrapper).map fun
      | (s, .error _) => ({ u with socket := s }, false)
      | (s, .ok ()) =>
        ({ u with socket := s, sentBytes := u.sentBytes + n.toUInt32, sent := u.sent ++ [wrapper] },
          true)

def uploadLoop (transferId totalLen totalChunks : UInt32) : List ℕ → Upload → Option (Upload × Bool)
  | [], u => some (u, true)
  | chunk :: rest, u =>
    (uploadChunk transferId totalLen totalChunks u chunk).bind fun out =>
      if out.2 then uploadLoop transferId totalLen totalChunks rest out.1 else some out

/-- `main` of the uploader on an open file and a connection; the flag is true for exit code 0. -/
def videoUploader (content : List UInt8) (freads : List Bool) (s : Socket) (transferId : UInt32) :
    Option (Upload × Bool) :=
  let u : Upload := { socket := s, file := content, freads := freads }
  if 2 ^ 32 - 1 < content.length then some (u, false)
  else
    let totalLen := UInt32.ofNat content.length
    let totalChunks := totalChunks32 totalLen (UInt32.ofNat maxChunkData)
    uploadLoop transferId totalLen totalChunks (List.range totalChunks.toNat) u

/-- The uploader and the application wrap chunks alike. -/
theorem VideoUploader.packBulkWrapper_eq : VideoUploader.packBulkWrapper = App.packBulkWrapper := rfl

/-! ## One round -/

structure Upload.At (content : List UInt8) (i : ℕ) (u : Upload) : Prop where
  file : u.file = content.drop (i * maxChunkData)
  sentBytes : u.sentBytes.toNat = min content.length (i * maxChunkData)

theorem Upload.readChunk_fst (u : Upload) (n : UInt16) :
    ∃ freads ⊆ u.freads, (u.readChunk n).1 = { u with file := u.file.drop n.toNat, freads := freads } := by
  unfold readChunk
  split_ifs with hn
  · exact ⟨_, List.tail_subset _, rfl⟩
  · have hzero : n.toNat = 0 := by simpa [UInt16.lt_iff_toNat_lt] using hn
    exact ⟨_, List.Subset.refl _, by rw [hzero, List.drop_zero]⟩

theorem Upload.readChunk_snd {u : Upload} {n : UInt16} {data : List UInt8}
    (h : (u.readChunk n).2 = some data) : data = u.file.take n.toNat := by
  unfold readChunk fread at h
  split_ifs at h with hn hshort
  · exact (Option.some.inj h).symm
  · have hzero : n.toNat = 0 := by simpa [UInt16.lt_iff_toNat_lt] using hn
    rw [hzero, List.take_zero]
    exact (Option.some.inj h).symm

theorem Upload.readChunk_ok {u : Upload} {n : UInt16} (hreads : false ∉ u.freads)
    (hn : n.toNat ≤ u.file.length) : ∃ data, (u.readChunk n).2 = some data := by
  unfold readChunk fread
  have hhead : u.freads.head? ≠ some false := fun h => hreads (List.mem_of_head? h)
  split_ifs with hpos hshort
  · exact absurd hshort (by simp [hhead, hn])
  · exact ⟨_, rfl⟩
  · exact ⟨_, rfl⟩

theorem sendChunk_ok {s : Socket} (hs : s.Sound) {wrapper : List UInt8}
    (hlen : wrapper.length ≤ netIpcMaxData) :
    ∃ s' : Socket, s'.Sound ∧ sendChunk s wrapper = some (s', .ok ()) := by
  obtain ⟨hdr, hframe, -, -⟩ := netIpcFrame_spec apidBulkVidTx hlen
  have hshort : (hdr.encode ++ wrapper).length ≤ maxMsgPayload := by
    rw [List.length_append, NetIpcHdr.length_encode]
    exact (Nat.add_le_add_left hlen _).trans (by decide)
  obtain ⟨s', _, hs', -, -, hsend⟩ := daemonClientSend_spec hs networkName hshort
  refine ⟨s', hs', ?_⟩
  rw [sendChunk, sendToNetwork, hframe, Option.map_some, hsend]

section Round
variable {content : List UInt8} {transferId totalLen totalChunks : UInt32} {u : Upload} {i : ℕ}

def chunkWrapper (content : List UInt8) (transferId totalChunks : UInt32) (i : ℕ) : List UInt8 :=
  packBulkWrapper transferId (UInt32.ofNat i) totalChunks
    (slice content (i * maxChunkData) maxChunkData)

theorem Upload.At.n_eq (h : u.At content i) (hlen : totalLen.toNat = content.length) :
    (chunkSize32 totalLen u.sentBytes (UInt32.ofNat maxChunkData)).toUInt16.toNat =
      min maxChunkData (content.length - i * maxChunkData) := by
  have hsent := h.sentBytes
  have hsize : (UInt32.ofNat maxChunkData).toNat = maxChunkData := rfl
  have hsmall : maxChunkData < 2 ^ 16 := by decide
  rw [UInt32.toNat_toUInt16, toNat_chunkSize32 (by omega), hsize]
  omega

theorem uploadChunk_next (h : u.At content i) (hlen : totalLen.toNat = content.length) {u' : Upload}
    (hok : uploadChunk transferId totalLen totalChunks u i = some (u', true)) :
    u'.At content (i + 1) ∧ u'.sent = u.sent ++ [chunkWrapper content transferId totalChunks i] := by
  have hn := h.n_eq hlen
  have htotal := totalLen.toNat_lt
  unfold uploadChunk at hok
  dsimp only at hok
  set n := (chunkSize32 totalLen u.sentBytes (UInt32.ofNat maxChunkData)).toUInt16 with hndef
  obtain ⟨freads, -, hread⟩ := u.readChunk_fst n
  rcases hout : u.readChunk n with ⟨v, _ | data⟩
  · simp [hout] at hok
  · rw [hout] at hread hok
    obtain rfl : v = { u with file := u.file.drop n.toNat, freads := freads } := hread
    have hdata : data = slice content (i * maxChunkData) maxChunkData := by
      have hread : data = u.file.take n.toNat := Upload.readChunk_snd (by rw [hout])
      rw [hread, h.file, hn, slice, List.take_eq_take_iff, List.length_drop]
      omega
    obtain ⟨⟨s, ret⟩, -, hret⟩ := Option.map_eq_some_iff.mp hok
    cases ret with
    | error e => simp at hret
    | ok _ =>
      obtain ⟨rfl, -⟩ := Prod.mk.inj hret
      refine ⟨⟨?_, ?_⟩, by rw [chunkWrapper, ← hdata, VideoUploader.packBulkWrapper_eq]⟩
      · have hnext : content.drop ((i + 1) * maxChunkData) =
            content.drop (i * maxChunkData + n.toNat) := by
          rw [List.drop_eq_drop_iff, hn, Nat.succ_mul]
          omega
        rw [hnext, h.file, List.drop_drop]
      · have hsent := h.sentBytes
        rw [UInt32.toNat_add, UInt16.toNat_toUInt32, hn, hsent, Nat.succ_mul]
        omega

theorem uploadChunk_ok (h : u.At content i) (hlen : totalLen.toNat = content.length)
    (hs : u.socket.Sound) (hreads : false ∉ u.freads) :
    ∃ u', uploadChunk transferId totalLen totalChunks u i = some (u', true) ∧ u'.socket.Sound ∧
      false ∉ u'.freads := by
  have hn := h.n_eq hlen
  unfold uploadChunk
  rw [VideoUploader.packBulkWrapper_eq]
  dsimp only
  set n := (chunkSize32 totalLen u.sentBytes (UInt32.ofNat maxChunkData)).toUInt16 with hndef
  obtain ⟨freads, hsub, hread⟩ := u.readChunk_fst n
  obtain ⟨data, hdata⟩ := Upload.readChunk_ok (u := u) (n := n) hreads (by
    rw [h.file, List.length_drop, hn]
    omega)
  have hout : u.readChunk n = ({ u with file := u.file.drop n.toNat, freads := freads }, some data) :=
    Prod.ext hread hdata
  have hshort : data.length ≤ maxChunkData := by
    rw [Upload.readChunk_snd hdata, List.length_take, hn]
    omega
  have hfits : (packBulkWrapper transferId (UInt32.ofNat i) totalChunks data).length ≤
      netIpcMaxData := by
    rw [length_packBulkWrapper]
    exact Nat.add_le_of_le_sub' (by decide) hshort
  obtain ⟨s, hsound, hsend⟩ := sendChunk_ok hs hfits
  refine ⟨{ u with
    socket := s
    file := u.file.drop n.toNat
    freads := freads
    sentBytes := u.sentBytes + n.toUInt32
    sent := u.sent ++ [packBulkWrapper transferId (UInt32.ofNat i) totalChunks data] },
    ?_, hsound, fun hm => hreads (hsub hm)⟩
  rw [hout]
  simp only [hsend, Option.map_some]

end Round

/-! ## The whole file -/

theorem uploadLoop_next {content : List UInt8} {transferId totalLen totalChunks : UInt32}
    (hlen : totalLen.toNat = content.length) (k : ℕ) : ∀ {i : ℕ} {u u' : Upload}, u.At content i →
      uploadLoop transferId totalLen totalChunks (List.range' i k) u = some (u', true) →
        u'.sent = u.sent ++ (List.range' i k).map (chunkWrapper content transferId totalChunks) := by
  induction k with
  | zero =>
    intro i u u' _ hok
    obtain ⟨rfl, -⟩ := Prod.mk.inj (Option.some.inj hok)
    simp
  | succ k ih =>
    intro i u u' hat hok
    rw [List.range'_succ, uploadLoop] at hok
    obtain ⟨⟨v, goesOn⟩, hround, hrest⟩ := Option.bind_eq_some_iff.mp hok
    cases goesOn with
    | false => simp at hrest
    | true =>
      obtain ⟨hnext, hsent⟩ := uploadChunk_next hat hlen hround
      rw [ih hnext hrest, hsent, List.range'_succ, List.map_cons, List.append_assoc]
      rfl

theorem uploadLoop_ok {content : List UInt8} {transferId totalLen totalChunks : UInt32}
    (hlen : totalLen.toNat = content.length) (k : ℕ) : ∀ {i : ℕ} {u : Upload}, u.At content i →
      u.socket.Sound → false ∉ u.freads →
        ∃ u', uploadLoop transferId totalLen totalChunks (List.range' i k) u = some (u', true) := by
  induction k with
  | zero => exact fun _ _ _ => ⟨_, rfl⟩
  | succ k ih =>
    intro i u hat hs hreads
    obtain ⟨v, hround, hv, hvreads⟩ := uploadChunk_ok hat hlen hs hreads
    obtain ⟨u', hrest⟩ := ih (uploadChunk_next hat hlen hround).1 hv hvreads
    exact ⟨u', by rw [List.range'_succ, uploadLoop, hround]; exact hrest⟩

section Uploader
variable {content : List UInt8} {freads : List Bool} {s : Socket} {transferId : UInt32}

theorem Upload.at_start : Upload.At content 0 { socket := s, file := content, freads := freads } :=
  ⟨by simp, by simp⟩

def uploadChunks (content : List UInt8) : UInt32 :=
  totalChunks32 (UInt32.ofNat content.length) (UInt32.ofNat maxChunkData)

/-- An upload that ends well has sent the wrappers of the first chunks of the file. -/
theorem videoUploader_sent {u : Upload}
    (hok : videoUploader content freads s transferId = some (u, true)) :
    content.length < 2 ^ 32 ∧
      u.sent = wrappers transferId (uploadChunks content) maxChunkData content := by
  unfold videoUploader at hok
  dsimp only at hok
  split_ifs at hok with hbig
  · simp at hok
  · have hlen : (UInt32.ofNat content.length).toNat = content.length :=
      UInt32.toNat_ofNat_of_lt' (by simpa using Nat.lt_of_not_le hbig)
    rw [List.range_eq_range'] at hok
    have hsent := uploadLoop_next hlen _ Upload.at_start hok
    refine ⟨by omega, ?_⟩
    rw [hsent, List.nil_append, ← List.range_eq_range']
    rfl

theorem videoUploader_ok (transferId : UInt32) (hsize : content.length < 2 ^ 32) (hs : s.Sound)
    (hreads : false ∉ freads) :
    ∃ u, videoUploader content freads s transferId = some (u, true) := by
  have hlen : (UInt32.ofNat content.length).toNat = content.length :=
    UInt32.toNat_ofNat_of_lt' hsize
  unfold videoUploader
  dsimp only
  rw [if_neg (by omega), List.range_eq_range']
  exact uploadLoop_ok hlen _ Upload.at_start hs hreads

end Uploader

theorem covers_uploaded_iff {content : List UInt8} (transferId : UInt32)
    (hsize : content.length < 2 ^ 32) :
    Covers transferId maxChunkData content
        (wrappers transferId (uploadChunks content) maxChunkData content) ↔
      content.length + 497 < 2 ^ 32 := by
  have hpos : 0 < (UInt32.ofNat maxChunkData).toNat := by decide
  exact covers_wrappers_iff transferId hpos le_rfl (UInt32.toNat_ofNat_of_lt' hsize)

/-- Transfers of the uploader and of `send_bulk` cover their file as long as the
rounding addition of the chunk count stays below 2³². -/
theorem transfers_cover_iff (transferId : UInt32) :
    (∀ (content : List UInt8) (freads : List Bool) (s : Socket) (u : Upload),
      videoUploader content freads s transferId = some (u, true) →
        (Covers transferId maxChunkData content u.sent ↔ content.length + 497 < 2 ^ 32)) ∧
    ∀ (apid : UInt16) (data : Mem) (totalLen : UInt32) (maxData : UInt16),
      1 ≤ maxData.toNat → maxData.toNat ≤ maxChunkData →
        (Covers transferId maxData.toNat (data.load 0 totalLen.toNat)
            ((sendBulk apid transferId data totalLen maxData).map ToNetwork.data) ↔
          totalLen.toNat + (maxData.toNat - 1) < 2 ^ 32) := by
  constructor
  · intro content freads s u hok
    obtain ⟨hsize, hsent⟩ := videoUploader_sent hok
    rw [hsent]
    exact covers_uploaded_iff transferId hsize
  · intro apid data totalLen maxData hpos hmax
    have hwide : maxData.toUInt32.toNat = maxData.toNat := UInt16.toNat_toUInt32 maxData
    have hlen : totalLen.toNat = (data.load 0 totalLen.toNat).length := (Mem.length_load ..).symm
    have hiff := covers_wrappers_iff transferId (hwide.symm ▸ hpos) (hwide.trans_le hmax) hlen
    rw [hwide, Mem.length_load] at hiff
    rwa [map_data_sendBulk apid transferId data totalLen hpos]

theorem emptySocket_sound : Socket.Sound { incoming := [] } := ⟨by simp, by simp [Writable]⟩

/-- An upload of three bytes. -/
theorem transfers_cover_three : ∃ u, videoUploader [1, 2, 3] [] { incoming := [] } 7 = some (u, true) ∧
    Covers 7 maxChunkData [1, 2, 3] u.sent := by
  have hlen : ([1, 2, 3] : List UInt8).length < 2 ^ 32 := by decide
  obtain ⟨u, hu⟩ := videoUploader_ok 7 hlen emptySocket_sound List.not_mem_nil
  exact ⟨u, hu, ((transfers_cover_iff 7).1 _ _ _ u hu).mpr (by decide)⟩

/-- A file 497 bytes short of 4 GiB, within what the uploader accepts. -/
def hugeFile : List UInt8 := List.replicate 4294966799 0

theorem length_hugeFile : hugeFile.length = 4294966799 := List.length_replicate

/-- The count of a huge file wraps to zero: one chunk is sent, and the upload ends well. -/
theorem transfers_cover_wrapped :
    ∃ u, videoUploader hugeFile [] { incoming := [] } 7 = some (u, true) ∧ u.sent.length = 1 ∧
      ¬Covers 7 maxChunkData hugeFile u.sent := by
  have hsize : hugeFile.length < 2 ^ 32 := by
    rw [length_hugeFile]
    decide
  obtain ⟨u, hu⟩ := videoUploader_ok 7 hsize emptySocket_sound List.not_mem_nil
  obtain ⟨-, hsent⟩ := videoUploader_sent hu
  have hcount : (uploadChunks hugeFile).toNat = 1 := by
    rw [uploadChunks, length_hugeFile]
    decide
  refine ⟨u, hu, ?_, ?_⟩
  · rw [hsent, wrappers, List.length_map, List.length_range, hcount]
  · rw [hsent, covers_uploaded_iff 7 hsize, length_hugeFile]
    decide

end PiDaemon.App
