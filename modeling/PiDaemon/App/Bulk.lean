import PiDaemon.Base.Memory
import PiDaemon.Proto.NetIpc

/-!
# Bulk transfers in the payload application

`pack_bulk_wrapper`, `bulk_rx_t` and `handle_bulk_chunk` of `payload_app.c`. A
received frame is a pointer into the receive buffer and a length; the model keeps
the memory behind the pointer, because the declared size of a chunk is not checked
against the length of the frame and the copy may go beyond it.

The arrays of `bulk_rx_t` are functions of their index, with one region for the
64 data slots; counters are natural numbers.
-/

namespace PiDaemon.App

open Base Proto

/-- `BULK_WRAPPER_HEADER_SIZE`. -/
def bulkWrapperHeaderSize : ℕ := 14

/-- `MAX_CHUNK_DATA`. -/
def maxChunkData : ℕ := netIpcMaxData - bulkWrapperHeaderSize

/-- `BULK_RX_MAX_CHUNKS`. -/
def bulkRxMaxChunks : ℕ := 64

/-- `APID_BULK_ACK_BIDI`. -/
def apidBulkAckBidi : UInt16 := 0x035

/-- A call of `send_to_network`. -/
structure ToNetwork where
  apid : UInt16
  data : List UInt8
  deriving DecidableEq, Repr

/-- `pack_bulk_wrapper`, with `n` the length of `data`. -/
def packBulkWrapper (transferId chunkSeq totalChunks : UInt32) (data : List UInt8) : List UInt8 :=
  be32 transferId ++ (be32 chunkSeq ++ (be32 totalChunks ++
    (be16 (UInt16.ofNat data.length) ++ data)))

/-- `bulk_rx_t`. -/
structure BulkRx where
  active : Bool := false
  transferId : UInt32 := 0
  totalChunks : ℕ := 0
  chunksReceived : ℕ := 0
  seen : ℕ → Bool := fun _ => false
  chunkLen : ℕ → ℕ := fun _ => 0
  data : Mem := fun _ => 0

/-- A frame handed to `handle_bulk_chunk`: `data` with whatever lies behind it, and `len`. -/
structure Inbound where
  mem : Mem
  len : ℕ

namespace Inbound

variable (f : Inbound)

def transferId : UInt32 := f.mem.be32At 0
def chunkSeq : ℕ := (f.mem.be32At 4).toNat
def totalChunks : ℕ := (f.mem.be32At 8).toNat
def n : ℕ := (f.mem.be16At 12).toNat

/-- The bytes that are copied: `n` of them, whether or not the frame is that long. -/
def chunkData : List UInt8 := f.mem.load bulkWrapperHeaderSize f.n

def OverLimits : Prop :=
  bulkRxMaxChunks ≤ f.chunkSeq ∨ bulkRxMaxChunks < f.totalChunks ∨ maxChunkData < f.n

instance : Decidable f.OverLimits := inferInstanceAs (Decidable (_ ∨ _ ∨ _))

end Inbound

namespace BulkRx

/-- Reset for a new session, unless the frame belongs to the current one. -/
def begin (rx : BulkRx) (transferId : UInt32) (totalChunks : ℕ) : BulkRx :=
  if rx.active = false ∨ rx.transferId ≠ transferId then
    { rx with
      seen := fun _ => false
      active := true
      transferId := transferId
      totalChunks := totalChunks
      chunksReceived := 0 }
  else rx

def put (rx : BulkRx) (seq : ℕ) (bytes : List UInt8) : BulkRx :=
  if rx.seen seq then rx
  else
    { rx with
      data := rx.data.store (seq * maxChunkData) bytes
      chunkLen := Function.update rx.chunkLen seq bytes.length
      seen := Function.update rx.seen seq true
      chunksReceived := rx.chunksReceived + 1 }

def slot (rx : BulkRx) (i : ℕ) : List UInt8 := rx.data.load (i * maxChunkData) (rx.chunkLen i)

/-- The assembly loop over `g_bulk_assemble_buf`, with `total_len`. -/
def assemble (rx : BulkRx) (buf : Mem) : Mem × ℕ :=
  (List.range rx.totalChunks).foldl
    (fun out i => (out.1.store out.2 (rx.slot i), out.2 + rx.chunkLen i)) (buf, 0)

end BulkRx

/-- What a call of `handle_bulk_chunk` leaves: the session state, the assembly
buffer, `total_len` if the transfer was completed, and what was sent. -/
structure ChunkResult where
  rx : BulkRx
  assembleBuf : Mem
  completed : Option ℕ := none
  sent : List ToNetwork := []

def ackMessage (transferId : UInt32) : ToNetwork := ⟨apidBulkAckBidi, be32 transferId ++ [0x00]⟩

def handleBulkChunk (rx : BulkRx) (assembleBuf : Mem) (f : Inbound) : ChunkResult :=
  if f.len < bulkWrapperHeaderSize then ⟨rx, assembleBuf, none, []⟩
  else
    let rx := rx.begin f.transferId f.totalChunks
    if f.OverLimits then ⟨{ rx with active := false }, assembleBuf, none, []⟩
    else
      let rx := rx.put f.chunkSeq f.chunkData
      if rx.chunksReceived < rx.totalChunks then ⟨rx, assembleBuf, none, []⟩
      else
        let out := rx.assemble assembleBuf
        ⟨{ rx with active := false }, out.1, some out.2, [ackMessage f.transferId]⟩

/-! ## Wrapping and unwrapping -/

theorem length_packBulkWrapper (transferId chunkSeq totalChunks : UInt32) (data : List UInt8) :
    (packBulkWrapper transferId chunkSeq totalChunks data).length =
      bulkWrapperHeaderSize + data.length := by
  simp [packBulkWrapper, bulkWrapperHeaderSize]
  omega

theorem unpack_packBulkWrapper {f : Inbound} {transferId chunkSeq totalChunks : UInt32}
    {data : List UInt8} (hdata : data.length ≤ maxChunkData)
    (h : f.mem.load 0 (packBulkWrapper transferId chunkSeq totalChunks data).length =
      packBulkWrapper transferId chunkSeq totalChunks data) :
    f.transferId = transferId ∧ f.chunkSeq = chunkSeq.toNat ∧
      f.totalChunks = totalChunks.toNat ∧ f.n = data.length ∧ f.chunkData = data := by
  obtain ⟨h0, h⟩ := Mem.load_append h
  obtain ⟨h4, h⟩ := Mem.load_append h
  obtain ⟨h8, h⟩ := Mem.load_append h
  obtain ⟨h12, h14⟩ := Mem.load_append h
  simp only [length_be32, length_be16, Nat.zero_add, Nat.reduceAdd] at h0 h4 h8 h12 h14
  have hn : f.n = data.length := by
    rw [Inbound.n, Mem.be16At_of_load h12, UInt16.toNat_ofNat']
    exact Nat.mod_eq_of_lt (hdata.trans_lt (by decide))
  refine ⟨Mem.be32At_of_load h0, ?_, ?_, hn, ?_⟩
  · rw [Inbound.chunkSeq, Mem.be32At_of_load h4]
  · rw [Inbound.totalChunks, Mem.be32At_of_load h8]
  · rw [Inbound.chunkData, hn]
    exact h14

/-! ## The assembly loop -/

theorem assemble_spec (rx : BulkRx) (buf : Mem) :
    (rx.assemble buf).1.load 0 (rx.assemble buf).2 =
      (List.range rx.totalChunks).flatMap rx.slot := by
  have hwidth : ∀ i, (rx.slot i).length = rx.chunkLen i := fun i => by simp [BulkRx.slot]
  simpa [BulkRx.assemble] using (Mem.load_foldl_store hwidth (List.range rx.totalChunks) buf [] rfl).1

end PiDaemon.App
