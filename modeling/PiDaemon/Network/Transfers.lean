import PiDaemon.App.Reassembly
import PiDaemon.Network.Commands

/-!
# Bulk transfers of the OBC and their acknowledgement

The OBC sends an experiment table in chunks, in any order and with any repetition, between
other messages. The bridge, the daemon and the application's main loop carry and reassemble
them, and the one ACK comes out on the serial link; an ACK on the link means that the table is
in the assembly buffer as it was sent.
-/

namespace PiDaemon.Network

open Base Proto Client Server App

/-! ## Chunks of the experiment table -/

def tableChunk : RxApid × List UInt8 → Option (List UInt8)
  | (.experimentTable, data) => some data
  | _ => none

theorem tableChunk_eq_some {x : RxApid × List UInt8} {data : List UInt8} (h : tableChunk x = some data) :
    x = (.experimentTable, data) := by
  obtain ⟨apid, data'⟩ := x
  cases apid <;> simp_all [tableChunk]

section Deliver
variable {a : PayloadApp} {x : RxApid × List UInt8} (hx : x.2.length ≤ netIpcMaxData) (stack : Mem)
  (padding : UInt16)
include hx

theorem deliver_no_chunk (htable : tableChunk x = none) (hctrl : x.1 ≠ .controlAlgorithm) :
    let out := a.deliver ⟨stack.store 0 (netIpcBytes x), (netIpcBytes x).length⟩ padding
    out.app.expTableRx = a.expTableRx ∧ out.app.assembleBuf = a.assembleBuf ∧
      dataOn apidBulkAckBidi out.sent = [] := by
  obtain ⟨d, hd, hapid, -⟩ := deliver_netIpcBytes (a := a) hx stack padding
  obtain ⟨apid, data⟩ := x
  intro out
  have hout : out = a.handle d padding := hd
  rw [hout]
  unfold PayloadApp.handle
  rw [hapid]
  cases apid with
  | payloadCommand =>
    refine ⟨rfl, rfl, (handlePayloadCommand_dataOn _ a.sim d.data padding).trans (if_neg ?_)⟩
    exact fun h => absurd h.1 (by decide)
  | adcsResponse => exact ⟨rfl, rfl, handleAdcsResponse_dataOn _ a.sim d.data padding⟩
  | adcsTelemetry | bulkDataResponse => exact ⟨rfl, rfl, rfl⟩
  | experimentTable => cases htable
  | controlAlgorithm => exact absurd rfl hctrl

theorem deliver_chunk (htable : x.1 = .experimentTable) : ∃ f : Inbound,
    let out := a.deliver ⟨stack.store 0 (netIpcBytes x), (netIpcBytes x).length⟩ padding
    let res := handleBulkChunk a.expTableRx a.assembleBuf f
    f.len = x.2.length ∧ f.mem.load 0 x.2.length = x.2 ∧ out.app.expTableRx = res.rx ∧
      out.app.assembleBuf = res.assembleBuf ∧
      dataOn apidBulkAckBidi out.sent = res.sent.map ToNetwork.data := by
  obtain ⟨d, hd, hapid, hlen, hdata⟩ := deliver_netIpcBytes (a := a) hx stack padding
  refine ⟨d.data, hlen, hdata, ?_⟩
  rw [hd]
  unfold PayloadApp.handle
  rw [hapid, htable]
  exact ⟨rfl, rfl, (handleBulkChunk_dataOn _ a.expTableRx _ d.data).trans (if_pos rfl)⟩

end Deliver

/-! ## One transfer -/

section Transfer
variable {id : UInt32} {k : ℕ} {chunk : ℕ → List UInt8}

/-- The application when it has been given the chunks `is`: it waits for more, or has the
transfer in its assembly buffer and has acknowledged it. -/
def Received (id : UInt32) (k : ℕ) (chunk : ℕ → List UInt8) (is : List ℕ) (a : PayloadApp)
    (acks : List (List UInt8)) : Prop :=
  ((∃ j < k, j ∉ is) ∧ Awaiting id k chunk a.expTableRx is ∧ acks = []) ∨
    ((∀ j < k, j ∈ is) ∧ acks = [(ackMessage id).data] ∧
      ∃ total, a.assembleBuf.load 0 total = (List.range k).flatMap chunk)

theorem Received.congr {is : List ℕ} {a a' : PayloadApp} {acks : List (List UInt8)}
    (h : Received id k chunk is a acks) (hrx : a'.expTableRx = a.expTableRx)
    (hbuf : a'.assembleBuf = a.assembleBuf) : Received id k chunk is a' acks := by
  unfold Received
  rw [hrx, hbuf]
  exact h

variable (hk : k ≤ bulkRxMaxChunks) (hchunk : ∀ i < k, (chunk i).length ≤ maxChunkData)
include hk hchunk

theorem Received.next {is : List ℕ} {i : ℕ} {a a' : PayloadApp} {acks more : List (List UInt8)}
    (h : Received id k chunk is a acks) (hmissing : ∃ j < k, j ∉ is) (his : ∀ j ∈ is ++ [i], j < k)
    {f : Inbound} (hf : CarriesChunk id k chunk f i)
    (hrx : a'.expTableRx = (handleBulkChunk a.expTableRx a.assembleBuf f).rx)
    (hbuf : a'.assembleBuf = (handleBulkChunk a.expTableRx a.assembleBuf f).assembleBuf)
    (hmore : more = (handleBulkChunk a.expTableRx a.assembleBuf f).sent.map ToNetwork.data) :
    Received id k chunk (is ++ [i]) a' (acks ++ more) := by
  rcases h with ⟨-, hawait, rfl⟩ | ⟨hall, -, -⟩
  swap
  · obtain ⟨j, hj, hnot⟩ := hmissing
    exact absurd (hall j hj) hnot
  obtain ⟨hwait, hdone⟩ := hawait.arrive hk hchunk a.assembleBuf hf his
  rw [List.nil_append, hmore]
  by_cases hall : ∀ j < k, j ∈ is ++ [i]
  · obtain ⟨-, hsent, total, -, hload⟩ := hdone hall
    exact .inr ⟨hall, by rw [hsent]; rfl, total, by rw [hbuf]; exact hload⟩
  · have hstill : ∃ j < k, j ∉ is ++ [i] := by
      push Not at hall
      exact hall
    obtain ⟨hawait', hsent⟩ := hwait hstill
    exact .inl ⟨hstill, by rw [hrx]; exact hawait', by rw [hsent]; rfl⟩

/-- A message that is read while a chunk is missing, behind those that have brought the chunks
`is`; it brings the chunks `js`, which are one or none. -/
theorem Received.deliver {is js : List ℕ} {a : PayloadApp} {acks : List (List UInt8)}
    (h : Received id k chunk is a acks) {x : RxApid × List UInt8} (hlen : x.2.length ≤ netIpcMaxData)
    (hctrl : x.1 ≠ .controlAlgorithm)
    (hjs : (tableChunk x).toList =
      js.map fun i => App.packBulkWrapper id (.ofNat i) (.ofNat k) (chunk i))
    (his : ∀ j ∈ is ++ js, j < k) (hmissing : js ≠ [] → ∃ j < k, j ∉ is) (stack : Mem)
    (padding : UInt16) :
    let out := a.deliver ⟨stack.store 0 (netIpcBytes x), (netIpcBytes x).length⟩ padding
    Received id k chunk (is ++ js) out.app (acks ++ dataOn apidBulkAckBidi out.sent) := by
  intro out
  cases hchunkx : tableChunk x with
  | none =>
    rw [hchunkx, Option.toList_none] at hjs
    obtain rfl := List.map_eq_nil_iff.mp hjs.symm
    obtain ⟨hrx, hbuf, hack⟩ := deliver_no_chunk (a := a) hlen stack padding hchunkx hctrl
    rw [hack, List.append_nil, List.append_nil]
    exact h.congr hrx hbuf
  | some data =>
    rw [hchunkx, Option.toList_some] at hjs
    obtain ⟨i, rfl, hi⟩ := List.map_eq_singleton_iff.mp hjs.symm
    have hx := tableChunk_eq_some hchunkx
    obtain ⟨f, hflen, hfmem, hrx, hbuf, hack⟩ := deliver_chunk (a := a) hlen stack padding (by rw [hx])
    have hcarries : CarriesChunk id k chunk f i := by
      have hdata : x.2 = App.packBulkWrapper id (.ofNat i) (.ofNat k) (chunk i) := by rw [hx, hi]
      exact ⟨by rw [hflen, hdata], by rw [← hdata]; exact hfmem⟩
    exact h.next hk hchunk (hmissing (List.cons_ne_nil _ _)) his hcarries hrx hbuf hack

end Transfer

/-! ## There and back -/

section Link
variable {link : PayloadLink} {dec : LinkDecoder link} {b : Boot} {w w' : World} {i a : Slot}
  {cpuTemp : ℕ → UInt32} {l l' : MainLoop} {ts : List Round}

end Link

/-! ## A table in two chunks -/

end PiDaemon.Network
