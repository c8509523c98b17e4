import PiDaemon.App.Payload

/-!
# What a delivery depends on

The receive buffer holds old bytes behind the message. Every handler checks the length
of its frame before it reads a fixed field, so only `handle_bulk_chunk`, which trusts
the chunk's own `n`, can read behind it. Here this is made exact: when two buffers with
the same message make a difference.
-/

namespace PiDaemon.App

open Base Proto Mem

/-! ## The handlers that stay inside their frame -/

section Handlers
variable {f : Inbound} {mem : Mem}

theorem handlePayloadCommand_agree (h : Agree f.len f.mem mem) (s : SimState) (padding : UInt16) :
    handlePayloadCommand s ⟨mem, f.len⟩ padding = handlePayloadCommand s f padding := by
  by_cases hlen : f.len < 1
  · simp only [handlePayloadCommand, if_pos hlen]
  · have hop : (⟨mem, f.len⟩ : Inbound).opcode = f.opcode := (h 0 (by omega)).symm
    have harg : (⟨mem, f.len⟩ : Inbound).arg = f.arg := by
      unfold Inbound.arg
      split_ifs with h5
      · exact (h.be32At (by omega)).symm
      · rfl
    simp only [handlePayloadCommand, hop, harg]

theorem handleAdcsTelemetry_agree (h : Agree f.len f.mem mem) (s : SimState) :
    handleAdcsTelemetry s ⟨mem, f.len⟩ = handleAdcsTelemetry s f := by
  by_cases hlen : f.len < 80
  · simp only [handleAdcsTelemetry, if_pos hlen]
  · have hfloat : ∀ {off n : ℕ}, off + 4 * n ≤ f.len →
        unpackBeFloatArray mem off n = unpackBeFloatArray f.mem off n := by
      intro off n hn
      unfold unpackBeFloatArray
      congr
      funext i
      exact (h.be32At (by omega)).symm
    simp only [handleAdcsTelemetry, hfloat (show 8 + 4 * 4 ≤ f.len by omega),
      hfloat (show 68 + 4 * 3 ≤ f.len by omega)]

theorem handleAdcsResponse_agree (h : Agree f.len f.mem mem) (s : SimState) (padding : UInt16) :
    handleAdcsResponse s ⟨mem, f.len⟩ padding = handleAdcsResponse s f padding := by
  by_cases hlen : f.len < 2
  · simp only [handleAdcsResponse, if_pos hlen]
  · have h0 : mem 0 = f.mem 0 := (h 0 (by omega)).symm
    have h1 : mem 1 = f.mem 1 := (h 1 (by omega)).symm
    simp only [handleAdcsResponse, h0, h1]

theorem handleBulkAckResponse_agree (h : Agree f.len f.mem mem) :
    handleBulkAckResponse ⟨mem, f.len⟩ = handleBulkAckResponse f := by
  by_cases hlen : f.len < bulkAckHeaderSize
  · simp only [handleBulkAckResponse, if_pos hlen]
  · have hsize : bulkAckHeaderSize = 5 := rfl
    have h0 : mem.be32At 0 = f.mem.be32At 0 := (h.be32At (by omega)).symm
    have h4 : mem 4 = f.mem 4 := (h 4 (by omega)).symm
    simp only [handleBulkAckResponse, h0, h4]

end Handlers

/-! ## Chunks -/

def Inbound.Overlong (f : Inbound) : Prop :=
  bulkWrapperHeaderSize ≤ f.len ∧ f.len < bulkWrapperHeaderSize + f.n

def BulkRx.Fresh (rx : BulkRx) (transferId : UInt32) : Prop :=
  rx.active = false ∨ rx.transferId ≠ transferId

def BulkRx.Takes (rx : BulkRx) (f : Inbound) : Prop :=
  ¬f.OverLimits ∧
    (rx.Fresh f.transferId ∨ rx.seen f.chunkSeq = false ∨ rx.totalChunks ≤ rx.chunksReceived)

theorem BulkRx.begin_takes {rx : BulkRx} {f : Inbound} (h : rx.Takes f) :
    (rx.begin f.transferId f.totalChunks).seen f.chunkSeq = false ∨
      (rx.begin f.transferId f.totalChunks).totalChunks ≤
        (rx.begin f.transferId f.totalChunks).chunksReceived := by
  unfold BulkRx.begin
  split_ifs with hfresh
  · exact .inl rfl
  · exact h.2.resolve_left hfresh

theorem BulkRx.begin_ignores {rx : BulkRx} {f : Inbound} (hlimits : ¬f.OverLimits)
    (h : ¬rx.Takes f) :
    rx.begin f.transferId f.totalChunks = rx ∧ rx.seen f.chunkSeq = true ∧
      rx.chunksReceived < rx.totalChunks := by
  have hnone := not_or.mp fun hany => h ⟨hlimits, hany⟩
  obtain ⟨hseen, hcount⟩ := not_or.mp hnone.2
  exact ⟨if_neg hnone.1, by simpa using hseen, by omega⟩

section Chunk
variable {rx : BulkRx} {buf mem : Mem} {f : Inbound}

theorem handleBulkChunk_ignored (hlen : bulkWrapperHeaderSize ≤ f.len) (h : ¬rx.Takes f) :
    handleBulkChunk rx buf f = ⟨if f.OverLimits then
      { rx.begin f.transferId f.totalChunks with active := false } else
      rx.begin f.transferId f.totalChunks, buf, none, []⟩ := by
  unfold handleBulkChunk
  rw [if_neg (by omega)]
  dsimp only
  split_ifs with hlimits hmore
  · rfl
  · obtain ⟨hbegin, hseen, -⟩ := BulkRx.begin_ignores hlimits h
    rw [hbegin, BulkRx.put, if_pos hseen]
  · obtain ⟨hbegin, hseen, hcount⟩ := BulkRx.begin_ignores hlimits h
    rw [hbegin, BulkRx.put, if_pos hseen] at hmore
    exact absurd hcount hmore

theorem handleBulkChunk_taken (buf : Mem) (hlen : bulkWrapperHeaderSize ≤ f.len) (h : rx.Takes f) :
    (handleBulkChunk rx buf f).sent ≠ [] ∨ (handleBulkChunk rx buf f).rx.seen f.chunkSeq ≠
      (rx.begin f.transferId f.totalChunks).seen f.chunkSeq := by
  unfold handleBulkChunk
  rw [if_neg (by omega), if_neg h.1]
  dsimp only
  split_ifs with hmore
  · right
    rcases BulkRx.begin_takes h with hunseen | hdone
    · simp [BulkRx.put, hunseen]
    · by_cases hseen : (rx.begin f.transferId f.totalChunks).seen f.chunkSeq = true
      · rw [BulkRx.put, if_pos hseen] at hmore
        omega
      · simp [BulkRx.put, hseen]
  · exact .inl (List.cons_ne_nil _ _)

structure Inbound.SameHeader (f g : Inbound) : Prop where
  len : g.len = f.len
  transferId : g.transferId = f.transferId
  chunkSeq : g.chunkSeq = f.chunkSeq
  totalChunks : g.totalChunks = f.totalChunks
  n : g.n = f.n

section SameHeader
variable {g : Inbound} (h : f.SameHeader g)
include h

theorem Inbound.SameHeader.overLimits : g.OverLimits ↔ f.OverLimits := by
  rw [OverLimits, OverLimits, h.chunkSeq, h.totalChunks, h.n]

theorem Inbound.SameHeader.takes : rx.Takes g ↔ rx.Takes f := by
  rw [BulkRx.Takes, BulkRx.Takes, h.overLimits, h.chunkSeq, h.transferId]

theorem Inbound.SameHeader.handle (hdata : g.chunkData = f.chunkData) :
    handleBulkChunk rx buf g = handleBulkChunk rx buf f := by
  simp only [handleBulkChunk, h.len, h.transferId, h.chunkSeq, h.totalChunks, hdata, h.overLimits]

end SameHeader

theorem sameHeader_of_agree (h : Agree f.len f.mem mem) (hlen : bulkWrapperHeaderSize ≤ f.len) :
    f.SameHeader ⟨mem, f.len⟩ := by
  have hsize : bulkWrapperHeaderSize = 14 := rfl
  exact ⟨rfl, (h.be32At (by omega)).symm, congrArg UInt32.toNat (h.be32At (by omega)).symm,
    congrArg UInt32.toNat (h.be32At (by omega)).symm, congrArg UInt16.toNat (h.be16At (by omega)).symm⟩

/-- What lies behind the frame does not matter, unless the chunk claims it and is taken. -/
theorem handleBulkChunk_agree (h : Agree f.len f.mem mem) (hsafe : ¬(f.Overlong ∧ rx.Takes f)) :
    handleBulkChunk rx buf ⟨mem, f.len⟩ = handleBulkChunk rx buf f := by
  by_cases hlen : f.len < bulkWrapperHeaderSize
  · simp only [handleBulkChunk, if_pos hlen]
  · have hlen := Nat.le_of_not_lt hlen
    have hsame := sameHeader_of_agree h hlen
    by_cases hfit : bulkWrapperHeaderSize + f.n ≤ f.len
    · apply hsame.handle
      rw [Inbound.chunkData, hsame.n]
      exact (h.load hfit).symm
    · -- the bytes differ, but the chunk is dropped or already there
      have hnot : ¬rx.Takes f := fun ht => hsafe ⟨⟨hlen, by omega⟩, ht⟩
      rw [handleBulkChunk_ignored hlen hnot,
        handleBulkChunk_ignored (f := ⟨mem, f.len⟩) hlen (hsame.takes.not.mpr hnot),
        hsame.transferId, hsame.totalChunks]
      simp only [hsame.overLimits]

end Chunk

/-! ## Deliveries -/

theorem handleDeliver_agree {buf : Inbound} {mem : Mem} (h : Agree buf.len buf.mem mem) :
    match handleDeliver buf, handleDeliver ⟨mem, buf.len⟩ with
    | none, none => True
    | some d, some d' => d'.apid = d.apid ∧ d'.data.len = d.data.len ∧
        Agree d.data.len d.data.mem d'.data.mem
    | _, _ => False := by
  by_cases hshort : buf.len < netIpcHdrSize
  · simp [handleDeliver, hshort]
  · have hhdr : mem.load 0 netIpcHdrSize = buf.mem.load 0 netIpcHdrSize :=
      (h.load (by omega)).symm
    by_cases hfits : (NetIpcHdr.decode (buf.mem.load 0 netIpcHdrSize)).Fits buf.len
    · simp only [handleDeliver, hshort, hhdr, hfits, not_true, if_false]
      cases RxApid.ofCode? (NetIpcHdr.decode (buf.mem.load 0 netIpcHdrSize)).apid with
      | none => trivial
      | some a => exact ⟨rfl, rfl, h.advance hfits⟩
    · simp [handleDeliver, hshort, hhdr, hfits]

namespace PayloadApp

def rx? (a : PayloadApp) : RxApid → Option BulkRx
  | .experimentTable => some a.expTableRx
  | .controlAlgorithm => some a.ctrlAlgoRx
  | _ => none

def TakesOverlong (a : PayloadApp) (buf : Inbound) : Prop :=
  ∃ d rx, handleDeliver buf = some d ∧ a.rx? d.apid = some rx ∧ d.data.Overlong ∧ rx.Takes d.data

/-- What lies behind the message makes no difference to anything the delivery does. -/
def Isolated (a : PayloadApp) (buf : Inbound) (padding : UInt16) : Prop :=
  ∀ mem : Mem, Agree buf.len buf.mem mem →
    a.deliver ⟨mem, buf.len⟩ padding = a.deliver buf padding

/-- A chunk that claims more than its frame holds is not stored and not acknowledged:
it begins or ends a session at most. -/
def IgnoresOverlong (a : PayloadApp) (buf : Inbound) (padding : UInt16) : Prop :=
  ∀ d rx, handleDeliver buf = some d → a.rx? d.apid = some rx → d.data.Overlong →
    (a.deliver buf padding).sent = [] ∧ ∃ active, (a.deliver buf padding).app.rx? d.apid =
      some { rx.begin d.data.transferId d.data.totalChunks with active := active }

/-- A delivery to an inbound transfer is a call of `handle_bulk_chunk`. -/
theorem handle_chunk {a : PayloadApp} {d : Delivery} {rx : BulkRx} (h : a.rx? d.apid = some rx)
    (padding : UInt16) :
    (a.handle d padding).sent =
        (handleBulkChunk rx a.assembleBuf d.data).sent.map .toNetwork ∧
      (a.handle d padding).app.rx? d.apid = some (handleBulkChunk rx a.assembleBuf d.data).rx := by
  obtain ⟨apid, f⟩ := d
  cases apid <;> cases h <;> exact ⟨rfl, rfl⟩

theorem handle_agree {a : PayloadApp} {d d' : Delivery} (hapid : d'.apid = d.apid)
    (hlen : d'.data.len = d.data.len) (h : Agree d.data.len d.data.mem d'.data.mem)
    (hsafe : ∀ rx, a.rx? d.apid = some rx → ¬(d.data.Overlong ∧ rx.Takes d.data))
    (padding : UInt16) : a.handle d' padding = a.handle d padding := by
  obtain ⟨apid, f⟩ := d
  obtain ⟨apid', mem, len⟩ := d'
  obtain rfl : apid' = apid := hapid
  obtain rfl : len = f.len := hlen
  cases apid' with
  | payloadCommand => simp only [handle, handlePayloadCommand_agree h]
  | adcsTelemetry => simp only [handle, handleAdcsTelemetry_agree h]
  | adcsResponse => simp only [handle, handleAdcsResponse_agree h]
  | experimentTable => simp only [handle, bulkReaction, handleBulkChunk_agree h (hsafe _ rfl)]
  | controlAlgorithm => simp only [handle, bulkReaction, handleBulkChunk_agree h (hsafe _ rfl)]
  | bulkDataResponse => simp only [handle, handleBulkAckResponse_agree h]

theorem isolated_of_safe {a : PayloadApp} {buf : Inbound} (padding : UInt16)
    (hsafe : ¬a.TakesOverlong buf) : a.Isolated buf padding := by
  intro mem h
  have hcall := handleDeliver_agree h
  unfold deliver
  rcases hd : handleDeliver buf with _ | d <;> rcases hd' : handleDeliver ⟨mem, buf.len⟩ with _ | d'
  · rfl
  · simp [hd, hd'] at hcall
  · simp [hd, hd'] at hcall
  · rw [hd, hd'] at hcall
    obtain ⟨hapid, hlen, hdata⟩ := hcall
    exact handle_agree hapid hlen hdata (fun rx hrx hbad => hsafe ⟨d, rx, hd, hrx, hbad⟩) padding

theorem ignoresOverlong_of_safe {a : PayloadApp} {buf : Inbound} (padding : UInt16)
    (hsafe : ¬a.TakesOverlong buf) : a.IgnoresOverlong buf padding := by
  intro d rx hd hrx hover
  have hnot : ¬rx.Takes d.data := fun ht => hsafe ⟨d, rx, hd, hrx, hover, ht⟩
  obtain ⟨hsent, hafter⟩ := handle_chunk hrx padding
  rw [handleBulkChunk_ignored hover.1 hnot] at hsent hafter
  have hdeliver : a.deliver buf padding = a.handle d padding := by rw [deliver, hd]
  rw [hdeliver, hsent, hafter]
  refine ⟨rfl, ?_⟩
  split_ifs
  · exact ⟨false, rfl⟩
  · exact ⟨_, rfl⟩

/-- Deliveries are interpreted from their own bytes exactly when no overlong chunk is taken. -/
theorem delivery_isolated_iff (a : PayloadApp) (buf : Inbound) (padding : UInt16) :
    (a.Isolated buf padding ∧ a.IgnoresOverlong buf padding) ↔ ¬a.TakesOverlong buf := by
  constructor
  · rintro ⟨-, hignores⟩ ⟨d, rx, hd, hrx, hover, htakes⟩
    obtain ⟨hsent, active, hafter⟩ := hignores d rx hd hrx hover
    have hdeliver : a.deliver buf padding = a.handle d padding := by rw [deliver, hd]
    obtain ⟨hsent', hafter'⟩ := handle_chunk hrx padding
    rw [hdeliver] at hsent hafter
    rw [hsent] at hsent'
    rw [hafter] at hafter'
    -- it was stored or acknowledged, and the two facts above say that it was neither
    rcases handleBulkChunk_taken a.assembleBuf hover.1 htakes with hack | hstored
    · exact hack (List.map_eq_nil_iff.mp hsent'.symm)
    · rw [← Option.some.inj hafter'] at hstored
      exact hstored rfl
  · exact fun hsafe => ⟨isolated_of_safe padding hsafe, ignoresOverlong_of_safe padding hsafe⟩

/-- The header of an experiment table of one chunk, in a message that ends behind it; the
chunk claims four bytes, which are whatever the buffer holds there. -/
def staleBuffer (stale : List UInt8) : Inbound :=
  ⟨fun k => ((⟨0x033, 14⟩ : NetIpcHdr).encode ++
    (be32 1 ++ (be32 0 ++ (be32 1 ++ (be16 4 ++ stale))))).getD k 0, 18⟩

/-- Old bytes of the receive buffer are stored, assembled and acknowledged. -/
theorem delivery_takes_stale :
    let a : PayloadApp := { sim := .boot }
    let out := a.deliver (staleBuffer [1, 2, 3, 4]) 0
    let out' := a.deliver (staleBuffer [5, 6, 7, 8]) 0
    (∀ k < 18, (staleBuffer [1, 2, 3, 4]).mem k = (staleBuffer [5, 6, 7, 8]).mem k) ∧
      out.app.assembleBuf.load 0 4 = [1, 2, 3, 4] ∧ out'.app.assembleBuf.load 0 4 = [5, 6, 7, 8] ∧
      out.sent = [.toNetwork (ackMessage 1)] ∧ out'.sent = [.toNetwork (ackMessage 1)] ∧
      ¬a.Isolated (staleBuffer [1, 2, 3, 4]) 0 := by
  intro a out out'
  have hagree : ∀ k < 18, (staleBuffer [1, 2, 3, 4]).mem k = (staleBuffer [5, 6, 7, 8]).mem k := by
    decide
  have hout : out.app.assembleBuf.load 0 4 = [1, 2, 3, 4] := by decide +kernel
  have hout' : out'.app.assembleBuf.load 0 4 = [5, 6, 7, 8] := by decide +kernel
  refine ⟨hagree, hout, hout', by decide +kernel, by decide +kernel, fun hiso => ?_⟩
  have heq : out' = out := hiso _ hagree
  rw [heq, hout] at hout'
  exact absurd hout' (by decide)

end PayloadApp

end PiDaemon.App
