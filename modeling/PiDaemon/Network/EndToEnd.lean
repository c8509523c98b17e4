import PiDaemon.Network.Loop
import PiDaemon.Network.Transparency

/-!
# The OBC, the daemon and its clients over whole runs

The event loop of the network process behind one slot of the server, and a client behind
another. Bytes of the serial port become frames, frames become messages of the bus, and
messages become bytes again; every stage may be ahead of the next one by any amount, and
each one cuts its bytes as it likes. Messages come out whole and in the order in which they
went in.
-/

namespace PiDaemon.Network

open Base Proto Client Server

/-! ## What the OBC writes -/

def obcBytes (link : PayloadLink) (ms : List LinkMessage) : List UInt8 :=
  ms.flatMap fun m => link.encode (buildBody m.1 m.2)

def forApp (m : LinkMessage) : Option (RxApid × List UInt8) :=
  (RxApid.ofCode? m.1).map fun a => (a, m.2)

section Decoder
variable {link : PayloadLink} (hbe : link.BigEndian) (dec : LinkDecoder link)
include hbe

theorem accepted_buildBody {m : LinkMessage} (hlen : m.2.length ≤ netIpcMaxData) :
    accepted link (.ok (buildBody m.1 m.2)) = forApp m := by
  have hparse : parseBody link (buildBody m.1 m.2) = some m :=
    parseBody_buildBody hbe (hlen.trans_lt (by decide))
  rw [accepted, hparse]
  rfl

theorem messages_obcBytes {ms : List LinkMessage} (hms : ∀ m ∈ ms, m.2.length ≤ netIpcMaxData) :
    ∀ {c : dec.Ctx}, dec.AtBoundary c → dec.messages c (obcBytes link ms) = ms.filterMap forApp := by
  induction ms with
  | nil => exact fun _ => rfl
  | cons m ms ih =>
    intro c hc
    have hlen := hms m (List.mem_cons_self ..)
    obtain ⟨hmin, hmax⟩ := legal_buildBody m.1 (hlen.trans (by decide))
    obtain ⟨hnext, k, hresults⟩ := dec.feed_frame c (buildBody m.1 m.2) hc hmin hmax
    have hfirst : dec.messages c (link.encode (buildBody m.1 m.2)) = (forApp m).toList := by
      have hnone : (List.replicate k DecodeResult.needMore).filterMap (accepted link) = [] :=
        List.filterMap_eq_nil_iff.mpr fun r hr => by rw [List.eq_of_mem_replicate hr]; rfl
      rw [LinkDecoder.messages, hresults, List.filterMap_append, hnone, List.nil_append,
        List.filterMap_cons, accepted_buildBody hbe hlen]
      cases forApp m <;> rfl
    rw [obcBytes, List.flatMap_cons, LinkDecoder.messages_append, hfirst]
    change _ ++ dec.messages _ (obcBytes link ms) = _
    rw [ih (fun m' hm' => hms m' (List.mem_cons_of_mem _ hm')) hnext, List.filterMap_cons]
    cases forApp m <;> rfl

theorem messages_of_prefix {ms : List LinkMessage} (hms : ∀ m ∈ ms, m.2.length ≤ netIpcMaxData)
    {c : dec.Ctx} (hc : dec.AtBoundary c) {bytes : List UInt8} (hpre : bytes <+: obcBytes link ms) :
    dec.messages c bytes <+: ms.filterMap forApp := by
  obtain ⟨rest, hrest⟩ := hpre
  rw [← messages_obcBytes hbe dec hms hc, ← hrest, LinkDecoder.messages_append]
  exact List.prefix_append _ _

end Decoder

theorem forApp_short {ms : List LinkMessage} (hms : ∀ m ∈ ms, m.2.length ≤ netIpcMaxData) :
    ∀ m ∈ ms.filterMap forApp, m.2.length ≤ netIpcMaxData := by
  intro m hm
  obtain ⟨m', hm', happ⟩ := List.mem_filterMap.mp hm
  obtain ⟨a, -, rfl⟩ := Option.map_eq_some_iff.mp happ
  exact hms m' hm'

theorem forwardFrame_short {ms : List (RxApid × List UInt8)}
    (hms : ∀ m ∈ ms, m.2.length ≤ netIpcMaxData) :
    ∀ f ∈ ms.map forwardFrame, f.payload.length ≤ maxMsgPayload := by
  intro f hf
  obtain ⟨m, hm, rfl⟩ := List.mem_map.mp hf
  have hlen := hms m hm
  rw [forwardFrame, sendFrame, List.length_append, length_nameBody, length_netIpcBytes]
  simp only [nameMax, netIpcHdrSize, netIpcMaxData, maxMsgPayload] at *
  omega

/-! ## The network process behind its slot -/

section Bridge
variable {link : PayloadLink} {dec : LinkDecoder link} {b : Boot} {w w' : World} {i : Slot}

/-- The network process `n` is behind slot `i`, which is registered in `w` and still open in
`w'`. In `w` it has written what has been handled and read what has been queued, and by the
time of `w'` it can read no more than the server has sent. -/
structure Behind (w w' : World) (i : Slot) (n : Node dec) : Prop where
  routable : w.Routable i
  stays : Stays w w' i
  opened : (w'.conn i).shouldClose = false
  sound : n.bridge.daemon.Sound
  writes : Writable false n.bridge.serialWrites
  written : Encodes (w.peer i).handled n.bridge.daemon.outgoing
  readable : SentSince w w' i n.bridge.daemon.incoming

/-- What the bridge has taken from the serial port is queued for the application: a beginning
of the messages of the OBC, and all of them once the bridge has taken all bytes and the server
has handled all frames of the bridge. -/
theorem Behind.queued {n : Node dec} (hn : Behind w w' i n) (hbe : link.BigEndian)
    (allowed : UInt16 → Bool) (h : Reachable b w) (hsteps : Steps w w') {a : Slot}
    (hat : Attached w i a) (ha' : Stays w w' a) (hboundary : dec.AtBoundary n.decoder)
    {ms : List LinkMessage} (hms : ∀ m ∈ ms, m.2.length ≤ netIpcMaxData) {as : List Wake}
    (hserial : as.flatMap Wake.bytes <+: obcBytes link ms) :
    ∃ n', n.run allowed as = some n' ∧ ((w'.peer i).stream = n'.bridge.daemon.outgoing →
      ∃ queued, (w'.peer a).queued = (w.peer a).queued ++ queued ∧
        queued.filterMap (deliveredFrom (w.conn i).name) <+: (ms.filterMap forApp).map netIpcBytes ∧
        (as.flatMap Wake.bytes = obcBytes link ms → (w'.clients i).ahead = [] →
          queued.filterMap (deliveredFrom (w.conn i).name) =
            (ms.filterMap forApp).map netIpcBytes)) := by
  obtain ⟨gs, whole, tail, -, hlegible, htail, hin, -⟩ :=
    incoming_frames h hsteps hn.routable hn.stays hn.opened hn.readable
  have hshort : ∀ m ∈ ms.filterMap forApp, m.2.length ≤ netIpcMaxData := forApp_short hms
  have hpre := messages_of_prefix hbe dec hms hboundary hserial
  rcases (Progress.start allowed hn.sound hn.writes hin).run
    (fun g hg => hlegible g (List.mem_of_mem_take hg)) htail as with
    ⟨⟨m, hm, hlong⟩, -⟩ | ⟨-, n', hrun, hn'⟩
  · exact absurd (hshort m (hpre.subset hm)) (Nat.not_le.mpr hlong)
  refine ⟨n', hrun, fun hstream => ?_⟩
  have hwritten : Encodes ((w.peer i).handled ++
      (dec.messages n.decoder (as.flatMap Wake.bytes)).map forwardFrame) (w'.peer i).stream := by
    rw [hstream]
    exact hn'.outgoing.encodes hn.written
  obtain ⟨queued, hqueued, hsome, hall⟩ := queued_of_written h hsteps hat.network hn.stays
    (forwardFrame_short fun m hm => hshort m (hpre.subset hm)) hwritten hat.app ha'
  have hsaid (l : List (RxApid × List UInt8)) :
      (l.map forwardFrame).filterMap (sentTo (w.conn a).name) = l.map netIpcBytes := by
    rw [List.filterMap_map, ← List.filterMap_eq_map]
    exact List.filterMap_congr fun m _ => sentTo_sendFrame (hat.appName.trans rfl) (netIpcBytes m)
  rw [hsaid] at hsome hall
  refine ⟨queued, hqueued, hsome.trans (hpre.map _), fun htaken hahead => ?_⟩
  rw [hall hahead, htaken, messages_obcBytes hbe dec hms hboundary]

/-- What a message of the daemon puts on the link, if anything, with the name field of the
client it comes from. -/
def partOf (allowed : UInt16 → Bool) (m : Message) : Option (List UInt8 × LinkMessage) :=
  if m.type = MsgType.deliver.code then (outbound allowed m.payload).map fun x => (m.src, x)
  else none

theorem flatMap_linkBytes (link : PayloadLink) (allowed : UInt16 → Bool) (ms : List Message) :
    ms.flatMap (linkBytes link allowed) =
      (ms.filterMap (partOf allowed)).flatMap fun p => linkFrame link p.2 := by
  induction ms with
  | nil => rfl
  | cons m ms ih =>
    rw [List.flatMap_cons, ih, List.filterMap_cons, linkBytes, partOf, deliveryBytes]
    cases outbound allowed m.payload <;> split_ifs <;> simp

/-- What the bridge has written to the serial port are the messages it has read of those
queued for it. -/
theorem Behind.serial {n n' : Node dec} (hn : Behind w w' i n) {allowed : UInt16 → Bool}
    (h : Reachable b w) (hsteps : Steps w w') {as : List Wake} (hrun : n.run allowed as = some n') :
    ∃ queued read, (w'.peer i).queued = (w.peer i).queued ++ queued ∧ read <+: queued ∧
      ((w'.conn i).tx.pending = [] → queued.length ≤ (as.map Wake.recvs).sum → read = queued) ∧
      n'.bridge.serial = n.bridge.serial ++
        ((read.map messageOf).filterMap (partOf allowed)).flatMap fun p => linkFrame link p.2 := by
  obtain ⟨queued, whole, tail, hqueued, hlegible, htail, hin, hpending⟩ :=
    incoming_frames h hsteps hn.routable hn.stays hn.opened hn.readable
  rcases (Progress.start allowed hn.sound hn.writes hin).run
    (fun g hg => hlegible g (List.mem_of_mem_take hg)) htail as with ⟨-, hnone⟩ | ⟨-, n₁, hrun₁, hn₁⟩
  · cases hnone.symm.trans hrun
  obtain rfl : n₁ = n' := Option.some.inj (hrun₁.symm.trans hrun)
  have hserial := hn₁.serial
  rw [Nat.zero_add, flatMap_linkBytes] at hserial
  refine ⟨queued, _, hqueued, ?_, fun hnil hlen => ?_, hserial⟩
  · exact (List.take_prefix _ _).trans (List.take_prefix _ _)
  · rw [hpending hnil, List.take_of_length_le hlen]

end Bridge

/-! ## A ping and its answer -/

end PiDaemon.Network
