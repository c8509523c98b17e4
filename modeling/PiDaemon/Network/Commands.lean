import PiDaemon.App.Loop
import PiDaemon.Network.EndToEnd

/-!
# Commands of the OBC and their responses

All four programs at once: the OBC writes frames to the serial port, the network process turns
them into messages, the daemon relays them to the payload application, whose main loop reads
and answers them between its ticks, and the answers go back the same way. The responses on the
serial link are the answers to the commands, one each, in the order of the commands.
-/

namespace PiDaemon.Network

open Base Proto Client Server App

/-! ## The application on its connection -/

def reads (ts : List Round) : ℕ := ts.countP fun t => t.polled = .ready true

/-- What the application has come to from `l₀` when it has read `k` of the frames `gs`, behind
which the stream is cut off in `tail`, and has sent `os`. -/
structure Heard (cpuTemp : ℕ → UInt32) (l₀ : MainLoop) (gs : List Frame) (tail : List UInt8) (k : ℕ)
    (os : List Output) (l : MainLoop) : Prop where
  reacts : Reacts cpuTemp l₀.app ((gs.take k).map messageOf) l.app os
  sound : l.socket.Sound
  enough : k ≤ gs.length
  incoming : Begins (gs.drop k) tail l.socket.incoming
  outgoing : Extends l₀.socket.outgoing (os.filterMap Output.frame?) l.socket.outgoing
  fits : ∀ o ∈ os, o.Fits

section Heard
variable {cpuTemp : ℕ → UInt32} {l₀ l l' : MainLoop} {gs : List Frame} {tail : List UInt8} {k : ℕ}
  {os : List Output} {t : Round}

theorem Heard.send (h : Heard cpuTemp l₀ gs tail k os l) {l₁ : MainLoop} {app : PayloadApp}
    {more : List Output} (hsend : l₁.send app more = some l') (hs : l₁.socket.Sound)
    (hout : l₁.socket.outgoing = l.socket.outgoing) (hfits : ∀ o ∈ more, o.Fits) :
    l'.app = app ∧ l'.socket.Sound ∧ l'.socket.incoming = l₁.socket.incoming ∧
      Extends l₀.socket.outgoing ((os ++ more).filterMap Output.frame?) l'.socket.outgoing ∧
      ∀ o ∈ os ++ more, o.Fits := by
  obtain ⟨s', hs', rfl⟩ := MainLoop.send_eq_some hsend
  obtain ⟨s'', hsound, hin, hwritten, htransmit⟩ := foldlM_transmit_spec hfits hs
  obtain rfl : s'' = s' := Option.some.inj (htransmit.symm.trans hs')
  refine ⟨rfl, hsound, hin, ?_, ?_⟩
  · rw [List.filterMap_append]
    exact h.outgoing.trans (hout ▸ hwritten)
  · intro o ho
    exact (List.mem_append.mp ho).elim (h.fits o) (hfits o)

/-- A frame that is cut off cannot be read, so that there is a whole one. -/
theorem Heard.lt_length (h : Heard cpuTemp l₀ gs tail k os l) (htail : Cut tail) {s : Socket}
    {m : Message} (hrecv : daemonClientRecv l.socket maxMsgPayload = (s, .ok m)) :
    k < gs.length := by
  by_contra hge
  obtain ⟨g, padding, hg, hpre, hshort⟩ := htail
  have hin := h.incoming
  rw [List.drop_of_length_le (by omega)] at hin
  have hin : l.socket.incoming = tail := hin.of_nil
  obtain ⟨s', -, -, -, hfail⟩ :=
    daemonClientRecv_cut h.sound hg (hin ▸ hpre) (hin ▸ hshort) maxMsgPayload
  cases (Prod.mk.inj (hfail.symm.trans hrecv)).2

theorem Heard.receive (h : Heard cpuTemp l₀ gs tail k os l) (hgs : ∀ g ∈ gs, Legible g)
    (htail : Cut tail) {s : Socket} {m : Message}
    (hrecv : daemonClientRecv l.socket maxMsgPayload = (s, .ok m))
    (hreceive : { l with socket := s }.receive t m = some l') :
    ∃ os', Heard cpuTemp l₀ gs tail (k + 1) os' l' := by
  have hlt := h.lt_length htail hrecv
  have htake : (gs.take (k + 1)).map messageOf =
      (gs.take k).map messageOf ++ [messageOf gs[k]] := by
    rw [List.take_succ_eq_append_getElem hlt, List.map_append]
    rfl
  obtain ⟨padding, rest, hin, hrest⟩ :=
    Begins.uncons (List.drop_eq_getElem_cons hlt ▸ h.incoming)
  obtain ⟨s', hs', rfl, hout, hread⟩ :=
    daemonClientRecv_legible h.sound (hgs _ (List.getElem_mem hlt)) hin
  obtain ⟨rfl, hm⟩ := Prod.mk.inj (hread.symm.trans hrecv)
  obtain rfl : messageOf gs[k] = m := Except.ok.inj hm
  unfold MainLoop.receive at hreceive
  split_ifs at hreceive with htype
  · obtain ⟨happ, hsound, hin', hout', hfits⟩ :=
      h.send hreceive hs' hout (l.app.deliver_fits _ t.padding)
    refine ⟨_, ⟨?_, hsound, hlt, hin' ▸ hrest, hout', hfits⟩⟩
    rw [htake, happ]
    exact h.reacts.deliver t.stack t.padding htype
  · cases hreceive
    refine ⟨os, ⟨?_, hs', hlt, hrest, hout ▸ h.outgoing, h.fits⟩⟩
    rw [htake]
    exact h.reacts.ignore htype

theorem Heard.round (h : Heard cpuTemp l₀ gs tail k os l) (hgs : ∀ g ∈ gs, Legible g)
    (htail : Cut tail) (hround : l.round cpuTemp t = some (l', true)) :
    ∃ os', Heard cpuTemp l₀ gs tail (k + reads [t]) os' l' := by
  rcases MainLoop.round_cases hround with ⟨hpolled, rfl⟩ | ⟨s, m, hpolled, hrecv, hreceive⟩ |
    ⟨hpolled, htick⟩
  · have hreads : reads [t] = 0 := by simp [reads, hpolled]
    exact ⟨os, hreads ▸ h⟩
  · have hreads : reads [t] = 1 := by simp [reads, hpolled]
    rw [hreads]
    exact h.receive hgs htail hrecv hreceive
  · have hreads : reads [t] = 0 := by
      rcases hpolled with hpolled | hpolled <;> simp [reads, hpolled]
    rw [hreads]
    obtain ⟨happ, hsound, hin, hout, hfits⟩ :=
      h.send htick h.sound rfl (l.app.onTick_fits cpuTemp t.stack)
    refine ⟨_, ⟨?_, hsound, h.enough, hin ▸ h.incoming, hout, hfits⟩⟩
    rw [happ]
    exact h.reacts.tick t.stack

/-- Along a run the application reads the frames one by one, reacts to them and writes what it
sends. -/
theorem heard_of_runs {ts : List Round} (hruns : MainLoop.Runs cpuTemp l₀ ts l)
    (hs : l₀.socket.Sound) (hgs : ∀ g ∈ gs, Legible g) (htail : Cut tail)
    (hin : Begins gs tail l₀.socket.incoming) :
    ∃ os, Heard cpuTemp l₀ gs tail (reads ts) os l := by
  induction hruns with
  | start => exact ⟨[], .start, hs, Nat.zero_le _, hin, .refl _, by simp⟩
  | round _ hround ih =>
    obtain ⟨os, h⟩ := ih
    obtain ⟨os', h'⟩ := h.round hgs htail hround
    refine ⟨os', ?_⟩
    rw [reads, List.countP_append]
    exact h'

end Heard

/-! ## Answers -/

def delivered (m : Message) : Option (List UInt8) :=
  if m.type = MsgType.deliver.code then some m.payload else none

section Answers
variable {cpuTemp : ℕ → UInt32} {a₀ a : PayloadApp}

theorem deliver_netIpcBytes {x : RxApid × List UInt8} (hx : x.2.length ≤ netIpcMaxData) (stack : Mem)
    (padding : UInt16) : ∃ d : Delivery,
      a.deliver ⟨stack.store 0 (netIpcBytes x), (netIpcBytes x).length⟩ padding = a.handle d padding ∧
      d.apid = x.1 ∧ d.data.len = x.2.length ∧ d.data.mem.load 0 x.2.length = x.2 := by
  have hlen : (UInt16.ofNat x.2.length).toNat = x.2.length := by
    rw [UInt16.toNat_ofNat', Nat.mod_eq_of_lt (hx.trans_lt (by decide))]
  have hload : (stack.store 0 (netIpcBytes x)).load 0 (netIpcBytes x).length = netIpcBytes x :=
    Mem.load_store_self _ _ _
  obtain ⟨d, hd, hapid, hdlen, hdata⟩ := handleDeliver_spec rfl hlen hload
  refine ⟨d, ?_, hapid, hdlen, hdata⟩
  unfold PayloadApp.deliver netIpcBytes
  rw [netIpcBytes] at hd
  rw [hd]

end Answers

/-! ## What the application has written, as it comes out on the link -/

section Link
variable {link : PayloadLink} {dec : LinkDecoder link} {b : Boot} {w w' : World} {i a : Slot}
  {cpuTemp : ℕ → UInt32} {l l' : MainLoop} {ts : List Round}

/-- What the application has read and written by the time of `w'`: a beginning of the frames
queued for it, and what it sends in reaction to them. -/
theorem ClientBehind.heard (hl : ClientBehind w w' a l.socket) (h : Reachable b w) (hsteps : Steps w w')
    (hruns : MainLoop.Runs cpuTemp l ts l') : ∃ queued read os,
      (w'.peer a).queued = (w.peer a).queued ++ queued ∧ read <+: queued ∧
      ((w'.conn a).tx.pending = [] → queued.length ≤ reads ts → read = queued) ∧
      Reacts cpuTemp l.app (read.map messageOf) l'.app os ∧ (∀ o ∈ os, o.Fits) ∧
      Encodes ((w.peer a).handled ++ os.filterMap Output.frame?) l'.socket.outgoing := by
  obtain ⟨queued, whole, tail, hqueued, hlegible, htail, hin, hpending⟩ :=
    incoming_frames h hsteps hl.routable hl.stays hl.opened hl.readable
  obtain ⟨os, hheard⟩ := heard_of_runs hruns hl.sound
    (fun g hg => hlegible g (List.mem_of_mem_take hg)) htail hin
  refine ⟨queued, _, os, hqueued, ?_, fun hnil hlen => ?_, hheard.reacts, hheard.fits, ?_⟩
  · exact (List.take_prefix _ _).trans (List.take_prefix _ _)
  · rw [hpending hnil, List.take_of_length_le hlen]
  · exact hheard.outgoing.encodes hl.written

end Link

/-! ## A ping there and back -/

end PiDaemon.Network
