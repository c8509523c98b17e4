import PiDaemon.Server.Readiness

/-!
# Descriptors

Who holds which descriptor: `accept_new_connections`, `close_client`, `ipc_server_service` and
`ipc_server_destroy` once more, next to the set of descriptors that are open. Closing one that
is not open fails. The kernel is assumed not to hand out a descriptor that is open; the numbers
of closed ones come back.
-/

namespace PiDaemon.Server

open Base Proto Store

structure Held where
  world : World
  fds : Finset ℤ

def closeFd (fds : Finset ℤ) (fd : ℤ) : Option (Finset ℤ) :=
  if fd ∈ fds then some (fds.erase fd) else none

namespace Held

/-- `accept_new_connections`: a connection for which there is no slot is closed again. -/
def acceptNewConnections : Held → List AcceptChoice → Option Held
  | h, [] => some h
  | h, .intr :: rest => h.acceptNewConnections rest
  | h, .fail :: _ => some h
  | h, .conn fd stream :: rest =>
    match h.world.freeSlot with
    | none => (closeFd (insert fd h.fds) fd).bind fun fds => acceptNewConnections ⟨h.world, fds⟩ rest
    | some i => acceptNewConnections ⟨h.world.accept i fd stream, insert fd h.fds⟩ rest

def Fresh : Held → List AcceptChoice → Prop
  | _, [] => True
  | h, .intr :: rest => h.Fresh rest
  | _, .fail :: _ => True
  | h, .conn fd stream :: rest => fd ∉ h.fds ∧
    match h.world.freeSlot with
    | none => h.Fresh rest
    | some i => Fresh ⟨h.world.accept i fd stream, insert fd h.fds⟩ rest

/-- `close_client`. -/
def closeClient (h : Held) (i : Slot) : Option Held :=
  (closeFd h.fds (h.world.conn i).fd).map fun fds => ⟨h.world.closeClient i, fds⟩

def finish (h : Held) (i : Slot) : Option Held :=
  let h : Held := if (h.world.conn i).shouldClose then h else ⟨h.world.flush i, h.fds⟩
  if (h.world.conn i).shouldClose then h.closeClient i else some h

def serveSlot (h : Held) (i : Slot) (p : PollFd) : Option Held :=
  finish ⟨((h.world.markPoll i).hangUp i p.revents).readAndParse i p, h.fds⟩ i

def serveEntry (h : Held) (entry : Option Slot × PollFd) : Option Held :=
  match entry.1 with
  | none => some h
  | some i =>
    if (h.world.conn i).inUse = false ∨ (h.world.conn i).fd ≠ entry.2.fd then some h
    else h.serveSlot i entry.2

/-- `ipc_server_service`. -/
def service (h : Held) (fds : List PollFd) (accepts : List AcceptChoice) : Option Held :=
  match fds with
  | [] => some h
  | listener :: rest =>
    (if listener.revents.pollin || listener.revents.pollerr then
      h.acceptNewConnections accepts else some h).bind fun h =>
        (h.world.slotMap.tail.zip rest).foldlM serveEntry h

/-- `ipc_server_collect_pollfds`. -/
def collected (h : Held) : Held := ⟨h.world.collected, h.fds⟩

def round (h : Held) (ready : List World.Ready) (accepts : List AcceptChoice) : Option Held :=
  h.collected.service (h.world.polled ready) accepts

/-- The loop of `ipc_server_destroy` over some slots. -/
def closeSlots (w : World) (fds : Finset ℤ) (is : List Slot) : Option (Finset ℤ) :=
  is.foldlM (fun fds i => if (w.conn i).inUse then closeFd fds (w.conn i).fd else some fds) fds

/-- `ipc_server_destroy`: the descriptors that are open then. -/
def destroy (h : Held) : Option (Finset ℤ) :=
  (closeSlots h.world h.fds (List.finRange maxClients)).bind fun fds => closeFd fds h.world.listenFd

end Held

/-- The daemon between two rounds of its loop, with its descriptors. -/
inductive HeldRun (b : Boot) : Held → Prop
  | boot : HeldRun b ⟨b.world, {b.listenFd}⟩
  | round {h h' : Held} {ready : List World.Ready} {accepts : List AcceptChoice} : HeldRun b h →
      h.collected.Fresh accepts → h.round ready accepts = some h' → HeldRun b h'

/-! ## What leaves the descriptors alone -/

/-- The slots in use, and their descriptors, are the same; the others are untouched. -/
structure SameFds (w w' : World) : Prop where
  listenFd : w'.listenFd = w.listenFd
  fd (k : Slot) : (w'.conn k).fd = (w.conn k).fd
  inUse (k : Slot) : (w'.conn k).inUse = (w.conn k).inUse
  unused (k : Slot) : (w.conn k).inUse = false → w'.clients k = w.clients k

namespace SameFds

variable {w w₁ w₂ : World}

theorem refl (w : World) : SameFds w w := ⟨rfl, fun _ => rfl, fun _ => rfl, fun _ _ => rfl⟩

theorem trans (h : SameFds w w₁) (h' : SameFds w₁ w₂) : SameFds w w₂ where
  listenFd := h'.listenFd.trans h.listenFd
  fd k := (h'.fd k).trans (h.fd k)
  inUse k := (h'.inUse k).trans (h.inUse k)
  unused k hk := (h'.unused k ((h.inUse k).trans hk)).trans (h.unused k hk)

theorem modify {i : Slot} (hi : (w.conn i).inUse = true) {g : Endpoint → Endpoint}
    (hfd : (g (w.clients i)).conn.fd = (w.conn i).fd)
    (huse : (g (w.clients i)).conn.inUse = (w.conn i).inUse) : SameFds w (w.modify i g) := by
  refine ⟨rfl, fun k => ?_, fun k => ?_, fun k hk => ?_⟩
  all_goals simp only [World.conn, World.modify_clients]
  · split_ifs with hik
    · rw [hik]
      exact hfd
    · rfl
  · split_ifs with hik
    · rw [hik]
      exact huse
    · rfl
  · exact if_neg fun hik => by rw [hik, hi] at hk; cases hk

theorem queueSend {j : Slot} (hj : (w.conn j).inUse = true) (g : Frame) :
    SameFds w (w.queueSend j g) := by
  have hout := World.queueSend_outputOnly w j g
  refine ⟨rfl, fun k => (hout k).fd, fun k => (hout k).inUse, fun k hk => ?_⟩
  rw [World.queueSend_clients]
  exact if_neg fun hjk => by rw [hjk, hj] at hk; cases hk

theorem effect {i : Slot} (hi : (w.conn i).inUse = true) {f : Frame} {w' : World}
    (heff : World.Effect w i f w') : SameFds w w' := by
  cases heff with
  | refused e =>
    have hsend := queueSend hi (errorFrame e)
    exact hsend.trans (modify ((hsend.inUse i).trans hi) rfl rfl)
  | registered =>
    have hset : SameFds w (w.setName i (World.nameField f.payload)) := modify hi rfl rfl
    exact hset.trans (queueSend ((hset.inUse i).trans hi) _)
  | value => exact queueSend hi _
  | stored =>
    have hstore : SameFds w (w.storeState (SatelliteState.decode f.payload)) :=
      ⟨rfl, fun _ => rfl, fun _ => rfl, fun _ _ => rfl⟩
    exact hstore.trans (queueSend ((hstore.inUse i).trans hi) _)
  | delivered j _ _ _ hfind => exact queueSend (World.findClientByName_some hfind).1.1 _
  | unknown => exact queueSend hi _
  | pong => exact queueSend hi _
  | malformed => exact queueSend hi _

theorem dispatch {i : Slot} (hi : (w.conn i).inUse = true) (f : Frame) (rest : List UInt8) :
    SameFds w (w.dispatch i f rest) := by
  have hconsume : SameFds w (w.consume i f rest) := by
    refine ⟨rfl, fun k => by rw [World.consume_conn], fun k => by rw [World.consume_conn], fun k hk => ?_⟩
    rw [World.consume_clients]
    exact if_neg fun hik => by rw [hik, hi] at hk; cases hk
  exact hconsume.trans (effect ((hconsume.inUse i).trans hi) (w.dispatch_effect i f rest))

theorem parseLoop {i : Slot} (fuel : ℕ) : ∀ {w : World}, (w.conn i).inUse = true →
    SameFds w (World.parseLoop fuel w i) := by
  induction fuel with
  | zero => exact fun _ => refl _
  | succ fuel ih =>
    intro w hi
    unfold World.parseLoop
    split_ifs
    · exact refl _
    · split
      case h_1 => exact refl _
      case h_2 => exact modify hi rfl rfl
      case h_3 hdr body rest _ =>
        have hstep := dispatch hi ⟨hdrType hdr, body⟩ rest
        exact hstep.trans (ih ((hstep.inUse i).trans hi))

/-- A pass over a slot in use, up to its end. -/
theorem pass {i : Slot} (hi : (w.conn i).inUse = true) (p : PollFd) :
    SameFds w (((w.markPoll i).hangUp i p.revents).readAndParse i p) := by
  have hmark : SameFds w (w.markPoll i) := modify hi rfl rfl
  have hhang : SameFds w ((w.markPoll i).hangUp i p.revents) := by
    unfold World.hangUp
    split_ifs
    · exact hmark.trans (modify ((hmark.inUse i).trans hi) rfl rfl)
    · exact hmark
  refine hhang.trans ?_
  have hi' := (hhang.inUse i).trans hi
  unfold World.readAndParse
  split_ifs
  · have hrecv : SameFds ((w.markPoll i).hangUp i p.revents)
        (((w.markPoll i).hangUp i p.revents).modify i fun e => e.recvLoop p.recvs) := by
      refine modify hi' ?_ ?_
      · exact Endpoint.recvLoop_rule (P := fun e => e.conn.fd = _) (fun _ h => h) (fun _ _ h => h) _ _ rfl
      · exact Endpoint.recvLoop_rule (P := fun e => e.conn.inUse = _) (fun _ h => h) (fun _ _ h => h) _ _ rfl
    exact hrecv.trans (parseLoop _ ((hrecv.inUse i).trans hi'))
  · exact refl _

theorem flush {i : Slot} (hi : (w.conn i).inUse = true) : SameFds w (w.flush i) := by
  have hmod : SameFds w (w.modify i fun e => e.flush w.sends) :=
    modify hi (Endpoint.flush_conn _ _).fd (Endpoint.flush_conn _ _).inUse
  exact ⟨hmod.listenFd, hmod.fd, hmod.inUse, hmod.unused⟩

end SameFds

/-! ## Who holds what -/

/-- Every open descriptor is that of the listening socket or of one slot in use; and a slot
that is not in use holds nothing, so that setting it up anew loses nothing. -/
structure Owned (h : Held) : Prop where
  mem (fd : ℤ) : fd ∈ h.fds ↔
    fd = h.world.listenFd ∨ ∃ k, (h.world.conn k).inUse = true ∧ (h.world.conn k).fd = fd
  apart {k : Slot} : (h.world.conn k).inUse = true → (h.world.conn k).fd ≠ h.world.listenFd
  distinct {k l : Slot} : (h.world.conn k).inUse = true → (h.world.conn l).inUse = true →
    (h.world.conn k).fd = (h.world.conn l).fd → k = l
  clean {k : Slot} : (h.world.conn k).inUse = false → h.world.clients k = {}

theorem closeFd_insert {fds : Finset ℤ} {fd : ℤ} (h : fd ∉ fds) :
    closeFd (insert fd fds) fd = some fds := by
  rw [closeFd, if_pos (Finset.mem_insert_self ..), Finset.erase_insert h]

namespace Owned

variable {h : Held}

theorem boot (b : Boot) : Owned ⟨b.world, {b.listenFd}⟩ where
  mem fd := by
    rw [Finset.mem_singleton]
    exact ⟨.inl, fun hor => hor.elim id fun ⟨k, hk, _⟩ => by cases hk⟩
  apart hk := by cases hk
  distinct hk := by cases hk
  clean _ := rfl

theorem same (ho : Owned h) {w : World} (hsame : SameFds h.world w) : Owned ⟨w, h.fds⟩ where
  mem fd := by simp only [ho.mem, hsame.listenFd, hsame.fd, hsame.inUse]
  apart hk := by
    rw [hsame.fd, hsame.listenFd]
    exact ho.apart ((hsame.inUse _).symm.trans hk)
  distinct {k l} hk hl heq := by
    rw [hsame.fd, hsame.fd] at heq
    exact ho.distinct ((hsame.inUse k).symm.trans hk) ((hsame.inUse l).symm.trans hl) heq
  clean {k} hk := by
    have hk : (h.world.conn k).inUse = false := (hsame.inUse k).symm.trans hk
    exact (hsame.unused k hk).trans (ho.clean hk)

theorem accept (ho : Owned h) {i : Slot} (hi : (h.world.conn i).inUse = false) {fd : ℤ}
    (hfd : fd ∉ h.fds) (stream : List UInt8) :
    Owned ⟨h.world.accept i fd stream, insert fd h.fds⟩ := by
  have hself : (h.world.accept i fd stream).clients i = .accepted fd h.world.accepted stream := by
    rw [World.accept_clients, if_pos rfl]
  have hother {k : Slot} (hk : k ≠ i) : (h.world.accept i fd stream).clients k = h.world.clients k := by
    rw [World.accept_clients, if_neg hk]
  have hused {k : Slot} (hk : (h.world.conn k).inUse = true) : k ≠ i := fun heq => by
    rw [heq, hi] at hk
    cases hk
  have hnew {k : Slot} (hk : (h.world.conn k).inUse = true) : (h.world.conn k).fd ≠ fd := fun heq =>
    hfd ((ho.mem fd).mpr (.inr ⟨k, hk, heq⟩))
  -- a slot in use is the new one or was in use before
  have hcases {k : Slot} (hk : ((h.world.accept i fd stream).conn k).inUse = true) :
      (k = i ∧ ((h.world.accept i fd stream).conn k).fd = fd) ∨
        ((h.world.conn k).inUse = true ∧
          ((h.world.accept i fd stream).conn k).fd = (h.world.conn k).fd) := by
    by_cases hki : k = i
    · subst hki
      exact .inl ⟨rfl, by rw [World.conn, hself]; rfl⟩
    · rw [World.conn, hother hki] at hk
      exact .inr ⟨hk, by rw [World.conn, hother hki]⟩
  refine ⟨fun fd' => ?_, fun {k} hk => ?_, fun {k l} hk hl heq => ?_, fun {k} hk => ?_⟩
  · rw [Finset.mem_insert, ho.mem]
    constructor
    · rintro (rfl | hlisten | ⟨k, hk, hkfd⟩)
      · exact .inr ⟨i, by simp only [World.conn, hself]; exact ⟨rfl, rfl⟩⟩
      · exact .inl hlisten
      · exact .inr ⟨k, by simp only [World.conn, hother (hused hk)]; exact ⟨hk, hkfd⟩⟩
    · rintro (hlisten | ⟨k, hk, hkfd⟩)
      · exact .inr (.inl hlisten)
      · rcases hcases hk with ⟨-, hnewfd⟩ | ⟨hold, hsame⟩
        · exact .inl (hkfd.symm.trans hnewfd)
        · exact .inr (.inr ⟨k, hold, hsame.symm.trans hkfd⟩)
  · rcases hcases hk with ⟨-, hnewfd⟩ | ⟨hold, hsame⟩
    · rw [hnewfd]
      exact fun heq => hfd ((ho.mem fd).mpr (.inl heq))
    · rw [hsame]
      exact ho.apart hold
  · rcases hcases hk with ⟨rfl, hkfd⟩ | ⟨hkold, hkfd⟩ <;> rcases hcases hl with ⟨rfl, hlfd⟩ | ⟨hlold, hlfd⟩
    · rfl
    · exact absurd (hlfd.symm.trans (heq.symm.trans hkfd)) (hnew hlold)
    · exact absurd (hkfd.symm.trans (heq.trans hlfd)) (hnew hkold)
    · exact ho.distinct hkold hlold (hkfd.symm.trans (heq.trans hlfd))
  · by_cases hki : k = i
    · rw [hki, World.conn, hself] at hk
      cases hk
    · rw [World.conn, hother hki] at hk
      exact (hother hki).trans (ho.clean hk)

theorem closeClient (ho : Owned h) {i : Slot} (hi : (h.world.conn i).inUse = true) :
    ∃ h', h.closeClient i = some h' ∧ h'.world = h.world.closeClient i ∧ Owned h' := by
  have hmem : (h.world.conn i).fd ∈ h.fds := (ho.mem _).mpr (.inr ⟨i, hi, rfl⟩)
  refine ⟨⟨h.world.closeClient i, h.fds.erase (h.world.conn i).fd⟩, ?_, rfl, ?_⟩
  · rw [Held.closeClient, closeFd, if_pos hmem]
    rfl
  have hself : (h.world.closeClient i).clients i = {} := by
    rw [World.closeClient_clients, if_pos rfl]
  have hother {k : Slot} (hk : k ≠ i) : (h.world.closeClient i).clients k = h.world.clients k := by
    rw [World.closeClient_clients, if_neg hk]
  -- a slot in use is another one, and was in use before
  have hcases {k : Slot} (hk : ((h.world.closeClient i).conn k).inUse = true) :
      k ≠ i ∧ (h.world.conn k).inUse = true ∧
        ((h.world.closeClient i).conn k).fd = (h.world.conn k).fd := by
    by_cases hki : k = i
    · rw [hki, World.conn, hself] at hk
      cases hk
    · rw [World.conn, hother hki] at hk
      exact ⟨hki, hk, by rw [World.conn, hother hki]⟩
  refine ⟨fun fd => ?_, fun {k} hk => ?_, fun {k l} hk hl heq => ?_, fun {k} hk => ?_⟩
  · rw [Finset.mem_erase, ho.mem]
    constructor
    · rintro ⟨hne, hlisten | ⟨k, hk, hkfd⟩⟩
      · exact .inl hlisten
      · have hki : k ≠ i := fun heq => hne (by rw [← hkfd, heq])
        exact .inr ⟨k, by simp only [World.conn, hother hki]; exact ⟨hk, hkfd⟩⟩
    · rintro (rfl | ⟨k, hk, hkfd⟩)
      · exact ⟨(ho.apart hi).symm, .inl rfl⟩
      · obtain ⟨hki, hold, hsame⟩ := hcases hk
        rw [hsame] at hkfd
        exact ⟨fun heq => hki (ho.distinct hold hi (hkfd.trans heq)), .inr ⟨k, hold, hkfd⟩⟩
  · obtain ⟨-, hold, hsame⟩ := hcases hk
    rw [hsame]
    exact ho.apart hold
  · obtain ⟨-, hkold, hkfd⟩ := hcases hk
    obtain ⟨-, hlold, hlfd⟩ := hcases hl
    exact ho.distinct hkold hlold (hkfd.symm.trans (heq.trans hlfd))
  · by_cases hki : k = i
    · rw [hki, hself]
    · rw [World.conn, hother hki] at hk
      exact (hother hki).trans (ho.clean hk)

end Owned

/-- The result, if there is none of a failed `close()`, is what the server itself does, and
everything open is still accounted for. -/
def Fine (w : World) (out : Option Held) : Prop := ∃ h', out = some h' ∧ h'.world = w ∧ Owned h'

theorem fine_acceptNewConnections (as : List AcceptChoice) : ∀ {h : Held}, Owned h → h.Fresh as →
    Fine (h.world.acceptNewConnections as) (h.acceptNewConnections as) := by
  induction as with
  | nil => exact fun ho _ => ⟨_, rfl, rfl, ho⟩
  | cons a as ih =>
    intro h ho hfresh
    cases a with
    | intr => exact ih ho hfresh
    | fail => exact ⟨_, rfl, rfl, ho⟩
    | conn fd stream =>
      obtain ⟨hfd, hrest⟩ := hfresh
      unfold Held.acceptNewConnections World.acceptNewConnections
      cases hslot : h.world.freeSlot with
      | none =>
        rw [hslot] at hrest
        dsimp only
        rw [closeFd_insert hfd]
        exact ih ho hrest
      | some i =>
        rw [hslot] at hrest
        have hfree : (h.world.conn i).inUse = false := by simpa using List.find?_some hslot
        exact ih (ho.accept hfree hfd stream) hrest

theorem fine_finish {h : Held} (ho : Owned h) {i : Slot} (hi : (h.world.conn i).inUse = true) :
    Fine (h.world.finish i) (h.finish i) := by
  unfold Held.finish World.finish
  by_cases hclose : (h.world.conn i).shouldClose = true
  · simp only [hclose, if_true]
    exact ho.closeClient hi
  · have hflush := SameFds.flush hi
    simp only [hclose, Bool.false_eq_true, if_false]
    split_ifs
    · exact (ho.same hflush).closeClient ((hflush.inUse i).trans hi)
    · exact ⟨_, rfl, rfl, ho.same hflush⟩

theorem fine_serveEntry {h : Held} (ho : Owned h) (entry : Option Slot × PollFd) :
    Fine (h.world.serveEntry entry) (h.serveEntry entry) := by
  unfold Held.serveEntry World.serveEntry
  cases entry.1 with
  | none => exact ⟨_, rfl, rfl, ho⟩
  | some i =>
    dsimp only
    split_ifs with hskip
    · exact ⟨_, rfl, rfl, ho⟩
    · have hi : (h.world.conn i).inUse = true := by simpa using (not_or.mp hskip).1
      have hpass := SameFds.pass hi entry.2
      exact fine_finish (ho.same hpass) ((hpass.inUse i).trans hi)

theorem fine_serveEntries (entries : List (Option Slot × PollFd)) : ∀ {h : Held}, Owned h →
    Fine (entries.foldl World.serveEntry h.world) (entries.foldlM Held.serveEntry h) := by
  induction entries with
  | nil => exact fun ho => ⟨_, rfl, rfl, ho⟩
  | cons entry entries ih =>
    intro h ho
    obtain ⟨h₁, hserve, hworld, ho₁⟩ := fine_serveEntry ho entry
    rw [List.foldl_cons, List.foldlM_cons, hserve, ← hworld]
    exact ih ho₁

theorem fine_round {h : Held} (ho : Owned h) (ready : List World.Ready) {accepts : List AcceptChoice}
    (hfresh : h.collected.Fresh accepts) :
    Fine (h.world.round ready accepts) (h.round ready accepts) := by
  have ho : Owned h.collected := ho.same ⟨rfl, fun _ => rfl, fun _ => rfl, fun _ _ => rfl⟩
  change Fine (h.collected.world.service (h.world.polled ready) accepts)
    (h.collected.service (h.world.polled ready) accepts)
  unfold Held.service World.service
  cases h.world.polled ready with
  | nil => exact ⟨_, rfl, rfl, ho⟩
  | cons listener rest =>
    dsimp only
    split_ifs
    · obtain ⟨h₁, haccept, hworld, ho₁⟩ := fine_acceptNewConnections accepts ho hfresh
      rw [haccept, Option.bind_some, ← hworld]
      exact fine_serveEntries _ ho₁
    · exact fine_serveEntries _ ho

theorem closeSlots_spec {w : World} (hdistinct : ∀ {k l : Slot}, (w.conn k).inUse = true →
    (w.conn l).inUse = true → (w.conn k).fd = (w.conn l).fd → k = l)
    (hapart : ∀ {k : Slot}, (w.conn k).inUse = true → (w.conn k).fd ≠ w.listenFd) (is : List Slot) :
    is.Nodup → ∀ {fds : Finset ℤ}, (∀ fd, fd ∈ fds ↔
      fd = w.listenFd ∨ ∃ k ∈ is, (w.conn k).inUse = true ∧ (w.conn k).fd = fd) →
      Held.closeSlots w fds is = some {w.listenFd} := by
  induction is with
  | nil =>
    intro _ fds hfds
    have hsingle : fds = {w.listenFd} := by
      ext fd
      simp [hfds]
    rw [hsingle]
    rfl
  | cons i is ih =>
    intro hnodup fds hfds
    obtain ⟨hi, hnodup⟩ := List.nodup_cons.mp hnodup
    rw [Held.closeSlots, List.foldlM_cons]
    cases huse : (w.conn i).inUse with
    | false =>
      refine ih hnodup fun fd => (hfds fd).trans ?_
      simp [huse]
    | true =>
      have hmem : (w.conn i).fd ∈ fds := (hfds _).mpr (.inr ⟨i, List.mem_cons_self .., huse, rfl⟩)
      rw [if_pos rfl, closeFd, if_pos hmem]
      refine ih hnodup fun fd => ?_
      rw [Finset.mem_erase, hfds]
      constructor
      · rintro ⟨hne, hlisten | ⟨k, hk, hkuse, hkfd⟩⟩
        · exact .inl hlisten
        · rcases List.mem_cons.mp hk with rfl | hk
          · exact absurd hkfd.symm hne
          · exact .inr ⟨k, hk, hkuse, hkfd⟩
      · rintro (rfl | ⟨k, hk, hkuse, hkfd⟩)
        · exact ⟨(hapart huse).symm, .inl rfl⟩
        · refine ⟨fun heq => hi ?_, .inr ⟨k, List.mem_cons_of_mem _ hk, hkuse, hkfd⟩⟩
          rw [← hdistinct hkuse huse (hkfd.trans heq)]
          exact hk

theorem Owned.destroy {h : Held} (ho : Owned h) : h.destroy = some ∅ := by
  have hslots : Held.closeSlots h.world h.fds (List.finRange maxClients) = some {h.world.listenFd} :=
    closeSlots_spec ho.distinct ho.apart _ (List.nodup_finRange _) fun fd => by simp [ho.mem]
  rw [Held.destroy, hslots, Option.bind_some, closeFd, if_pos (Finset.mem_singleton_self _),
    Finset.erase_singleton]

theorem HeldRun.owned {b : Boot} {h : Held} (hrun : HeldRun b h) : Owned h := by
  induction hrun with
  | boot => exact .boot b
  | @round h h' ready accepts _ hfresh hround ih =>
    obtain ⟨h₁, hsome, -, ho₁⟩ := fine_round ih ready hfresh
    exact Option.some.inj (hsome.symm.trans hround) ▸ ho₁

/-- In every run of the server: the open descriptors are those of the listening socket and of
the slots in use, each of them held once; a slot that is not in use holds nothing; no round
closes a descriptor that is not open; and `ipc_server_destroy` leaves none open. -/
theorem descriptors_owned {b : Boot} {h : Held} (hrun : HeldRun b h) :
    (∀ fd, fd ∈ h.fds ↔
      fd = h.world.listenFd ∨ ∃ k, (h.world.conn k).inUse = true ∧ (h.world.conn k).fd = fd) ∧
    (∀ k l, (h.world.conn k).inUse = true → (h.world.conn l).inUse = true →
      (h.world.conn k).fd = (h.world.conn l).fd → k = l) ∧
    (∀ k, (h.world.conn k).inUse = false → h.world.clients k = {}) ∧
    (∀ ready accepts, h.collected.Fresh accepts →
      ∃ h', h.round ready accepts = some h' ∧ h'.world = h.world.round ready accepts) ∧
    h.destroy = some ∅ := by
  have ho := hrun.owned
  refine ⟨ho.mem, fun k l => ho.distinct, fun k => ho.clean, fun ready accepts hfresh => ?_, ho.destroy⟩
  obtain ⟨h', hround, hworld, -⟩ := fine_round ho ready hfresh
  exact ⟨h', hround, hworld⟩

theorem fresh_conn {h : Held} {fd : ℤ} (hfd : fd ∉ h.fds) (stream : List UInt8) :
    h.collected.Fresh [.conn fd stream] := ⟨hfd, by split <;> trivial⟩

def comeAndGone : Option Held :=
  (Held.round ⟨(Boot.fresh [] []).world, {3}⟩ [{ revents := { pollin := true } }] [.conn 5 []]).bind
    fun h => h.round [{}, { revents := { pollhup := true } }] []

/-- A second client gets the same descriptor. -/
theorem descriptors_owned_again : ∃ h, HeldRun (Boot.fresh [] []) h ∧ h.fds = {3, 5} ∧
    (h.world.peer 0).serial = 1 ∧ h.destroy = some ∅ := by
  have hgone : comeAndGone.map Held.fds = some {3} := by decide +kernel
  have hagain : ((comeAndGone.bind fun h => h.round [{ revents := { pollin := true } }]
      [.conn 5 []]).map fun h => (h.fds, (h.world.peer 0).serial)) = some ({3, 5}, 1) := by
    decide +kernel
  obtain ⟨h₂, hsecond, hfds₂⟩ := Option.map_eq_some_iff.mp hgone
  obtain ⟨h₁, hfirst, hhang⟩ := Option.bind_eq_some_iff.mp hsecond
  have hnone : h₁.collected.Fresh [] := trivial
  have hrun₂ : HeldRun (Boot.fresh [] []) h₂ :=
    .round (.round .boot (fresh_conn (by decide) []) hfirst) hnone hhang
  rw [hsecond, Option.bind_some] at hagain
  obtain ⟨h, hround, hfields⟩ := Option.map_eq_some_iff.mp hagain
  have hrun := HeldRun.round hrun₂ (fresh_conn (by rw [hfds₂]; decide) []) hround
  obtain ⟨hfds, hserial⟩ := Prod.mk.inj hfields
  exact ⟨h, hrun, hfds, hserial, (descriptors_owned hrun).2.2.2.2⟩

end PiDaemon.Server
