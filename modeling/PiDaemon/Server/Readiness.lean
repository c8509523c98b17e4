import PiDaemon.Server.Arrival
import PiDaemon.Server.Outgoing
import PiDaemon.Server.Registration

/-!
# Readiness events

`ipc_server_collect_pollfds` notes in `slot_map` which slot each descriptor came
from, and `ipc_server_service` uses the note after it has accepted new connections
and while it closes others. New connections go to slots that were free when the
note was made, and a slot in it is closed only at its own index, so at each index
the slot still holds the connection that `poll()` was asked about.
-/

namespace PiDaemon.Server

open Base Proto Store

/-! ## Other slots keep their connection -/

namespace World

variable {w : World} {i j : Slot}

theorem finish_beside (hj : j ≠ i) : Beside (w.clients j) ((w.finish i).clients j) := by
  have hflush : (w.flush i).clients j = w.clients j := by rw [flush_clients, if_neg hj]
  have hclose (v : World) : (v.closeClient i).clients j = v.clients j := by
    rw [closeClient_clients, if_neg hj]
  cases hc : (w.conn i).shouldClose with
  | true =>
    rw [finish_of_condemned hc, hclose]
    exact .refl _
  | false =>
    rw [finish_of_open hc]
    split_ifs
    · rw [hclose, hflush]
      exact .refl _
    · rw [hflush]
      exact .refl _

theorem readAndParse_beside (hj : j ≠ i) (p : PollFd) :
    Beside (w.clients j) ((w.readAndParse i p).clients j) := by
  unfold readAndParse
  split_ifs
  · have hrecv : (w.modify i fun e => e.recvLoop p.recvs).clients j = w.clients j := by
      rw [modify_clients, if_neg hj]
    rw [← hrecv]
    exact parseLoop_beside hj _
  · exact .refl _

theorem serveSlot_beside (hj : j ≠ i) (p : PollFd) :
    Beside (w.clients j) ((w.serveSlot i p).clients j) := by
  have hmark : ((w.markPoll i).hangUp i p.revents).clients j = w.clients j := by
    unfold hangUp
    split_ifs
    · rw [World.condemn, modify_clients, if_neg hj, markPoll, modify_clients, if_neg hj]
    · rw [markPoll, modify_clients, if_neg hj]
  rw [← hmark]
  exact (readAndParse_beside hj p).trans (finish_beside hj)

theorem serveEntries_beside (entries : List (Option Slot × PollFd)) : ∀ {w : World},
    (∀ entry ∈ entries, entry.1 ≠ some j) →
      Beside (w.clients j) ((entries.foldl serveEntry w).clients j) := by
  induction entries with
  | nil => exact fun _ => .refl _
  | cons entry entries ih =>
    intro w hne
    have hfirst : Beside (w.clients j) ((w.serveEntry entry).clients j) := by
      unfold serveEntry
      split
      · exact .refl _
      · rename_i i hi
        have hj : j ≠ i := by
          rintro rfl
          exact hne entry (by simp) hi
        split_ifs
        · exact .refl _
        · exact serveSlot_beside hj _
    exact hfirst.trans (ih fun entry' hmem => hne entry' (by simp [hmem]))

theorem acceptNewConnections_clients (as : List AcceptChoice) : ∀ {w : World},
    (w.conn j).inUse = true → (w.acceptNewConnections as).clients j = w.clients j := by
  induction as with
  | nil => exact fun _ => rfl
  | cons a as ih =>
    intro w huse
    cases a with
    | intr => exact ih huse
    | fail => rfl
    | conn fd stream =>
      unfold acceptNewConnections
      cases hfree : w.freeSlot with
      | none => exact ih huse
      | some i =>
        have hi : (w.conn i).inUse = false := by simpa using List.find?_some hfree
        have hj : j ≠ i := by
          rintro rfl
          simp [huse] at hi
        have hkeep : (w.accept i fd stream).clients j = w.clients j := by
          rw [accept_clients, if_neg hj]
        dsimp only
        rw [ih (by rw [conn, hkeep]; exact huse), hkeep]

/-! ## One round, index by index -/

/-- The world `ipc_server_collect_pollfds` leaves behind. -/
def collected (w : World) : World := (w.collectPollfds (maxClients + 1)).1

/-- The descriptors it collects, once `poll()` has filled them in. -/
def polled (w : World) (ready : List Ready) : List PollFd :=
  (w.collectPollfds (maxClients + 1)).2.mapIdx fun k p =>
    { p with revents := (ready.getD k {}).revents, recvs := (ready.getD k {}).recvs }

def acceptReady (w : World) (fds : List PollFd) (accepts : List AcceptChoice) : World :=
  let listener := fds.headD { fd := w.listenFd }
  if listener.revents.pollin || listener.revents.pollerr then w.acceptNewConnections accepts else w

/-- The world in which the loop of `ipc_server_service` comes to index `k`. -/
def atIndex (w : World) (fds : List PollFd) (accepts : List AcceptChoice) (k : ℕ) : World :=
  (((w.acceptReady fds accepts).slotMap.tail.zip fds.tail).take (k - 1)).foldl serveEntry
    (w.acceptReady fds accepts)

theorem service_eq_atIndex (w : World) (fds : List PollFd) (accepts : List AcceptChoice) :
    w.service fds accepts = w.atIndex fds accepts fds.length := by
  cases fds with
  | nil => simp [service, atIndex, acceptReady]
  | cons listener rest =>
    rw [atIndex, List.take_of_length_le (by simp)]
    rfl

theorem round_eq_atIndex (w : World) (ready : List Ready) (accepts : List AcceptChoice) :
    w.round ready accepts =
      w.collected.atIndex (w.polled ready) accepts (w.polled ready).length := by
  rw [← service_eq_atIndex]
  rfl

theorem acceptReady_slotMap (w : World) (fds : List PollFd) (accepts : List AcceptChoice) :
    (w.acceptReady fds accepts).slotMap = w.slotMap := by
  have haccept (as : List AcceptChoice) : ∀ v : World,
      (v.acceptNewConnections as).slotMap = v.slotMap := by
    induction as with
    | nil => exact fun _ => rfl
    | cons a as ih =>
      intro v
      cases a with
      | intr => exact ih v
      | fail => rfl
      | conn fd stream =>
        unfold acceptNewConnections
        cases v.freeSlot with
        | none => exact ih v
        | some i => exact ih _
  unfold acceptReady
  dsimp only
  split_ifs
  · exact haccept accepts w
  · rfl

theorem acceptReady_clients (huse : (w.conn j).inUse = true) (fds : List PollFd)
    (accepts : List AcceptChoice) : (w.acceptReady fds accepts).clients j = w.clients j := by
  unfold acceptReady
  dsimp only
  split_ifs
  · exact acceptNewConnections_clients accepts huse
  · rfl

/-! ## The note and the descriptors -/

def usedSlots (w : World) : List Slot := (List.finRange maxClients).filter fun i => (w.conn i).inUse

theorem mem_usedSlots : i ∈ w.usedSlots ↔ (w.conn i).inUse = true := by
  simp [usedSlots]

theorem collectPollfds_spec (w : World) :
    w.collected.slotMap = none :: w.usedSlots.map some ∧
      (w.collectPollfds (maxClients + 1)).2.map PollFd.fd =
        w.listenFd :: w.usedSlots.map fun i => (w.conn i).fd := by
  have hroom : ((List.finRange maxClients).filter fun i => (w.conn i).inUse).length ≤ maxClients := by
    simpa using List.length_filter_le (fun i => (w.conn i).inUse) (List.finRange maxClients)
  simp only [collected, collectPollfds]
  rw [List.take_of_length_le (by simpa using hroom)]
  simp [usedSlots, Function.comp_def]

theorem polled_fd (w : World) (ready : List Ready) :
    (w.polled ready).map PollFd.fd = w.listenFd :: w.usedSlots.map fun i => (w.conn i).fd := by
  rw [← (collectPollfds_spec w).2, polled]
  refine List.ext_getElem? fun k => ?_
  simp only [List.getElem?_map, List.getElem?_mapIdx, Option.map_map]
  rfl

theorem collected_unique (huse : (w.conn i).inUse = true) :
    ∃! k : ℕ, w.collected.slotMap[k]? = some (some i) := by
  have hslots := (collectPollfds_spec w).1
  have hnodup : w.collected.slotMap.Nodup := by
    rw [hslots, List.nodup_cons]
    refine ⟨by simp, ((List.nodup_finRange _).filter _).map (Option.some_injective _)⟩
  have hmem : some i ∈ w.collected.slotMap := by
    rw [hslots]
    simpa using mem_usedSlots.mpr huse
  obtain ⟨k, hk⟩ := List.mem_iff_getElem?.mp hmem
  refine ⟨k, hk, fun l hl => ?_⟩
  exact ((List.getElem?_inj (List.getElem?_eq_some_iff.mp hk).1 hnodup).mp (hk.trans hl.symm)).symm

theorem collected_entry {k : ℕ} (ready : List Ready)
    (hk : w.collected.slotMap[k]? = some (some i)) :
    1 ≤ k ∧ w.usedSlots[k - 1]? = some i ∧
      ∃ p, (w.polled ready)[k]? = some p ∧ p.fd = (w.conn i).fd := by
  rw [(collectPollfds_spec w).1] at hk
  cases k with
  | zero => simp at hk
  | succ k =>
    have hslot : w.usedSlots[k]? = some i := by simpa using hk
    have hfd : ((w.polled ready).map PollFd.fd)[k + 1]? = some (w.conn i).fd := by
      rw [polled_fd, List.getElem?_cons_succ, List.getElem?_map, hslot, Option.map_some]
    rw [List.getElem?_map, Option.map_eq_some_iff] at hfd
    exact ⟨Nat.le_add_left 1 k, hslot, hfd⟩

theorem earlier_entries {k : ℕ} (fds : List PollFd) (hi : w.usedSlots[k]? = some i) :
    ∀ entry ∈ ((w.usedSlots.map some).zip fds).take k, entry.1 ≠ some i := by
  rintro ⟨slot, p⟩ hmem rfl
  obtain ⟨l, hl⟩ := List.mem_iff_getElem?.mp hmem
  rw [List.getElem?_take] at hl
  split_ifs at hl with hlt
  have hl' : w.usedSlots[l]? = some i := by
    rw [List.getElem?_zip_eq_some] at hl
    simpa using hl.1
  have hnodup : w.usedSlots.Nodup := (List.nodup_finRange _).filter _
  have hbound := (List.getElem?_eq_some_iff.mp hl').1
  have := (List.getElem?_inj hbound hnodup).mp (hl'.trans hi.symm)
  omega

end World

structure AsCollected (w v : World) (i : Slot) (p : PollFd) : Prop where
  inUse : (v.conn i).inUse = true
  fd : (v.conn i).fd = p.fd
  serial : (v.peer i).serial = (w.peer i).serial

theorem asCollected_atIndex {w : World} {i : Slot} {k : ℕ} {p : PollFd} (ready : List World.Ready)
    (accepts : List AcceptChoice) (huse : (w.conn i).inUse = true) (hi : w.usedSlots[k - 1]? = some i)
    (hfd : p.fd = (w.conn i).fd) :
    AsCollected w (w.collected.atIndex (w.polled ready) accepts k) i p := by
  have haccept : (w.collected.acceptReady (w.polled ready) accepts).clients i = w.clients i :=
    World.acceptReady_clients (w := w.collected) huse _ _
  have hbeside : Beside (w.clients i)
      ((w.collected.atIndex (w.polled ready) accepts k).clients i) := by
    rw [World.atIndex, World.acceptReady_slotMap, (World.collectPollfds_spec w).1, ← haccept]
    exact World.serveEntries_beside _ (World.earlier_entries _ hi)
  exact ⟨hbeside.inUse.trans huse, hbeside.fd.trans hfd.symm, hbeside.serial⟩

/-- In every round of every run each client in use is collected once, and at its index
the loop serves the connection that was collected, with what `poll()` reported there:
the connection is not a new one, and the check for a recycled slot lets it pass. -/
theorem readiness_reaches_connection {b : Boot} {w : World} (h : Run b w)
    (ready : List World.Ready) (accepts : List AcceptChoice) :
    w.round ready accepts =
      w.collected.atIndex (w.polled ready) accepts (w.polled ready).length ∧
    (∀ i, (w.conn i).inUse = true → ∃! k : ℕ, w.collected.slotMap[k]? = some (some i)) ∧
    ∀ (k : ℕ) (i : Slot), w.collected.slotMap[k]? = some (some i) →
      ∃ p, (w.polled ready)[k]? = some p ∧ p.fd = (w.conn i).fd ∧
        AsCollected w (w.collected.atIndex (w.polled ready) accepts k) i p ∧
        (w.peer i).serial < w.accepted ∧
        w.collected.atIndex (w.polled ready) accepts (k + 1) =
          (w.collected.atIndex (w.polled ready) accepts k).serveSlot i p := by
  refine ⟨w.round_eq_atIndex ready accepts, fun i huse => World.collected_unique huse, ?_⟩
  intro k i hk
  obtain ⟨hpos, hi, p, hp, hfd⟩ := World.collected_entry ready hk
  have huse : (w.conn i).inUse = true := World.mem_usedSlots.mp (List.mem_of_getElem? hi)
  have hheld := asCollected_atIndex ready accepts huse hi hfd
  refine ⟨p, hp, hfd, hheld, (registry_of_reachable h.reachable).serial_lt i huse, ?_⟩
  have hentry : ((w.collected.acceptReady (w.polled ready) accepts).slotMap.tail.zip
      (w.polled ready).tail)[k - 1]? = some (some i, p) := by
    rw [List.getElem?_zip_eq_some, World.acceptReady_slotMap, (World.collectPollfds_spec w).1]
    refine ⟨by simpa using hi, ?_⟩
    rw [List.getElem?_tail, Nat.sub_add_cancel hpos]
    exact hp
  have hlast : k + 1 - 1 = k - 1 + 1 := by omega
  rw [World.atIndex, hlast, List.take_add_one, hentry, List.foldl_append]
  change (w.collected.atIndex (w.polled ready) accepts k).serveEntry (some i, p) = _
  have hguard : ¬(((w.collected.atIndex (w.polled ready) accepts k).conn i).inUse = false ∨
      ((w.collected.atIndex (w.polled ready) accepts k).conn i).fd ≠ p.fd) := by
    simp [hheld.inUse, hheld.fd]
  simp only [World.serveEntry, if_neg hguard]

/-- A client wants to connect, the first of two clients hangs up, and the second has written. -/
def comingAndGoing : List World.Ready :=
  [{ revents := { pollin := true } }, { revents := { pollhup := true } },
    { revents := { pollin := true } }]

/-- When the loop comes to the second client, the first one is closed and a third is there. -/
theorem readiness_reaches_second : ∃ v : World, (v.conn 0).inUse = false ∧
    (v.peer 2).serial = 2 ∧ ∃ p, p.fd = 6 ∧ AsCollected (twoClients [.sent 8, .sent 8]) v 1 p := by
  have hk : (twoClients [.sent 8, .sent 8]).collected.slotMap[2]? = some (some 1) := by
    decide +kernel
  obtain ⟨p, -, hfd, hheld, -⟩ := (readiness_reaches_connection (twoClients_run _) comingAndGoing
    [.conn 7 []]).2.2 2 1 hk
  have hfd' : ((twoClients [.sent 8, .sent 8]).conn 1).fd = 6 := by decide +kernel
  exact ⟨_, by decide +kernel, by decide +kernel, p, hfd.trans hfd', hheld⟩

end PiDaemon.Server
