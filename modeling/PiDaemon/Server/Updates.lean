import PiDaemon.Server.Durability
import PiDaemon.Server.Registration

/-!
# Who changes the satellite state

Frames of all clients pass through one dispatcher. Among the effects of a handled
frame only an accepted `DMSG_STATE_SET` touches the state; each effect queues one
frame to one connection; and the effects that an unregistered connection can have
stay on that connection.
-/

namespace PiDaemon.Server

open Base Proto Store

/-- A `DMSG_STATE_VALUE` that carries `s`, or a frame of another type. -/
def Reports (s : SatelliteState) (g : Frame) : Prop :=
  g.type = MsgType.stateValue.code → g.payload = s.encode

namespace World

/-- Handling a frame queues one frame, and a state that it reports is the state
that handling the frame has led to. -/
theorem Effect.answer {w w' : World} {i : Slot} {f : Frame} (h : Effect w i f w') :
    ∃ j g, Reports w'.state g ∧ ∀ k, (w'.peer k).queued =
      if k = j then (w.peer j).queued ++ [g] else (w.peer k).queued := by
  have hqueue {v : World} (j : Slot) (g : Frame)
      (hv : ∀ k, (v.peer k).queued = (w.peer k).queued) (k : Slot) :
      ((v.queueSend j g).peer k).queued =
        if k = j then (w.peer j).queued ++ [g] else (w.peer k).queued := by
    rw [World.peer, queueSend_clients, ← hv j, ← hv k]
    split_ifs <;> rfl
  have hother {s : SatelliteState} {t : MsgType} {payload : List UInt8} (ht : t ≠ .stateValue) :
      Reports s ⟨t.code, payload⟩ := by
    intro htype
    cases t <;> first | exact absurd rfl ht | cases htype
  cases h with
  | refused e =>
    refine ⟨i, errorFrame e, hother (by decide), fun k => ?_⟩
    rw [← hqueue i _ (fun _ => rfl) k, refuse, World.condemn, World.peer, modify_clients]
    split_ifs with hk
    · subst hk
      rfl
    · rfl
  | registered =>
    refine ⟨i, _, hother (by decide), hqueue i _ fun k => ?_⟩
    rw [setName, World.peer, modify_clients]
    split_ifs with hk
    · subst hk
      rfl
    · rfl
  | value => exact ⟨i, _, fun _ => rfl, hqueue i _ fun _ => rfl⟩
  | stored => exact ⟨i, _, fun _ => rfl, hqueue i _ fun _ => rfl⟩
  | delivered j => exact ⟨j, _, hother (by decide), hqueue j _ fun _ => rfl⟩
  | unknown => exact ⟨i, errorFrame .unknownDest, hother (by decide), hqueue i _ fun _ => rfl⟩
  | pong => exact ⟨i, _, hother (by decide), hqueue i _ fun _ => rfl⟩
  | malformed => exact ⟨i, errorFrame .badMessage, hother (by decide), hqueue i _ fun _ => rfl⟩

theorem Effect.unregistered {w w' : World} {i : Slot} {f : Frame} (h : Effect w i f w')
    (hno : (w.conn i).registered = false) :
    w'.state = w.state ∧ ∀ k, k ≠ i → w'.clients k = w.clients k := by
  cases h with
  | refused e =>
    refine ⟨rfl, fun k hk => ?_⟩
    rw [refuse, World.condemn, modify_clients, if_neg hk, queueSend_clients, if_neg hk]
  | registered =>
    refine ⟨rfl, fun k hk => ?_⟩
    rw [queueSend_clients, if_neg hk, setName, modify_clients, if_neg hk]
  | value hr | stored hr | delivered _ hr | unknown hr | pong hr | malformed hr =>
    exact absurd hr (by simpa using hno)

end World

/-- A step gives a connection up or takes one on, and else only adds to the queues;
what it adds reports the state it leads to. -/
theorem Step.reports {w w' : World} (h : Step w w') (k : Slot) : (w'.peer k).queued = [] ∨
    ∃ more, (w'.peer k).queued = (w.peer k).queued ++ more ∧ ∀ g ∈ more, Reports w'.state g := by
  have hkeep {e : Endpoint} (heq : e.peer.queued = (w.peer k).queued) :
      ∃ more, e.peer.queued = (w.peer k).queued ++ more ∧ ∀ g ∈ more, Reports w'.state g :=
    ⟨[], by simpa using heq, by simp⟩
  cases h.turn with
  | calm hsame => exact .inr (hkeep (hsame k).queued)
  | accept i fd stream =>
    rw [World.peer, World.accept_clients]
    split_ifs
    · exact .inl rfl
    · exact .inr (hkeep rfl)
  | close i =>
    rw [World.peer, World.closeClient_clients]
    split_ifs
    · exact .inl rfl
    · exact .inr (hkeep rfl)
  | dispatch i f rest =>
    obtain ⟨j, g, hg, hqueued⟩ := (w.dispatch_effect i f rest).answer
    have hk := hqueued k
    rw [World.consume_queued, World.consume_queued] at hk
    rw [hk]
    split_ifs with hj
    · subst hj
      exact .inr ⟨[g], rfl, fun g' hg' => List.mem_singleton.mp hg' ▸ hg⟩
    · exact .inr (hkeep rfl)

/-- At every point of every run the state in memory is that of the last
`DMSG_STATE_SET` of the right length that was handled on a registered connection, or
the one `sat_state_init` returned; the next step queues no `DMSG_STATE_VALUE` but with
the state it leads to; and a frame that is handled on an unregistered connection
leaves the state and all other connections as they were. -/
theorem state_follows_updates {b : Boot} {w : World} (h : Reachable b w) :
    w.state = latest Handled.update? b.state w.log ∧
    (∀ w', Step w w' → ∀ k, (w'.peer k).queued = [] ∨ ∃ more,
      (w'.peer k).queued = (w.peer k).queued ++ more ∧
        ∀ g ∈ more, g.type = MsgType.stateValue.code → g.payload = w'.state.encode) ∧
    ∀ i f rest, (w.conn i).registered = false →
      (w.dispatch i f rest).state = w.state ∧
        ∀ k, k ≠ i → (w.dispatch i f rest).clients k = w.clients k := by
  refine ⟨(mirrors_of_reachable h).memory, fun w' hstep k => hstep.reports k, ?_⟩
  intro i f rest hno
  have hno' : ((w.consume i f rest).conn i).registered = false := by
    rw [World.consume_conn]
    exact hno
  obtain ⟨hstate, hothers⟩ := (w.dispatch_effect i f rest).unregistered hno'
  refine ⟨hstate, fun k hk => ?_⟩
  rw [hothers k hk, World.consume_clients, if_neg hk]

def oneRegistered : World :=
  let set : Frame := ⟨MsgType.stateSet.code, experimentSeven.encode⟩
  let readable : World.Ready := { revents := { pollin := true }, recvs := [.bytes 64, .again] }
  ((Boot.fresh [.sent 12, .sent 8, .sent 24] []).world.round [readable]
    [.conn 5 ((⟨MsgType.stateSet.code, stateDefaults.encode⟩ : Frame).encode 0 ++ set.encode 0),
      .conn 6 ((registerAs 97).encode 0 ++ set.encode 0)]).round [{}, readable, readable] []

theorem oneRegistered_run : Run (Boot.fresh [.sent 12, .sent 8, .sent 24] []) oneRegistered := by
  unfold oneRegistered
  exact .round _ _ (.round _ _ .boot)

theorem state_follows_registered :
    oneRegistered.log.length = 3 ∧ oneRegistered.state = experimentSeven := by
  refine ⟨by decide +kernel, ?_⟩
  rw [(state_follows_updates oneRegistered_run.reachable).1]
  decide +kernel

end PiDaemon.Server
