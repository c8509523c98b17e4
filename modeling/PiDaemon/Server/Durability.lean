import PiDaemon.Server.Steps

/-!
# Memory, disk and the client's view

The satellite state exists three times: in the daemon's memory, in the state file
and in the `DMSG_STATE_VALUE` a client is answered with. Memory follows every
accepted `DMSG_STATE_SET`; the file follows those whose `sat_state_store` returned
0. A failed store is logged and otherwise ignored, so the client sees the same
answer in both cases and the two copies differ until the next successful store.
-/

namespace PiDaemon.Server

open Base Proto Store

/-- The state a handled frame puts in memory, if it is an accepted `DMSG_STATE_SET`. -/
def Handled.update? (h : Handled) : Option SatelliteState :=
  if h.registered = true ∧ MsgType.ofCode? h.frame.type = some .stateSet ∧
      h.frame.payload.length = stateSize then
    some (SatelliteState.decode h.frame.payload)
  else none

def Handled.durable? (h : Handled) : Option SatelliteState :=
  if h.storeOk then h.update? else none

def latest (g : Handled → Option SatelliteState) (s : SatelliteState) (log : List Handled) :
    SatelliteState :=
  log.foldl (fun s h => (g h).getD s) s

theorem latest_concat (g : Handled → Option SatelliteState) (s : SatelliteState)
    (log : List Handled) (h : Handled) : latest g s (log ++ [h]) = (g h).getD (latest g s log) := by
  simp [latest]

theorem latest_of_none {g : Handled → Option SatelliteState} {log : List Handled}
    (hlog : ∀ h ∈ log, g h = none) : ∀ s, latest g s log = s := by
  induction log with
  | nil => exact fun s => rfl
  | cons h log ih =>
    intro s
    rw [latest, List.foldl_cons, hlog h (by simp)]
    exact ih (fun h' hh' => hlog h' (by simp [hh'])) s

theorem latest_of_last {g : Handled → Option SatelliteState} {s t : SatelliteState}
    {pre post : List Handled} {h : Handled} (hg : g h = some t) (hpost : ∀ k ∈ post, g k = none) :
    latest g s (pre ++ h :: post) = t := by
  rw [latest, List.foldl_append, List.foldl_cons, hg]
  exact latest_of_none hpost t

namespace World

theorem Effect.update {w w' : World} {i : Slot} {f : Frame} (h : Effect w i f w') :
    w'.state = (w.entry i f).update?.getD w.state ∧
      w'.disk = ((w.entry i f).update?.elim w.disk fun s =>
        w.disk.run (satStateStore s w.nextStore).1) := by
  cases h with
  | refused e hreg => simp [Handled.update?, entry, hreg, refuse, World.condemn]
  | registered hreg => simp [Handled.update?, entry, hreg, setName]
  | value hreg ht => simp [Handled.update?, entry, ht]
  | stored hreg ht hlen => simp [Handled.update?, entry, hreg, ht, hlen, storeState]
  | delivered j hreg ht => simp [Handled.update?, entry, ht]
  | unknown hreg ht => simp [Handled.update?, entry, ht]
  | pong hreg ht => simp [Handled.update?, entry, ht]
  | malformed _ _ _ hset =>
    have hnone : (w.entry i f).update? = none := by
      rw [Handled.update?, if_neg]
      exact fun h => hset h.2.1 h.2.2
    simp [hnone]

theorem dispatch_update (w : World) (i : Slot) (f : Frame) (rest : List UInt8) :
    (w.dispatch i f rest).state = (w.entry i f).update?.getD w.state ∧
      (w.dispatch i f rest).disk = ((w.entry i f).update?.elim w.disk fun s =>
        w.disk.run (satStateStore s w.nextStore).1) := by
  have h := (w.dispatch_effect i f rest).update
  rw [consume_entry] at h
  exact h

end World

/-! ## The two copies over whole runs -/

structure Mirrors (b : Boot) (w : World) : Prop where
  memory : w.state = latest Handled.update? b.state w.log
  file : Holds w.disk (latest Handled.durable? b.state w.log)

theorem Mirrors.dispatch {b : Boot} {w : World} (h : Mirrors b w) (i : Slot) (f : Frame)
    (rest : List UInt8) : Mirrors b (w.dispatch i f rest) := by
  obtain ⟨hstate, hdisk⟩ := w.dispatch_update i f rest
  constructor
  · rw [hstate, World.dispatch_log, latest_concat, h.memory]
  · rw [hdisk, World.dispatch_log, latest_concat, Handled.durable?]
    cases hupd : (w.entry i f).update? with
    | none => simpa using h.file
    | some s =>
      have hs : s = SatelliteState.decode f.payload := by
        unfold Handled.update? at hupd
        split_ifs at hupd
        exact (Option.some.inj hupd).symm
      subst hs
      obtain ⟨hok, hfail⟩ := (satStateStore_cases (SatelliteState.decode f.payload)
        w.nextStore).whole w.disk
      cases hret : (w.entry i f).storeOk with
      | true => simpa using hok hret
      | false => simpa using h.file.of_state_eq (hfail hret)

theorem mirrors_of_reachable {b : Boot} {w : World} (h : Reachable b w) : Mirrors b w := by
  refine steps_invariant (I := Mirrors b) (fun s t hs hst => ?_) h
    ⟨rfl, holds_of_init b.reachable.settled b.init⟩
  obtain ⟨hstate, hdisk, hlog⟩ | ⟨i, f, rest, -, -, rfl⟩ := hst.quiet_or_handle
  · exact ⟨by rw [hstate, hlog, hs.memory], by rw [hdisk, hlog]; exact hs.file⟩
  · exact hs.dispatch i f rest

theorem Mirrors.init_after_restart {b : Boot} {w : World} (h : Mirrors b w) {fs : Fs}
    (hr : Restart w.disk fs) {sc : InitScript} (hc : sc.Clean) :
    (satStateInit fs sc).2 = some (latest Handled.durable? b.state w.log) :=
  Store.init_after_restart hc h.file hr

/-- An accepted `DMSG_STATE_SET` is answered with the new state, stored or not. -/
theorem World.dispatch_answers_set {w : World} {i : Slot} {f : Frame} {s : SatelliteState}
    (hupd : (w.entry i f).update? = some s) (rest : List UInt8) :
    ((w.dispatch i f rest).peer i).queued =
      (w.peer i).queued ++ [⟨MsgType.stateValue.code, s.encode⟩] := by
  unfold Handled.update? at hupd
  split_ifs at hupd with h
  obtain ⟨hreg, htype, hlen⟩ := h
  obtain rfl := Option.some.inj hupd
  simp only [World.entry] at hreg htype hlen
  have hconn : ((w.consume i f rest).conn i).registered = true := by
    rw [World.consume_conn]
    exact hreg
  have hpeer := w.consume_queued i f rest i
  rw [World.dispatch_eq, World.handleMessage, hconn, htype]
  simp [World.handleStateSet, hlen, World.peer, Endpoint.queueSend, hpeer, World.entry]

/-- At every point of every run: a `DMSG_STATE_SET` that was stored is what the
daemon holds and what the next `sat_state_init` returns, until another one is
handled; in general memory is the last accepted `DMSG_STATE_SET`, the file is the
last one that was stored, and each was answered with `DMSG_STATE_VALUE`. -/
theorem state_set_durable {b : Boot} {w : World} (h : Reachable b w) :
    (∀ (pre post : List Handled) (e : Handled) (s : SatelliteState), w.log = pre ++ e :: post →
      e.update? = some s → e.storeOk = true → (∀ k ∈ post, k.update? = none) →
        w.state = s ∧ ∀ fs sc, Restart w.disk fs → InitScript.Clean sc →
          (satStateInit fs sc).2 = some s) ∧
    (w.state = latest Handled.update? b.state w.log ∧
      ∀ fs sc, Restart w.disk fs → InitScript.Clean sc →
        (satStateInit fs sc).2 = some (latest Handled.durable? b.state w.log)) ∧
    ∀ (i : Slot) (f : Frame) (rest : List UInt8) (s : SatelliteState),
      (w.entry i f).update? = some s → ((w.dispatch i f rest).peer i).queued =
        (w.peer i).queued ++ [⟨MsgType.stateValue.code, s.encode⟩] := by
  have hm := mirrors_of_reachable h
  refine ⟨?_, ⟨hm.memory, fun fs sc hr hc => hm.init_after_restart hr hc⟩,
    fun i f rest s hupd => World.dispatch_answers_set hupd rest⟩
  intro pre post e s hlog hupd hok hpost
  have hdurable : e.durable? = some s := by rw [Handled.durable?, hok, if_pos rfl, hupd]
  have hpost' : ∀ k ∈ post, k.durable? = none := by
    intro k hk
    rw [Handled.durable?, hpost k hk, ite_self]
  constructor
  · rw [hm.memory, hlog, latest_of_last hupd hpost]
  · intro fs sc hr hc
    rw [hm.init_after_restart hr hc, hlog, latest_of_last hdurable hpost']

/-- The update used in the runs below: experiment 7 is running. -/
def experimentSeven : SatelliteState :=
  { stateDefaults with opState := 1, activeExperimentId := 7 }

/-- A client registers and sets the state; `sat_state_store` meets the given answers. -/
def setOnce (store : StoreScript) : World :=
  let stream := (registerAs 97).encode 0 ++
    (⟨MsgType.stateSet.code, experimentSeven.encode⟩ : Frame).encode 0
  let readable : World.Ready := { revents := { pollin := true }, recvs := [.bytes 64, .again] }
  ((Boot.fresh [.sent 8, .sent 24] [store]).world.round [readable] [.conn 5 stream]).round
    [{}, readable] []

theorem setOnce_run (store : StoreScript) :
    Run (Boot.fresh [.sent 8, .sent 24] [store]) (setOnce store) := by
  unfold setOnce
  exact .round _ _ (.round _ _ .boot)

theorem state_set_durable_stored :
    (setOnce {}).state = experimentSeven ∧
      (satStateInit (setOnce {}).disk {}).2 = some experimentSeven := by
  have hlog : (setOnce {}).log = [⟨0, false, registerAs 97, true⟩] ++
      ⟨0, true, ⟨MsgType.stateSet.code, experimentSeven.encode⟩, true⟩ :: [] := by
    decide +kernel
  obtain ⟨hstate, hinit⟩ := (state_set_durable (setOnce_run {}).reachable).1 _ [] _ experimentSeven
    hlog (by decide +kernel) (by decide +kernel) (by simp)
  exact ⟨hstate, hinit _ {} (.process _) ⟨rfl, rfl, by simp⟩⟩

/-- When the store fails, the client is answered with a state that a restart forgets. -/
theorem state_set_forgotten : ∃ (b : Boot) (w : World), Reachable b w ∧
    ∃ (i : Slot) (s : SatelliteState), w.log.getLast?.bind Handled.update? = some s ∧
      (w.peer i).queued.getLast? = some ⟨MsgType.stateValue.code, s.encode⟩ ∧
        w.state = s ∧ (satStateInit w.disk {}).2 ≠ some s :=
  ⟨_, _, (setOnce_run { flockOk := false }).reachable, 0, experimentSeven, by decide +kernel,
    by decide +kernel, by decide +kernel, by decide +kernel⟩

end PiDaemon.Server
