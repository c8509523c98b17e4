import PiDaemon.Process.Children

/-!
# Processes that were asked to stop

`pm_shutdown_one` marks a slot `shutting_down`; the mark tells `pm_tick` to kill the
process when its time is up, and `pm_reap` not to restart it. `pm_reap` also takes
the mark away. The loops of `pm_shutdown_all` that reap do not: a process that
`pm_shutdown_one` has asked to stop, and whose exit `pm_shutdown_all` takes, leaves
the mark in the slot, and the next process started there inherits it.

As long as no start reaches a slot left like that, the mark is the current process's own.
-/

namespace PiDaemon.Process

open Base

def calledSinceStart (op : Op) : List Event → Bool
  | [] => false
  | .fork _ _ (some _) :: _ => false
  | .call op' :: past => decide (op' = op) || calledSinceStart op past
  | .fork _ _ none :: past => calledSinceStart op past
  | .signal .. :: past => calledSinceStart op past
  | .reaped .. :: past => calledSinceStart op past
  | .collected _ :: past => calledSinceStart op past

/-- The latest process of the slot was asked to stop by `pm_shutdown_one`, and it was
`pm_shutdown_all` that took its exit. -/
def takenWhileStopping : List Event → Bool
  | [] => false
  | .collected _ :: past => calledSinceStart .shutdownOne past
  | .fork _ _ (some _) :: _ => false
  | .reaped .. :: _ => false
  | .fork _ _ none :: past => takenWhileStopping past
  | .call _ :: past => takenWhileStopping past
  | .signal .. :: past => takenWhileStopping past

/-- The starts that are safe. -/
def MarkOver (s : Entry) : Prop := takenWhileStopping s.past = false

instance (s : Entry) : Decidable (MarkOver s) := inferInstanceAs (Decidable (_ = _))

/-- The process `p` is the one that the slot was last forked for, it has not been reaped,
and `pm_shutdown_one` was called for the slot since. -/
def AskedToStop (p : Pid) (earlier : List Event) : Prop :=
  unreaped earlier = some p ∧ calledSinceStart .shutdownOne earlier = true

/-- A kill by `pm_tick`, and an exit that `pm_reap` takes for an intentional stop, are of a
process that was asked to stop. -/
def Intended (e : Event) (earlier : List Event) : Prop :=
  (∀ p, e = .signal .tick .kill p → AskedToStop p earlier) ∧
    ∀ p st, e = .reaped p st .stopped → AskedToStop p earlier

/-- The mark in a slot belongs to the process in it, or to one that `pm_shutdown_all` took. -/
structure Marked (s : Entry) : Prop where
  running : s.proc.pid ≠ 0 → s.proc.shuttingDown = true →
    calledSinceStart .shutdownOne s.past = true
  idle : s.proc.pid = 0 → s.proc.shuttingDown = true → takenWhileStopping s.past = true
  intended : Recorded Intended s.past

namespace Marked

variable {s : Entry} {e : Event} {mp : ManagedProcess} (h : Marked s)
include h

theorem note (hcalled : ∀ past, calledSinceStart .shutdownOne past = true →
      calledSinceStart .shutdownOne (e :: past) = true)
    (htaken : ∀ past, takenWhileStopping (e :: past) = takenWhileStopping past)
    (he : Intended e s.past) (hpid : mp.pid = s.proc.pid)
    (hmark : mp.shuttingDown = s.proc.shuttingDown) : Marked ⟨mp, e :: s.past⟩ where
  running h0 hd := hcalled _ (h.running (hpid ▸ h0) (hmark ▸ hd))
  idle h0 hd := (htaken _).trans (h.idle (hpid ▸ h0) (hmark ▸ hd))
  intended := recorded_cons.mpr ⟨he, h.intended⟩

theorem call (op : Op) (hpid : mp.pid = s.proc.pid) (hmark : mp.shuttingDown = s.proc.shuttingDown) :
    Marked ⟨mp, .call op :: s.past⟩ :=
  h.note (fun _ hc => by simp [calledSinceStart, hc]) (fun _ => rfl) ⟨by simp, by simp⟩ hpid hmark

theorem clear (he : Intended e s.past) (hmark : mp.shuttingDown = false) :
    Marked ⟨mp, e :: s.past⟩ where
  running _ hd := by simp [hmark] at hd
  idle _ hd := by simp [hmark] at hd
  intended := recorded_cons.mpr ⟨he, h.intended⟩

theorem collect (hpid : s.proc.pid ≠ 0) : Marked s.collect where
  running h0 := absurd rfl h0
  idle _ hd := h.running hpid hd
  intended := recorded_cons.mpr ⟨⟨by simp, by simp⟩, h.intended⟩

end Marked

theorem judge_shuttingDown (mp : ManagedProcess) (st : Status) (now : ℤ) :
    (mp.judge st now).1.shuttingDown = false := by
  unfold ManagedProcess.judge ManagedProcess.schedule ManagedProcess.countAttempt
  dsimp only
  split_ifs <;> simp_all

theorem judge_stopped (mp : ManagedProcess) {st : Status} {now : ℤ}
    (h : (mp.judge st now).2 = .stopped) : mp.shuttingDown = true := by
  unfold ManagedProcess.judge ManagedProcess.schedule at h
  dsimp only at h
  split_ifs at h with hdown
  exact hdown

theorem marked_local : Entry.Local MarkOver fun s => Kept s ∧ Marked s where
  fresh := ⟨(kept_local MarkOver).fresh, by simp, by simp, recorded_nil⟩
  added spec := ⟨(kept_local MarkOver).added spec, by simp [Manager.added], by simp [Manager.added],
    recorded_nil⟩
  step {s s'} := by
    rintro ⟨hkept, h⟩ hstep
    refine ⟨(kept_local MarkOver).step hkept hstep, ?_⟩
    have hasked (hpid : s.proc.pid ≠ 0) (hdown : s.proc.shuttingDown = true) :
        AskedToStop s.proc.pid s.past := ⟨hkept.running hpid, h.running hpid hdown⟩
    cases hstep with
    | start op now answer hmay _ hpid =>
      -- the mark would be that of a process which `pm_shutdown_all` took
      have hdown : s.proc.shuttingDown = false := by
        by_contra hd
        have := h.idle hpid (by simpa using hd)
        simp [MarkOver, this] at hmay
      have hcalled : Marked ((s.note (.call op)).reset now) := h.call op rfl rfl
      exact hcalled.clear ⟨by simp, by simp⟩ hdown
    | refresh now => exact h.call _ rfl rfl
    | running => exact h.call _ rfl rfl
    | tickStart now answer hdown => exact h.clear ⟨by simp, by simp⟩ hdown
    | tickKill now hdown hpid =>
      refine h.note (fun _ hc => hc) (fun _ => rfl) ⟨?_, by simp⟩ rfl rfl
      intro p hp
      cases hp
      exact hasked hpid hdown
    | reap st now hpid =>
      refine h.clear ⟨by simp, ?_⟩ (judge_shuttingDown _ st now)
      intro p st' heq
      obtain ⟨rfl, -, hstopped⟩ := (Event.reaped.injEq ..).mp heq
      exact hasked hpid (judge_stopped { s.proc with pid := 0 } hstopped)
    | abandon =>
      have hcalled : Marked ⟨{ s.proc with givenUp := true }, .call .shutdownAll :: s.past⟩ :=
        h.call _ rfl rfl
      unfold Entry.abandon
      split_ifs
      · exact hcalled.note (fun _ hc => hc) (fun _ => rfl) ⟨by simp, by simp⟩ rfl rfl
      · exact hcalled
    | collect hpid => exact h.collect hpid
    | straggler hpid =>
      have hkilled : Marked (s.note (.signal .shutdownAll .kill s.proc.pid)) :=
        h.note (fun _ hc => hc) (fun _ => rfl) ⟨by simp, by simp⟩ rfl rfl
      exact hkilled.collect hpid
    | stopIdle => exact h.call _ rfl rfl
    | stop now timeoutMs hpid =>
      exact ⟨fun _ _ => by simp [Entry.stop, calledSinceStart], fun h0 => absurd h0 hpid,
        recorded_cons.mpr ⟨⟨by simp, by simp⟩, recorded_cons.mpr ⟨⟨by simp, by simp⟩, h.intended⟩⟩⟩

/-- In every run in which no start reaches a slot whose latest process was asked to stop by
`pm_shutdown_one` and taken by `pm_shutdown_all`, every process that `pm_tick` kills and
every process whose exit `pm_reap` takes for an intentional stop had itself been asked to
stop. -/
theorem forced_kill_intended {m : Manager} (h : Run MarkOver m) (i : Slot) :
    (∀ p earlier, .signal .tick .kill p :: earlier <:+ (m.procs i).past → AskedToStop p earlier) ∧
      ∀ p st earlier, .reaped p st .stopped :: earlier <:+ (m.procs i).past →
        AskedToStop p earlier := by
  have hrec := (marked_local.run h i).2.intended
  exact ⟨fun p earlier hs => (hrec _ _ hs).1 p rfl, fun p st earlier hs => (hrec _ _ hs).2 p st rfl⟩

/-- Process `100` is started, asked at time 10 to stop within a second, and still there at
the tick of time 20. -/
def overdue : Manager :=
  [.startAll, .shutdownOne [97] 1000, .tick].foldl Manager.perform ((pmInit
    [{ clock := 10 }, { fork := some 100 }, { clock := 10 }, { clock := 20 }]).perform
      (.add { name := [97] }))

theorem overdue_run : Run MarkOver overdue := by
  unfold overdue
  simp only [List.foldl_cons, List.foldl_nil]
  refine .call .tick (.call (.shutdownOne _ _) (.call .startAll (.call (.add _) (.init _) ?_) ?_) ?_) ?_
  · exact fun _ hs => hs.elim
  · show ∀ i, i ∈ _ → MarkOver _
    decide +kernel
  · exact fun _ hs => hs.elim
  · exact fun _ hs => hs.elim

theorem forced_kill_overdue : .signal .tick .kill 100 :: (overdue.procs 0).past.tail <:+
      (overdue.procs 0).past ∧ AskedToStop 100 (overdue.procs 0).past.tail := by
  have hkill : .signal .tick .kill 100 :: (overdue.procs 0).past.tail <:+ (overdue.procs 0).past := by
    decide +kernel
  exact ⟨hkill, (forced_kill_intended overdue_run 0).1 100 _ hkill⟩

/-- Process `100` is asked to stop, taken by `pm_shutdown_all`, and `101` is started in its slot. -/
def inherited : Manager :=
  [.startAll, .shutdownOne [97] 1000, .shutdownAll 3000, .startOne [97], .tick].foldl
    Manager.perform ((pmInit
      [{ clock := 10 }, { fork := some 100 }, { clock := 10 },
        {}, { exits := [(100, .signaled 15)], pick := 100 },
        { clock := 12 }, { fork := some 101 }, { clock := 20 }]).perform (.add { name := [97] }))

theorem inherited_run : Run (fun _ => True) inherited := by
  unfold inherited
  simp only [List.foldl_cons, List.foldl_nil]
  exact .call _ (.call _ (.call _ (.call _ (.call _ (.call _ (.init _) fun _ _ => trivial)
    fun _ _ => trivial) fun _ _ => trivial) fun _ _ => trivial) fun _ _ => trivial) fun _ _ => trivial

/-- Nobody has asked process `101` to stop, and `pm_tick` kills it. -/
theorem forced_kill_inherited : ∃ m, Run (fun _ => True) m ∧ ∃ i p earlier,
    .signal .tick .kill p :: earlier <:+ (m.procs i).past ∧ ¬AskedToStop p earlier := by
  refine ⟨inherited, inherited_run, 0, 101, (inherited.procs 0).past.tail, by decide +kernel, ?_⟩
  have hnone : calledSinceStart .shutdownOne (inherited.procs 0).past.tail = false := by
    decide +kernel
  exact fun h => by simp [AskedToStop, hnone] at h

end PiDaemon.Process
