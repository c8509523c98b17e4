import PiDaemon.Process.Rate

/-!
# What the supervisor does in the end

The restart policy and the rate limit say what the process manager never does. Here is
what it does: it gives a process up only when the restarts of a window are used up; a
process that is due for a restart is started by the first tick that finds it due, and left
alone until then; and a process that was asked to stop is killed by the first tick behind
its deadline, at most once, and not restarted.
-/

namespace PiDaemon.Process

open Base

/-! ## Giving up -/

/-- Since the entry was `s₀` the events `recent` were recorded; unless the slot has been given
up and nothing runs there, the attempts it counts are the restarts among them. -/
def Entry.Accounted (s₀ s : Entry) : Prop :=
  ∃ recent, s.past = recent ++ s₀.past ∧
    (s.proc.pid = 0 ∧ s.proc.givenUp = true ∨
      Limiter.Accounted restartWindowSec s₀.proc.windowStart (restartTimes recent) s.proc.limiter)

namespace Entry.Accounted

variable {s₀ s s' : Entry}

theorem aside (h : s₀.Accounted s) (hs : s.Aside s')
    (hgiven : s.proc.pid = 0 → s.proc.givenUp = true → s'.proc.pid = 0 ∧ s'.proc.givenUp = true) :
    s₀.Accounted s' := by
  obtain ⟨recent, hpast, hor⟩ := h
  obtain ⟨hlimiter, more, hmore, hnone⟩ := hs
  refine ⟨more ++ recent, by rw [hmore, hpast, List.append_assoc], ?_⟩
  rcases hor with ⟨hidle, hup⟩ | hcount
  · exact .inl (hgiven hidle hup)
  · unfold restartTimes at hnone hcount ⊢
    rw [List.filterMap_append, hnone, List.nil_append, hlimiter]
    exact .inr hcount

theorem reap (h : s₀.Accounted s) (hrun : s.proc.pid ≠ 0) (st : Status) (now : ℤ) :
    s₀.Accounted (s.reap st now) := by
  by_cases hasked : s.proc.shuttingDown = false ∧ s.proc.shouldRestart st = true
  · obtain ⟨recent, hpast, hor⟩ := h
    have hcount := hor.resolve_left fun hidle => hrun hidle.1
    have hjudge : ({ s.proc with pid := 0 } : ManagedProcess).judge st now =
        ({ s.proc with pid := 0 } : ManagedProcess).schedule now :=
      judge_schedule now hasked.1 hasked.2
    refine ⟨.reaped s.proc.pid st ({ s.proc with pid := 0 }.judge st now).2 :: recent,
      by rw [Entry.reap, hpast, List.cons_append], ?_⟩
    rcases schedule_cases { s.proc with pid := 0 } now with ⟨-, hgiven, -⟩ | ⟨-, a, hrestart⟩
    · exact .inl ⟨Manager.judge_pid _ _ _, by rw [Entry.reap, hjudge, hgiven]⟩
    · right
      rw [Entry.reap, hjudge, hrestart, schedule_limiter]
      exact hcount.hit now
  · obtain ⟨hlimiter, hnone⟩ := judge_unasked { s.proc with pid := 0 } st now hasked
    exact h.aside (.one _ _ hlimiter (hnone _)) fun h0 => absurd h0 hrun

theorem step (h : s₀.Accounted s) (hstep : Entry.Step (fun _ => False) s s') :
    s₀.Accounted s' := by
  cases hstep with
  | start _ _ _ hmay | refresh _ hmay | running hmay => exact hmay.elim
  | tickStart now answer _ _ hup =>
    exact h.aside (s.fork_aside _ _ _) fun _ hgiven => absurd hgiven (by simp [hup])
  | tickKill _ _ hrun => exact h.aside (.one _ _ rfl rfl) fun h0 => absurd h0 hrun
  | reap st now hrun => exact h.reap hrun st now
  | abandon => exact h.aside s.abandon_aside fun h0 _ => ⟨h0, rfl⟩
  | collect hrun => exact h.aside (.one _ _ rfl rfl) fun h0 => absurd h0 hrun
  | straggler hrun => exact h.aside (s.straggler_aside _) fun h0 => absurd h0 hrun
  | stopIdle => exact h.aside (.one _ _ rfl rfl) fun h0 _ => ⟨h0, rfl⟩
  | stop now timeoutMs hrun => exact h.aside (s.stop_aside _ _) fun h0 => absurd h0 hrun

end Entry.Accounted

/-- `pm_reap` does nothing to a slot where nothing runs. -/
theorem pmReap_idle {m : Manager} {i : Slot} (h0 : 0 ∉ m.kernel.pids) (hidle : (m.proc i).pid = 0) :
    m.pmReap.1.procs i = m.procs i := by
  refine (Manager.reapLoop_invariant (I := fun m' => m'.procs i = m.procs i ∧
    0 ∉ m'.kernel.pids) ?_ ?_ _ ⟨rfl, h0⟩).1
  · rintro m' k ⟨hentry, h0⟩ hwait
    exact ⟨hentry, by rwa [Manager.withKernel_kernel, m'.kernel.waitpid_none hwait]⟩
  · rintro m' k p st ⟨hentry, h0⟩ hwait
    obtain ⟨hchild, hpids⟩ := m'.kernel.waitpid_some hwait
    have hp : p ≠ 0 := fun hp => h0 (hp ▸ hchild)
    have hstep : Manager.Step (fun _ => True) m' ((m'.withKernel k).reapExit p st) :=
      Manager.reapExit_step hp hchild hpids
    refine ⟨?_, hstep.pids_pos h0⟩
    rcases (m'.withKernel k).reapExit_entry i hp st with hsame | ⟨hrun, -⟩
    · rwa [hsame]
    · rw [Manager.withKernel_proc, Manager.proc, hentry] at hrun
      exact absurd hidle hrun

theorem reap_gaveUp {s : Entry} {st : Status} {now : ℤ} {p : Pid}
    (h : (s.reap st now).past = .reaped p st .gaveUp :: s.past) :
    s.proc.shouldRestart st = true ∧
      restartMaxAttempts < (s.proc.limiter.hit restartWindowSec now).count := by
  have hverdict : ({ s.proc with pid := 0 }.judge st now).2 = .gaveUp := by
    simp only [Entry.reap, List.cons.injEq, Event.reaped.injEq] at h
    exact h.1.2.2
  unfold ManagedProcess.judge at hverdict
  split_ifs at hverdict with hdown hshould
  have hasked : s.proc.shouldRestart st = true := by
    have hnot := eq_false_of_ne_true hshould
    rwa [Bool.not_eq_false'] at hnot
  refine ⟨hasked, ?_⟩
  rcases schedule_cases { s.proc with pid := 0 } now with ⟨hmany, -⟩ | ⟨-, a, hrestart⟩
  · exact hmany
  · cases hrestart.symm.trans hverdict

/-- Let a slot have its attempts reset in `m₀`, as a start does, and let no start be asked for
since. When `pm_reap` gives the slot up for too many attempts, the exit asked for a restart,
it came not later than `DAEMON_RESTART_WINDOW_SEC` behind `window_start`, and
`DAEMON_RESTART_MAX_ATTEMPTS` restarts had been scheduled in that window. -/
theorem gives_up_only_when_used_up {m₀ m : Manager} (hrun : Run (fun _ => True) m₀) {i : Slot}
    (hi : i ∈ m₀.slots) (hfresh : (m₀.proc i).attempts = 0) (cs : List Call)
    (hcs : ∀ c ∈ cs, c.isStart = false) (hm : cs.foldl Manager.perform m₀ = m) :
    ∃ recent, (m.procs i).past = recent ++ (m₀.procs i).past ∧
      ∀ p st, (m.pmReap.1.procs i).past = .reaped p st .gaveUp :: (m.procs i).past →
        (m.proc i).shouldRestart st = true ∧
        (∃ now, m.pmReap.1.procs i = (m.procs i).reap st now ∧
          now - (m.proc i).windowStart ≤ restartWindowSec) ∧
        restartMaxAttempts ≤ (Limiter.openings restartWindowSec (m₀.proc i).windowStart
          (restartTimes recent)).count (m.proc i).windowStart := by
  have hstart : (m₀.procs i).Accounted (m₀.procs i) :=
    ⟨[], rfl, .inr ⟨rfl, by simp [restartTimes, ManagedProcess.limiter, hfresh]⟩⟩
  have hend : Run (fun _ => True) m := hm ▸ hrun.calls hcs
  have hsteps := Manager.calls_steps hcs hrun.pids_pos
  rw [hm] at hsteps
  obtain ⟨recent, hpast, hor⟩ :=
    (Manager.steps_slot (fun hs hst => hs.step hst) hsteps hi hstart).2
  refine ⟨recent, hpast, fun p st hgave => ?_⟩
  rcases Manager.pmReap_entry i hend.pids_pos with hsame | ⟨st', now, hreap⟩
  · rw [hsame] at hgave
    simp at hgave
  · rw [hreap] at hgave
    have heq : (m.proc i).pid = p ∧ st' = st := by
      simp only [Entry.reap, List.cons.injEq, Event.reaped.injEq] at hgave
      exact ⟨hgave.1.1, hgave.1.2.1⟩
    obtain ⟨rfl, rfl⟩ := heq
    have hrunning : (m.proc i).pid ≠ 0 := by
      intro hidle
      have hsame := pmReap_idle hend.pids_pos hidle
      rw [← hreap, hsame] at hgave
      simp at hgave
    obtain ⟨hasked, hmany⟩ := reap_gaveUp hgave
    have hcount := hor.resolve_left fun hidle => hrunning hidle.1
    obtain ⟨hwithin, hfull⟩ := hcount.refused (by decide) hmany
    exact ⟨hasked, ⟨now, hreap, hwithin⟩, hfull⟩

def crashedFive : Manager :=
  [.reap, .tick, .reap, .tick, .reap, .tick, .reap, .tick, .reap, .tick].foldl Manager.perform crashing

theorem crashing_run : Run (fun _ => True) crashing :=
  .call .startAll (.call (.add _) (.init _) fun _ hs => hs.elim) fun _ _ => trivial

theorem gives_up_crashing : ∃ recent, (crashedFive.procs 0).past = recent ++ (crashing.procs 0).past ∧
    (crashedFive.pmReap.1.procs 0).past =
      .reaped 105 (.exited 1) .gaveUp :: (crashedFive.procs 0).past ∧
    restartMaxAttempts ≤ (Limiter.openings restartWindowSec (crashing.proc 0).windowStart
      (restartTimes recent)).count (crashedFive.proc 0).windowStart := by
  obtain ⟨recent, hpast, hgave⟩ := gives_up_only_when_used_up (i := 0) crashing_run
    (by decide +kernel) (by decide +kernel) _ (by decide) (rfl : _ = crashedFive)
  have hlast : (crashedFive.pmReap.1.procs 0).past =
      .reaped 105 (.exited 1) .gaveUp :: (crashedFive.procs 0).past := by decide +kernel
  exact ⟨recent, hpast, hlast, (hgave _ _ hlast).2.2⟩

/-! ## Ticks -/

inductive Entry.Ticked (now : ℤ) (s : Entry) : Entry → Prop
  | kill : s.proc.shuttingDown = true → s.proc.pid ≠ 0 → s.proc.killSent = false →
      s.proc.killDeadline ≤ now → Ticked now s s.forceKill
  | fork (answer : Option Pid) : s.proc.shuttingDown = false → s.proc.pid = 0 →
      s.proc.givenUp = false → s.proc.nextStart ≤ now → answer ≠ some 0 →
      Ticked now s (s.fork .tick now answer)
  | wait : (s.proc.shuttingDown = true → s.proc.pid ≠ 0 → s.proc.killSent = false →
        now < s.proc.killDeadline) →
      (s.proc.shuttingDown = false → s.proc.pid = 0 → s.proc.givenUp = false →
        now < s.proc.nextStart) → Ticked now s s

theorem tickSlot_ticked (now : ℤ) (m : Manager) (i : Slot) :
    Entry.Ticked now (m.procs i) ((Manager.tickSlot now m i).procs i) := by
  unfold Manager.tickSlot
  dsimp only
  split_ifs with hdown hkill hstart
  · simp only [Manager.set_procs, if_true]
    exact .kill hdown hkill.1.ne' hkill.2.1 hkill.2.2
  · refine .wait (fun _ h0 hsent => ?_) fun hup => absurd hdown (by simp [hup])
    exact not_le.mp fun hle => hkill ⟨Nat.pos_of_ne_zero h0, hsent, hle⟩
  · simp only [Manager.startOne, Manager.withKernel_procs, Manager.set_procs, if_true]
    exact .fork _ (by simpa using hdown) hstart.1 hstart.2.1 hstart.2.2 m.kernel.fork_ne_zero
  · refine .wait (fun hd => absurd hd hdown) fun _ h0 hgiven => ?_
    exact not_le.mp fun hle => hstart ⟨h0, hgiven, hle⟩

theorem pmTick_ticked (m : Manager) {i : Slot} (hi : i ∈ m.slots) :
    Entry.Ticked m.kernel.time.1 (m.procs i) (m.pmTick.procs i) := by
  refine foldl_each_rel (v := Manager.procs) (R := Entry.Ticked m.kernel.time.1)
    (f := Manager.tickSlot m.kernel.time.1) (tickSlot_ticked _) (fun m' j k hk => ?_) m.slots_nodup
    (m.withKernel m.kernel.time.2) hi
  unfold Manager.tickSlot
  dsimp only
  split_ifs <;> simp [Manager.startOne, hk]

/-! ### The calls of the main loop -/

def Call.Routine (c : Call) : Prop := c = .tick ∨ c = .reap

instance (c : Call) : Decidable c.Routine := inferInstanceAs (Decidable (_ ∨ _))

/-- Every tick among the calls reads a clock that is `good`. -/
def Manager.TicksRead (good : ℤ → Prop) : Manager → List Call → Prop
  | _, [] => True
  | m, c :: cs => (c = .tick → good m.kernel.time.1) ∧ TicksRead good (m.perform c) cs

instance Manager.decidableTicksRead (good : ℤ → Prop) [DecidablePred good] :
    ∀ (m : Manager) (cs : List Call), Decidable (m.TicksRead good cs)
  | _, [] => inferInstanceAs (Decidable True)
  | m, c :: cs =>
    have := decidableTicksRead good (m.perform c) cs
    inferInstanceAs (Decidable ((c = .tick → good m.kernel.time.1) ∧ TicksRead good (m.perform c) cs))

theorem Manager.ticksRead_true (cs : List Call) : ∀ m : Manager, m.TicksRead (fun _ => True) cs := by
  induction cs with
  | nil => exact fun _ => trivial
  | cons c cs ih => exact fun m => ⟨fun _ => trivial, ih _⟩

/-- The invariant rule for one slot in the main loop. -/
theorem routine_entry {i : Slot} (good : ℤ → Prop) (P : Entry → Prop)
    (htick : ∀ {s s' now}, P s → good now → Entry.Ticked now s s' → P s')
    (hreap : ∀ {s st now}, P s → s.proc.pid ≠ 0 → P (s.reap st now)) {cs : List Call} :
    ∀ {m : Manager}, Run (fun _ => True) m → i ∈ m.slots → P (m.procs i) → (∀ c ∈ cs, c.Routine) →
      m.TicksRead good cs → Run (fun _ => True) (cs.foldl Manager.perform m) ∧
        i ∈ (cs.foldl Manager.perform m).slots ∧ P ((cs.foldl Manager.perform m).procs i) := by
  induction cs with
  | nil => exact fun hrun hi hs _ _ => ⟨hrun, hi, hs⟩
  | cons c cs ih =>
    intro m hrun hi hs hcs hread
    obtain ⟨hc, hcs⟩ := List.forall_mem_cons.mp hcs
    have hnone (m : Manager) : m.Admits (fun _ => True) c := fun _ _ => trivial
    have hi' : i ∈ (m.perform c).slots := (Manager.steps_slot (P := fun _ => True)
      (fun _ _ => trivial) (Manager.perform_steps hrun.pids_pos (hnone m)) hi trivial).1
    refine ih (.call c hrun (hnone m)) hi' ?_ hcs hread.2
    rcases hc with rfl | rfl
    · exact htick hs (hread.1 rfl) (pmTick_ticked m hi)
    · by_cases hidle : (m.proc i).pid = 0
      · change P (m.pmReap.1.procs i)
        rwa [pmReap_idle hrun.pids_pos hidle]
      · change P (m.pmReap.1.procs i)
        rcases Manager.pmReap_entry i hrun.pids_pos with hsame | ⟨st, now, hreaped⟩
        · rwa [hsame]
        · rw [hreaped]
          exact hreap hs hidle

/-! ## Restarts that are due -/

/-- The latest process of the slot has exited and a restart was scheduled, at this time and
with this count of attempts; since then nothing happened but ticks whose `fork()` failed. -/
def awaiting : List Event → Option (ℤ × ℕ)
  | .reaped _ _ (.restart t attempts) :: _ => some (t, attempts)
  | .fork .tick _ none :: past => awaiting past
  | _ => none

def dueTime (t : ℤ) (attempts : ℕ) : ℤ := t + ⌈((restartBackoffMs * attempts : ℤ) : ℚ) / 1000⌉

theorem countAttempt_frame (mp : ManagedProcess) (now : ℤ) :
    (mp.countAttempt now).givenUp = mp.givenUp ∧
      (mp.countAttempt now).shuttingDown = mp.shuttingDown := by
  unfold ManagedProcess.countAttempt
  split_ifs <;> exact ⟨rfl, rfl⟩

theorem judge_verdict_restart {mp : ManagedProcess} {st : Status} {now t : ℤ} {a : ℕ}
    (h : (mp.judge st now).2 = .restart t a) :
    mp.shuttingDown = false ∧ (mp.judge st now).1.shuttingDown = false ∧
      (mp.judge st now).1.givenUp = mp.givenUp ∧ (mp.judge st now).1.nextStart = dueTime t a := by
  unfold ManagedProcess.judge at h ⊢
  split_ifs at h ⊢ with hdown hshould
  obtain ⟨hgiven, hup⟩ := countAttempt_frame mp now
  unfold ManagedProcess.schedule at h ⊢
  dsimp only at h ⊢
  split_ifs at h ⊢ with hmany
  obtain ⟨rfl, rfl⟩ := (Verdict.restart.injEq ..).mp h
  have hup' : mp.shuttingDown = false := by simpa using hdown
  exact ⟨hup', hup.trans hup', hgiven, by rw [dueTime, backoff_eq_ceil]⟩

/-- A process that runs and is not being stopped is not given up, and a restart that was
scheduled is still to come, unless `pm_shutdown_all` was called. -/
structure Awaits (s : Entry) : Prop where
  running : NotAbandoned s → s.proc.pid ≠ 0 → s.proc.shuttingDown = false → s.proc.givenUp = false
  waiting {t : ℤ} {a : ℕ} : NotAbandoned s → awaiting s.past = some (t, a) → s.proc.pid = 0 ∧
    s.proc.shuttingDown = false ∧ s.proc.givenUp = false ∧ s.proc.nextStart = dueTime t a

theorem Awaits.reap {s : Entry} (h : Awaits s) (hrun : s.proc.pid ≠ 0) (st : Status) (now : ℤ) :
    Awaits (s.reap st now) where
  running _ h0 := absurd (Manager.judge_pid _ _ _) h0
  waiting {t a} hnot hwait := by
    have hnot' : NotAbandoned s := fun hmem => hnot (List.mem_cons_of_mem _ hmem)
    have hverdict : ({ s.proc with pid := 0 }.judge st now).2 = .restart t a := by
      unfold Entry.reap at hwait
      cases hv : ({ s.proc with pid := 0 }.judge st now).2 with
      | restart t' a' =>
        simp only [hv, awaiting, Option.some.injEq, Prod.mk.injEq] at hwait
        rw [hwait.1, hwait.2]
      | stopped | finished | gaveUp => simp [hv, awaiting] at hwait
    obtain ⟨hup, hup', hgiven, hnext⟩ := judge_verdict_restart hverdict
    exact ⟨Manager.judge_pid _ _ _, hup', hgiven.trans (h.running hnot' hrun hup), hnext⟩

theorem awaits_local : Entry.Local (fun _ => True) Awaits where
  fresh := ⟨fun _ h0 => absurd rfl h0, fun _ hwait => by cases hwait⟩
  added _ := ⟨fun _ h0 => absurd rfl h0, fun _ hwait => by cases hwait⟩
  step {s s'} h hstep := by
    have htail {mp : ManagedProcess} {e : Event} (hnot : NotAbandoned ⟨mp, e :: s.past⟩) :
        NotAbandoned s := fun hmem => hnot (List.mem_cons_of_mem _ hmem)
    cases hstep with
    | start op now answer _ hop =>
      refine ⟨fun _ _ _ => rfl, fun _ hwait => ?_⟩
      rcases hop with rfl | rfl <;> cases answer <;>
        simp [Entry.fork, Entry.reset, Entry.note, awaiting] at hwait
    | refresh now =>
      exact ⟨fun _ _ _ => rfl, fun _ hwait => by simp [Entry.note, Entry.reset, awaiting] at hwait⟩
    | running =>
      exact ⟨fun hnot => h.running (htail hnot), fun _ hwait => by simp [Entry.note, awaiting] at hwait⟩
    | tickStart now answer hup hidle hgiven =>
      refine ⟨fun _ _ _ => hgiven, fun {t a} hnot hwait => ?_⟩
      cases answer with
      | none => exact h.waiting (htail hnot) hwait
      | some p => simp [Entry.fork, awaiting] at hwait
    | tickKill _ hdown =>
      refine ⟨fun _ _ hup => ?_, fun _ hwait => by simp [Entry.forceKill, awaiting] at hwait⟩
      simp [Entry.forceKill, hdown] at hup
    | reap st now hrun => exact h.reap hrun st now
    | abandon =>
      exact ⟨fun hnot => absurd (Manager.abandon_past s) hnot,
        fun hnot => absurd (Manager.abandon_past s) hnot⟩
    | collect _ hall =>
      have hmem : .call .shutdownAll ∈ s.collect.past := List.mem_cons_of_mem _ hall
      exact ⟨fun hnot => absurd hmem hnot, fun hnot => absurd hmem hnot⟩
    | straggler _ hall =>
      have hmem : .call .shutdownAll ∈ (s.note (.signal .shutdownAll .kill s.proc.pid)).collect.past :=
        List.mem_cons_of_mem _ (List.mem_cons_of_mem _ hall)
      exact ⟨fun hnot => absurd hmem hnot, fun hnot => absurd hmem hnot⟩
    | stopIdle hidle =>
      exact ⟨fun _ h0 => absurd hidle h0, fun _ hwait => by simp [Entry.stopIdle, awaiting] at hwait⟩
    | stop =>
      exact ⟨fun _ _ hup => by simp [Entry.stop] at hup,
        fun _ hwait => by simp [Entry.stop, awaiting] at hwait⟩

/-- Let the latest process of a slot have exited and a restart be scheduled at time `t`. In the
main loop the slot is left as it is by every reap and by every tick before the restart is
due, and the first tick that finds it due calls `fork()` for it. If that succeeds, the new
child is in the slot; if not, the restart stays due for the next tick. -/
theorem restarted_when_due {m : Manager} (hrun : Run (fun _ => True) m) {i : Slot}
    (hi : i ∈ m.slots) (hnot : NotAbandoned (m.procs i)) {t : ℤ} {a : ℕ}
    (hwait : awaiting (m.procs i).past = some (t, a)) (cs : List Call) (hcs : ∀ c ∈ cs, c.Routine)
    (hearly : m.TicksRead (· < dueTime t a) cs) {m' : Manager}
    (hm' : m' = cs.foldl Manager.perform m) :
    m'.procs i = m.procs i ∧
      (dueTime t a ≤ m'.kernel.time.1 → ∃ answer,
        m'.pmTick.procs i = (m.procs i).fork .tick m'.kernel.time.1 answer ∧
        (∀ p, answer = some p → (m'.pmTick.proc i).pid = p ∧ p ∈ m'.pmTick.kernel.pids) ∧
        (answer = none → awaiting (m'.pmTick.procs i).past = some (t, a))) := by
  obtain ⟨hidle, hup, hgiven, hnext⟩ := (awaits_local.run hrun i).waiting hnot hwait
  have htick {s s' : Entry} {now : ℤ} (hs : s = m.procs i) (hearly : now < dueTime t a)
      (hticked : s.Ticked now s') : s' = m.procs i := by
    subst hs
    cases hticked with
    | kill hdown => simp [hup] at hdown
    | fork _ _ _ _ hdue => exact absurd hdue (by rw [hnext]; exact not_le.mpr hearly)
    | wait => rfl
  have hreap {s : Entry} {st : Status} {now : ℤ} (hs : s = m.procs i) (h0 : s.proc.pid ≠ 0) :
      s.reap st now = m.procs i := absurd (hs ▸ hidle) h0
  obtain ⟨hrun', hi', hsame⟩ := routine_entry (· < dueTime t a) (· = m.procs i) htick hreap hrun hi
    rfl hcs hearly
  rw [← hm'] at hrun' hi' hsame
  refine ⟨hsame, fun hdue => ?_⟩
  have hticked := pmTick_ticked m' hi'
  rw [hsame] at hticked
  generalize hs : m'.pmTick.procs i = s at hticked
  cases hticked with
  | kill hdown => simp [hup] at hdown
  | wait _ hstart => exact absurd (hstart hup hidle hgiven) (by rw [hnext]; exact not_lt.mpr hdue)
  | fork answer _ _ _ _ hzero =>
    refine ⟨answer, rfl, fun p hp => ?_, fun hnone => ?_⟩
    · have hmatched : m'.pmTick.Matched :=
        Run.invariant Manager.matched_init Manager.Matched.step (.call .tick hrun' fun _ _ => trivial)
      have hpid : (m'.pmTick.proc i).pid = p := by rw [Manager.proc, hs, hp]; rfl
      have hp0 : p ≠ 0 := fun h0 => hzero (h0 ▸ hp)
      exact ⟨hpid, (hmatched.children p).mpr ⟨hp0, i, hpid⟩⟩
    · rw [hnone]
      exact hwait

/-- Process `100` fails, its exit is taken at time 20, the first tick comes at that time too
and the second one at time 21, when its first `fork()` fails. -/
def failedOnce : Manager :=
  [.startAll, .reap].foldl Manager.perform ((pmInit
    [{ clock := 10 }, { fork := some 100 }, { exits := [(100, .exited 1)], pick := 100 },
      { clock := 20 }, {}, { clock := 20 }, { clock := 21 }, {}]).perform (.add { name := [97] }))

theorem failedOnce_run : Run (fun _ => True) failedOnce :=
  .call .reap (.call .startAll (.call (.add _) (.init _) fun _ hs => hs.elim) fun _ _ => trivial)
    fun _ hs => hs.elim

theorem restarted_failedOnce : awaiting (failedOnce.procs 0).past = some (20, 1) ∧
    failedOnce.pmTick.procs 0 = failedOnce.procs 0 ∧ ∃ answer,
      failedOnce.pmTick.pmTick.procs 0 = (failedOnce.procs 0).fork .tick 21 answer := by
  have hwait : awaiting (failedOnce.procs 0).past = some (20, 1) := by decide +kernel
  have hdue : dueTime 20 1 = 21 := by
    rw [dueTime, ← backoff_eq_ceil]
    decide
  have hclock : failedOnce.pmTick.kernel.time.1 = 21 := by decide +kernel
  obtain ⟨hsame, hfork⟩ := restarted_when_due (i := 0) failedOnce_run (by decide +kernel)
    (by decide +kernel) hwait [.tick] (by decide) (by rw [hdue]; decide +kernel) rfl
  obtain ⟨answer, hanswer, -⟩ := hfork (by rw [hdue]; exact hclock.ge)
  exact ⟨hwait, hsame, answer, by rw [← hclock]; exact hanswer⟩

/-! ## Processes that were asked to stop -/

/-- The process of the slot was asked to stop and has not been killed. -/
structure Entry.Stopping (s : Entry) : Prop where
  down : s.proc.shuttingDown = true
  givenUp : s.proc.givenUp = true
  unsent : s.proc.killSent = false
  running : s.proc.pid ≠ 0

inductive Entry.Ending (s : Entry) : Entry → Prop
  | asked : Ending s s
  | killed : Ending s s.forceKill
  | stopped (st : Status) : Ending s (s.reap st 0)
  | forced (st : Status) : Ending s (s.forceKill.reap st 0)

/-- What `pm_reap` makes of a process that was asked to stop. -/
theorem reap_stopping {s : Entry} (hdown : s.proc.shuttingDown = true) (st : Status) (now : ℤ) :
    s.reap st now = s.reap st 0 ∧ (s.reap st 0).proc =
      { s.proc with pid := 0, shuttingDown := false, killSent := false } := by
  simp [Entry.reap, ManagedProcess.judge, hdown]

namespace Entry.Stopping

variable {s s' s'' : Entry} (h : s.Stopping)
include h

theorem ended_idle (hend : s.Ending s') (h0 : s'.proc.pid = 0) :
    s'.proc.shuttingDown = false ∧ s'.proc.givenUp = true := by
  cases hend with
  | asked | killed => exact absurd h0 h.running
  | stopped st =>
    rw [(reap_stopping h.down st 0).2]
    exact ⟨rfl, h.givenUp⟩
  | forced st =>
    rw [(reap_stopping (s := s.forceKill) h.down st 0).2]
    exact ⟨rfl, h.givenUp⟩

theorem reap (hend : s.Ending s') (h0 : s'.proc.pid ≠ 0) (st : Status) (now : ℤ) :
    s.Ending (s'.reap st now) := by
  cases hend with
  | asked =>
    rw [(reap_stopping h.down st now).1]
    exact .stopped st
  | killed =>
    rw [(reap_stopping (s := s.forceKill) h.down st now).1]
    exact .forced st
  | stopped | forced => exact absurd (Manager.judge_pid _ _ _) h0

theorem tick (hend : s.Ending s') {now : ℤ} (hticked : s'.Ticked now s'') : s.Ending s'' := by
  cases hticked with
  | wait => exact hend
  | fork _ hup h0 hgiven =>
    exact absurd (h.ended_idle hend h0).2 (by simp [hgiven])
  | kill hdown hrun hsent =>
    cases hend with
    | asked => exact .killed
    | killed => simp [Entry.forceKill] at hsent
    | stopped | forced => exact absurd (Manager.judge_pid _ _ _) hrun

theorem tick_early (hend : s' = s ∨ ∃ st, s' = s.reap st 0) {now : ℤ}
    (hearly : now < s.proc.killDeadline) (hticked : s'.Ticked now s'') :
    s'' = s ∨ ∃ st, s'' = s.reap st 0 := by
  have hended : s.Ending s' := by
    rcases hend with rfl | ⟨st, rfl⟩
    · exact .asked
    · exact .stopped st
  cases hticked with
  | wait => exact hend
  | fork _ _ h0 hgiven => exact absurd (h.ended_idle hended h0).2 (by simp [hgiven])
  | kill _ hrun _ hlate =>
    rcases hend with rfl | ⟨st, rfl⟩
    · exact absurd hlate (not_le.mpr hearly)
    · exact absurd (Manager.judge_pid _ _ _) hrun

theorem reap_early (hend : s' = s ∨ ∃ st, s' = s.reap st 0) (h0 : s'.proc.pid ≠ 0) (st : Status)
    (now : ℤ) : s'.reap st now = s ∨ ∃ st', s'.reap st now = s.reap st' 0 := by
  rcases hend with rfl | ⟨st, rfl⟩
  · exact .inr ⟨st, (reap_stopping h.down st now).1⟩
  · exact absurd (Manager.judge_pid _ _ _) h0

end Entry.Stopping

/-- A running process is asked to stop by `pm_shutdown_one`, and the main loop goes on. Until a
tick reads the clock at or behind the deadline the slot is as it was, or its exit is taken
for an intentional stop; the first such tick kills the process if it is still there. It is
killed at most once, and nothing else happens to the slot: in particular it is not started. -/
theorem stopped_then_killed {m m₁ m' : Manager} (hrun : Run (fun _ => True) m) {name : List UInt8}
    {i : Slot} (hfind : m.findByName name = some i) (hpid : (m.proc i).pid ≠ 0) (timeoutMs : ℤ)
    (hm₁ : m₁ = (m.pmShutdownOne name timeoutMs).1) (cs : List Call) (hcs : ∀ c ∈ cs, c.Routine)
    (hm' : m' = cs.foldl Manager.perform m₁) :
    m₁.procs i = (m.procs i).stop m.kernel.time.1 timeoutMs ∧
      (m₁.procs i).Ending (m'.procs i) ∧
      (m₁.TicksRead (· < (m₁.proc i).killDeadline) cs →
        m'.procs i = m₁.procs i ∨ ∃ st, m'.procs i = (m₁.procs i).reap st 0) ∧
      (m'.procs i = m₁.procs i → (m₁.proc i).killDeadline ≤ m'.kernel.time.1 →
        m'.pmTick.procs i = (m₁.procs i).forceKill) := by
  have hentry : m₁.procs i = (m.procs i).stop m.kernel.time.1 timeoutMs := by
    rw [hm₁, Manager.pmShutdownOne, hfind]
    simp [hpid]
  have hstop : (m₁.procs i).Stopping := by
    rw [hentry]
    exact ⟨rfl, rfl, rfl, hpid⟩
  have hrun₁ : Run (fun _ => True) m₁ := hm₁ ▸ .call (.shutdownOne name timeoutMs) hrun fun _ _ => trivial
  have hi : i ∈ m₁.slots := by
    have hi := Manager.findByName_mem hfind
    rw [hm₁, Manager.pmShutdownOne, hfind]
    simpa [hpid] using hi
  obtain ⟨-, hi', hend⟩ := routine_entry (fun _ => True) ((m₁.procs i).Ending ·)
    (fun hs _ ht => hstop.tick hs ht) (fun hs h0 => hstop.reap hs h0 _ _) hrun₁ hi .asked hcs
    (Manager.ticksRead_true cs m₁)
  rw [← hm'] at hi' hend
  refine ⟨hentry, hend, fun hearly => ?_, fun hsame hlate => ?_⟩
  · have hcalm := (routine_entry (· < (m₁.proc i).killDeadline)
      (fun s => s = m₁.procs i ∨ ∃ st, s = (m₁.procs i).reap st 0) (fun hs ht => hstop.tick_early hs ht)
      (fun hs h0 => hstop.reap_early hs h0 _ _) hrun₁ hi (.inl rfl) hcs hearly).2.2
    rwa [← hm'] at hcalm
  · have hticked := pmTick_ticked m' hi'
    rw [hsame] at hticked
    generalize m'.pmTick.procs i = s at hticked
    cases hticked with
    | kill => rfl
    | fork _ hup => simp [hstop.down] at hup
    | wait hkill => exact absurd (hkill hstop.down hstop.running hstop.unsent) (not_lt.mpr hlate)

/-- Process `100` is running; it is not gone at time 11, and at time 12 it still is not. -/
def stubborn : Manager :=
  ((pmInit [{ clock := 10 }, { fork := some 100 }, { clock := 10 }, { clock := 11 }, {},
    { clock := 12 }]).perform (.add { name := [97] })).perform .startAll

theorem stopped_then_killed_stubborn :
    let asked := (stubborn.pmShutdownOne [97] 1500).1
    asked.procs 0 = (stubborn.procs 0).stop 10 1500 ∧
      (asked.procs 0).proc.killDeadline = 12 ∧
      ([.tick, .reap].foldl Manager.perform asked).procs 0 = asked.procs 0 ∧
      ([.tick, .reap].foldl Manager.perform asked).pmTick.procs 0 = (asked.procs 0).forceKill := by
  intro asked
  have hrun : Run (fun _ => True) stubborn :=
    .call .startAll (.call (.add _) (.init _) fun _ hs => hs.elim) fun _ _ => trivial
  obtain ⟨hentry, -, -, hkill⟩ := stopped_then_killed (i := 0) hrun (by decide +kernel)
    (by decide +kernel) 1500 (rfl : asked = _) [.tick, .reap] (by decide) rfl
  have hsame : ([.tick, .reap].foldl Manager.perform asked).procs 0 = asked.procs 0 := by
    decide +kernel
  exact ⟨hentry, by decide +kernel, hsame, hkill hsame (by decide +kernel)⟩

end PiDaemon.Process
