import Mathlib.Data.Rat.Floor
import PiDaemon.Process.Shutdown

/-!
# The restart policy

`given_up` stands for three things: the policy does not ask for a restart, there were
too many attempts, or the process was stopped on purpose. It is set when the exit is
taken or the stop is asked for, and read when `pm_tick` looks for something to start.
Whatever happens in between, a process that `pm_tick` starts again was not stopped,
ended in a way its policy restarts, and has waited for its back-off, unless somebody
asked for a start.
-/

namespace PiDaemon.Process

open Base

def Op.isStart : Op → Bool
  | .startAll | .startOne => true
  | .tick | .shutdownOne | .shutdownAll => false

def latestExit : List Event → Option (Event × List Event)
  | [] => none
  | .fork _ _ (some _) :: _ => none
  | .reaped p st verdict :: past => some (.reaped p st verdict, past)
  | .collected p :: past => some (.collected p, past)
  | .fork _ _ none :: past => latestExit past
  | .call _ :: past => latestExit past
  | .signal .. :: past => latestExit past

def startedSinceExit : List Event → Bool
  | [] => false
  | .fork _ _ (some _) :: _ => false
  | .reaped .. :: _ => false
  | .collected _ :: _ => false
  | .call op :: past => op.isStart || startedSinceExit past
  | .fork _ _ none :: past => startedSinceExit past
  | .signal .. :: past => startedSinceExit past

/-- A start was asked for after a `pm_shutdown_one` of the latest process. -/
def startedSinceStop : List Event → Bool
  | [] => false
  | .fork _ _ (some _) :: _ => false
  | .call op :: past => (op.isStart && calledSinceStart .shutdownOne past) || startedSinceStop past
  | .fork _ _ none :: past => startedSinceStop past
  | .signal .. :: past => startedSinceStop past
  | .reaped .. :: past => startedSinceStop past
  | .collected _ :: past => startedSinceStop past

def RestartPolicy.Qualifies : RestartPolicy → Status → Prop
  | .always, _ => True
  | .onFailure, .exited code => code ≠ 0
  | .onFailure, .signaled _ => True
  | .never, _ => False

/-- The process ended by itself, in a way the policy restarts, and at time `now` the back-off
counted from the time its exit was taken is over. -/
def RestartDue (policy : RestartPolicy) (now : ℤ) (exit : Event) (before : List Event) : Prop :=
  ∃ p st reapTime attempts, exit = .reaped p st (.restart reapTime attempts) ∧
    unreaped before = some p ∧ calledSinceStart .shutdownOne before = false ∧
    calledSinceStart .shutdownAll before = false ∧ policy.Qualifies st ∧
    attempts ≤ restartMaxAttempts ∧
    reapTime + ⌈((restartBackoffMs * attempts : ℤ) : ℚ) / 1000⌉ ≤ now

/-- If the event is a `fork()` by `pm_tick`, and nobody asked for a start that would explain
it, the previous process was due for a restart. -/
def Obeyed (policy : RestartPolicy) (e : Event) (earlier : List Event) : Prop :=
  ∀ now answer exit before, e = .fork .tick now answer → latestExit earlier = some (exit, before) →
    startedSinceExit earlier = false → startedSinceStop before = false →
      RestartDue policy now exit before

/-- No start reaches a slot after a `pm_shutdown_all`. -/
def NotAbandoned (s : Entry) : Prop := .call .shutdownAll ∉ s.past

instance (s : Entry) : Decidable (NotAbandoned s) := inferInstanceAs (Decidable (¬_))

theorem shouldRestart_qualifies {mp : ManagedProcess} {st : Status} (h : mp.shouldRestart st = true) :
    mp.spec.restart.Qualifies st := by
  unfold ManagedProcess.shouldRestart at h
  cases hp : mp.spec.restart with
  | always => trivial
  | onFailure =>
    cases st with
    | exited code => simpa [hp, Status.failed, RestartPolicy.Qualifies] using h
    | signaled => trivial
  | never => simp [hp] at h

/-- The rounding of `(delay_ms + 999) / 1000`. -/
theorem backoff_eq_ceil (attempts : ℕ) :
    (restartBackoffMs * attempts + 999).tdiv 1000 =
      ⌈((restartBackoffMs * attempts : ℤ) : ℚ) / 1000⌉ := by
  have hnonneg : 0 ≤ restartBackoffMs * (attempts : ℤ) := by
    unfold restartBackoffMs
    positivity
  generalize restartBackoffMs * (attempts : ℤ) = delay at hnonneg ⊢
  rw [Int.tdiv_eq_ediv_of_nonneg (by omega)]
  symm
  rw [Int.ceil_eq_iff]
  have hlow : 1000 * ((delay + 999) / 1000 - 1) < delay := by omega
  have hhigh : delay ≤ 1000 * ((delay + 999) / 1000) := by omega
  have hlow' : (1000 : ℚ) * (((delay + 999) / 1000 : ℤ) - 1) < delay := by exact_mod_cast hlow
  have hhigh' : (delay : ℚ) ≤ 1000 * ((delay + 999) / 1000 : ℤ) := by exact_mod_cast hhigh
  constructor
  · rw [lt_div_iff₀ (by norm_num)]
    linarith
  · rw [div_le_iff₀ (by norm_num)]
    linarith

theorem calledSinceStart_of_notMem {op : Op} {past : List Event} (h : .call op ∉ past) :
    calledSinceStart op past = false := by
  induction past with
  | nil => rfl
  | cons e past ih =>
    obtain ⟨he, hpast⟩ := not_or.mp (mt List.mem_cons.mpr h)
    cases e with
    | call op' =>
      have hne : op' ≠ op := fun hop => he (by rw [hop])
      simp [calledSinceStart, hne, ih hpast]
    | fork _ _ answer =>
      cases answer with
      | none => exact ih hpast
      | some p => rfl
    | signal | reaped | collected => exact ih hpast

theorem RestartDue.mono {policy : RestartPolicy} {now later : ℤ} {exit : Event} {before : List Event}
    (h : RestartDue policy now exit before) (hle : now ≤ later) :
    RestartDue policy later exit before := by
  obtain ⟨p, st, t, n, hexit, hp, hone, hall, hq, hn, ht⟩ := h
  exact ⟨p, st, t, n, hexit, hp, hone, hall, hq, hn, ht.trans hle⟩

theorem judge_spec (mp : ManagedProcess) (st : Status) (now : ℤ) :
    (mp.judge st now).1.spec = mp.spec := by
  unfold ManagedProcess.judge ManagedProcess.schedule ManagedProcess.countAttempt
  dsimp only
  split_ifs <;> rfl

theorem judge_givenUp (mp : ManagedProcess) (h : mp.givenUp = true) (st : Status) (now : ℤ) :
    (mp.judge st now).1.givenUp = true := by
  unfold ManagedProcess.judge ManagedProcess.schedule ManagedProcess.countAttempt
  dsimp only
  split_ifs <;> simp [h]

theorem judge_schedule {mp : ManagedProcess} {st : Status} (now : ℤ) (hup : mp.shuttingDown = false)
    (hshould : mp.shouldRestart st = true) : mp.judge st now = mp.schedule now := by
  simp [ManagedProcess.judge, hup, hshould]

theorem judge_restart (mp : ManagedProcess) {st : Status} {now : ℤ}
    (hup : mp.shuttingDown = false) (hgiven : (mp.judge st now).1.givenUp = false) :
    mp.shouldRestart st = true ∧ ∃ attempts ≤ restartMaxAttempts,
      (mp.judge st now).2 = .restart now attempts ∧ (mp.judge st now).1.nextStart =
        now + ⌈((restartBackoffMs * attempts : ℤ) : ℚ) / 1000⌉ := by
  cases hshould : mp.shouldRestart st with
  | false => simp [ManagedProcess.judge, hup, hshould] at hgiven
  | true =>
    rw [judge_schedule now hup hshould] at hgiven ⊢
    unfold ManagedProcess.schedule at hgiven ⊢
    dsimp only at hgiven ⊢
    split_ifs at hgiven ⊢ with hmany
    exact ⟨rfl, _, not_lt.mp hmany, rfl, by rw [backoff_eq_ceil]⟩

/-! ## Slots that are given up -/

def Event.isFork : Event → Bool
  | .fork .. => true
  | .call _ | .signal .. | .reaped .. | .collected _ => false

/-- The slot is given up, and `fork()` was not called for it since its record was `past`. -/
structure Entry.Retired (past : List Event) (s : Entry) : Prop where
  givenUp : s.proc.givenUp = true
  idle : ∃ more, s.past = more ++ past ∧ ∀ e ∈ more, e.isFork = false

namespace Entry.Retired

variable {s s' : Entry} {past : List Event}

theorem here (h : s.proc.givenUp = true) : s.Retired s.past := ⟨h, [], rfl, by simp⟩

theorem note (h : s.Retired past) (mp : ManagedProcess) (e : Event) (hgiven : mp.givenUp = true)
    (he : e.isFork = false) : Retired past ⟨mp, e :: s.past⟩ := by
  obtain ⟨more, hmore, hidle⟩ := h.idle
  exact ⟨hgiven, e :: more, by simp [hmore], List.forall_mem_cons.mpr ⟨he, hidle⟩⟩

/-- Without a start a slot that is given up stays so. -/
theorem step (h : s.Retired past) (hstep : Entry.Step (fun _ => False) s s') : s'.Retired past := by
  have hgiven := h.givenUp
  cases hstep with
  | start _ _ _ hmay | refresh _ hmay | running hmay => exact hmay.elim
  | tickStart _ _ _ _ hup => exact absurd hup (by simp [hgiven])
  | tickKill => exact h.note _ _ hgiven rfl
  | reap st now => exact h.note _ _ (judge_givenUp { s.proc with pid := 0 } hgiven st now) rfl
  | abandon =>
    have hcalled : Retired past (s.note (.call .shutdownAll)) := h.note _ _ hgiven rfl
    unfold Entry.abandon
    split_ifs
    · exact hcalled.note _ _ rfl rfl
    · exact h.note _ _ rfl rfl
  | collect => exact h.note _ _ hgiven rfl
  | straggler =>
    have hkilled : Retired past (s.note (.signal .shutdownAll .kill s.proc.pid)) :=
      h.note _ _ hgiven rfl
    exact hkilled.note _ _ hgiven rfl
  | stopIdle => exact h.note _ _ rfl rfl
  | stop =>
    have hcalled : Retired past (s.note (.call .shutdownOne)) := h.note _ _ hgiven rfl
    exact hcalled.note _ _ rfl rfl

end Entry.Retired

theorem retired_calls {m : Manager} (h0 : 0 ∉ m.kernel.pids) {i : Slot} (hi : i ∈ m.slots)
    (hgiven : (m.proc i).givenUp = true) {cs : List Call} (hcs : ∀ c ∈ cs, c.isStart = false) :
    ((cs.foldl Manager.perform m).procs i).Retired (m.procs i).past :=
  (Manager.steps_slot (fun hs hst => hs.step hst) (Manager.calls_steps hcs h0) hi (.here hgiven)).2

/-! ## The invariant -/

structure Policed (s : Entry) : Prop where
  abandoned : .call .shutdownAll ∈ s.past → s.proc.givenUp = true
  running : s.proc.pid ≠ 0 → s.proc.shuttingDown = true →
    calledSinceStart .shutdownOne s.past = true
  idle : s.proc.pid = 0 → s.proc.shuttingDown = true → .call .shutdownAll ∈ s.past
  stopping : s.proc.pid ≠ 0 → calledSinceStart .shutdownOne s.past = true →
    startedSinceStop s.past = false → s.proc.shuttingDown = true ∧ s.proc.givenUp = true
  due : s.proc.pid = 0 → s.proc.givenUp = false → ∀ exit before,
    latestExit s.past = some (exit, before) → startedSinceExit s.past = false →
      startedSinceStop before = false → RestartDue s.proc.spec.restart s.proc.nextStart exit before
  obeyed : Recorded (Obeyed s.proc.spec.restart) s.past

theorem obeyed_of_ne {policy : RestartPolicy} {e : Event} {earlier : List Event}
    (h : ∀ now answer, e ≠ .fork .tick now answer) : Obeyed policy e earlier :=
  fun now answer _ _ heq => absurd heq (h now answer)

namespace Policed

variable {s : Entry} {mp : ManagedProcess} (h : Policed s)
include h

/-- A signal is sent; the restart state stays as it is. -/
theorem signal (op : Op) (sig : Signal) (p : Pid) (hspec : mp.spec = s.proc.spec)
    (hpid : mp.pid = s.proc.pid) (hgiven : mp.givenUp = s.proc.givenUp)
    (hdown : mp.shuttingDown = s.proc.shuttingDown) (hnext : mp.nextStart = s.proc.nextStart) :
    Policed ⟨mp, .signal op sig p :: s.past⟩ where
  abandoned hmem := by
    rw [hgiven]
    exact h.abandoned (by simpa using hmem)
  running h0 hd := h.running (hpid ▸ h0) (hdown ▸ hd)
  idle h0 hd := List.mem_cons_of_mem _ (h.idle (hpid ▸ h0) (hdown ▸ hd))
  stopping h0 hc hr := by
    rw [hdown, hgiven]
    exact h.stopping (hpid ▸ h0) hc hr
  due h0 hg := by
    rw [hspec, hnext]
    exact h.due (hpid ▸ h0) (hgiven ▸ hg)
  obeyed := by
    rw [hspec]
    exact recorded_cons.mpr ⟨obeyed_of_ne (by simp), h.obeyed⟩

theorem startRunning {op : Op} (hop : op.isStart = true) (hmay : NotAbandoned s)
    (hrun : s.proc.pid ≠ 0) (hspec : mp.spec = s.proc.spec) (hpid : mp.pid = s.proc.pid)
    (hdown : mp.shuttingDown = s.proc.shuttingDown) : Policed ⟨mp, .call op :: s.past⟩ where
  abandoned hmem := by
    rcases List.mem_cons.mp hmem with heq | hmem
    · obtain rfl := Event.call.inj heq
      simp [Op.isStart] at hop
    · exact absurd hmem hmay
  running h0 hd := by simp [calledSinceStart, h.running (hpid ▸ h0) (hdown ▸ hd)]
  idle h0 := absurd (hpid.symm.trans h0) hrun
  stopping h0 hc hr := by
    have hne : op ≠ .shutdownOne := by
      rintro rfl
      simp [Op.isStart] at hop
    simp only [calledSinceStart, hne, decide_false, Bool.false_or] at hc
    simp [startedSinceStop, hop, hc] at hr
  due h0 := absurd (hpid.symm.trans h0) hrun
  obeyed := by
    rw [hspec]
    exact recorded_cons.mpr ⟨obeyed_of_ne (by simp), h.obeyed⟩

/-- A start is asked for and tried. -/
theorem start {op : Op} (hop : op.isStart = true) (hmay : NotAbandoned s) (hidle : s.proc.pid = 0)
    (now : ℤ) {answer : Option Pid} (hanswer : answer ≠ some 0) :
    Policed (((s.note (.call op)).reset now).fork op now answer) where
  abandoned hmem := by
    simp only [Entry.fork, Entry.reset, Entry.note, List.mem_cons, reduceCtorEq, false_or] at hmem
    rcases hmem with heq | hmem
    · obtain rfl := Event.call.inj heq
      simp [Op.isStart] at hop
    · exact absurd hmem hmay
  running _ hd := absurd (h.idle hidle hd) hmay
  idle _ hd := absurd (h.idle hidle hd) hmay
  stopping h0 hc := by
    cases answer with
    | none => exact absurd hidle h0
    | some p => simp [Entry.fork, calledSinceStart] at hc
  due h0 _ exit before _ hs := by
    cases answer with
    | none => simp [Entry.fork, Entry.reset, Entry.note, startedSinceExit, hop] at hs
    | some p => exact absurd (congrArg some h0) hanswer
  obeyed := by
    have hne : ∀ now' answer', Event.fork op now answer ≠ .fork .tick now' answer' := by
      intro now' answer' heq
      obtain ⟨rfl, -, -⟩ := (Event.fork.injEq ..).mp heq
      simp [Op.isStart] at hop
    exact recorded_cons.mpr ⟨obeyed_of_ne hne,
      recorded_cons.mpr ⟨obeyed_of_ne (by simp), h.obeyed⟩⟩

theorem tickStart {now : ℤ} (hup : s.proc.shuttingDown = false) (hidle : s.proc.pid = 0)
    (hgiven : s.proc.givenUp = false) (hdue : s.proc.nextStart ≤ now) {answer : Option Pid}
    (hanswer : answer ≠ some 0) : Policed (s.fork .tick now answer) where
  abandoned hmem := h.abandoned (by simpa [Entry.fork] using hmem)
  running _ hd := by simp [Entry.fork, hup] at hd
  idle _ hd := by simp [Entry.fork, hup] at hd
  stopping h0 hc := by
    cases answer with
    | none => exact absurd hidle h0
    | some p => simp [Entry.fork, calledSinceStart] at hc
  due h0 := by
    cases answer with
    | none => exact h.due h0
    | some p => exact absurd (congrArg some h0) hanswer
  obeyed := by
    refine recorded_cons.mpr ⟨?_, h.obeyed⟩
    intro now' answer' exit before heq hexit hs hr
    obtain ⟨-, rfl, -⟩ := (Event.fork.injEq ..).mp heq
    exact (h.due hidle hgiven exit before hexit hs hr).mono hdue

theorem giveUp {op : Op} (hspec : mp.spec = s.proc.spec) (hpid : mp.pid = s.proc.pid)
    (hgiven : mp.givenUp = true) (hdown : mp.shuttingDown = s.proc.shuttingDown)
    (hop : op = .shutdownAll ∨ op = .shutdownOne ∧ s.proc.pid = 0) :
    Policed ⟨mp, .call op :: s.past⟩ where
  abandoned _ := hgiven
  running h0 hd := by simp [calledSinceStart, h.running (hpid ▸ h0) (hdown ▸ hd)]
  idle h0 hd := List.mem_cons_of_mem _ (h.idle (hpid ▸ h0) (hdown ▸ hd))
  stopping h0 hc hr := by
    rcases hop with rfl | ⟨-, hidle⟩
    · simp only [calledSinceStart, reduceCtorEq, decide_false, Bool.false_or] at hc
      simp only [startedSinceStop, Op.isStart, Bool.false_and, Bool.false_or] at hr
      exact ⟨hdown ▸ (h.stopping (hpid ▸ h0) hc hr).1, hgiven⟩
    · exact absurd (hpid.trans hidle) h0
  due _ hg := by simp [hgiven] at hg
  obeyed := by
    rw [hspec]
    exact recorded_cons.mpr ⟨obeyed_of_ne (by simp), h.obeyed⟩

theorem collect (hall : .call .shutdownAll ∈ s.past) : Policed s.collect where
  abandoned _ := h.abandoned hall
  running h0 := absurd rfl h0
  idle _ _ := List.mem_cons_of_mem _ hall
  stopping h0 := absurd rfl h0
  due _ hg := by simp [Entry.collect, h.abandoned hall] at hg
  obeyed := recorded_cons.mpr ⟨obeyed_of_ne (by simp), h.obeyed⟩

theorem reap (hkept : Kept s) (hrun : s.proc.pid ≠ 0) (st : Status) (now : ℤ) :
    Policed (s.reap st now) where
  abandoned hmem :=
    judge_givenUp { s.proc with pid := 0 } (h.abandoned (by simpa [Entry.reap] using hmem)) st now
  running _ hd := by simp [Entry.reap, judge_shuttingDown] at hd
  idle _ hd := by simp [Entry.reap, judge_shuttingDown] at hd
  stopping h0 := absurd (Manager.judge_pid _ st now) h0
  due _ hg exit before hexit _ hr := by
    obtain ⟨rfl, rfl⟩ := (Prod.mk.injEq ..).mp (Option.some.inj hexit)
    have hgiven : s.proc.givenUp = false := by
      by_contra hup
      have hgive := judge_givenUp { s.proc with pid := 0 } (by simpa using hup) st now
      exact absurd hg (by simpa [Entry.reap] using hgive)
    -- a process that was asked to stop is marked and given up, if no start came in between
    have hone : calledSinceStart .shutdownOne s.past = false := by
      by_contra hc
      have := (h.stopping hrun (by simpa using hc) hr).2
      simp [hgiven] at this
    have hup : s.proc.shuttingDown = false := by
      by_contra hd
      have := h.running hrun (by simpa using hd)
      simp [hone] at this
    have hall : .call .shutdownAll ∉ s.past := by
      intro hmem
      have := h.abandoned hmem
      simp [hgiven] at this
    obtain ⟨hshould, n, hn, hverdict, hnext⟩ :=
      judge_restart { s.proc with pid := 0 } hup hg
    refine ⟨s.proc.pid, st, now, n, ?_, hkept.running hrun, hone, calledSinceStart_of_notMem hall,
      ?_, hn, ?_⟩
    · rw [hverdict]
    · simp only [Entry.reap, judge_spec]
      exact shouldRestart_qualifies hshould
    · exact hnext.ge
  obeyed := by
    simp only [Entry.reap, judge_spec]
    exact recorded_cons.mpr ⟨obeyed_of_ne (by simp), h.obeyed⟩

theorem stop (hrun : s.proc.pid ≠ 0) (now timeoutMs : ℤ) : Policed (s.stop now timeoutMs) where
  abandoned _ := rfl
  running _ _ := by simp [Entry.stop, calledSinceStart]
  idle h0 := absurd h0 hrun
  stopping _ _ _ := ⟨rfl, rfl⟩
  due h0 := absurd h0 hrun
  obeyed := recorded_cons.mpr ⟨obeyed_of_ne (by simp),
    recorded_cons.mpr ⟨obeyed_of_ne (by simp), h.obeyed⟩⟩

end Policed

theorem policed_local : Entry.Local NotAbandoned fun s => Kept s ∧ Policed s where
  fresh := ⟨(kept_local NotAbandoned).fresh, by simp, by simp, by simp, by simp,
    by simp [latestExit], recorded_nil⟩
  added spec := ⟨(kept_local NotAbandoned).added spec, by simp [Manager.added],
    by simp [Manager.added], by simp [Manager.added], by simp [Manager.added],
    by simp [Manager.added, latestExit], recorded_nil⟩
  step {s s'} := by
    rintro ⟨hkept, h⟩ hstep
    refine ⟨(kept_local NotAbandoned).step hkept hstep, ?_⟩
    cases hstep with
    | start op now answer hmay hop hidle hanswer =>
      have hstart : op.isStart = true := by
        rcases hop with rfl | rfl <;> rfl
      exact h.start hstart hmay hidle now hanswer
    | refresh now hmay hrun => exact h.startRunning rfl hmay hrun rfl rfl rfl
    | running hmay hrun => exact h.startRunning rfl hmay hrun rfl rfl rfl
    | tickStart now answer hup hidle hgiven hdue hanswer =>
      exact h.tickStart hup hidle hgiven hdue hanswer
    | tickKill => exact h.signal _ _ _ rfl rfl rfl rfl rfl
    | reap st now hrun => exact h.reap hkept hrun st now
    | abandon =>
      have hcalled : Policed ⟨{ s.proc with givenUp := true }, .call .shutdownAll :: s.past⟩ :=
        h.giveUp rfl rfl rfl rfl (.inl rfl)
      unfold Entry.abandon
      split_ifs
      · exact hcalled.signal _ _ _ rfl rfl rfl rfl rfl
      · exact hcalled
    | collect _ hall => exact h.collect hall
    | straggler _ hall =>
      have hkilled : Policed (s.note (.signal .shutdownAll .kill s.proc.pid)) :=
        h.signal _ _ _ rfl rfl rfl rfl rfl
      exact hkilled.collect (List.mem_cons_of_mem _ hall)
    | stopIdle hidle => exact h.giveUp rfl rfl rfl rfl (.inr ⟨rfl, hidle⟩)
    | stop now timeoutMs hrun => exact h.stop hrun now timeoutMs

/-- In every run in which no start follows a `pm_shutdown_all`: when `pm_tick` calls `fork()`
for a slot whose previous process has been reaped, and no start was asked for after that
process was reaped or between a `pm_shutdown_one` of it and its reaping, then the process
had not been stopped, it ended in a way the policy of the slot restarts, and its back-off
is over. -/
theorem restart_policy_obeyed {m : Manager} (h : Run NotAbandoned m) (i : Slot) {now : ℤ}
    {answer : Option Pid} {earlier before : List Event} {exit : Event}
    (hfork : .fork .tick now answer :: earlier <:+ (m.procs i).past)
    (hexit : latestExit earlier = some (exit, before))
    (hafter : startedSinceExit earlier = false) (hbetween : startedSinceStop before = false) :
    RestartDue (m.proc i).spec.restart now exit before :=
  (policed_local.run h i).2.obeyed _ _ hfork now answer exit before rfl hexit hafter hbetween

theorem restart_policy_restarted :
    .fork .tick 30 (some 101) :: (restarted.procs 0).past.tail <:+ (restarted.procs 0).past ∧
      ∃ exit before, RestartDue (restarted.proc 0).spec.restart 30 exit before := by
  have hrun : Run NotAbandoned restarted := by
    refine restarted_run ?_
    show ∀ i, i ∈ _ → NotAbandoned _
    decide +kernel
  have hfork : .fork .tick 30 (some 101) :: (restarted.procs 0).past.tail <:+
      (restarted.procs 0).past := by decide +kernel
  have hexit : latestExit (restarted.procs 0).past.tail =
      some (.reaped 100 (.exited 1) (.restart 20 1), (restarted.procs 0).past.drop 2) := by
    decide +kernel
  exact ⟨hfork, _, _, restart_policy_obeyed hrun 0 hfork hexit (by decide +kernel) (by decide +kernel)⟩

end PiDaemon.Process
