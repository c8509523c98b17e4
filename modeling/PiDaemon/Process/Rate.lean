import PiDaemon.Base.Window
import PiDaemon.Process.Restart

/-!
# How often a process is restarted

`attempts` and `window_start` are a limiter with fixed windows, and `pm_reap` hits it
with every exit that asks for a restart. What it admits is recorded with the time. The
clock is read from the script of the kernel, so where the script does not go back the
recorded times of a slot do not, and the bound on the limiter is one on the restarts.
-/

namespace PiDaemon.Process

open Base

def Event.restartTime? : Event → Option ℤ
  | .reaped _ _ (.restart now _) => some now
  | .reaped _ _ .stopped | .reaped _ _ .finished | .reaped _ _ .gaveUp => none
  | .call _ | .fork .. | .signal .. | .collected _ => none

def restartTimes (past : List Event) : List ℤ := past.filterMap Event.restartTime?

/-- `time()` never returns less than before. -/
def Kernel.Forward (k : Kernel) : Prop := k.script.Pairwise fun a b => a.clock ≤ b.clock

instance (k : Kernel) : Decidable k.Forward := inferInstanceAs (Decidable (List.Pairwise ..))

def ManagedProcess.limiter (mp : ManagedProcess) : Limiter := ⟨mp.windowStart, mp.attempts⟩

/-! ## The limiter in `pm_reap` -/

section Judge
variable (mp : ManagedProcess) (st : Status) (now : ℤ)

theorem countAttempt_limiter :
    (mp.countAttempt now).limiter = mp.limiter.hit restartWindowSec now := by
  unfold ManagedProcess.countAttempt Limiter.hit ManagedProcess.limiter
  dsimp only
  split_ifs <;> rfl

theorem schedule_limiter : (mp.schedule now).1.limiter = mp.limiter.hit restartWindowSec now := by
  rw [← countAttempt_limiter]
  unfold ManagedProcess.schedule
  dsimp only
  split_ifs <;> rfl

theorem schedule_cases :
    restartMaxAttempts < (mp.limiter.hit restartWindowSec now).count ∧
        (mp.schedule now).1.givenUp = true ∧ (mp.schedule now).2 = .gaveUp ∨
      (mp.limiter.hit restartWindowSec now).count ≤ restartMaxAttempts ∧
        ∃ attempts, (mp.schedule now).2 = .restart now attempts := by
  rw [← countAttempt_limiter]
  unfold ManagedProcess.schedule
  dsimp only
  split_ifs with hmany
  · exact .inl ⟨hmany, rfl, rfl⟩
  · exact .inr ⟨not_lt.mp hmany, _, rfl⟩

theorem judge_unasked (h : ¬(mp.shuttingDown = false ∧ mp.shouldRestart st = true)) :
    (mp.judge st now).1.limiter = mp.limiter ∧
      ∀ p, (Event.reaped p st (mp.judge st now).2).restartTime? = none := by
  unfold ManagedProcess.judge
  split_ifs with hdown hshould
  · exact ⟨rfl, fun _ => rfl⟩
  · exact ⟨rfl, fun _ => rfl⟩
  · exact absurd ⟨by simpa using hdown, by simpa using hshould⟩ h

end Judge

/-! ## One slot -/

/-- What happened to an entry does not concern its restarts. -/
structure Entry.Aside (s s' : Entry) : Prop where
  limiter : s'.proc.limiter = s.proc.limiter
  past : ∃ more, s'.past = more ++ s.past ∧ restartTimes more = []

theorem Entry.Aside.one {s : Entry} (mp : ManagedProcess) (e : Event)
    (hlimiter : mp.limiter = s.proc.limiter) (he : e.restartTime? = none) :
    s.Aside ⟨mp, e :: s.past⟩ :=
  ⟨hlimiter, [e], rfl, by simp [restartTimes, he]⟩

theorem Entry.Aside.two {s : Entry} (mp : ManagedProcess) (e e' : Event)
    (hlimiter : mp.limiter = s.proc.limiter) (he : e.restartTime? = none)
    (he' : e'.restartTime? = none) : s.Aside ⟨mp, e :: e' :: s.past⟩ :=
  ⟨hlimiter, [e, e'], rfl, by simp [restartTimes, he, he']⟩

theorem Entry.fork_aside (s : Entry) (op : Op) (now : ℤ) (answer : Option Pid) :
    s.Aside (s.fork op now answer) := .one _ _ rfl rfl

theorem Entry.straggler_aside (s : Entry) (p : Pid) :
    s.Aside (s.note (.signal .shutdownAll .kill p)).collect := .two _ _ _ rfl rfl rfl

theorem Entry.stop_aside (s : Entry) (now timeoutMs : ℤ) : s.Aside (s.stop now timeoutMs) :=
  .two _ _ _ rfl rfl rfl

theorem Entry.abandon_aside (s : Entry) : s.Aside s.abandon := by
  unfold Entry.abandon
  split_ifs
  · exact .two _ _ _ rfl rfl rfl
  · exact .one _ _ rfl rfl

/-- Since the entry was `s₀` the events `recent` were recorded, the restarts among them were
admitted by the limiter, and their times are in order and not after those in the script. -/
structure Entry.Paced (s₀ s : Entry) (script : List Moment) (recent : List Event) : Prop where
  past : s.past = recent ++ s₀.past
  trace : Limiter.Trace restartWindowSec restartMaxAttempts s₀.proc.limiter (restartTimes recent)
    s.proc.limiter
  sorted : (restartTimes recent).Pairwise (· ≥ ·)
  earlier : ∀ t ∈ restartTimes recent, ∀ mo ∈ script, t ≤ mo.clock

namespace Entry.Paced

variable {s₀ s s' : Entry} {script script' : List Moment} {recent : List Event}

theorem later (h : s₀.Paced s script recent) (hscript : script' <:+ script) :
    s₀.Paced s script' recent :=
  ⟨h.past, h.trace, h.sorted, fun t ht mo hmo => h.earlier t ht mo (hscript.subset hmo)⟩

theorem aside (h : s₀.Paced s script recent) (hs : s.Aside s') :
    ∃ recent', s₀.Paced s' script recent' := by
  obtain ⟨hlimiter, more, hmore, hnone⟩ := hs
  have htimes : restartTimes (more ++ recent) = restartTimes recent := by
    unfold restartTimes at hnone ⊢
    rw [List.filterMap_append, hnone, List.nil_append]
  refine ⟨more ++ recent, ?_, ?_, ?_, ?_⟩
  · rw [hmore, h.past, List.append_assoc]
  · rw [htimes, hlimiter]
    exact h.trace
  · rw [htimes]
    exact h.sorted
  · rw [htimes]
    exact h.earlier

/-- An exit that asks for a restart hits the limiter at the time the script says. -/
theorem reap {mo : Moment} (h : s₀.Paced s (mo :: script) recent)
    (hforward : (mo :: script).Pairwise fun a b => a.clock ≤ b.clock) {st : Status}
    (hup : s.proc.shuttingDown = false) (hshould : s.proc.shouldRestart st = true) :
    ∃ recent', s₀.Paced (s.reap st mo.clock) script recent' := by
  have hjudge : { s.proc with pid := 0 }.judge st mo.clock =
      { s.proc with pid := 0 }.schedule mo.clock := judge_schedule _ hup hshould
  have hlimiter : (s.reap st mo.clock).proc.limiter =
      s.proc.limiter.hit restartWindowSec mo.clock := by
    rw [Entry.reap, hjudge]
    exact schedule_limiter _ _
  have hearlier : ∀ t ∈ restartTimes recent, t ≤ mo.clock := fun t ht =>
    h.earlier t ht mo (List.mem_cons_self ..)
  have hpast (verdict : Verdict) (hverdict : ({ s.proc with pid := 0 }.schedule mo.clock).2 = verdict) :
      (s.reap st mo.clock).past = .reaped s.proc.pid st verdict :: recent ++ s₀.past := by
    rw [Entry.reap, hjudge, hverdict, h.past, List.cons_append]
  rcases schedule_cases { s.proc with pid := 0 } mo.clock with
    ⟨hmany, -, hverdict⟩ | ⟨hfew, attempts, hverdict⟩
  · refine ⟨_, hpast _ hverdict, ?_, h.sorted, fun t ht mo' hmo' =>
      h.earlier t ht mo' (List.mem_cons_of_mem _ hmo')⟩
    rw [hlimiter]
    exact .refuse mo.clock h.trace hmany
  · refine ⟨_, hpast _ hverdict, ?_, List.pairwise_cons.mpr ⟨hearlier, h.sorted⟩, ?_⟩
    · rw [hlimiter]
      exact .accept mo.clock h.trace hfew
    · intro t ht mo' hmo'
      rcases List.mem_cons.mp ht with rfl | ht
      · exact (List.pairwise_cons.mp hforward).1 mo' hmo'
      · exact h.earlier t ht mo' (List.mem_cons_of_mem _ hmo')

end Entry.Paced

/-! ## Every operation -/

namespace Manager

structure Paced (m₀ m : Manager) : Prop where
  count : m₀.count ≤ m.count
  slots : m.kernel.script ≠ [] → m.kernel.Forward ∧
    ∀ i, ∃ recent, (m₀.procs i).Paced (m.procs i) m.kernel.script recent

namespace Paced

variable {m₀ m : Manager} {i : Slot}

theorem withKernel (h : m₀.Paced m) {k : Kernel} (hk : k.script <:+ m.kernel.script) :
    m₀.Paced (m.withKernel k) := by
  refine ⟨h.count, fun hmore => ?_⟩
  obtain ⟨hforward, hslots⟩ := h.slots fun hnil => hmore (List.eq_nil_of_suffix_nil (hnil ▸ hk))
  refine ⟨hforward.sublist hk.sublist, fun i => ?_⟩
  obtain ⟨recent, hi⟩ := hslots i
  exact ⟨recent, hi.later hk⟩

theorem set (h : m₀.Paced m) {s : Entry} (hs : (m.procs i).Aside s) : m₀.Paced (m.set i s) := by
  refine ⟨h.count, fun hmore => ?_⟩
  obtain ⟨hforward, hslots⟩ := h.slots hmore
  refine ⟨hforward, fun j => ?_⟩
  obtain ⟨recent, hj⟩ := hslots j
  rw [set_procs]
  split_ifs with hji
  · subst hji
    exact hj.aside hs
  · exact ⟨recent, hj⟩

theorem startOne (h : m₀.Paced m) (op : Op) (now : ℤ) : m₀.Paced (m.startOne i op now).1 :=
  (h.set ((m.procs i).fork_aside _ _ _)).withKernel m.kernel.fork_script

theorem tickSlot (h : m₀.Paced m) (now : ℤ) (i : Slot) : m₀.Paced (tickSlot now m i) := by
  unfold Manager.tickSlot
  dsimp only
  split_ifs
  · exact h.set (.one _ _ rfl rfl)
  · exact h
  · exact h.startOne .tick now
  · exact h

theorem tick (h : m₀.Paced m) : m₀.Paced m.pmTick :=
  List.foldlRecOn (motive := fun m => m₀.Paced m) m.slots (Manager.tickSlot m.kernel.time.1)
    (h.withKernel m.kernel.advance_script) fun _ hm i _ => hm.tickSlot _ i

/-- A child is reaped. The clock is read where a restart is asked for, and then it is the
next answer in the script. -/
theorem reapExit (h : m₀.Paced m) (p : Pid) (st : Status) : m₀.Paced (m.reapExit p st) := by
  unfold Manager.reapExit
  split
  · exact h
  · rename_i i _
    split_ifs with hasked
    · refine ⟨h.count, fun hmore => ?_⟩
      -- the script was not empty, for something is left of it
      obtain ⟨mo, script, hscript⟩ : ∃ mo script, m.kernel.script = mo :: script :=
        List.exists_cons_of_ne_nil fun hnil => hmore (by simp [Kernel.time, Kernel.advance, hnil])
      obtain ⟨hforward, hslots⟩ := h.slots (by simp [hscript])
      have hclock : m.kernel.time.1 = mo.clock := by simp [Kernel.time, Kernel.moment, hscript]
      have hrest : m.kernel.time.2.script = script := by simp [Kernel.time, Kernel.advance, hscript]
      rw [Kernel.Forward, hscript] at hforward
      rw [withKernel_kernel, Kernel.Forward, hrest]
      refine ⟨(List.pairwise_cons.mp hforward).2, fun j => ?_⟩
      obtain ⟨recent, hj⟩ := hslots j
      rw [hscript] at hj
      rw [withKernel_procs, set_procs, hclock]
      split_ifs with hji
      · subst hji
        exact hj.reap hforward hasked.1 hasked.2
      · exact ⟨recent, hj.later (List.suffix_cons mo script)⟩
    · obtain ⟨hlimiter, htime⟩ := judge_unasked { m.proc i with pid := 0 } st 0 hasked
      exact h.set (.one _ _ hlimiter (htime _))

theorem reap (h : m₀.Paced m) : m₀.Paced m.pmReap.1 := by
  refine reapLoop_invariant (fun {m k} hm hwait => ?_) (fun {m k p st} hm hwait => ?_) _ h
  · exact hm.withKernel (m.kernel.waitpid_suffix hwait)
  · exact (hm.withKernel (m.kernel.waitpid_suffix hwait)).reapExit p st

theorem collectExit (h : m₀.Paced m) (p : Pid) : m₀.Paced (m.collectExit p) := by
  unfold Manager.collectExit
  split
  · exact h
  · exact h.set (.one _ _ rfl rfl)

theorem waitLoop (h : m₀.Paced m) (start : Timespec) (timeoutMs : ℤ) (fuel : ℕ) :
    m₀.Paced (waitLoop start timeoutMs fuel m) := by
  refine waitLoop_invariant _ _ (fun {m k} hm hwait => ?_) (fun {m k p st} hm hwait => ?_) _ h
  · exact hm.withKernel (k.advance_script.trans (m.kernel.waitpid_suffix hwait))
  · exact (hm.withKernel (m.kernel.waitpid_suffix hwait)).collectExit p

theorem killSlot (h : m₀.Paced m) (i : Slot) : m₀.Paced (m.killSlot i) := by
  unfold Manager.killSlot
  split_ifs
  · exact (h.set (Entry.straggler_aside _ _)).withKernel m.kernel.advance_script
  · exact h

theorem shutdownAll (h : m₀.Paced m) (timeoutMs : ℤ) : m₀.Paced (m.pmShutdownAll timeoutMs) := by
  have habandon : m₀.Paced (m.slots.foldl abandonSlot m) :=
    List.foldlRecOn (motive := fun m => m₀.Paced m) m.slots abandonSlot h
      fun m hm i _ => hm.set (m.procs i).abandon_aside
  refine List.foldlRecOn (motive := fun m => m₀.Paced m) _ Manager.killSlot ?_
    fun m hm i _ => hm.killSlot i
  exact (habandon.withKernel (Kernel.advance_script _)).waitLoop _ _ _

theorem shutdownOne (h : m₀.Paced m) (name : List UInt8) (timeoutMs : ℤ) :
    m₀.Paced (m.pmShutdownOne name timeoutMs).1 := by
  unfold pmShutdownOne
  split
  · exact h
  · split_ifs
    · exact h.set (.one _ _ rfl rfl)
    · exact (h.set (Entry.stop_aside _ _ _)).withKernel m.kernel.advance_script

theorem add (h : m₀.Paced m) (hunused : ∀ i : Slot, m₀.count ≤ i.val → m₀.procs i = {})
    (spec : ProcessSpec) : m₀.Paced (m.pmAdd spec).1 := by
  unfold pmAdd
  split_ifs with hroom
  · refine ⟨h.count.trans (Nat.le_succ _), fun hmore => ?_⟩
    obtain ⟨hforward, hslots⟩ := h.slots hmore
    refine ⟨hforward, fun j => ?_⟩
    dsimp only
    rw [set_procs]
    split_ifs with hj
    · subst hj
      rw [hunused ⟨m.count, hroom⟩ h.count]
      exact ⟨[], rfl, .start, .nil, by simp [restartTimes]⟩
    · exact hslots j
  · exact h

theorem perform (h : m₀.Paced m) (hunused : ∀ i : Slot, m₀.count ≤ i.val → m₀.procs i = {})
    {c : Call} (hc : c.isStart = false) : m₀.Paced (m.perform c) := by
  cases c with
  | startAll | startOne => cases hc
  | add spec => exact h.add hunused spec
  | tick => exact h.tick
  | reap => exact h.reap
  | shutdownOne name timeoutMs => exact h.shutdownOne name timeoutMs
  | shutdownAll timeoutMs => exact h.shutdownAll timeoutMs

theorem refl (hclock : m.kernel.Forward) : m.Paced m :=
  ⟨le_rfl, fun _ => ⟨hclock, fun _ => ⟨[], rfl, .start, .nil, by simp [restartTimes]⟩⟩⟩

theorem calls (hunused : ∀ i : Slot, m₀.count ≤ i.val → m₀.procs i = {}) {cs : List Call}
    (hcs : ∀ c ∈ cs, c.isStart = false) (h : m₀.Paced m) : m₀.Paced (cs.foldl Manager.perform m) :=
  List.foldlRecOn (motive := fun m => m₀.Paced m) cs Manager.perform h
    fun _ hm c hc => hm.perform hunused (hcs c hc)

end Paced

theorem reapExit_entry (m : Manager) (i : Slot) {p : Pid} (hp : p ≠ 0) (st : Status) :
    (m.reapExit p st).procs i = m.procs i ∨ (m.proc i).pid ≠ 0 ∧
      ∃ now, (m.reapExit p st).procs i = (m.procs i).reap st now := by
  unfold reapExit
  split
  · exact .inl rfl
  · rename_i j hfind
    have hpid := (pmFindByPid_some hfind).2
    by_cases hij : i = j
    · subst hij
      refine .inr ⟨hpid ▸ hp, ?_⟩
      split_ifs
      · exact ⟨m.kernel.time.1, by simp⟩
      · exact ⟨0, by simp⟩
    · left
      split_ifs <;> simp [hij]

/-- `pm_reap` does nothing to a slot, or it takes one exit: once the slot is reaped its pid
is 0, and no child has that. -/
theorem pmReap_entry (i : Slot) {m : Manager} (h0 : 0 ∉ m.kernel.pids) :
    m.pmReap.1.procs i = m.procs i ∨ ∃ st now, m.pmReap.1.procs i = (m.procs i).reap st now := by
  refine (reapLoop_invariant (I := fun m' => (m'.procs i = m.procs i ∨
    ∃ st now, m'.procs i = (m.procs i).reap st now) ∧ 0 ∉ m'.kernel.pids) ?_ ?_ _
    ⟨.inl rfl, h0⟩).1
  · rintro m' k ⟨hentry, h0⟩ hwait
    exact ⟨hentry, by rwa [withKernel_kernel, m'.kernel.waitpid_none hwait]⟩
  · rintro m' k p st ⟨hentry, h0⟩ hwait
    obtain ⟨hchild, hpids⟩ := m'.kernel.waitpid_some hwait
    have hp : p ≠ 0 := fun hp => h0 (hp ▸ hchild)
    have hstep : Step (fun _ => True) m' ((m'.withKernel k).reapExit p st) :=
      reapExit_step hp hchild hpids
    refine ⟨?_, hstep.pids_pos h0⟩
    rcases (m'.withKernel k).reapExit_entry i hp st with hsame | ⟨hrun, now, hreaped⟩
    · rwa [hsame]
    · rcases hentry with hsame | ⟨st', now', hagain⟩
      · exact .inr ⟨st, now, by rw [hreaped, withKernel_procs, hsame]⟩
      · rw [withKernel_proc, proc, hagain] at hrun
        exact absurd (judge_pid _ _ _) hrun

end Manager

/-! ## The bound -/

theorem reap_full {s : Entry} {st : Status} {now : ℤ} (hup : s.proc.shuttingDown = false)
    (hshould : s.proc.shouldRestart st = true) (hfull : restartMaxAttempts ≤ s.proc.attempts)
    {p : Pid} {verdict : Verdict} (hpast : (s.reap st now).past = .reaped p st verdict :: s.past) :
    verdict = .gaveUp ∧ (s.reap st now).proc.givenUp = true ∨
      ∃ attempts, verdict = .restart now attempts ∧ now - s.proc.windowStart > restartWindowSec := by
  have hjudge : { s.proc with pid := 0 }.judge st now = { s.proc with pid := 0 }.schedule now :=
    judge_schedule _ hup hshould
  rw [Entry.reap, hjudge] at hpast ⊢
  simp only [List.cons.injEq, Event.reaped.injEq, and_true, true_and] at hpast
  rcases schedule_cases { s.proc with pid := 0 } now with
    ⟨-, hgiven, hverdict⟩ | ⟨hfew, attempts, hverdict⟩
  · exact .inl ⟨hpast.2.symm.trans hverdict, hgiven⟩
  · refine .inr ⟨attempts, hpast.2.symm.trans hverdict, ?_⟩
    by_contra hsame
    rw [Limiter.hit_same hsame] at hfew
    exact absurd hfull (Nat.not_le.mpr hfew)

/-- Let no start be asked for after the startup `m₀`, and let the clock not go back. Then in
every interval as long as a window at most twice `DAEMON_RESTART_MAX_ATTEMPTS` reaps of a
slot schedule a restart, and at most `DAEMON_RESTART_MAX_ATTEMPTS` do for any one value of
`window_start`. If that many did for the value it has, the next exit that asks for a restart
ends the restarts or opens another window; and a slot that is given up is not forked again. -/
theorem restart_rate_bounded {m₀ m : Manager} (hrun : Run (fun _ => True) m₀)
    (hclock : m₀.kernel.Forward) (cs : List Call) (hcs : ∀ c ∈ cs, c.isStart = false)
    (hm : cs.foldl Manager.perform m₀ = m) (hmore : m.kernel.script ≠ []) (i : Slot) :
    ∃ recent, (m.procs i).past = recent ++ (m₀.procs i).past ∧
      (∀ t, Limiter.within restartWindowSec t (restartTimes recent) ≤ 2 * restartMaxAttempts) ∧
      (m.proc i).windowStart =
        Limiter.opening restartWindowSec (m₀.proc i).windowStart (restartTimes recent) ∧
      (∀ w, (Limiter.openings restartWindowSec (m₀.proc i).windowStart
        (restartTimes recent)).count w ≤ restartMaxAttempts) ∧
      (∀ p st verdict, (m.pmReap.1.procs i).past = .reaped p st verdict :: (m.procs i).past →
        (m.proc i).shuttingDown = false → (m.proc i).shouldRestart st = true →
        (Limiter.openings restartWindowSec (m₀.proc i).windowStart (restartTimes recent)).count
          (m.proc i).windowStart = restartMaxAttempts →
        verdict = .gaveUp ∧ (m.pmReap.1.proc i).givenUp = true ∨ ∃ now attempts,
          verdict = .restart now attempts ∧ now - (m.proc i).windowStart > restartWindowSec) ∧
      ((m.proc i).givenUp = true → ∀ later : List Call, (∀ c ∈ later, c.isStart = false) →
        ((later.foldl Manager.perform m).procs i).Retired (m.procs i).past) := by
  have hlimit : 0 < restartMaxAttempts := by decide
  have hpaced : m₀.Paced m := hm ▸ Manager.Paced.calls (fun _ => hrun.unused) hcs (.refl hclock)
  have hend : Run (fun _ => True) m := hm ▸ hrun.calls hcs
  obtain ⟨recent, h⟩ := (hpaced.slots hmore).2 i
  obtain ⟨hcounted, hwindows⟩ := h.trace.count_openings_le (by decide) hlimit
  refine ⟨recent, h.past, h.trace.within_le hlimit h.sorted, h.trace.start_eq hlimit, hwindows,
    ?_, ?_⟩
  · intro p st verdict hpast hup hshould hfull
    have hattempts : restartMaxAttempts ≤ (m.proc i).attempts := hfull ▸ hcounted
    rcases Manager.pmReap_entry i hend.pids_pos with hsame | ⟨st', now, hreap⟩
    · rw [hsame] at hpast
      simp at hpast
    · rw [hreap] at hpast
      obtain rfl : st' = st := by
        simp only [Entry.reap, List.cons.injEq, Event.reaped.injEq] at hpast
        exact hpast.1.2.1
      rw [Manager.proc, hreap]
      rcases reap_full hup hshould hattempts hpast with hgaveUp | ⟨attempts, hrestart, hover⟩
      · exact .inl hgaveUp
      · exact .inr ⟨now, attempts, hrestart, hover⟩
  · intro hgiven later hlater
    have hi : i ∈ m.slots := by
      by_contra hi
      have hunused := hend.unused (not_lt.mp fun hlt => hi ((m.mem_slots i).mpr hlt))
      simp [Manager.proc, hunused] at hgiven
    exact retired_calls hend.pids_pos hi hgiven hlater

/-- A process is started that fails at once, six times. Its exits are taken four seconds
apart, and each is followed by a tick that starts the process again. -/
def crashing : Manager :=
  ((pmInit ({} :: { fork := some 100 } :: (List.range 6).flatMap fun n =>
    [{ exits := [(100 + n, .exited 1)], pick := 100 + n, clock := 4 * n }, { clock := 4 * n },
      { clock := 4 * n }, { clock := 4 * n + 3 }, { fork := some (101 + n), clock := 4 * n + 3 }]
    )).perform (.add { name := [97] })).perform .startAll

theorem restart_rate_crashing : ∃ m : Manager, (m.proc 0).givenUp = true ∧
    ∃ recent, (m.procs 0).past = recent ++ (crashing.procs 0).past ∧
      Limiter.within restartWindowSec 0 (restartTimes recent) ≤ 2 * restartMaxAttempts ∧
      (([.tick].foldl Manager.perform m).procs 0).Retired (m.procs 0).past := by
  have hrun : Run (fun _ => True) crashing :=
    .call .startAll (.call (.add _) (.init _) fun _ hs => hs.elim) fun _ _ => trivial
  let calls : List Call := [.reap, .tick, .reap, .tick, .reap, .tick, .reap, .tick, .reap, .tick, .reap]
  have hgiven : ((calls.foldl Manager.perform crashing).proc 0).givenUp = true := by decide +kernel
  obtain ⟨recent, hpast, hrate, -, -, -, hretired⟩ := restart_rate_bounded hrun (by decide +kernel)
    calls (by decide) rfl (by decide +kernel) 0
  exact ⟨_, hgiven, recent, hpast, hrate 0, hretired hgiven [.tick] (by decide)⟩

end PiDaemon.Process
