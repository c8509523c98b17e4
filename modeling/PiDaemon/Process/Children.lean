import PiDaemon.Base.History
import PiDaemon.Process.Steps

/-!
# One child per slot

The pids in the table are the children that were forked and not yet reaped, each
in one slot. A slot is forked only after its previous child was reaped, which can
also be read off its record.
-/

namespace PiDaemon.Process

open Base

def unreaped : List Event → Option Pid
  | [] => none
  | .fork _ _ (some p) :: _ => some p
  | .reaped .. :: _ => none
  | .collected _ :: _ => none
  | .fork _ _ none :: past => unreaped past
  | .call _ :: past => unreaped past
  | .signal .. :: past => unreaped past

/-! ## The record of a slot -/

def Vacant (e : Event) (earlier : List Event) : Prop :=
  ∀ op now answer, e = .fork op now answer → unreaped earlier = none

/-- The record tells which child the slot has, and every `fork()` found the slot without one. -/
structure Kept (s : Entry) : Prop where
  idle : s.proc.pid = 0 → unreaped s.past = none
  running : s.proc.pid ≠ 0 → unreaped s.past = some s.proc.pid
  forks : Recorded Vacant s.past

namespace Kept

variable {s : Entry} {e : Event} (h : Kept s)
include h

theorem forks_cons (he : ∀ op now answer, e ≠ .fork op now answer) :
    Recorded Vacant (e :: s.past) :=
  recorded_cons.mpr ⟨fun op now answer heq => absurd heq (he op now answer), h.forks⟩

theorem note {mp : ManagedProcess} (he : ∀ past, unreaped (e :: past) = unreaped past)
    (hfork : ∀ op now answer, e ≠ .fork op now answer) (hpid : mp.pid = s.proc.pid) :
    Kept ⟨mp, e :: s.past⟩ where
  idle h0 := (he _).trans (h.idle (hpid ▸ h0))
  running h0 := by
    rw [he, hpid]
    exact h.running (hpid ▸ h0)
  forks := h.forks_cons hfork

/-- The child is reaped. -/
theorem reaped {mp : ManagedProcess} (he : ∀ past, unreaped (e :: past) = none)
    (hfork : ∀ op now answer, e ≠ .fork op now answer) (hpid : mp.pid = 0) :
    Kept ⟨mp, e :: s.past⟩ where
  idle _ := he _
  running h0 := absurd hpid h0
  forks := h.forks_cons hfork

theorem fork (hpid : s.proc.pid = 0) (op : Op) (now : ℤ) {answer : Option Pid}
    (hanswer : answer ≠ some 0) : Kept (s.fork op now answer) := by
  have hforks : Recorded Vacant (.fork op now answer :: s.past) :=
    recorded_cons.mpr ⟨fun _ _ _ _ => h.idle hpid, h.forks⟩
  cases answer with
  | none => exact ⟨h.idle, h.running, hforks⟩
  | some p => exact ⟨fun hp => absurd (congrArg some hp) hanswer, fun _ => rfl, hforks⟩

end Kept

theorem kept_local (may : Entry → Prop) : Entry.Local may Kept where
  fresh := ⟨fun _ => rfl, fun h => absurd rfl h, recorded_nil⟩
  added _ := ⟨fun _ => rfl, fun h => absurd rfl h, recorded_nil⟩
  step {s s'} h hstep := by
    have hcall (op : Op) (past : List Event) : unreaped (.call op :: past) = unreaped past := rfl
    cases hstep with
    | start op now answer _ _ hpid hanswer =>
      have hcalled : Kept ((s.note (.call op)).reset now) := h.note (hcall op) (by simp) rfl
      exact hcalled.fork hpid op now hanswer
    | refresh now => exact h.note (hcall _) (by simp) rfl
    | running => exact h.note (hcall _) (by simp) rfl
    | tickStart now answer _ hpid _ _ hanswer => exact h.fork hpid .tick now hanswer
    | tickKill => exact h.note (fun _ => rfl) (by simp) rfl
    | reap st now => exact h.reaped (fun _ => rfl) (by simp) (Manager.judge_pid _ st now)
    | abandon =>
      have hcalled : Kept ⟨{ s.proc with givenUp := true }, .call .shutdownAll :: s.past⟩ :=
        h.note (hcall _) (by simp) rfl
      unfold Entry.abandon
      split_ifs
      · exact hcalled.note (fun _ => rfl) (by simp) rfl
      · exact hcalled
    | collect => exact h.reaped (fun _ => rfl) (by simp) rfl
    | straggler =>
      have hkilled : Kept (s.note (.signal .shutdownAll .kill s.proc.pid)) :=
        h.note (fun _ => rfl) (by simp) rfl
      exact hkilled.reaped (fun _ => rfl) (by simp) rfl
    | stopIdle => exact h.note (hcall _) (by simp) rfl
    | stop now timeoutMs =>
      have hcalled : Kept (s.note (.call .shutdownOne)) := h.note (hcall _) (by simp) rfl
      exact hcalled.note (fun _ => rfl) (by simp) rfl

/-! ## The table and the kernel -/

namespace Manager

/-- Slots beyond `count` are empty, pids are not shared, and they are the kernel's children. -/
structure Matched (m : Manager) : Prop where
  unused (i : Slot) : i ∉ m.slots → (m.proc i).pid = 0
  distinct (i j : Slot) : (m.proc i).pid ≠ 0 → (m.proc i).pid = (m.proc j).pid → i = j
  children (p : Pid) : p ∈ m.kernel.pids ↔ p ≠ 0 ∧ ∃ i, (m.proc i).pid = p

theorem proc_set_self (m : Manager) (i : Slot) (s : Entry) : (m.set i s).proc i = s.proc := by
  rw [proc_set, if_pos rfl]

theorem proc_set_ne (m : Manager) {i j : Slot} (s : Entry) (h : j ≠ i) :
    (m.set i s).proc j = m.proc j := by
  rw [proc_set, if_neg h]

theorem Matched.congr {m m' : Manager} (h : m.Matched) (hpid : ∀ i, (m'.proc i).pid = (m.proc i).pid)
    (hslots : ∀ i ∈ m.slots, i ∈ m'.slots) (hkernel : m'.kernel.pids = m.kernel.pids) :
    m'.Matched where
  unused i hi := (hpid i).trans (h.unused i fun hmem => hi (hslots i hmem))
  distinct i j hi hij := h.distinct i j (hpid i ▸ hi) (by rw [← hpid, ← hpid, hij])
  children p := by
    rw [hkernel, h.children]
    simp only [hpid]

theorem Matched.set_keep {m : Manager} (h : m.Matched) {i : Slot} {s : Entry} {k : Kernel}
    (hpid : s.proc.pid = (m.proc i).pid) (hk : k.pids = m.kernel.pids) :
    ((m.set i s).withKernel k).Matched := by
  refine h.congr (fun j => ?_) (fun _ hj => hj) hk
  by_cases hj : j = i
  · subst hj
    rw [withKernel_proc, proc_set_self, hpid]
  · rw [withKernel_proc, proc_set_ne m s hj]

theorem Matched.distinct_set {m : Manager} (h : m.Matched) {i : Slot} {s : Entry}
    (hnew : s.proc.pid ≠ 0 → ∀ j, (m.proc j).pid ≠ s.proc.pid) (j l : Slot)
    (hj : ((m.set i s).proc j).pid ≠ 0) (hjl : ((m.set i s).proc j).pid = ((m.set i s).proc l).pid) :
    j = l := by
  rw [proc_set] at hj
  rw [proc_set, proc_set] at hjl
  split_ifs at hj hjl with hji hli hli
  · exact hji.trans hli.symm
  · exact absurd hjl.symm (hnew hj l)
  · exact absurd hjl (hnew (hjl ▸ hj) j)
  · exact h.distinct j l hj hjl

theorem Matched.set_fork {m : Manager} (h : m.Matched) {i : Slot} {s : Entry} {k : Kernel}
    (hi : i ∈ m.slots) (hidle : (m.proc i).pid = 0) (hs : s.proc.pid ≠ 0)
    (hnew : s.proc.pid ∉ m.kernel.pids) (hk : k.pids = s.proc.pid :: m.kernel.pids) :
    ((m.set i s).withKernel k).Matched := by
  have hother (j : Slot) : (m.proc j).pid ≠ s.proc.pid := fun hj =>
    hnew ((h.children _).mpr ⟨hs, j, hj⟩)
  constructor
  · intro j hj
    have hji : j ≠ i := fun hji => hj (hji ▸ hi)
    rw [withKernel_proc, proc_set_ne m s hji]
    exact h.unused j hj
  · exact h.distinct_set fun _ => hother
  · intro p
    rw [withKernel_kernel, hk, List.mem_cons, h.children]
    constructor
    · rintro (rfl | ⟨hp, j, hj⟩)
      · exact ⟨hs, i, by rw [withKernel_proc, proc_set_self]⟩
      · have hji : j ≠ i := by
          rintro rfl
          exact hp (hj.symm.trans hidle)
        exact ⟨hp, j, by rw [withKernel_proc, proc_set_ne m s hji, hj]⟩
    · rintro ⟨hp, j, hj⟩
      by_cases hji : j = i
      · subst hji
        rw [withKernel_proc, proc_set_self] at hj
        exact .inl hj.symm
      · rw [withKernel_proc, proc_set_ne m s hji] at hj
        exact .inr ⟨hp, j, hj⟩

theorem Matched.set_reap {m : Manager} (h : m.Matched) {i : Slot} {s : Entry} {k : Kernel}
    (hrun : (m.proc i).pid ≠ 0) (hs : s.proc.pid = 0)
    (hk : k.pids = m.kernel.pids.filter (· ≠ (m.proc i).pid)) :
    ((m.set i s).withKernel k).Matched := by
  constructor
  · intro j hj
    by_cases hji : j = i
    · subst hji
      rwa [withKernel_proc, proc_set_self]
    · rw [withKernel_proc, proc_set_ne m s hji]
      exact h.unused j hj
  · exact h.distinct_set fun hne => absurd hs hne
  · intro p
    rw [withKernel_kernel, hk, List.mem_filter, h.children]
    constructor
    · rintro ⟨⟨hp, j, hj⟩, hne⟩
      have hji : j ≠ i := by
        rintro rfl
        simp [hj] at hne
      exact ⟨hp, j, by rw [withKernel_proc, proc_set_ne m s hji, hj]⟩
    · rintro ⟨hp, j, hj⟩
      have hji : j ≠ i := by
        rintro rfl
        rw [withKernel_proc, proc_set_self] at hj
        exact hp (hj.symm.trans hs)
      rw [withKernel_proc, proc_set_ne m s hji] at hj
      refine ⟨⟨hp, j, hj⟩, ?_⟩
      simp only [ne_eq, decide_eq_true_eq]
      rintro rfl
      exact hji (h.distinct j i (hj ▸ hp) hj)

theorem Matched.step {may : Entry → Prop} {m m' : Manager} (h : m.Matched) (hstep : Step may m m') :
    m'.Matched := by
  cases hstep with
  | quiet k hk => exact h.congr (fun _ => rfl) (fun _ hi => hi) hk
  | stray k p hnone hchild =>
    -- a child of the kernel is in a slot
    obtain ⟨hp, i, hi⟩ := (h.children p).mp hchild
    by_cases hslot : i ∈ m.slots
    · exact absurd hi (hnone i hslot)
    · exact absurd (hi.symm.trans (h.unused i hslot)) hp
  | add spec hroom =>
    refine h.congr (fun i => ?_) (fun i hi => ?_) rfl
    · by_cases hi : i = ⟨m.count, hroom⟩
      · have hfree : i ∉ m.slots := by
          rw [mem_slots, hi]
          exact lt_irrefl _
        rw [h.unused i hfree]
        simp [proc, set, hi, added]
      · simp [proc, set, hi]
    · have := (mem_slots _ _).mp hi
      exact (mem_slots _ _).mpr (Nat.lt_succ_of_lt this)
  | keep i s k _ _ hpid hk => exact h.set_keep hpid hk
  | fork i s k hi _ hidle hs hnew hk => exact h.set_fork hi hidle hs hnew hk
  | reap i s k _ _ hrun hs hk => exact h.set_reap hrun hs hk

theorem matched_init (script : List Moment) : (pmInit script).Matched where
  unused _ _ := rfl
  distinct i j hi := absurd rfl hi
  children p := by simpa [pmInit, Kernel.pids] using fun h => Ne.symm h

end Manager

/-- After every call of every run the pids in the table are pairwise distinct and are the
children that were forked and not yet reaped; and whenever a slot was forked, its
previous child had been reaped. -/
theorem one_child_per_slot {m : Manager} (h : Run (fun _ => True) m) :
    (∀ i ∈ m.slots, ∀ j ∈ m.slots, (m.proc i).pid ≠ 0 → (m.proc i).pid = (m.proc j).pid → i = j) ∧
      (∀ p, p ∈ m.kernel.pids ↔ p ≠ 0 ∧ ∃ i ∈ m.slots, (m.proc i).pid = p) ∧
      ∀ i op now answer earlier, .fork op now answer :: earlier <:+ (m.procs i).past →
        unreaped earlier = none := by
  have hmatched : m.Matched := h.invariant Manager.matched_init fun hm hst => hm.step hst
  refine ⟨fun i _ j _ => hmatched.distinct i j, fun p => ?_, ?_⟩
  · rw [hmatched.children]
    refine and_congr_right fun hp => ⟨?_, fun ⟨i, _, hi⟩ => ⟨i, hi⟩⟩
    rintro ⟨i, hi⟩
    by_contra hno
    exact hp (hi.symm.trans (hmatched.unused i fun hslot => hno ⟨i, hslot, hi⟩))
  · intro i op now answer earlier hfork
    exact ((kept_local _).run h i).forks _ _ hfork op now answer rfl

/-- A process is added and started at time 10. It fails, `pm_reap` takes its exit at time
20, and the next tick starts it again. -/
def restarted : Manager :=
  [.startAll, .reap, .tick].foldl Manager.perform ((pmInit
    [{ clock := 10 }, { fork := some 100 },
      { exits := [(100, .exited 1)], pick := 100 }, { clock := 20 }, {},
      { clock := 30 }, { fork := some 101 }]).perform (.add { name := [97] }))

theorem restarted_run {may : Entry → Prop}
    (hmay : ((pmInit []).perform (.add { name := [97] })).Admits may .startAll) :
    Run may restarted := by
  unfold restarted
  simp only [List.foldl_cons, List.foldl_nil]
  refine .call .tick (.call .reap (.call .startAll (.call (.add _) (.init _) ?_) ?_) ?_) ?_
  · exact fun _ hs => hs.elim
  · exact hmay
  · exact fun _ hs => hs.elim
  · exact fun _ hs => hs.elim

theorem one_child_per_slot_restarted : restarted.kernel.pids = [101] ∧
    ∀ p, p ∈ restarted.kernel.pids ↔ p ≠ 0 ∧ ∃ i ∈ restarted.slots, (restarted.proc i).pid = p :=
  ⟨by decide +kernel, (one_child_per_slot (restarted_run fun _ _ => trivial)).2.1⟩

end PiDaemon.Process
