import PiDaemon.Base.Transition
import PiDaemon.Process.Manager

/-!
# The process manager as a transition system

Every operation is a sequence of small steps: a moment passes in the kernel, a
slot is added, or the entry of one slot changes together with what the kernel
knows of its child. `Entry.Step` lists everything an operation can do to an
entry, each case with the guard it is taken under, and `Step` adds what happens
to the children. A run may be restricted to starts that find the slot in a state
`may` allows.
-/

namespace PiDaemon.Process

open Base

/-! ## The kernel's children -/

namespace Kernel

variable (k : Kernel)

@[simp] theorem exit_pids (p : Pid) (st : Status) : (k.exit p st).pids = k.pids := by
  simp only [pids, exit, List.map_map]
  refine List.map_congr_left fun c _ => ?_
  simp only [Function.comp_apply]
  split_ifs <;> rfl

theorem exits_pids (es : List (Pid × Status)) : ∀ k : Kernel,
    (es.foldl (fun k e => k.exit e.1 e.2) k).pids = k.pids := by
  induction es with
  | nil => exact fun _ => rfl
  | cons e es ih => exact fun k => (ih _).trans (k.exit_pids e.1 e.2)

@[simp] theorem advance_pids : k.advance.pids = k.pids := exits_pids k.moment.exits k

@[simp] theorem time_pids : k.time.2.pids = k.pids := k.advance_pids

@[simp] theorem clockGettime_pids : k.clockGettime.2.pids = k.pids := k.advance_pids

@[simp] theorem remove_pids (p : Pid) : (k.remove p).pids = k.pids.filter (· ≠ p) := by
  simp only [pids, remove, List.filter_map]
  rfl

theorem fork_none (h : k.fork.1 = none) : k.fork.2.pids = k.pids := by
  unfold fork at h ⊢
  split at h
  · exact k.advance_pids
  · split_ifs at h ⊢
    exact k.advance_pids

theorem fork_some {p : Pid} (h : k.fork.1 = some p) :
    p ≠ 0 ∧ p ∉ k.pids ∧ k.fork.2.pids = p :: k.pids := by
  unfold fork at h ⊢
  split at h
  · cases h
  · split_ifs at h ⊢ with hbusy
    obtain rfl := Option.some.inj h
    obtain ⟨h0, hnew⟩ := not_or.mp hbusy
    exact ⟨h0, hnew, congrArg (List.cons _) k.advance_pids⟩

theorem fork_ne_zero : k.fork.1 ≠ some 0 := fun h => (k.fork_some h).1 rfl

theorem exited_pids {p : Pid} {st : Status} (h : (p, st) ∈ k.exited) : p ∈ k.pids := by
  obtain ⟨c, hc, hst⟩ := List.mem_filterMap.mp h
  cases hs : c.status with
  | none => simp [hs] at hst
  | some st' =>
    simp only [hs, Option.map_some, Option.some.injEq, Prod.mk.injEq] at hst
    exact List.mem_map.mpr ⟨c, hc, hst.1⟩

/-- `waitpid()` returns a child that has exited and was not reaped, and takes it off the list. -/
theorem waitpid_spec :
    (∃ k', k.waitpid = (none, k') ∧ k'.pids = k.pids) ∨
      ∃ p st k', k.waitpid = (some (p, st), k') ∧ (p, st) ∈ k.advance.exited ∧ p ∈ k.pids ∧
        k'.pids = k.pids.filter (· ≠ p) := by
  unfold waitpid
  split
  · exact .inl ⟨k.advance, rfl, k.advance_pids⟩
  · rename_i p st hpick
    have hmem : (p, st) ∈ k.advance.exited := by
      rcases Option.or_eq_some_iff.mp hpick with h | ⟨-, h⟩
      · exact List.mem_of_find?_eq_some h
      · exact List.mem_of_mem_head? h
    refine .inr ⟨p, st, k.advance.remove p, rfl, hmem, ?_, ?_⟩
    · rw [← k.advance_pids]
      exact k.advance.exited_pids hmem
    · rw [remove_pids, advance_pids]

theorem waitpid_none {k' : Kernel} (h : k.waitpid = (none, k')) : k'.pids = k.pids := by
  rcases k.waitpid_spec with ⟨_, hwait, hpids⟩ | ⟨_, _, _, hwait, -⟩
  · obtain ⟨-, rfl⟩ := Prod.mk.inj (h.symm.trans hwait)
    exact hpids
  · cases h.symm.trans hwait

theorem waitpid_some {k' : Kernel} {p : Pid} {st : Status} (h : k.waitpid = (some (p, st), k')) :
    p ∈ k.pids ∧ k'.pids = k.pids.filter (· ≠ p) := by
  rcases k.waitpid_spec with ⟨_, hwait, -⟩ | ⟨_, _, _, hwait, -, hchild, hpids⟩
  · cases h.symm.trans hwait
  · obtain ⟨hanswer, rfl⟩ := Prod.mk.inj (h.symm.trans hwait)
    obtain ⟨rfl, -⟩ := Prod.mk.inj (Option.some.inj hanswer)
    exact ⟨hchild, hpids⟩

/-! The script only gets shorter. -/

theorem advance_script : k.advance.script <:+ k.script := List.tail_suffix _

theorem fork_script : k.fork.2.script <:+ k.script := by
  unfold fork
  split
  · exact k.advance_script
  · split_ifs <;> exact k.advance_script

theorem waitpid_script : k.waitpid.2.script = k.script.tail := by
  unfold waitpid
  split <;> rfl

theorem waitpid_suffix {k' : Kernel} {answer : Option (Pid × Status)} (h : k.waitpid = (answer, k')) :
    k'.script <:+ k.script := by
  have hscript := k.waitpid_script
  rw [h] at hscript
  exact hscript ▸ List.tail_suffix _

end Kernel

/-! ## Steps -/

inductive Entry.Step (may : Entry → Prop) (s : Entry) : Entry → Prop
  | start (op : Op) (now : ℤ) (answer : Option Pid) : may s → op = .startAll ∨ op = .startOne →
      s.proc.pid = 0 → answer ≠ some 0 → Step may s (((s.note (.call op)).reset now).fork op now answer)
  | refresh (now : ℤ) : may s → s.proc.pid ≠ 0 → Step may s ((s.note (.call .startAll)).reset now)
  | running : may s → s.proc.pid ≠ 0 → Step may s (s.note (.call .startOne))
  | tickStart (now : ℤ) (answer : Option Pid) : s.proc.shuttingDown = false → s.proc.pid = 0 →
      s.proc.givenUp = false → s.proc.nextStart ≤ now → answer ≠ some 0 →
      Step may s (s.fork .tick now answer)
  | tickKill (now : ℤ) : s.proc.shuttingDown = true → s.proc.pid ≠ 0 → s.proc.killSent = false →
      s.proc.killDeadline ≤ now → Step may s s.forceKill
  | reap (st : Status) (now : ℤ) : s.proc.pid ≠ 0 → Step may s (s.reap st now)
  | abandon : Step may s s.abandon
  | collect : s.proc.pid ≠ 0 → .call .shutdownAll ∈ s.past → Step may s s.collect
  | straggler : s.proc.pid ≠ 0 → .call .shutdownAll ∈ s.past →
      Step may s (s.note (.signal .shutdownAll .kill s.proc.pid)).collect
  | stopIdle : s.proc.pid = 0 → Step may s s.stopIdle
  | stop (now timeoutMs : ℤ) : s.proc.pid ≠ 0 → Step may s (s.stop now timeoutMs)

namespace Manager

inductive Step (may : Entry → Prop) (m : Manager) : Manager → Prop
  | quiet (k : Kernel) : k.pids = m.kernel.pids → Step may m (m.withKernel k)
  /-- a child is reaped that no slot knows -/
  | stray (k : Kernel) (p : Pid) : (∀ i ∈ m.slots, (m.proc i).pid ≠ p) → p ∈ m.kernel.pids →
      k.pids = m.kernel.pids.filter (· ≠ p) → Step may m (m.withKernel k)
  | add (spec : ProcessSpec) (h : m.count < maxProcesses) :
      Step may m { m.set ⟨m.count, h⟩ (added spec) with count := m.count + 1 }
  | keep (i : Slot) (s : Entry) (k : Kernel) : i ∈ m.slots → Entry.Step may (m.procs i) s →
      s.proc.pid = (m.proc i).pid → k.pids = m.kernel.pids → Step may m ((m.set i s).withKernel k)
  | fork (i : Slot) (s : Entry) (k : Kernel) : i ∈ m.slots → Entry.Step may (m.procs i) s →
      (m.proc i).pid = 0 → s.proc.pid ≠ 0 → s.proc.pid ∉ m.kernel.pids →
      k.pids = s.proc.pid :: m.kernel.pids → Step may m ((m.set i s).withKernel k)
  | reap (i : Slot) (s : Entry) (k : Kernel) : i ∈ m.slots → Entry.Step may (m.procs i) s →
      (m.proc i).pid ≠ 0 → s.proc.pid = 0 →
      k.pids = m.kernel.pids.filter (· ≠ (m.proc i).pid) → Step may m ((m.set i s).withKernel k)

abbrev Steps (may : Entry → Prop) : Manager → Manager → Prop := Relation.ReflTransGen (Step may)

section Frame
variable (m : Manager) (i j : Slot) (s t : Entry) (k : Kernel)

@[simp] theorem set_procs : (m.set i s).procs j = if j = i then s else m.procs j :=
  Function.update_apply _ _ _ _

@[simp] theorem set_count : (m.set i s).count = m.count := rfl
@[simp] theorem set_kernel : (m.set i s).kernel = m.kernel := rfl
@[simp] theorem set_slots : (m.set i s).slots = m.slots := rfl
@[simp] theorem withKernel_procs : (m.withKernel k).procs = m.procs := rfl
@[simp] theorem withKernel_kernel : (m.withKernel k).kernel = k := rfl
@[simp] theorem withKernel_slots : (m.withKernel k).slots = m.slots := rfl
@[simp] theorem withKernel_proc : (m.withKernel k).proc i = m.proc i := rfl

theorem withKernel_set : (m.withKernel k).set i s = (m.set i s).withKernel k := rfl

theorem set_set : (m.set i s).set i t = m.set i t := by simp [set]

theorem proc_set : (m.set i s).proc j = if j = i then s.proc else m.proc j := by
  rw [proc, set_procs]
  split_ifs <;> rfl

theorem mem_slots : i ∈ m.slots ↔ i.val < m.count := by simp [slots]

theorem slots_nodup : m.slots.Nodup := (List.nodup_finRange _).filter _

end Frame

theorem pmFindByPid_some {m : Manager} {p : Pid} {i : Slot} (h : m.pmFindByPid p = some i) :
    i ∈ m.slots ∧ (m.proc i).pid = p :=
  ⟨List.mem_of_find?_eq_some h, by simpa using List.find?_some h⟩

theorem pmFindByPid_none {m : Manager} {p : Pid} (h : m.pmFindByPid p = none) {i : Slot}
    (hi : i ∈ m.slots) : (m.proc i).pid ≠ p := by
  simpa using List.find?_eq_none.mp h i hi

theorem findByName_mem {m : Manager} {name : List UInt8} {i : Slot}
    (h : m.findByName name = some i) : i ∈ m.slots :=
  List.mem_of_find?_eq_some h

/-! ## Every operation is a sequence of steps -/

section Operations
variable {may : Entry → Prop} {m : Manager} {i : Slot}

/-- A `fork()` for a slot where nothing runs, together with what was done to the entry before. -/
theorem fork_step (hi : i ∈ m.slots) {s : Entry} {op : Op} {now : ℤ} (hpid : s.proc.pid = 0)
    (hsame : s.proc.pid = (m.proc i).pid)
    (hstep : Entry.Step may (m.procs i) (s.fork op now m.kernel.fork.1)) :
    Step may m ((m.set i (s.fork op now m.kernel.fork.1)).withKernel m.kernel.fork.2) := by
  cases hanswer : m.kernel.fork.1 with
  | none =>
    rw [hanswer] at hstep
    exact .keep i _ _ hi hstep hsame (m.kernel.fork_none hanswer)
  | some p =>
    rw [hanswer] at hstep
    obtain ⟨h0, hnew, hpids⟩ := m.kernel.fork_some hanswer
    exact .fork i _ _ hi hstep (hsame ▸ hpid) h0 hnew hpids

theorem startSlot_steps {now : ℤ} {n : ℕ} (hi : i ∈ m.slots) (hmay : may (m.procs i)) :
    Steps may m (startSlot now (m, n) i).1 := by
  let s := ((m.procs i).note (.call .startAll)).reset now
  have hs : (m.set i s).procs i = s := by simp
  unfold startSlot
  by_cases hpid : (m.procs i).proc.pid = 0
  · rw [if_pos (by rw [proc, hs]; exact hpid)]
    simp only [startOne, set_set, set_procs, if_true, set_kernel]
    exact .single (fork_step hi (s := s) hpid rfl
      (.start .startAll now _ hmay (.inl rfl) hpid m.kernel.fork_ne_zero))
  · rw [if_neg (by rw [proc, hs]; exact hpid)]
    exact .single (.keep i s m.kernel hi (.refresh now hmay hpid) rfl rfl)

theorem startSlot_procs {now : ℤ} (acc : Manager × ℕ) {j : Slot} (hj : j ≠ i) :
    (startSlot now acc i).1.procs j = acc.1.procs j := by
  unfold startSlot
  dsimp only
  split_ifs <;> simp [startOne, hj]

theorem startSlot_count {now : ℤ} (acc : Manager × ℕ) :
    (startSlot now acc i).1.count = acc.1.count := by
  unfold startSlot
  dsimp only
  split_ifs <;> rfl

theorem pmStartAll_steps (hmay : ∀ i ∈ m.slots, may (m.procs i)) : Steps may m m.pmStartAll.1 := by
  refine .head (.quiet m.kernel.time.2 m.kernel.time_pids) ?_
  refine foldl_steps (v := Prod.fst) (f := startSlot m.kernel.time.1)
    (P := fun m i => i ∈ m.slots ∧ may (m.procs i)) ?_ ?_ m.slots_nodup
    (r := (m.withKernel m.kernel.time.2, 0)) fun i hi => ⟨hi, hmay i hi⟩
  · rintro ⟨m, n⟩ i ⟨hi, hmay⟩
    exact startSlot_steps hi hmay
  · rintro acc i j - hj ⟨hslot, hmay⟩
    rw [mem_slots, startSlot_count, startSlot_procs acc hj]
    exact ⟨(mem_slots _ _).mp hslot, hmay⟩

theorem pmStartOne_steps {name : List UInt8} (hmay : ∀ i, m.findByName name = some i → may (m.procs i)) :
    Steps may m (m.pmStartOne name).1 := by
  unfold pmStartOne
  split
  · exact .refl
  · rename_i i hfind
    have hi := findByName_mem hfind
    let s := (m.procs i).note (.call .startOne)
    have hs : (m.set i s).procs i = s := by simp
    by_cases hpid : (m.procs i).proc.pid = 0
    · -- as far as the steps can tell, the clock is read before the entry changes
      refine .head (.quiet m.kernel.time.2 m.kernel.time_pids) ?_
      rw [if_neg (by rw [proc, hs]; exact not_not.mpr hpid)]
      simp only [startOne, set_set, set_kernel, withKernel_procs, withKernel_kernel,
        withKernel_set, set_procs, if_true]
      exact .single (fork_step (m := m.withKernel m.kernel.time.2) hi (s := s.reset m.kernel.time.1)
        hpid rfl (.start .startOne _ _ (hmay i hfind) (.inr rfl) hpid (Kernel.fork_ne_zero _)))
    · rw [if_pos (by rw [proc, hs]; exact hpid)]
      exact .single (.keep i s m.kernel hi (.running (hmay i hfind) hpid) rfl rfl)

theorem tickSlot_steps {now : ℤ} (hi : i ∈ m.slots) : Steps may m (tickSlot now m i) := by
  unfold tickSlot
  dsimp only
  split_ifs with hdown hkill hstart
  · obtain ⟨hpid, hsent, hdue⟩ := hkill
    exact .single (.keep i _ m.kernel hi (.tickKill now hdown hpid.ne' hsent hdue) rfl rfl)
  · exact .refl
  · obtain ⟨hpid, hgiven, hdue⟩ := hstart
    exact .single (fork_step hi hpid rfl
      (.tickStart now _ (by simpa using hdown) hpid hgiven hdue m.kernel.fork_ne_zero))
  · exact .refl

theorem tickSlot_count {now : ℤ} : (tickSlot now m i).count = m.count := by
  unfold tickSlot
  dsimp only
  split_ifs <;> rfl

theorem pmTick_steps : Steps may m m.pmTick := by
  refine .head (.quiet m.kernel.time.2 m.kernel.time_pids) ?_
  refine foldl_steps (v := id) (f := tickSlot m.kernel.time.1) (P := fun m i => i ∈ m.slots)
    (fun m i hi => tickSlot_steps hi) ?_ m.slots_nodup fun i hi => hi
  intro m i j _ _ hj
  rw [id, mem_slots, tickSlot_count]
  exact (mem_slots _ _).mp hj

/-- A child is reaped: the slot that runs it changes with the kernel, and if there is
none the kernel alone. -/
theorem reaped_step {k : Kernel} {p : Pid} (hp : p ≠ 0) (hchild : p ∈ m.kernel.pids)
    (hk : k.pids = m.kernel.pids.filter (· ≠ p)) {g : Slot → Manager}
    (hg : ∀ i ∈ m.slots, (m.proc i).pid = p → ∃ s k', Entry.Step may (m.procs i) s ∧
      s.proc.pid = 0 ∧ k'.pids = k.pids ∧ g i = (m.set i s).withKernel k') :
    Step may m (match m.pmFindByPid p with
      | none => m.withKernel k
      | some i => g i) := by
  split
  · rename_i hfind
    exact .stray k p (fun i hi => pmFindByPid_none hfind hi) hchild hk
  · rename_i i hfind
    obtain ⟨hi, hpid⟩ := pmFindByPid_some hfind
    obtain ⟨s, k', hstep, hs, hk', heq⟩ := hg i hi hpid
    rw [heq]
    exact .reap i s k' hi hstep (hpid ▸ hp) hs (by rw [hk', hk, hpid])

theorem judge_pid (mp : ManagedProcess) (st : Status) (now : ℤ) :
    (mp.judge st now).1.pid = mp.pid := by
  unfold ManagedProcess.judge ManagedProcess.schedule ManagedProcess.countAttempt
  dsimp only
  split_ifs <;> rfl

theorem reapExit_step {k : Kernel} {p : Pid} {st : Status} (hp : p ≠ 0)
    (hchild : p ∈ m.kernel.pids) (hk : k.pids = m.kernel.pids.filter (· ≠ p)) :
    Step may m ((m.withKernel k).reapExit p st) := by
  refine reaped_step hp hchild hk fun i hi hpid => ?_
  have hrun : (m.procs i).proc.pid ≠ 0 := hpid ▸ hp
  split_ifs
  · exact ⟨_, k.time.2, .reap st k.time.1 hrun, judge_pid _ _ _, k.time_pids, rfl⟩
  · exact ⟨_, k, .reap st 0 hrun, judge_pid _ _ _, rfl, rfl⟩

theorem Step.pids_pos {m' : Manager} (h : Step may m m') (h0 : 0 ∉ m.kernel.pids) :
    0 ∉ m'.kernel.pids := by
  cases h with
  | quiet k hk => rwa [withKernel_kernel, hk]
  | stray k p _ _ hk =>
    rw [withKernel_kernel, hk]
    exact fun hmem => h0 (List.mem_filter.mp hmem).1
  | add => exact h0
  | keep i s k _ _ _ hk => rwa [withKernel_kernel, hk]
  | fork i s k _ _ _ hs _ hk =>
    rw [withKernel_kernel, hk, List.mem_cons]
    rintro (h | h)
    · exact hs h.symm
    · exact h0 h
  | reap i s k _ _ _ _ hk =>
    rw [withKernel_kernel, hk]
    exact fun hmem => h0 (List.mem_filter.mp hmem).1

theorem steps_pids_pos {m' : Manager} (h : Steps may m m') (h0 : 0 ∉ m.kernel.pids) :
    0 ∉ m'.kernel.pids :=
  steps_invariant (I := fun m => 0 ∉ m.kernel.pids) (fun _ _ h hst => hst.pids_pos h) h h0

/-- The invariant rule for the loop of `pm_reap`. -/
theorem reapLoop_invariant {I : Manager → Prop}
    (hnone : ∀ {m k}, I m → m.kernel.waitpid = (none, k) → I (m.withKernel k))
    (hreap : ∀ {m k p st}, I m → m.kernel.waitpid = (some (p, st), k) →
      I ((m.withKernel k).reapExit p st)) (fuel : ℕ) : ∀ {m : Manager} {n : ℕ}, I m →
    I (reapLoop fuel m n).1 := by
  induction fuel with
  | zero => exact fun h => h
  | succ fuel ih =>
    intro m n h
    unfold reapLoop
    split
    · rename_i hwait
      exact hnone h hwait
    · rename_i hwait
      exact ih (hreap h hwait)

theorem reapLoop_steps (fuel : ℕ) {n : ℕ} (h0 : 0 ∉ m.kernel.pids) :
    Steps may m (reapLoop fuel m n).1 := by
  refine (reapLoop_invariant (I := fun m' => Steps may m m' ∧ 0 ∉ m'.kernel.pids) ?_ ?_ fuel
    ⟨.refl, h0⟩).1
  · rintro m' k ⟨hsteps, h0⟩ hwait
    have hstep : Step may m' (m'.withKernel k) := .quiet k (m'.kernel.waitpid_none hwait)
    exact ⟨hsteps.tail hstep, hstep.pids_pos h0⟩
  · rintro m' k p st ⟨hsteps, h0⟩ hwait
    obtain ⟨hchild, hpids⟩ := m'.kernel.waitpid_some hwait
    have hstep : Step may m' ((m'.withKernel k).reapExit p st) :=
      reapExit_step (fun hp => h0 (hp ▸ hchild)) hchild hpids
    exact ⟨hsteps.tail hstep, hstep.pids_pos h0⟩

theorem pmReap_steps (h0 : 0 ∉ m.kernel.pids) : Steps may m m.pmReap.1 := reapLoop_steps _ h0

/-- `pm_shutdown_all` has been called for every slot of the table. -/
def Abandoned (m : Manager) : Prop := ∀ i ∈ m.slots, .call .shutdownAll ∈ (m.procs i).past

theorem abandon_past (s : Entry) : .call .shutdownAll ∈ s.abandon.past := by
  unfold Entry.abandon
  dsimp only
  split_ifs <;> simp

theorem abandonSlots_steps (is : List Slot) : ∀ {m : Manager}, (∀ i ∈ is, i ∈ m.slots) →
    Steps may m (is.foldl abandonSlot m) ∧ (is.foldl abandonSlot m).count = m.count ∧
      ∀ i, i ∈ is ∨ .call .shutdownAll ∈ (m.procs i).past →
        .call .shutdownAll ∈ ((is.foldl abandonSlot m).procs i).past := by
  induction is with
  | nil => exact fun _ => ⟨.refl, rfl, by simp⟩
  | cons i is ih =>
    intro m hslots
    have hstep : Step may m (m.abandonSlot i) :=
      .keep i _ m.kernel (hslots i (List.mem_cons_self ..)) .abandon rfl rfl
    obtain ⟨hsteps, hcount, hpast⟩ :=
      ih (m := m.abandonSlot i) fun j hj => hslots j (List.mem_cons_of_mem i hj)
    refine ⟨.head hstep hsteps, hcount, fun j hj => hpast j ?_⟩
    rw [abandonSlot, set_procs]
    split_ifs with hji
    · exact .inr (abandon_past _)
    · simpa [hji] using hj

theorem collectExit_step {k : Kernel} {p : Pid} (hmark : m.Abandoned) (hp : p ≠ 0)
    (hchild : p ∈ m.kernel.pids) (hk : k.pids = m.kernel.pids.filter (· ≠ p)) :
    Step may m ((m.withKernel k).collectExit p) :=
  reaped_step hp hchild hk fun i hi hpid =>
    ⟨_, k, .collect (hpid ▸ hp) (hmark i hi), rfl, rfl, rfl⟩

theorem Abandoned.collectExit {k : Kernel} (hmark : m.Abandoned) (p : Pid) :
    ((m.withKernel k).collectExit p).Abandoned := by
  unfold Manager.collectExit
  split
  · exact hmark
  · intro j hj
    rw [set_procs]
    split_ifs with hji
    · exact List.mem_cons_of_mem _ (hmark _ (hji ▸ hj))
    · exact hmark j hj

/-- The invariant rule for the waiting loop of `pm_shutdown_all`. -/
theorem waitLoop_invariant {I : Manager → Prop} (start : Timespec) (timeoutMs : ℤ)
    (hnone : ∀ {m k}, I m → m.kernel.waitpid = (none, k) → I (m.withKernel k.clockGettime.2))
    (hcollect : ∀ {m k p st}, I m → m.kernel.waitpid = (some (p, st), k) →
      I ((m.withKernel k).collectExit p)) (fuel : ℕ) : ∀ {m : Manager}, I m →
    I (waitLoop start timeoutMs fuel m) := by
  induction fuel with
  | zero => exact fun h => h
  | succ fuel ih =>
    intro m h
    unfold waitLoop
    split_ifs
    · exact h
    · split
      · rename_i hwait
        exact ih (hcollect h hwait)
      · rename_i hwait
        dsimp only
        split_ifs
        · exact hnone h hwait
        · exact ih (hnone h hwait)

theorem waitLoop_steps {start : Timespec} {timeoutMs : ℤ} (fuel : ℕ) (h0 : 0 ∉ m.kernel.pids)
    (hmark : m.Abandoned) : Steps may m (waitLoop start timeoutMs fuel m) ∧
      (waitLoop start timeoutMs fuel m).Abandoned := by
  have hloop := waitLoop_invariant
    (I := fun m' => Steps may m m' ∧ 0 ∉ m'.kernel.pids ∧ m'.Abandoned) start timeoutMs
    ?_ ?_ fuel ⟨.refl, h0, hmark⟩
  · exact ⟨hloop.1, hloop.2.2⟩
  · rintro m' k ⟨hsteps, h0, hmark⟩ hwait
    have hstep : Step may m' (m'.withKernel k.clockGettime.2) :=
      .quiet _ (k.clockGettime_pids.trans (m'.kernel.waitpid_none hwait))
    exact ⟨hsteps.tail hstep, hstep.pids_pos h0, hmark⟩
  · rintro m' k p st ⟨hsteps, h0, hmark⟩ hwait
    obtain ⟨hchild, hpids⟩ := m'.kernel.waitpid_some hwait
    have hstep : Step may m' ((m'.withKernel k).collectExit p) :=
      collectExit_step hmark (fun hp => h0 (hp ▸ hchild)) hchild hpids
    exact ⟨hsteps.tail hstep, hstep.pids_pos h0, hmark.collectExit p⟩

theorem killSlot_steps (hmark : m.Abandoned) (hi : i ∈ m.slots) : Steps may m (m.killSlot i) := by
  unfold killSlot
  split_ifs with hpid
  · refine .single (.reap i _ _ hi (.straggler hpid.ne' (hmark i hi)) hpid.ne' rfl ?_)
    rw [Kernel.waitFor, Kernel.remove_pids, Kernel.advance_pids]
  · exact .refl

theorem killSlot_abandoned (hmark : m.Abandoned) : (m.killSlot i).Abandoned := by
  unfold killSlot
  split_ifs
  · intro j hj
    rw [withKernel_procs, set_procs]
    split_ifs with hji
    · exact List.mem_cons_of_mem _ (List.mem_cons_of_mem _ (hmark i (hji ▸ hj)))
    · exact hmark j hj
  · exact hmark

theorem killSlot_count : (m.killSlot i).count = m.count := by
  unfold killSlot
  split_ifs <;> rfl

theorem pmShutdownAll_steps (h0 : 0 ∉ m.kernel.pids) (timeoutMs : ℤ) :
    Steps may m (m.pmShutdownAll timeoutMs) := by
  have habandon : Steps may m _ ∧ _ ∧ _ := abandonSlots_steps m.slots fun _ hi => hi
  obtain ⟨hsteps, hcount, hpast⟩ := habandon
  unfold pmShutdownAll
  dsimp only
  generalize m.slots.foldl abandonSlot m = m' at hsteps hcount hpast ⊢
  have hmark : m'.Abandoned := by
    intro i hi
    rw [mem_slots, hcount] at hi
    exact hpast i (.inl ((mem_slots _ _).mpr hi))
  have hquiet : Step may m' (m'.withKernel m'.kernel.clockGettime.2) :=
    .quiet _ m'.kernel.clockGettime_pids
  have hpos : 0 ∉ m'.kernel.pids := steps_pids_pos hsteps h0
  have hwait : Steps may _ (waitLoop m'.kernel.clockGettime.1 timeoutMs _ _) ∧ Abandoned _ :=
    waitLoop_steps (m'.kernel.clockGettime.2.script.length +
      m'.kernel.clockGettime.2.children.length) (hquiet.pids_pos hpos) hmark
  obtain ⟨hwait, hmark'⟩ := hwait
  refine hsteps.trans (.head hquiet (hwait.trans ?_))
  refine foldl_steps (v := id) (f := killSlot) (P := fun m i => i ∈ m.slots ∧ m.Abandoned)
    (fun m i h => killSlot_steps h.2 h.1) ?_ (slots_nodup _) fun i hi => ⟨hi, hmark'⟩
  rintro m i j - - ⟨hj, hmark⟩
  refine ⟨?_, killSlot_abandoned hmark⟩
  rw [id, mem_slots, killSlot_count]
  exact (mem_slots _ _).mp hj

theorem pmShutdownOne_steps (name : List UInt8) (timeoutMs : ℤ) :
    Steps may m (m.pmShutdownOne name timeoutMs).1 := by
  unfold pmShutdownOne
  split
  · exact .refl
  · rename_i i hfind
    have hi := findByName_mem hfind
    split_ifs with hpid
    · exact .single (.keep i _ m.kernel hi (.stopIdle hpid) rfl rfl)
    · exact .single (.keep i _ _ hi (.stop m.kernel.time.1 timeoutMs hpid) rfl m.kernel.time_pids)

theorem pmAdd_steps (spec : ProcessSpec) : Steps may m (m.pmAdd spec).1 := by
  unfold pmAdd
  split_ifs with h
  · exact .single (.add spec h)
  · exact .refl

/-- Every call is a sequence of steps, if the slots it starts may be started. -/
theorem perform_steps (h0 : 0 ∉ m.kernel.pids) {c : Call} (h : m.Admits may c) :
    Steps may m (m.perform c) := by
  cases c with
  | add spec => exact pmAdd_steps spec
  | startAll => exact pmStartAll_steps fun i hi => h i hi
  | startOne name => exact pmStartOne_steps fun i hi => h i hi
  | tick => exact pmTick_steps
  | reap => exact pmReap_steps h0
  | shutdownOne name timeoutMs => exact pmShutdownOne_steps name timeoutMs
  | shutdownAll timeoutMs => exact pmShutdownAll_steps h0 timeoutMs

end Operations

end Manager

/-! ## Runs -/

/-- The managers that sequences of calls lead to, where every slot that is started meets
`may` at the time of the call. -/
inductive Run (may : Entry → Prop) : Manager → Prop
  | init (script : List Moment) : Run may (pmInit script)
  | call {m : Manager} (c : Call) : Run may m → m.Admits may c → Run may (m.perform c)

/-- The invariant rule: what the empty table has and every step keeps holds after every call. -/
theorem Run.invariant {may : Entry → Prop} {I : Manager → Prop} (hinit : ∀ script, I (pmInit script))
    (hstep : ∀ {m m'}, I m → Manager.Step may m m' → I m') {m : Manager} (h : Run may m) : I m := by
  have hinv : I m ∧ 0 ∉ m.kernel.pids := by
    induction h with
    | init script => exact ⟨hinit script, by simp [pmInit, Kernel.pids]⟩
    | call c _ hadmits ih =>
      exact steps_invariant (I := fun m => I m ∧ 0 ∉ m.kernel.pids)
        (fun _ _ hs hst => ⟨hstep hs.1 hst, hst.pids_pos hs.2⟩) (Manager.perform_steps ih.2 hadmits) ih
  exact hinv.1

theorem Run.pids_pos {may : Entry → Prop} {m : Manager} (h : Run may m) : 0 ∉ m.kernel.pids :=
  h.invariant (fun _ => by simp [pmInit, Kernel.pids]) fun hm hst => hst.pids_pos hm

/-- A property of entries that holds of a new one and that every step keeps. -/
structure Entry.Local (may : Entry → Prop) (P : Entry → Prop) : Prop where
  fresh : P {}
  added (spec : ProcessSpec) : P (Manager.added spec)
  step {s s' : Entry} : P s → Entry.Step may s s' → P s'

theorem Entry.Local.table {may P : Entry → Prop} (hP : Entry.Local may P) {m m' : Manager}
    (hm : ∀ i, P (m.procs i)) (hstep : Manager.Step may m m') : ∀ i, P (m'.procs i) := by
  have hset {m : Manager} {i : Slot} {s : Entry} (hm : ∀ j, P (m.procs j)) (hs : P s) :
      ∀ j, P ((m.set i s).procs j) := by
    intro j
    rw [Manager.set_procs]
    split_ifs
    · exact hs
    · exact hm j
  cases hstep with
  | quiet | stray => exact hm
  | add spec => exact hset hm (hP.added spec)
  | keep i s k _ hs => exact hset hm (hP.step (hm i) hs)
  | fork i s k _ hs => exact hset hm (hP.step (hm i) hs)
  | reap i s k _ hs => exact hset hm (hP.step (hm i) hs)

theorem Entry.Local.run {may P : Entry → Prop} (hP : Entry.Local may P) {m : Manager}
    (h : Run may m) : ∀ i, P (m.procs i) :=
  h.invariant (I := fun m => ∀ i, P (m.procs i)) (fun _ _ => hP.fresh) hP.table

theorem Entry.Local.steps {may P : Entry → Prop} (hP : Entry.Local may P) {m m' : Manager}
    (hm : ∀ i, P (m.procs i)) (h : Manager.Steps may m m') : ∀ i, P (m'.procs i) :=
  steps_invariant (I := fun m : Manager => ∀ i, P (m.procs i)) (fun _ _ hs hst => hP.table hs hst) h hm

/-! ## Calls that start nothing on request -/

def Call.isStart : Call → Bool
  | .startAll | .startOne _ => true
  | .add _ | .tick | .reap | .shutdownOne .. | .shutdownAll _ => false

namespace Manager

theorem admits_of_not_start (may : Entry → Prop) (m : Manager) {c : Call} (hc : c.isStart = false) :
    m.Admits may c := by
  intro i hi
  cases c with
  | startAll | startOne => cases hc
  | add | tick | reap | shutdownOne | shutdownAll => exact hi.elim

theorem calls_steps {cs : List Call} (hcs : ∀ c ∈ cs, c.isStart = false) : ∀ {m : Manager},
    0 ∉ m.kernel.pids → Steps (fun _ => False) m (cs.foldl perform m) := by
  induction cs with
  | nil => exact fun _ => .refl
  | cons c cs ih =>
    intro m h0
    have hcall : Steps (fun _ => False) m (m.perform c) :=
      perform_steps h0 (admits_of_not_start _ m (hcs c (List.mem_cons_self ..)))
    exact hcall.trans (ih (fun c hc => hcs c (List.mem_cons_of_mem _ hc)) (steps_pids_pos hcall h0))

theorem steps_slot {may P : Entry → Prop} (hP : ∀ {s s' : Entry}, P s → Entry.Step may s s' → P s')
    {m m' : Manager} (h : Steps may m m') {i : Slot} (hi : i ∈ m.slots) (hs : P (m.procs i)) :
    i ∈ m'.slots ∧ P (m'.procs i) := by
  refine steps_invariant (I := fun m => i ∈ m.slots ∧ P (m.procs i)) ?_ h ⟨hi, hs⟩
  rintro m m' ⟨hi, hs⟩ hstep
  have hset {j : Slot} {s : Entry} {k : Kernel} (hj : Entry.Step may (m.procs j) s) :
      i ∈ ((m.set j s).withKernel k).slots ∧ P (((m.set j s).withKernel k).procs i) := by
    refine ⟨hi, ?_⟩
    rw [withKernel_procs, set_procs]
    split_ifs with hij
    · exact hP hs (hij ▸ hj)
    · exact hs
  cases hstep with
  | quiet | stray => exact ⟨hi, hs⟩
  | add spec hcount =>
    have hlt : i.val < m.count := (mem_slots _ _).mp hi
    refine ⟨(mem_slots _ _).mpr (Nat.lt_succ_of_lt hlt), ?_⟩
    have hne : i ≠ ⟨m.count, hcount⟩ := by
      rintro rfl
      exact lt_irrefl _ hlt
    simpa [hne] using hs
  | keep j s k _ hj => exact hset hj
  | fork j s k _ hj => exact hset hj
  | reap j s k _ hj => exact hset hj

end Manager

theorem Run.calls {may : Entry → Prop} {m : Manager} (h : Run may m) {cs : List Call}
    (hcs : ∀ c ∈ cs, c.isStart = false) : Run may (cs.foldl Manager.perform m) :=
  List.foldlRecOn (motive := fun m => Run may m) cs Manager.perform h
    fun m hm c hc => .call c hm (m.admits_of_not_start may (hcs c hc))

/-- The slots behind the last one in use are as `pm_init` left them. -/
theorem Run.unused {may : Entry → Prop} {m : Manager} (h : Run may m) {i : Slot}
    (hi : m.count ≤ i.val) : m.procs i = {} := by
  have hset {m : Manager} {j : Slot} {s : Entry} (hm : ∀ i : Slot, m.count ≤ i.val → m.procs i = {})
      (hj : j ∈ m.slots) (i : Slot) (hi : m.count ≤ i.val) : (m.set j s).procs i = {} := by
    have hlt : j.val < m.count := (Manager.mem_slots _ _).mp hj
    rw [Manager.set_procs, if_neg fun hij => absurd hi (by rw [hij]; omega)]
    exact hm i hi
  refine h.invariant (I := fun m => ∀ i : Slot, m.count ≤ i.val → m.procs i = {})
    (fun _ _ _ => rfl) ?_ i hi
  intro m m' hm hstep
  cases hstep with
  | quiet | stray => exact hm
  | add spec hcount =>
    intro i (hi : m.count + 1 ≤ i.val)
    have hne : i ≠ ⟨m.count, hcount⟩ := by
      rintro rfl
      dsimp only at hi
      omega
    simpa [hne] using hm i (by omega)
  | keep j s k hj => exact hset hm hj
  | fork j s k hj => exact hset hm hj
  | reap j s k hj => exact hset hm hj

end PiDaemon.Process
