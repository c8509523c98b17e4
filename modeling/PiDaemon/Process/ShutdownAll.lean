import PiDaemon.Process.Restart

/-!
# Stopping everything

`pm_shutdown_all` in three parts: every slot is given up and its process asked to stop;
exits are collected until nothing runs or the time is over; what still runs is killed.
An exit can be taken in the second part or in the third and is never left, whatever other
children the daemon has and whenever they exit.
-/

namespace PiDaemon.Process

open Base

/-- What the last loop of `pm_shutdown_all` does to an entry. -/
def Entry.forced (s : Entry) : Entry :=
  if 0 < s.proc.pid then (s.note (.signal .shutdownAll .kill s.proc.pid)).collect else s

theorem Entry.forced_pid (s : Entry) : s.forced.proc.pid = 0 := by
  unfold Entry.forced
  split_ifs with hrun
  · rfl
  · exact Nat.eq_zero_of_not_pos hrun

theorem Entry.forced_givenUp (s : Entry) : s.forced.proc.givenUp = s.proc.givenUp := by
  unfold Entry.forced
  split_ifs <;> rfl

theorem Entry.forced_idle {s : Entry} (h : s.proc.pid = 0) : s.forced = s := if_neg h.not_gt

theorem Entry.forced_running {s : Entry} (h : s.proc.pid ≠ 0) :
    s.forced = (s.note (.signal .shutdownAll .kill s.proc.pid)).collect :=
  if_pos (Nat.pos_of_ne_zero h)

theorem Entry.abandon_idle {s : Entry} (h : s.proc.pid = 0) :
    s.abandon.past = .call .shutdownAll :: s.past := if_neg h.not_gt

theorem Entry.abandon_running {s : Entry} (h : s.proc.pid ≠ 0) : s.abandon.past =
    .signal .shutdownAll .term s.proc.pid :: .call .shutdownAll :: s.past :=
  if_pos (Nat.pos_of_ne_zero h)

theorem Kernel.script_of_tail (k : Kernel) {rest : List Moment} (h : k.script.tail = rest)
    (hrest : rest ≠ []) : ∃ first, k.script = first :: rest := by
  cases hk : k.script with
  | nil => exact absurd (by rw [← h, hk]; rfl) hrest
  | cons first script =>
    rw [hk] at h
    exact ⟨first, congrArg (first :: ·) h⟩

namespace Manager

/-- `pm_shutdown_all` up to the end of its waiting loop. -/
def afterGrace (m : Manager) (timeoutMs : ℤ) : Manager :=
  let m := m.slots.foldl abandonSlot m
  let k := m.kernel.clockGettime
  waitLoop k.1 timeoutMs (k.2.script.length + k.2.children.length) (m.withKernel k.2)

/-- Of the answers in `script`, those up to `rest` were given to `pm_shutdown_all` from its first
reading of the clock on, and the last of them is a reading at which the time was over; the
rounding of `elapsed_ms` is worth less than a millisecond. -/
def GraceOver (timeoutMs : ℤ) (script rest : List Moment) : Prop :=
  ∃ (first : Moment) (polls : List Moment) (last : Moment), script = first :: polls ++ last :: rest ∧
    timeoutMs * 1000000 < nanos last.monotonic - nanos first.monotonic + 1000000

theorem elapsedMs_lt (start now : Timespec) :
    elapsedMs start now * 1000000 < nanos now - nanos start + 1000000 := by
  unfold elapsedMs nanos
  have hdiv := Int.mul_tdiv_add_tmod (now.nsec - start.nsec) 1000000
  have hgt := Int.lt_tmod_of_pos (now.nsec - start.nsec) (b := 1000000) (by decide)
  omega

variable {m : Manager}

theorem pmShutdownAll_eq (m : Manager) (timeoutMs : ℤ) : m.pmShutdownAll timeoutMs =
    (m.afterGrace timeoutMs).slots.foldl killSlot (m.afterGrace timeoutMs) := rfl

/-! ## Asking -/

theorem abandonSlots_procs (m : Manager) (i : Slot) : (m.slots.foldl abandonSlot m).procs i =
    if i ∈ m.slots then (m.procs i).abandon else m.procs i :=
  foldl_each (v := Manager.procs) (fun m i j => m.set_procs i j _) m.slots_nodup m i

theorem abandonSlots_frame (m : Manager) : (m.slots.foldl abandonSlot m).kernel = m.kernel ∧
    (m.slots.foldl abandonSlot m).count = m.count :=
  List.foldlRecOn (motive := fun a : Manager => a.kernel = m.kernel ∧ a.count = m.count) m.slots
    abandonSlot
    ⟨rfl, rfl⟩ fun _ ha _ _ => ha

/-! ## Waiting -/

/-- While the loop waits, starting from `a`, the exit of a process is still to come or it
was taken, once. -/
structure Waiting (a m : Manager) : Prop where
  count : m.count = a.count
  pos : 0 ∉ m.kernel.pids
  entry (i : Slot) : i ∈ a.slots →
    (m.procs i = a.procs i ∧ ((a.proc i).pid ≠ 0 → (a.proc i).pid ∈ m.kernel.pids)) ∨
      ((a.proc i).pid ≠ 0 ∧ m.procs i = (a.procs i).collect ∧ (a.proc i).pid ∉ m.kernel.pids)

namespace Waiting

variable {a : Manager}

theorem mem_slots (h : a.Waiting m) {i : Slot} : i ∈ m.slots ↔ i ∈ a.slots := by
  rw [Manager.mem_slots, Manager.mem_slots, h.count]

theorem quiet (h : a.Waiting m) {k : Kernel} (hk : k.pids = m.kernel.pids) :
    a.Waiting (m.withKernel k) where
  count := h.count
  pos := by
    rw [withKernel_kernel, hk]
    exact h.pos
  entry i hi := by
    rw [withKernel_procs, withKernel_kernel, hk]
    exact h.entry i hi

/-- A slot whose process runs is as it was at the beginning. -/
theorem running (h : a.Waiting m) {i : Slot} (hi : i ∈ a.slots) (hrun : (m.proc i).pid ≠ 0) :
    m.procs i = a.procs i := by
  rcases h.entry i hi with ⟨hsame, -⟩ | ⟨-, hcollected, -⟩
  · exact hsame
  · exact absurd (by rw [proc, hcollected]; rfl) hrun

theorem reaped_other (h : a.Waiting m) {p : Pid} {k : Kernel}
    (hk : k.pids = m.kernel.pids.filter (· ≠ p)) {i : Slot} (hi : i ∈ a.slots)
    (hother : (m.proc i).pid ≠ p) :
    (m.procs i = a.procs i ∧ ((a.proc i).pid ≠ 0 → (a.proc i).pid ∈ k.pids)) ∨
      ((a.proc i).pid ≠ 0 ∧ m.procs i = (a.procs i).collect ∧ (a.proc i).pid ∉ k.pids) := by
  rw [hk]
  rcases h.entry i hi with ⟨hsame, hthere⟩ | ⟨hrun, hcollected, hgone⟩
  · rw [proc, hsame] at hother
    exact .inl ⟨hsame, fun hrun => List.mem_filter.mpr ⟨hthere hrun, by simpa using hother⟩⟩
  · exact .inr ⟨hrun, hcollected, fun hmem => hgone (List.mem_filter.mp hmem).1⟩

theorem collectExit (h : a.Waiting m)
    (hdistinct : ∀ i j, (a.proc i).pid ≠ 0 → (a.proc i).pid = (a.proc j).pid → i = j)
    {p : Pid} {k : Kernel} (hchild : p ∈ m.kernel.pids)
    (hk : k.pids = m.kernel.pids.filter (· ≠ p)) : a.Waiting ((m.withKernel k).collectExit p) := by
  have hp : p ≠ 0 := fun hp => h.pos (hp ▸ hchild)
  have hpos : 0 ∉ k.pids := by
    rw [hk]
    exact fun hmem => h.pos (List.mem_filter.mp hmem).1
  unfold Manager.collectExit
  split
  · rename_i hfind
    exact ⟨h.count, hpos, fun i hi =>
      h.reaped_other hk hi (pmFindByPid_none hfind (h.mem_slots.mpr hi))⟩
  · rename_i j hfind
    obtain ⟨hslot, hpid⟩ := pmFindByPid_some hfind
    rw [withKernel_proc] at hpid
    have hj : j ∈ a.slots := h.mem_slots.mp hslot
    have hsame := h.running hj (hpid ▸ hp)
    refine ⟨h.count, hpos, fun i hi => ?_⟩
    rw [set_procs, withKernel_procs, set_kernel, withKernel_kernel]
    by_cases hij : i = j
    · subst hij
      rw [if_pos rfl, proc, ← hsame]
      exact .inr ⟨hpid ▸ hp, rfl, by simp [hk, hpid]⟩
    · rw [if_neg hij]
      refine h.reaped_other hk hi fun heq => hij ?_
      have hsame' := h.running hi (heq ▸ hp)
      exact hdistinct i j (by rw [proc, ← hsame', heq]; exact hp)
        (by rw [proc, proc, ← hsame, ← hsame', heq, hpid])

theorem waitLoop (h : a.Waiting m) (start : Timespec) (timeoutMs : ℤ)
    (hdistinct : ∀ i j, (a.proc i).pid ≠ 0 → (a.proc i).pid = (a.proc j).pid → i = j)
    (fuel : ℕ) : a.Waiting (waitLoop start timeoutMs fuel m) := by
  refine waitLoop_invariant _ _ (fun {m k} hm hwait => ?_) (fun {m k p st} hm hwait => ?_) _ h
  · exact hm.quiet (k.clockGettime_pids.trans (m.kernel.waitpid_none hwait))
  · obtain ⟨hchild, hpids⟩ := m.kernel.waitpid_some hwait
    exact hm.collectExit hdistinct hchild hpids

end Waiting

theorem collectExit_kernel (m : Manager) (p : Pid) : (m.collectExit p).kernel = m.kernel := by
  unfold collectExit
  split <;> rfl

/-- The loop ends because nothing runs, or at a reading of the clock that says that the time is
over, if the kernel does not stop answering. -/
theorem waitLoop_ends {start : Timespec} {timeoutMs : ℤ} (fuel : ℕ) : ∀ {m : Manager},
    m.kernel.script.length ≤ fuel → (waitLoop start timeoutMs fuel m).kernel.script ≠ [] →
      (∀ i ∈ (waitLoop start timeoutMs fuel m).slots,
        ((waitLoop start timeoutMs fuel m).proc i).pid = 0) ∨
      ∃ polls last, m.kernel.script =
          polls ++ last :: (waitLoop start timeoutMs fuel m).kernel.script ∧
        timeoutMs ≤ elapsedMs start last.monotonic := by
  induction fuel with
  | zero =>
    intro m hfuel hmore
    exact absurd (List.eq_nil_of_length_eq_zero (Nat.le_zero.mp hfuel)) hmore
  | succ fuel ih =>
    intro m hfuel hmore
    unfold waitLoop at hmore ⊢
    split_ifs at hmore ⊢ with hidle
    · exact .inl (by simpa using hidle)
    · cases hwait : m.kernel.waitpid with
      | mk answer k =>
        have htail : k.script = m.kernel.script.tail := by rw [← m.kernel.waitpid_script, hwait]
        have hshort : k.script.length ≤ fuel := by
          rw [htail, List.length_tail]
          omega
        rw [hwait] at hmore
        cases answer with
        | some exited =>
          dsimp only at hmore ⊢
          have hkernel := (m.withKernel k).collectExit_kernel exited.1
          rcases ih (by rw [hkernel]; exact hshort) hmore with hidle | ⟨polls, last, hpolls, hover⟩
          · exact .inl hidle
          · rw [hkernel] at hpolls
            obtain ⟨w, hw⟩ := m.kernel.script_of_tail (htail.symm.trans hpolls) (by simp)
            exact .inr ⟨w :: polls, last, hw, hover⟩
        | none =>
          dsimp only at hmore ⊢
          split_ifs at hmore ⊢ with hover
          · obtain ⟨c, hc⟩ := k.script_of_tail rfl hmore
            obtain ⟨w, hw⟩ := m.kernel.script_of_tail (htail.symm.trans hc) (by simp)
            have hlast : k.clockGettime.1 = c.monotonic := by
              rw [Kernel.clockGettime, Kernel.moment, hc]
              rfl
            exact .inr ⟨[w], c, hw, hlast ▸ hover⟩
          · rcases ih (k.advance_script.length_le.trans hshort) hmore with
              hidle | ⟨polls, last, hpolls, hover⟩
            · exact .inl hidle
            · obtain ⟨c, hc⟩ := k.script_of_tail hpolls (by simp)
              obtain ⟨w, hw⟩ := m.kernel.script_of_tail (htail.symm.trans hc) (by simp)
              exact .inr ⟨w :: c :: polls, last, hw, hover⟩

/-! ## Killing -/

theorem killSlot_procs (m : Manager) (i j : Slot) :
    (m.killSlot i).procs j = if j = i then (m.procs i).forced else m.procs j := by
  unfold killSlot Entry.forced
  by_cases hrun : 0 < (m.proc i).pid
  · rw [if_pos hrun, if_pos hrun, withKernel_procs, set_procs]
  · rw [if_neg hrun, if_neg hrun]
    split_ifs with hji
    · rw [hji]
    · rfl

theorem killSlot_pids (m : Manager) (i : Slot) :
    (m.killSlot i).kernel.pids ⊆ m.kernel.pids ∧
      ((m.proc i).pid ≠ 0 → (m.proc i).pid ∉ (m.killSlot i).kernel.pids) := by
  unfold killSlot
  split_ifs with hrun
  · rw [withKernel_kernel, Kernel.waitFor, Kernel.remove_pids, Kernel.advance_pids]
    exact ⟨(List.filter_sublist ..).subset, fun _ => by simp⟩
  · exact ⟨List.Subset.refl _, fun hne => absurd (Nat.pos_of_ne_zero hne) hrun⟩

theorem killSlots_pids {is : List Slot} (hdistinct : is.Nodup) : ∀ m : Manager,
    (is.foldl killSlot m).kernel.pids ⊆ m.kernel.pids ∧ ∀ i ∈ is, (m.proc i).pid ≠ 0 →
      (m.proc i).pid ∉ (is.foldl killSlot m).kernel.pids := by
  induction is with
  | nil => exact fun m => ⟨List.Subset.refl _, by simp⟩
  | cons i is ih =>
    intro m
    obtain ⟨hi, his⟩ := List.nodup_cons.mp hdistinct
    obtain ⟨hsub, hgone⟩ := ih his (m.killSlot i)
    obtain ⟨hsub₁, hgone₁⟩ := m.killSlot_pids i
    refine ⟨fun p hp => hsub₁ (hsub hp), fun j hj hrun => ?_⟩
    rcases List.mem_cons.mp hj with rfl | hj
    · exact fun hmem => hgone₁ hrun (hsub hmem)
    · have hne : j ≠ i := fun hji => hi (hji ▸ hj)
      have hsame : (m.killSlot i).proc j = m.proc j := by rw [proc, killSlot_procs, if_neg hne]
      rw [← hsame] at hrun ⊢
      exact hgone j hj hrun

theorem killSlots_script (m : Manager) :
    (m.slots.foldl killSlot m).kernel.script <:+ m.kernel.script := by
  refine List.foldlRecOn (motive := fun b => b.kernel.script <:+ m.kernel.script) m.slots killSlot
    (List.suffix_refl _) fun b hb i _ => ?_
  unfold killSlot
  split_ifs
  · exact b.kernel.advance_script.trans hb
  · exact hb

/-! ## All three -/

/-- The kernel knows the processes of the slots, and maybe other children. -/
structure Known (m : Manager) : Prop where
  pos : 0 ∉ m.kernel.pids
  children (i : Slot) : (m.proc i).pid ≠ 0 → (m.proc i).pid ∈ m.kernel.pids
  distinct (i j : Slot) : (m.proc i).pid ≠ 0 → (m.proc i).pid = (m.proc j).pid → i = j

theorem Matched.known (h : m.Matched) {k : Kernel} (hown : m.kernel.pids ⊆ k.pids)
    (h0 : 0 ∉ k.pids) : (m.withKernel k).Known where
  pos := h0
  children i hi := hown ((h.children _).mpr ⟨hi, i, rfl⟩)
  distinct := h.distinct

theorem Known.afterGrace (h : m.Known) (timeoutMs : ℤ) :
    (m.slots.foldl abandonSlot m).Waiting (m.afterGrace timeoutMs) := by
  have hkernel := m.abandonSlots_frame.1
  have hpid (i : Slot) : ((m.slots.foldl abandonSlot m).proc i).pid = (m.proc i).pid := by
    rw [proc, abandonSlots_procs]
    split_ifs <;> rfl
  unfold Manager.afterGrace
  generalize m.slots.foldl abandonSlot m = a at hkernel hpid ⊢
  have hbefore : a.Waiting a := by
    refine ⟨rfl, hkernel ▸ h.pos, fun i _ => .inl ⟨rfl, fun hrun => ?_⟩⟩
    rw [hpid] at hrun ⊢
    rw [hkernel]
    exact h.children i hrun
  refine (hbefore.quiet a.kernel.clockGettime_pids).waitLoop _ _ (fun i j hi hij => ?_) _
  rw [hpid] at hi
  rw [hpid, hpid] at hij
  exact h.distinct i j hi hij

/-- What becomes of a slot: its process is collected while the loop waits, or it is dealt
with when the loop has ended. -/
theorem Known.shutdownAll_entry (h : m.Known) (timeoutMs : ℤ) {i : Slot} (hi : i ∈ m.slots) :
    i ∈ (m.afterGrace timeoutMs).slots ∧
    (((m.pmShutdownAll timeoutMs).procs i = (m.procs i).abandon.forced ∧ ((m.proc i).pid ≠ 0 →
        ((m.afterGrace timeoutMs).proc i).pid ≠ 0 ∧
        (m.proc i).pid ∈ (m.afterGrace timeoutMs).kernel.pids ∧
        (m.proc i).pid ∉ (m.pmShutdownAll timeoutMs).kernel.pids)) ∨
      ((m.pmShutdownAll timeoutMs).procs i = (m.procs i).abandon.collect ∧ (m.proc i).pid ≠ 0 ∧
        (m.proc i).pid ∉ (m.pmShutdownAll timeoutMs).kernel.pids)) := by
  have hwaiting := h.afterGrace timeoutMs
  have hia : i ∈ (m.slots.foldl abandonSlot m).slots := by
    rwa [mem_slots, m.abandonSlots_frame.2, ← mem_slots]
  have hib : i ∈ (m.afterGrace timeoutMs).slots := hwaiting.mem_slots.mpr hia
  have hentry := hwaiting.entry i hia
  rw [proc, m.abandonSlots_procs, if_pos hi] at hentry
  rw [pmShutdownAll_eq]
  generalize m.afterGrace timeoutMs = b at hentry hib ⊢
  obtain ⟨hsub, hkilled⟩ := killSlots_pids b.slots_nodup b
  rw [foldl_each (v := Manager.procs) killSlot_procs b.slots_nodup, if_pos hib]
  refine ⟨hib, ?_⟩
  rcases hentry with ⟨hsame, hthere⟩ | ⟨hrun, hcollected, hgone⟩
  · refine .inl ⟨by rw [hsame], fun hrun => ?_⟩
    have hpid : (b.proc i).pid = (m.proc i).pid := by
      rw [proc, hsame]
      rfl
    exact ⟨hpid ▸ hrun, hthere hrun, hpid ▸ hkilled i hib (hpid ▸ hrun)⟩
  · refine .inr ⟨?_, hrun, fun hmem => hgone (hsub hmem)⟩
    rw [hcollected, Entry.forced_idle rfl]

theorem afterGrace_ends (m : Manager) {timeoutMs : ℤ}
    (hmore : (m.pmShutdownAll timeoutMs).kernel.script ≠ []) {i : Slot}
    (hi : i ∈ (m.afterGrace timeoutMs).slots) (hrun : ((m.afterGrace timeoutMs).proc i).pid ≠ 0) :
    GraceOver timeoutMs m.kernel.script (m.afterGrace timeoutMs).kernel.script := by
  have hbefore : (m.afterGrace timeoutMs).kernel.script ≠ [] := fun hnil =>
    hmore (List.eq_nil_of_suffix_nil (hnil ▸ (m.afterGrace timeoutMs).killSlots_script))
  unfold afterGrace at hi hrun hbefore ⊢
  dsimp only at hi hrun hbefore ⊢
  rw [m.abandonSlots_frame.1] at hi hrun hbefore ⊢
  rcases waitLoop_ends (m := (m.slots.foldl abandonSlot m).withKernel m.kernel.clockGettime.2) _
    (Nat.le_add_right _ _) hbefore with hidle | ⟨polls, last, hpolls, hover⟩
  · exact absurd (hidle i hi) hrun
  · obtain ⟨first, hfirst⟩ := m.kernel.script_of_tail hpolls (by simp)
    have hstart : m.kernel.clockGettime.1 = first.monotonic := by
      rw [Kernel.clockGettime, Kernel.moment, hfirst]
      rfl
    rw [hstart] at hover
    have hns := elapsedMs_lt first.monotonic last.monotonic
    exact ⟨first, polls, last, hstart ▸ hfirst, by omega⟩

end Manager

/-- `pm_shutdown_all` in any state the process manager can reach, whatever other children
the daemon has. When it returns, no slot has a process and all are given up. A process that
ran was asked to stop, its exit was taken once, and the kernel does not know it any more. It
was killed only if it was unreaped when the time was over; for this the kernel must go on
answering to the end, for the clock stands still with it. And until somebody asks for a
start, no call forks a slot. -/
theorem shutdown_all_complete {m₀ m m' : Manager} (hrun : Run (fun _ => True) m₀) (k : Kernel)
    (hown : m₀.kernel.pids ⊆ k.pids) (h0 : 0 ∉ k.pids) (hm : m = m₀.withKernel k) (timeoutMs : ℤ)
    (hm' : m' = m.pmShutdownAll timeoutMs) {i : Slot} (hi : i ∈ m.slots) :
    (m'.proc i).pid = 0 ∧ (m'.proc i).givenUp = true ∧
      ((m.proc i).pid = 0 → (m'.procs i).past = .call .shutdownAll :: (m.procs i).past) ∧
      (∀ p, (m.proc i).pid = p → p ≠ 0 → p ∉ m'.kernel.pids ∧ ∃ kills,
        (m'.procs i).past = .collected p :: kills ++
          .signal .shutdownAll .term p :: .call .shutdownAll :: (m.procs i).past ∧
        (kills = [] ∨ kills = [.signal .shutdownAll .kill p] ∧
          p ∈ (m.afterGrace timeoutMs).kernel.pids ∧ (m'.kernel.script ≠ [] →
            Manager.GraceOver timeoutMs m.kernel.script (m.afterGrace timeoutMs).kernel.script))) ∧
      ∀ later : List Call, (∀ c ∈ later, c.isStart = false) →
        ((later.foldl Manager.perform m').procs i).Retired (m'.procs i).past := by
  have hknown : m.Known := by
    have hmatched : m₀.Matched := hrun.invariant Manager.matched_init fun hm hst => hm.step hst
    rw [hm]
    exact hmatched.known hown h0
  obtain ⟨hslot, hentry⟩ := hknown.shutdownAll_entry timeoutMs hi
  rw [← hm'] at hentry
  have hstopped : (m'.proc i).pid = 0 ∧ (m'.proc i).givenUp = true := by
    rcases hentry with ⟨hforced, -⟩ | ⟨hcollected, -⟩
    · rw [Manager.proc, hforced]
      exact ⟨Entry.forced_pid _, Entry.forced_givenUp _⟩
    · rw [Manager.proc, hcollected]
      exact ⟨rfl, rfl⟩
  refine ⟨hstopped.1, hstopped.2, fun hidle => ?_, ?_, fun later hlater => ?_⟩
  · rcases hentry with ⟨hforced, -⟩ | ⟨-, hrun, -⟩
    · rw [hforced, Entry.forced_idle (by exact hidle), Entry.abandon_idle hidle]
    · exact absurd hidle hrun
  · rintro p rfl hrun
    rcases hentry with ⟨hforced, hkilled⟩ | ⟨hcollected, -, hgone⟩
    · obtain ⟨hstill, hthere, hgone⟩ := hkilled hrun
      refine ⟨hgone, [.signal .shutdownAll .kill (m.proc i).pid], ?_, .inr ⟨rfl, hthere, ?_⟩⟩
      · rw [hforced, Entry.forced_running (by exact hrun), ← Entry.abandon_running hrun]
        rfl
      · intro hmore
        exact m.afterGrace_ends (hm' ▸ hmore) hslot hstill
    · refine ⟨hgone, [], ?_, .inl rfl⟩
      rw [hcollected, ← Entry.abandon_running hrun]
      rfl
  · have hsteps : Manager.Steps (fun _ => True) m m' := by
      rw [hm']
      exact Manager.pmShutdownAll_steps hknown.pos timeoutMs
    have hslot' : i ∈ m'.slots := (Manager.steps_slot (P := fun _ => True) (fun _ _ => trivial)
      hsteps hi trivial).1
    exact retired_calls (Manager.steps_pids_pos hsteps hknown.pos) hslot' hstopped.2 hlater

def pair : Manager :=
  [.add { name := [97] }, .add { name := [98] }, .startAll].foldl Manager.perform
    (pmInit [{}, { fork := some 100 }, { fork := some 101 }])

theorem pair_run : Run (fun _ => True) pair := by
  unfold pair
  simp only [List.foldl_cons, List.foldl_nil]
  refine .call .startAll (.call (.add _) (.call (.add _) (.init _) ?_) ?_) fun _ _ => trivial
  · exact fun _ hs => hs.elim
  · exact fun _ hs => hs.elim

/-- There is a third child, 900. The children 100 and 900 exit at once, and 101 does not
in the next three seconds. -/
def straggling : Kernel where
  children := ⟨900, none⟩ :: pair.kernel.children
  script := [{}, { exits := [(100, .exited 0), (900, .exited 0)], pick := 100 }, { pick := 900 }, {},
    { monotonic := { sec := 3 } }, {}, {}]

theorem shutdown_all_straggling :
    .signal .shutdownAll .kill 101 ∈
        (((pair.withKernel straggling).pmShutdownAll 2000).procs 1).past ∧
      Manager.GraceOver 2000 straggling.script
        ((pair.withKernel straggling).afterGrace 2000).kernel.script ∧
      .signal .shutdownAll .kill 100 ∉
        (((pair.withKernel straggling).pmShutdownAll 2000).procs 0).past ∧
      101 ∉ ((pair.withKernel straggling).pmShutdownAll 2000).kernel.pids := by
  have hkilled : .signal .shutdownAll .kill 101 ∈
      (((pair.withKernel straggling).pmShutdownAll 2000).procs 1).past := by decide +kernel
  obtain ⟨-, -, -, hreaped, -⟩ := shutdown_all_complete pair_run straggling (by decide +kernel)
    (by decide +kernel) rfl 2000 rfl (i := 1) (by decide +kernel)
  obtain ⟨hgone, kills, hpast, rfl | ⟨-, -, hover⟩⟩ :=
    hreaped 101 (by decide +kernel) (by decide)
  · rw [hpast] at hkilled
    exact absurd hkilled (by decide +kernel)
  · exact ⟨hkilled, hover (by decide +kernel), by decide +kernel, hgone⟩

end PiDaemon.Process
