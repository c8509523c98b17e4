import PiDaemon.Process.Manager

/-!
# Children that have exited

A child that has exited stays where it is until `waitpid()` takes it: no other call of
the process manager makes it disappear, and `waitpid()` finds nothing only when no such
child is left.
-/

namespace PiDaemon.Process

namespace Kernel

variable {k : Kernel} {p : Pid}

def zombies (k : Kernel) : List Pid := k.exited.map Prod.fst

theorem mem_zombies : p ∈ k.zombies ↔ ∃ c ∈ k.children, c.pid = p ∧ c.status.isSome = true := by
  constructor
  · intro h
    obtain ⟨⟨q, st⟩, hmem, rfl⟩ := List.mem_map.mp h
    obtain ⟨c, hc, hst⟩ := List.mem_filterMap.mp hmem
    obtain ⟨st', hst', heq⟩ := Option.map_eq_some_iff.mp hst
    exact ⟨c, hc, congrArg Prod.fst heq, by simp [hst']⟩
  · rintro ⟨c, hc, rfl, hst⟩
    obtain ⟨st, hst⟩ := Option.isSome_iff_exists.mp hst
    exact List.mem_map.mpr ⟨(c.pid, st), List.mem_filterMap.mpr ⟨c, hc, by simp [hst]⟩, rfl⟩

theorem zombies_exit (h : p ∈ k.zombies) (q : Pid) (st : Status) : p ∈ (k.exit q st).zombies := by
  obtain ⟨c, hc, rfl, hst⟩ := mem_zombies.mp h
  have hdead : c.status ≠ none := by
    intro hnone
    simp [hnone] at hst
  refine mem_zombies.mpr ⟨c, List.mem_map.mpr ⟨c, hc, ?_⟩, rfl, hst⟩
  rw [if_neg fun hq => hdead hq.2]

theorem zombies_advance (h : p ∈ k.zombies) : p ∈ k.advance.zombies :=
  List.foldlRecOn (motive := fun k : Kernel => p ∈ k.zombies) k.moment.exits
    (fun k e => k.exit e.1 e.2) h fun _ hk e _ => zombies_exit hk e.1 e.2

theorem zombies_fork (h : p ∈ k.zombies) : p ∈ k.fork.2.zombies := by
  have hadvance := zombies_advance h
  unfold fork
  split
  · exact hadvance
  · split_ifs
    · exact hadvance
    · obtain ⟨c, hc, hp⟩ := mem_zombies.mp hadvance
      exact mem_zombies.mpr ⟨c, List.mem_cons_of_mem _ hc, hp⟩

theorem zombies_remove (h : p ∈ k.zombies) {q : Pid} (hq : p ≠ q) : p ∈ (k.remove q).zombies := by
  obtain ⟨c, hc, rfl, hst⟩ := mem_zombies.mp h
  exact mem_zombies.mpr ⟨c, List.mem_filter.mpr ⟨hc, by simpa using hq⟩, rfl, hst⟩

/-- `waitpid()` takes one child that has exited, and fails only if there is none. -/
theorem waitpid_zombies (k : Kernel) :
    (∃ k', k.waitpid = (none, k') ∧ k.zombies = []) ∨
      ∃ q st k', k.waitpid = (some (q, st), k') ∧ ∀ p ∈ k.zombies, p ≠ q → p ∈ k'.zombies := by
  unfold waitpid
  split
  · rename_i hnone
    refine .inl ⟨_, rfl, List.eq_nil_iff_forall_not_mem.mpr fun p hp => ?_⟩
    obtain ⟨-, hhead⟩ := Option.or_eq_none_iff.mp hnone
    have hadvance := zombies_advance hp
    rw [zombies, List.head?_eq_none_iff.mp hhead] at hadvance
    cases hadvance
  · exact .inr ⟨_, _, _, rfl, fun p hp hq => zombies_remove (zombies_advance hp) hq⟩

end Kernel

namespace Manager

variable {m : Manager} {p : Pid}

theorem zombies_reapExit (h : p ∈ m.kernel.zombies) (q : Pid) (st : Status) :
    p ∈ (m.reapExit q st).kernel.zombies := by
  unfold reapExit
  split
  · exact h
  · split_ifs
    · exact Kernel.zombies_advance h
    · exact h

theorem zombies_tick (h : p ∈ m.kernel.zombies) : p ∈ m.pmTick.kernel.zombies := by
  have hslot {m : Manager} (now : ℤ) (i : Slot) (h : p ∈ m.kernel.zombies) :
      p ∈ (tickSlot now m i).kernel.zombies := by
    unfold tickSlot
    dsimp only
    split_ifs
    · exact h
    · exact h
    · exact Kernel.zombies_fork h
    · exact h
  exact List.foldlRecOn (motive := fun m : Manager => p ∈ m.kernel.zombies) m.slots _
    (Kernel.zombies_advance h) fun m hm i _ => hslot _ i hm

theorem zombies_startAll (h : p ∈ m.kernel.zombies) : p ∈ m.pmStartAll.1.kernel.zombies := by
  have hslot {acc : Manager × ℕ} (now : ℤ) (i : Slot) (h : p ∈ acc.1.kernel.zombies) :
      p ∈ (startSlot now acc i).1.kernel.zombies := by
    unfold startSlot
    dsimp only
    split_ifs
    · exact Kernel.zombies_fork h
    · exact Kernel.zombies_fork h
    · exact h
  exact List.foldlRecOn (motive := fun acc : Manager × ℕ => p ∈ acc.1.kernel.zombies) m.slots _
    (Kernel.zombies_advance h) fun acc hacc i _ => hslot _ i hacc

end Manager

end PiDaemon.Process
