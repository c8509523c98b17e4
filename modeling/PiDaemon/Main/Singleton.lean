import PiDaemon.Base.Transition

/-!
# The singleton lock

`acquire_singleton_lock` and the end of `main`, for any number of instances of
the daemon that run their system calls in any order. The lock is on an inode and
the instances meet through a path: `flock` belongs to the open file description,
`close` releases it, `unlink` removes the name only.

The shutdown sequence closes the descriptor first and removes the name second. In
between another instance can lock the file whose name is about to go, and a third
one then finds no file and creates its own. As long as nobody has the file open
when its name is removed, at most one instance runs.
-/

namespace PiDaemon.Main

open Base

abbrev Instance := ℕ
abbrev Inode := ℕ

/-- Where an instance stands; the inode is that of its descriptor of the pid file. -/
inductive Phase
  | notStarted
  | opened (ino : Inode)
  | locked (ino : Inode)
  | truncated (ino : Inode)
  /-- `acquire_singleton_lock` has returned the descriptor -/
  | running (ino : Inode)
  /-- `close(pid_fd)` is done, `unlink` is not -/
  | closed
  | gone
  deriving DecidableEq, Repr

def Phase.fd : Phase → Option Inode
  | opened ino | locked ino | truncated ino | running ino => some ino
  | notStarted | closed | gone => none

def Phase.held : Phase → Option Inode
  | locked ino | truncated ino | running ino => some ino
  | notStarted | opened _ | closed | gone => none

/-- What `daemon_pid_path()` names, the lock on each inode, and the instances. -/
structure System where
  pid : Option Inode
  fresh : Inode
  lock : Inode → Option Instance
  phase : Instance → Phase

/-- No instance has started; a pid file may have been left by an earlier crash. -/
def System.boot (pid : Option Inode) : System where
  pid := pid
  fresh := pid.elim 0 (· + 1)
  lock _ := none
  phase _ := .notStarted

inductive Action
  | openPid (i : Instance)
  | openError (i : Instance)
  | flock (i : Instance)
  | flockError (i : Instance)
  | ftruncate (i : Instance)
  | ftruncateError (i : Instance)
  | writePid (i : Instance)
  | closePid (i : Instance)
  | unlinkPid (i : Instance)
  /-- the process ends, by a `return 1` of `main` or a signal, and its descriptors are closed -/
  | exit (i : Instance)
  deriving DecidableEq, Repr

namespace System

def setPhase (s : System) (i : Instance) (p : Phase) : System :=
  { s with phase := Function.update s.phase i p }

def release (s : System) (i : Instance) : System :=
  { s with lock := fun ino => if (s.phase i).held = some ino then none else s.lock ino }

/-- One system call of one instance; `none` when the instance is not at that point. -/
def next (s : System) : Action → Option System
  | .openPid i =>
    match s.phase i with
    | .notStarted =>
      match s.pid with
      | some ino => some (s.setPhase i (.opened ino))
      | none => some { s.setPhase i (.opened s.fresh) with
          pid := some s.fresh, fresh := s.fresh + 1 }
    | _ => none
  | .openError i =>
    match s.phase i with
    | .notStarted => some (s.setPhase i .gone)
    | _ => none
  | .flock i =>
    match s.phase i with
    | .opened ino =>
      if s.lock ino = none then
        some { s.setPhase i (.locked ino) with lock := Function.update s.lock ino (some i) }
      else some (s.setPhase i .gone)
    | _ => none
  | .flockError i =>
    match s.phase i with
    | .opened _ => some (s.setPhase i .gone)
    | _ => none
  | .ftruncate i =>
    match s.phase i with
    | .locked ino => some (s.setPhase i (.truncated ino))
    | _ => none
  | .ftruncateError i =>
    match s.phase i with
    | .locked _ => some ((s.release i).setPhase i .gone)
    | _ => none
  | .writePid i =>
    match s.phase i with
    | .truncated ino => some (s.setPhase i (.running ino))
    | _ => none
  | .closePid i =>
    match s.phase i with
    | .running _ => some ((s.release i).setPhase i .closed)
    | _ => none
  | .unlinkPid i =>
    match s.phase i with
    | .closed => some { s.setPhase i .gone with pid := none }
    | _ => none
  | .exit i => some ((s.release i).setPhase i .gone)

@[simp] theorem setPhase_phase (s : System) (i j : Instance) (p : Phase) :
    (s.setPhase i p).phase j = if j = i then p else s.phase j :=
  Function.update_apply _ _ _ _

theorem release_of_not_held {s : System} {i : Instance} (h : (s.phase i).held = none) :
    s.release i = s := by
  simp [release, h]

inductive Move (s : System) : Action → System → Prop
  | openNamed {a : Action} (i : Instance) {ino : Inode} : s.pid = some ino →
      Move s a (s.setPhase i (.opened ino))
  | create {a : Action} (i : Instance) : s.pid = none →
      Move s a { s.setPhase i (.opened s.fresh) with pid := some s.fresh, fresh := s.fresh + 1 }
  | lock {a : Action} (i : Instance) {ino : Inode} : s.phase i = .opened ino → s.lock ino = none →
      Move s a { s.setPhase i (.locked ino) with lock := Function.update s.lock ino (some i) }
  | advance {a : Action} (i : Instance) (p : Phase) : p.fd = (s.phase i).fd →
      p.held = (s.phase i).held → Move s a (s.setPhase i p)
  | leave {a : Action} (i : Instance) (p : Phase) : p.fd = none → p.held = none →
      Move s a ((s.release i).setPhase i p)
  | unlink (i : Instance) : Move s (.unlinkPid i) { s.setPhase i .gone with pid := none }

theorem Move.leaveUnlocked {s : System} {a : Action} (i : Instance)
    (h : (s.phase i).held = none) : Move s a (s.setPhase i .gone) := by
  have hleave : Move s a ((s.release i).setPhase i .gone) := .leave i .gone rfl rfl
  rwa [release_of_not_held h] at hleave

theorem next_move {s t : System} {a : Action} (h : s.next a = some t) : Move s a t := by
  cases a with
  | exit i =>
    cases h
    exact .leave i .gone rfl rfl
  | openPid i =>
    simp only [next] at h
    split at h
    · split at h
      case h_1 hpid => cases h; exact .openNamed i hpid
      case h_2 hpid => cases h; exact .create i hpid
    · cases h
  | flock i =>
    simp only [next] at h
    split at h
    case h_1 ino hphase =>
      split_ifs at h with hfree
      · cases h
        exact .lock i hphase hfree
      · cases h
        exact .leaveUnlocked i (by rw [hphase]; rfl)
    case h_2 => cases h
  | openError i | flockError i =>
    simp only [next] at h
    split at h
    case h_1 hphase => cases h; exact .leaveUnlocked i (by rw [hphase]; rfl)
    case h_2 => cases h
  | ftruncate i | writePid i =>
    simp only [next] at h
    split at h
    case h_1 hphase => cases h; exact .advance i _ (by rw [hphase]; rfl) (by rw [hphase]; rfl)
    case h_2 => cases h
  | ftruncateError i | closePid i =>
    simp only [next] at h
    split at h
    · cases h
      exact .leave i _ rfl rfl
    · cases h
  | unlinkPid i =>
    simp only [next] at h
    split at h
    · cases h
      exact .unlink i
    · cases h

/-! ## The invariant -/

/-- Every open descriptor is of the file that has the name, and the holders of
locks are those the locks record. -/
structure Inv (s : System) : Prop where
  named (i : Instance) (ino : Inode) : (s.phase i).fd = some ino → s.pid = some ino
  owner (i : Instance) (ino : Inode) : (s.phase i).held = some ino → s.lock ino = some i

/-- No name is removed from a file that an instance has open. -/
def Safe (s : System) : Action → Prop
  | .unlinkPid _ => ∀ j ino, s.pid = some ino → (s.phase j).fd ≠ some ino
  | _ => True

theorem inv_boot (pid : Option Inode) : Inv (boot pid) where
  named _ _ h := by cases h
  owner _ _ h := by cases h

/-- To keep the invariant when one instance moves, see what the move changes for
the others and what it gives to the instance itself. -/
theorem inv_of_moved {s t : System} (i : Instance) {p : Phase}
    (hphase : t.phase = Function.update s.phase i p)
    (hpid : ∀ j ino, j ≠ i → (s.phase j).fd = some ino → t.pid = some ino)
    (hlock : ∀ j ino, j ≠ i → (s.phase j).held = some ino → t.lock ino = some j)
    (hnamed : ∀ ino, p.fd = some ino → t.pid = some ino)
    (howner : ∀ ino, p.held = some ino → t.lock ino = some i) : Inv t := by
  constructor
  · intro j ino hj
    by_cases hji : j = i
    · subst hji
      exact hnamed ino (by simpa [hphase] using hj)
    · exact hpid j ino hji (by simpa [hphase, hji] using hj)
  · intro j ino hj
    by_cases hji : j = i
    · subst hji
      exact howner ino (by simpa [hphase] using hj)
    · exact hlock j ino hji (by simpa [hphase, hji] using hj)

theorem inv_next {s t : System} {a : Action} (h : Inv s) (hsafe : s.Safe a)
    (hnext : s.next a = some t) : Inv t := by
  cases next_move hnext with
  | openNamed i hpid =>
    refine inv_of_moved i rfl (fun j ino _ => h.named j ino) (fun j ino _ => h.owner j ino) ?_ ?_
    · intro ino hfd
      exact hpid.trans hfd
    · intro ino hheld
      cases hheld
  | create i hpid =>
    refine inv_of_moved i rfl ?_ (fun j ino _ => h.owner j ino) (fun ino hfd => hfd) ?_
    · intro j ino _ hfd
      have := h.named j ino hfd
      simp [hpid] at this
    · intro ino hheld
      cases hheld
  | @lock _ i ino hphase hfree =>
    refine inv_of_moved i rfl (fun j ino _ => h.named j ino) ?_ ?_ ?_
    · intro j ino' _ hheld
      have hj := h.owner j ino' hheld
      by_cases hino : ino' = ino
      · simp [hino, hfree] at hj
      · simpa [hino] using hj
    · intro ino' hfd
      exact h.named i ino' (by rw [hphase]; exact hfd)
    · intro ino' hheld
      cases hheld
      simp
  | advance i p hfd hheld =>
    refine inv_of_moved i rfl (fun j ino _ => h.named j ino) (fun j ino _ => h.owner j ino) ?_ ?_
    · intro ino hp
      exact h.named i ino (hfd.symm.trans hp)
    · intro ino hp
      exact h.owner i ino (hheld.symm.trans hp)
  | leave i p hfd hheld =>
    refine inv_of_moved i rfl (fun j ino _ => h.named j ino) ?_ ?_ ?_
    · intro j ino hji hj
      have hlock := h.owner j ino hj
      have hother : (s.phase i).held ≠ some ino := by
        intro hi
        rw [h.owner i ino hi] at hlock
        exact hji (Option.some.inj hlock).symm
      simpa [setPhase, release, hother] using hlock
    · intro ino hp
      simp [hfd] at hp
    · intro ino hp
      simp [hheld] at hp
  | unlink i =>
    refine inv_of_moved i rfl ?_ (fun j ino _ => h.owner j ino) ?_ ?_
    · intro j ino _ hfd
      exact absurd hfd (hsafe j ino (h.named j ino hfd))
    · intro ino hfd
      cases hfd
    · intro ino hheld
      cases hheld

/-- Between a successful `acquire_singleton_lock` and `close(pid_fd)`. -/
def Running (s : System) (i : Instance) : Prop := ∃ ino, s.phase i = .running ino

instance (s : System) (i : Instance) : Decidable (s.Running i) :=
  match h : s.phase i with
  | .running ino => .isTrue ⟨ino, h⟩
  | .notStarted | .opened _ | .locked _ | .truncated _ | .closed | .gone =>
    .isFalse fun ⟨_, hr⟩ => by rw [h] at hr; cases hr

theorem Inv.singleton {s : System} (h : Inv s) {i j : Instance} (hi : s.Running i)
    (hj : s.Running j) : i = j := by
  obtain ⟨ino, hi⟩ := hi
  obtain ⟨ino', hj⟩ := hj
  have hpid := h.named i ino (by rw [hi]; rfl)
  have hpid' := h.named j ino' (by rw [hj]; rfl)
  obtain rfl : ino = ino' := Option.some.inj (hpid.symm.trans hpid')
  have hlock := h.owner i ino (by rw [hi]; rfl)
  have hlock' := h.owner j ino (by rw [hj]; rfl)
  exact Option.some.inj (hlock.symm.trans hlock')

end System

/-- In every run in which no name is removed from a file that an instance has
open, at most one instance at a time has the daemon to itself. -/
theorem singleton_of_safe_unlinks {pid : Option Inode} {as : List Action} {s : System}
    (hsafe : Meets System.next System.Safe (.boot pid) as)
    (hrun : exec System.next (.boot pid) as = some s) {i j : Instance} (hi : s.Running i)
    (hj : s.Running j) : i = j :=
  (exec_invariant System.inv_next (System.inv_boot pid) hsafe hrun).singleton hi hj

/-- The calls of `acquire_singleton_lock`. -/
def start (i : Instance) : List Action := [.openPid i, .flock i, .ftruncate i, .writePid i]

/-- One instance runs and shuts down, then another one starts. -/
theorem singleton_in_turn : ∃ s,
    exec System.next (.boot none) (start 0 ++ [.closePid 0, .unlinkPid 0] ++ start 1) = some s ∧
      s.Running 1 ∧ ∀ i, s.Running i → i = 1 := by
  obtain ⟨s, hs⟩ : ∃ s, exec System.next (.boot none)
      (start 0 ++ [.closePid 0, .unlinkPid 0] ++ start 1) = some s := ⟨_, rfl⟩
  have hsafe : Meets System.next System.Safe (.boot none)
      (start 0 ++ [.closePid 0, .unlinkPid 0] ++ start 1) := by
    refine meets_cons rfl trivial (meets_cons rfl trivial (meets_cons rfl trivial
      (meets_cons rfl trivial (meets_cons rfl trivial (meets_cons rfl ?_ (meets_cons rfl trivial
        (meets_cons rfl trivial (meets_cons rfl trivial (meets_cons rfl trivial trivial)))))))))
    intro j ino _
    by_cases hj : j = 0
    · simp [hj, Phase.fd]
    · simp [hj, Phase.fd, System.release, System.boot]
  have hone : s.Running 1 := by
    cases hs
    exact ⟨_, rfl⟩
  exact ⟨s, hs, hone, fun i hi => singleton_of_safe_unlinks hsafe hs hi hone⟩

/-- Instance 0 shuts down while 1 starts: 1 locks the file whose name 0 then
removes, and 2 locks a new one. -/
theorem two_instances : ∃ as s, exec System.next (.boot none) as = some s ∧
    s.Running 1 ∧ s.Running 2 :=
  ⟨start 0 ++ [.closePid 0] ++ start 1 ++ [.unlinkPid 0] ++ start 2, _, rfl, ⟨_, rfl⟩, ⟨_, rfl⟩⟩

end PiDaemon.Main
