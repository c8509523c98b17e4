import PiDaemon.Base.RwLock
import PiDaemon.Base.Transition
import PiDaemon.Store.Atomicity

/-!
# Concurrent calls on the state file

`sat_state_init`, `sat_state_load` and `sat_state_store` may be called by several
processes on one path. Each call is cut at its system calls, every one of which
may fail, transfer less than was asked for, or be the last of a process that is
killed; the machine may also restart between any two. Files are inodes here, so
that a descriptor keeps its file when a name is given to another one.

Over every schedule the calls behave like operations on one register: `log` is
the sequence of values renamed into place, and a call takes effect while it holds
the lock.
-/

namespace PiDaemon.Store

open Base Proto

/-! ## Files -/

/-- `write` at an offset; bytes between the end of the file and the offset read as zero. -/
def File.pwrite (f : File) (off : ℕ) (bs : List UInt8) : File where
  data := f.data.take off ++ List.replicate (off - f.data.length) 0 ++ bs ++
    f.data.drop (off + bs.length)
  synced := false

theorem File.pwrite_end {f : File} {off : ℕ} (h : f.data.length = off) (bs : List UInt8) :
    f.pwrite off bs = ⟨f.data ++ bs, false⟩ := by
  subst h
  simp [File.pwrite]

structure Inodes where
  files : ℕ → File
  fresh : ℕ
  state : Option ℕ
  tmp : Option ℕ

namespace Inodes

def fs (d : Inodes) : Fs := ⟨d.state.map d.files, d.tmp.map d.files⟩

def setFile (d : Inodes) (fd : ℕ) (f : File) : Inodes :=
  { d with files := Function.update d.files fd f }

/-- `open(g_tmp_path, O_CREAT | O_WRONLY | O_TRUNC)`: a file that was left behind is reused. -/
def openTmp (d : Inodes) : Inodes × ℕ :=
  match d.tmp with
  | some fd => (d.setFile fd ⟨[], false⟩, fd)
  | none =>
    ({ d.setFile d.fresh ⟨[], false⟩ with fresh := d.fresh + 1, tmp := some d.fresh }, d.fresh)

def write (d : Inodes) (fd off : ℕ) (bs : List UInt8) : Inodes :=
  d.setFile fd ((d.files fd).pwrite off bs)

def fsync (d : Inodes) (fd : ℕ) : Inodes := d.setFile fd { d.files fd with synced := true }

/-- `rename(g_tmp_path, g_state_path)`, with `fd` the inode of the temporary file. -/
def rename (d : Inodes) (fd : ℕ) : Inodes := { d with state := some fd, tmp := none }

def unlink (d : Inodes) : Inodes := { d with tmp := none }

/-- A crash, as `Fs.crash`: contents that were not synced become `junk`, and the
temporary name may be lost. -/
def crash (d : Inodes) (junk : ℕ → List UInt8) (keepTmp : Bool) : Inodes :=
  { d with
    files := fun fd => if (d.files fd).synced then d.files fd else ⟨junk fd, true⟩
    tmp := if keepTmp then d.tmp else none }

/-- Names refer to inodes in use, and to different ones. -/
structure WellFormed (d : Inodes) : Prop where
  state_lt : ∀ fd, d.state = some fd → fd < d.fresh
  tmp_lt : ∀ fd, d.tmp = some fd → fd < d.fresh
  distinct : ∀ fd, d.tmp = some fd → d.state ≠ some fd

variable {d : Inodes} {fd : ℕ}

@[simp] theorem setFile_self (f : File) : (d.setFile fd f).files fd = f :=
  Function.update_self ..

theorem setFile_fs_state (h : d.state ≠ some fd) (f : File) :
    (d.setFile fd f).fs.state = d.fs.state := by
  cases hs : d.state with
  | none => simp [fs, setFile, hs]
  | some i =>
    have hi : i ≠ fd := fun heq => h (heq ▸ hs)
    simp [fs, setFile, hs, Function.update_of_ne hi]

theorem WellFormed.setFile (h : d.WellFormed) (f : File) : (d.setFile fd f).WellFormed :=
  ⟨h.state_lt, h.tmp_lt, h.distinct⟩

theorem WellFormed.of_no_tmp (hs : ∀ i, d.state = some i → i < d.fresh) (ht : d.tmp = none) :
    d.WellFormed where
  state_lt := hs
  tmp_lt i hi := by simp [ht] at hi
  distinct i hi := by simp [ht] at hi

theorem WellFormed.unlink (h : d.WellFormed) : d.unlink.WellFormed := .of_no_tmp h.state_lt rfl

theorem WellFormed.rename (h : d.WellFormed) (hfd : d.tmp = some fd) :
    (d.rename fd).WellFormed := by
  apply WellFormed.of_no_tmp
  · intro i hi
    cases hi
    exact h.tmp_lt fd hfd
  · rfl

theorem WellFormed.crash (h : d.WellFormed) (junk : ℕ → List UInt8) (keepTmp : Bool) :
    (d.crash junk keepTmp).WellFormed := by
  cases keepTmp with
  | false => exact .of_no_tmp h.state_lt rfl
  | true => exact ⟨h.state_lt, h.tmp_lt, h.distinct⟩

theorem WellFormed.openTmp (h : d.WellFormed) :
    d.openTmp.1.WellFormed ∧ d.openTmp.1.tmp = some d.openTmp.2 ∧
      (d.openTmp.1.files d.openTmp.2).data = [] ∧ d.openTmp.1.fs.state = d.fs.state := by
  cases ht : d.tmp with
  | some fd =>
    have hopen : d.openTmp = (d.setFile fd ⟨[], false⟩, fd) := by simp [Inodes.openTmp, ht]
    rw [hopen]
    exact ⟨h.setFile _, ht, by simp, setFile_fs_state (h.distinct fd ht) _⟩
  | none =>
    have hopen : d.openTmp = ({ d.setFile d.fresh ⟨[], false⟩ with
        fresh := d.fresh + 1, tmp := some d.fresh }, d.fresh) := by simp [Inodes.openTmp, ht]
    have hnew : d.state ≠ some d.fresh := fun hs => lt_irrefl _ (h.state_lt _ hs)
    rw [hopen]
    refine ⟨⟨fun i hi => ?_, fun i hi => ?_, fun i hi => ?_⟩, rfl, ?_, ?_⟩
    · exact Nat.lt_succ_of_lt (h.state_lt i hi)
    · cases hi
      exact Nat.lt_succ_self _
    · cases hi
      exact hnew
    · exact congrArg File.data (setFile_self (d := d) _)
    · exact setFile_fs_state hnew _

/-- A change to the file that `g_tmp_path` refers to, seen through the names. -/
theorem WellFormed.setFile_fs (h : d.WellFormed) (hfd : d.tmp = some fd) (f : File) :
    (d.setFile fd f).fs = ⟨d.fs.state, some f⟩ := by
  have htmp : (d.setFile fd f).fs.tmp = some f := by simp [fs, Inodes.setFile, hfd]
  rw [← setFile_fs_state (h.distinct fd hfd) f, ← htmp]

theorem WellFormed.openTmp_fs (h : d.WellFormed) : d.openTmp.1.fs = FsOp.openTmp.apply d.fs := by
  cases ht : d.tmp with
  | some fd => simp [Inodes.openTmp, ht, h.setFile_fs ht, FsOp.apply]
  | none =>
    have hsame := h.openTmp.2.2.2
    simp only [Inodes.openTmp, ht] at hsame ⊢
    rw [FsOp.apply, ← hsame]
    simp [fs, Inodes.setFile]

theorem WellFormed.write_fs (h : d.WellFormed) {off : ℕ} (hfd : d.tmp = some fd)
    (hoff : (d.files fd).data.length = off) (bs : List UInt8) :
    (d.write fd off bs).fs = (FsOp.writeTmp bs).apply d.fs := by
  rw [Inodes.write, File.pwrite_end hoff, h.setFile_fs hfd]
  simp [FsOp.apply, fs, hfd]

theorem WellFormed.fsync_fs (h : d.WellFormed) (hfd : d.tmp = some fd) :
    (d.fsync fd).fs = FsOp.fsyncTmp.apply d.fs := by
  rw [Inodes.fsync, h.setFile_fs hfd]
  simp [FsOp.apply, fs, hfd]

theorem rename_fs (hfd : d.tmp = some fd) : (d.rename fd).fs = FsOp.renameTmp.apply d.fs := by
  simp [FsOp.apply, fs, Inodes.rename, hfd]

theorem crash_fs_state (h : Settled d.fs) (junk : ℕ → List UInt8) (keepTmp : Bool) :
    (d.crash junk keepTmp).fs.state = d.fs.state := by
  cases hs : d.state with
  | none => simp [fs, Inodes.crash, hs]
  | some i =>
    have hsynced : (d.files i).synced = true := h (d.files i) (by simp [fs, hs])
    simp [fs, Inodes.crash, hs, hsynced]

end Inodes

/-! ## Calls -/

inductive Call
  | init (padding : UInt32)
  | load
  | store (s : SatelliteState) (padding : UInt32)
  deriving DecidableEq, Repr

def Call.mode : Call → LockMode
  | load => .shared
  | init _ | store _ _ => .exclusive

def Call.value : Call → SatelliteState
  | store s _ => s
  | init _ | load => stateDefaults

def Call.record : Call → Record
  | store s padding => .ofState s padding
  | init padding => .ofState stateDefaults padding
  | load => .ofState stateDefaults 0

/-- Where a process is; each place but the last three is before a system call. -/
inductive Pc
  | opening (c : Call)
  | reading (c : Call) (fd : ℕ) (got : List UInt8)
  | creating (c : Call)
  | writing (c : Call) (fd total : ℕ)
  | replacing (c : Call)
  | removing (c : Call)
  | returning (c : Call) (result : Option SatelliteState)
  | idle
  | dead
  deriving DecidableEq, Repr

/-- After `flock`: a store goes on to write, the other calls read first. -/
def Call.first : Call → Pc
  | store s padding => .creating (.store s padding)
  | c => .opening c

/-- `read_record_locked` returned -1: an initialisation writes the defaults. -/
def Call.unreadable : Call → Pc
  | init padding => .creating (.init padding)
  | c => .returning c none

/-- The loop of `read_record_locked` is over. -/
def Call.judge (c : Call) (got : List UInt8) : Pc :=
  match validate got with
  | .ok r => .returning c (some r.data)
  | .error _ => c.unreadable

variable {P : Type}

/-- The processes, their locks and the files; `log` records what was renamed into
place and by whom, and `since` how long it was when a process got its lock. -/
structure Machine (P : Type) where
  inodes : Inodes
  pc : P → Pc := fun _ => .idle
  locks : Locks P := fun _ => none
  log : List (P × SatelliteState) := []
  since : P → ℕ := fun _ => 0

inductive Action (P : Type)
  /-- `flock` is granted to a process that has entered the call -/
  | call (p : P) (c : Call)
  /-- the next system call succeeds; a read or a write is given `n` bytes -/
  | goes (p : P) (n : ℕ)
  /-- the next system call fails -/
  | fails (p : P)
  /-- the process is killed; its lock goes with the last copy of the descriptor -/
  | kill (p : P)
  /-- the lock is given up, by `LOCK_UN` or by the death of the process -/
  | release (p : P)
  | restart (junk : ℕ → List UInt8) (keepTmp : Bool)

namespace Machine

variable [DecidableEq P]

def advance (m : Machine P) (p : P) (pc : Pc) (inodes : Inodes) (log : List (P × SatelliteState)) :
    Machine P :=
  { m with inodes := inodes, log := log, pc := Function.update m.pc p pc }

def goto (m : Machine P) (p : P) (pc : Pc) : Machine P := m.advance p pc m.inodes m.log

def goes (m : Machine P) (p : P) (n : ℕ) : Option (Machine P) :=
  let d := m.inodes
  match m.pc p with
  | .opening c => d.state.map fun fd => m.goto p (.reading c fd [])
  | .reading c fd got =>
    if n = 0 then none
    else
      let bs := slice (d.files fd).data got.length (min n (recordSize - got.length))
      some <| m.goto p <|
        if bs = [] ∨ (got ++ bs).length = recordSize then c.judge (got ++ bs)
        else .reading c fd (got ++ bs)
  | .creating c => some (m.advance p (.writing c d.openTmp.2 0) d.openTmp.1 m.log)
  | .writing c fd total =>
    if total < recordSize then
      let bs := slice c.record.encode total (min n (recordSize - total))
      some (m.advance p (.writing c fd (total + bs.length)) (d.write fd total bs) m.log)
    else some (m.advance p (.replacing c) (d.fsync fd) m.log)
  | .replacing c =>
    d.tmp.map fun fd =>
      m.advance p (.returning c (some c.value)) (d.rename fd) (m.log ++ [(p, c.value)])
  | .removing c => some (m.advance p (.returning c none) d.unlink m.log)
  | .returning _ _ | .idle | .dead => none

def effect (m : Machine P) (p : P) (n : ℕ) : List FsOp :=
  match m.pc p with
  | .creating _ => [.openTmp]
  | .writing c _ total =>
    if total < recordSize then
      [.writeTmp (slice c.record.encode total (min n (recordSize - total)))]
    else [.fsyncTmp]
  | .replacing _ => [.renameTmp]
  | .removing _ => [.unlinkTmp]
  | .opening _ | .reading _ _ _ | .returning _ _ | .idle | .dead => []

def fails (m : Machine P) (p : P) : Option (Machine P) :=
  match m.pc p with
  | .opening c | .reading c _ _ => some (m.goto p c.unreadable)
  | .creating c | .removing c => some (m.goto p (.returning c none))
  | .writing c _ _ | .replacing c => some (m.goto p (.removing c))
  | .returning _ _ | .idle | .dead => none

def leave (m : Machine P) (p : P) : Machine P :=
  { m with pc := Function.update m.pc p .idle, locks := Function.update m.locks p none }

def release (m : Machine P) (p : P) : Option (Machine P) :=
  match m.pc p with
  | .returning _ _ | .dead => some (m.leave p)
  | _ => none

def enter (m : Machine P) (p : P) (c : Call) : Machine P :=
  { m with
    pc := Function.update m.pc p c.first
    locks := Function.update m.locks p (some c.mode)
    since := Function.update m.since p m.log.length }

def next [Fintype P] (m : Machine P) : Action P → Option (Machine P)
  | .call p c => if m.pc p = .idle ∧ m.locks.Grants p c.mode then some (m.enter p c) else none
  | .goes p n => m.goes p n
  | .fails p => m.fails p
  | .kill p => if m.pc p = .idle then none else some (m.goto p .dead)
  | .release p => m.release p
  | .restart junk keepTmp =>
    some { inodes := m.inodes.crash junk keepTmp, log := m.log }

end Machine

/-! ## What each process can rely on -/

/-- The state file is what the last rename made it, or as it was found. -/
def Agrees (boot : Option File) (log : List (P × SatelliteState)) (fs : Fs) : Prop :=
  match log.getLast? with
  | none => fs.state = boot
  | some e => Holds fs e.2

structure Call.Writing (c : Call) (log : List (P × SatelliteState)) (since : ℕ)
    (lock : Option LockMode) : Prop where
  mode : c.mode = .exclusive
  lock : lock = some .exclusive
  since : since = log.length

/-- What holds of the lock, the files and the log where a process is. Whoever
relies on the files or the log holds the lock. -/
def Pc.Good (d : Inodes) (log : List (P × SatelliteState)) (p : P) (since : ℕ)
    (lock : Option LockMode) : Pc → Prop
  | .idle => lock = none
  | .dead => lock ≠ none
  | .opening c => lock = some c.mode ∧ since = log.length ∧ c.first = .opening c
  | .reading c fd got =>
    lock = some c.mode ∧ since = log.length ∧ c.first = .opening c ∧
      d.state = some fd ∧ got <+: (d.files fd).data.take recordSize
  | .creating c | .removing c => c.Writing log since lock
  | .writing c fd total =>
    c.Writing log since lock ∧ d.tmp = some fd ∧ total ≤ recordSize ∧
      (d.files fd).data = c.record.encode.take total
  | .replacing c =>
    c.Writing log since lock ∧ ∃ fd, d.tmp = some fd ∧ d.files fd = ⟨c.record.encode, true⟩
  | .returning _ none => lock ≠ none ∧ since = log.length
  | .returning c (some s) =>
    lock ≠ none ∧ Holds d.fs s ∧
      match c with
      | .load => since = log.length
      | .store s' _ => s = s' ∧ log.drop since = [(p, s)]
      | .init _ => since = log.length ∨ log.drop since = [(p, s)]

structure Machine.Inv (boot : Option File) (m : Machine P) : Prop where
  exclusive : m.locks.Exclusive
  names : m.inodes.WellFormed
  agrees : Agrees boot m.log m.inodes.fs
  good : ∀ p, (m.pc p).Good m.inodes m.log p (m.since p) (m.locks p)

section Invariant

variable {boot : Option File} {log : List (P × SatelliteState)} {fs fs' : Fs} {d : Inodes}
  {p : P} {since : ℕ} {lock : Option LockMode} {pc : Pc} {c : Call} {m m' : Machine P}

theorem Agrees.of_state_eq (h : Agrees boot log fs) (heq : fs'.state = fs.state) :
    Agrees boot log fs' := by
  unfold Agrees at h ⊢
  cases hlast : log.getLast? with
  | none =>
    rw [hlast] at h
    exact heq.trans h
  | some e =>
    rw [hlast] at h
    exact h.of_state_eq heq

theorem Agrees.settled (hboot : ∀ f, boot = some f → f.synced = true) (h : Agrees boot log fs) :
    Settled fs := by
  unfold Agrees at h
  cases hlast : log.getLast? with
  | none =>
    rw [hlast] at h
    exact fun f hf => hboot f (h.symm.trans hf)
  | some e =>
    rw [hlast] at h
    exact h.settled

theorem agrees_append {s : SatelliteState} (h : Holds fs s) : Agrees boot (log ++ [(p, s)]) fs := by
  simpa [Agrees] using h

theorem Call.holds_record (c : Call) (h : fs.state = some ⟨c.record.encode, true⟩) :
    Holds fs c.value := by
  obtain ⟨padding, hrecord⟩ : ∃ padding, c.record = .ofState c.value padding := by
    cases c <;> exact ⟨_, rfl⟩
  rw [hrecord] at h
  refine ⟨_, .ofState c.value padding, h, rfl, ?_, rfl⟩
  have hwhole := List.take_length (l := (Record.ofState c.value padding).encode)
  rw [Record.length_encode] at hwhole
  rw [hwhole]
  exact validate_ofState c.value padding

theorem Pc.Good.eq_idle (h : pc.Good d log p since none) : pc = .idle := by
  cases pc with
  | idle => rfl
  | dead => exact absurd rfl h
  | returning c result => cases result <;> exact absurd rfl h.1
  | opening | reading => exact nomatch h.1
  | creating | removing => exact nomatch h.lock
  | writing | replacing => exact nomatch h.1.lock

theorem Pc.Good.lock_ne (h : pc.Good d log p since lock) (hpc : pc ≠ .idle) : lock ≠ none := by
  rintro rfl
  exact hpc h.eq_idle

theorem good_unreadable (hlock : lock = some c.mode) (hsince : since = log.length) :
    c.unreadable.Good d log p since lock := by
  cases c with
  | init padding => exact ⟨rfl, hlock, hsince⟩
  | load | store => exact ⟨by simp [hlock], hsince⟩

theorem good_first (hlock : lock = some c.mode) (hsince : since = log.length) :
    c.first.Good d log p since lock := by
  cases c with
  | store s padding => exact ⟨rfl, hlock, hsince⟩
  | init | load => exact ⟨hlock, hsince, rfl⟩

theorem good_judge {fd : ℕ} (hlock : lock = some c.mode) (hsince : since = log.length)
    (hreads : c.first = .opening c) (hsettled : Settled d.fs) (hstate : d.state = some fd) :
    (c.judge ((d.files fd).data.take recordSize)).Good d log p since lock := by
  unfold Call.judge
  cases hv : validate ((d.files fd).data.take recordSize) with
  | error e => exact good_unreadable hlock hsince
  | ok r =>
    have hfile : d.fs.state = some (d.files fd) := by simp [Inodes.fs, hstate]
    have hholds : Holds d.fs r.data := ⟨_, r, hfile, hsettled _ hfile, hv, rfl⟩
    cases c with
    | store s padding => cases hreads
    | load => exact ⟨by simp [hlock], hholds, hsince⟩
    | init padding => exact ⟨by simp [hlock], hholds, .inl hsince⟩

theorem good_written {fd total : ℕ} (h : (Pc.writing c fd total).Good d log p since lock)
    (hmore : total < recordSize) (n : ℕ) :
    let bs := slice c.record.encode total (min n (recordSize - total))
    (Pc.writing c fd (total + bs.length)).Good (d.write fd total bs) log p since lock := by
  obtain ⟨hwriting, htmp, htotal, hdata⟩ := h
  intro bs
  have hlen : bs.length = min n (recordSize - total) := by
    apply length_slice
    rw [Record.length_encode]
    omega
  have hend : (d.files fd).data.length = total := by simp [hdata, htotal]
  refine ⟨hwriting, htmp, by omega, ?_⟩
  rw [Inodes.write, Inodes.setFile_self, File.pwrite_end hend, hdata, hlen, List.take_add]
  rfl

theorem good_synced {fd total : ℕ} (h : (Pc.writing c fd total).Good d log p since lock)
    (hfull : ¬ total < recordSize) : (Pc.replacing c).Good (d.fsync fd) log p since lock := by
  obtain ⟨hwriting, htmp, -, hdata⟩ := h
  have hall : c.record.encode.take total = c.record.encode :=
    List.take_of_length_le (by rw [Record.length_encode]; omega)
  refine ⟨hwriting, fd, htmp, ?_⟩
  rw [Inodes.fsync, Inodes.setFile_self]
  exact congrArg (fun bs => File.mk bs true) (hdata.trans hall)

theorem good_renamed {fd : ℕ} (h : (Pc.replacing c).Good d log p since lock)
    (hfd : d.tmp = some fd) :
    Holds (d.rename fd).fs c.value ∧ (Pc.returning c (some c.value)).Good (d.rename fd)
      (log ++ [(p, c.value)]) p since lock := by
  obtain ⟨⟨hmode, hlock, hsince⟩, i, hi, hfile⟩ := h
  obtain rfl : i = fd := Option.some.inj (hi.symm.trans hfd)
  have hholds : Holds (d.rename i).fs c.value := by
    apply c.holds_record
    simp [Inodes.fs, Inodes.rename, hfile]
  have hlast : (log ++ [(p, c.value)]).drop since = [(p, c.value)] := by
    rw [hsince, List.drop_left]
  refine ⟨hholds, by simp [hlock], hholds, ?_⟩
  cases c with
  | store s padding => exact ⟨rfl, hlast⟩
  | init padding => exact .inr hlast
  | load => cases hmode

theorem Machine.Inv.restart (hboot : ∀ f, boot = some f → f.synced = true) (h : m.Inv boot)
    (junk : ℕ → List UInt8) (keepTmp : Bool) :
    Machine.Inv boot { inodes := m.inodes.crash junk keepTmp, log := m.log : Machine P } where
  exclusive := Locks.exclusive_free
  names := h.names.crash junk keepTmp
  agrees := h.agrees.of_state_eq (Inodes.crash_fs_state (h.agrees.settled hboot) junk keepTmp)
  good _ := rfl

variable [DecidableEq P]

/-- A step of one process. If it changes the files or the log, the process holds
the lock exclusively, and every other process is idle. -/
theorem Machine.Inv.advance {log' : List (P × SatelliteState)} {d' : Inodes} (h : m.Inv boot)
    (howner : (d' = m.inodes ∧ log' = m.log) ∨ m.locks p = some .exclusive)
    (hnames : d'.WellFormed) (hagrees : Agrees boot log' d'.fs)
    (hgood : pc.Good d' log' p (m.since p) (m.locks p)) :
    (m.advance p pc d' log').Inv boot where
  exclusive := h.exclusive
  names := hnames
  agrees := hagrees
  good q := by
    by_cases hq : q = p
    · subst hq
      simpa [Machine.advance] using hgood
    · have hother := h.good q
      simp only [Machine.advance, Function.update_of_ne hq]
      rcases howner with ⟨rfl, rfl⟩ | hlock
      · exact hother
      · have hfree := h.exclusive p q hq hlock
        rw [hfree] at hother ⊢
        rw [hother.eq_idle]
        rfl

theorem Machine.Inv.goto (h : m.Inv boot)
    (hgood : pc.Good m.inodes m.log p (m.since p) (m.locks p)) : (m.goto p pc).Inv boot :=
  h.advance (.inl ⟨rfl, rfl⟩) h.names h.agrees hgood

theorem Machine.Inv.enter (h : m.Inv boot) (hgrants : m.locks.Grants p c.mode) :
    (m.enter p c).Inv boot where
  exclusive := hgrants.exclusive
  names := h.names
  agrees := h.agrees
  good q := by
    by_cases hq : q = p
    · subst hq
      simpa [Machine.enter] using good_first rfl rfl
    · simpa [Machine.enter, Function.update_of_ne hq] using h.good q

theorem Machine.Inv.leave (h : m.Inv boot) : (m.leave p).Inv boot where
  exclusive := h.exclusive.release
  names := h.names
  agrees := h.agrees
  good q := by
    by_cases hq : q = p
    · subst hq
      simp [Machine.leave, Pc.Good]
    · simpa [Machine.leave, Function.update_of_ne hq] using h.good q

/-- One read of the loop: what was read so far stays a prefix of the file, and the loop ends
with as much of it as the record can take. -/
theorem read_step {data got : List UInt8} {n : ℕ} (hn : n ≠ 0)
    (hgot : got <+: data.take recordSize) :
    let bs := slice data got.length (min n (recordSize - got.length))
    got ++ bs <+: data.take recordSize ∧
      (bs = [] ∨ (got ++ bs).length = recordSize → got ++ bs = data.take recordSize) := by
  intro bs
  have hgot' : got = data.take got.length := by
    have htake := List.prefix_iff_eq_take.mp hgot
    rw [List.take_take] at htake
    rwa [min_eq_left (by simpa using hgot.length_le.trans (List.length_take_le ..))] at htake
  have hbs : got ++ bs = data.take (got.length + min n (recordSize - got.length)) := by
    rw [List.take_add, ← hgot']
    rfl
  have hmore : got ++ bs <+: data.take recordSize := by
    have hle := hgot.length_le.trans (List.length_take_le ..)
    rw [hbs]
    exact List.take_prefix_take_left (by omega)
  refine ⟨hmore, fun hover => hmore.eq_of_length_le ?_⟩
  have htake := List.length_take_le recordSize data
  rcases hover with hnil | hfull
  · -- nothing came: the record is full or the file has ended
    have hzero : min (min n (recordSize - got.length)) (data.length - got.length) = 0 := by
      rw [← List.length_drop, ← List.length_take]
      exact congrArg List.length hnil
    rw [hnil, List.append_nil, List.length_take]
    omega
  · rw [hfull]
    exact htake

theorem Machine.Inv.goes (hboot : ∀ f, boot = some f → f.synced = true) (h : m.Inv boot) {n : ℕ}
    (hnext : m.goes p n = some m') : m'.Inv boot := by
  have hgood := h.good p
  unfold Machine.goes at hnext
  cases hpc : m.pc p with
  | opening c =>
    rw [hpc] at hgood hnext
    obtain ⟨hlock, hsince, hreads⟩ := hgood
    obtain ⟨fd, hfd, rfl⟩ := Option.map_eq_some_iff.mp hnext
    apply h.goto
    exact ⟨hlock, hsince, hreads, hfd, List.nil_prefix⟩
  | reading c fd got =>
    rw [hpc] at hgood hnext
    obtain ⟨hlock, hsince, hreads, hstate, hgot⟩ := hgood
    by_cases hn : n = 0
    · simp [hn] at hnext
    · simp only [hn, if_false, Option.some.injEq] at hnext
      obtain ⟨hmore, hend⟩ := read_step hn hgot
      subst hnext
      apply h.goto
      split_ifs with hover
      · rw [hend hover]
        exact good_judge hlock hsince hreads (h.agrees.settled hboot) hstate
      · exact ⟨hlock, hsince, hreads, hstate, hmore⟩
  | creating c =>
    rw [hpc] at hgood hnext
    cases hnext
    obtain ⟨hnames, htmp, hempty, hsame⟩ := h.names.openTmp
    apply h.advance (.inr hgood.lock) hnames (h.agrees.of_state_eq hsame)
    exact ⟨hgood, htmp, Nat.zero_le _, by simpa using hempty⟩
  | writing c fd total =>
    rw [hpc] at hgood hnext
    have hsame := fun f => h.agrees.of_state_eq
      (Inodes.setFile_fs_state (h.names.distinct fd hgood.2.1) f)
    by_cases hmore : total < recordSize
    · simp only [hmore, if_true, Option.some.injEq] at hnext
      subst hnext
      apply h.advance (.inr hgood.1.lock) (h.names.setFile _) (hsame _)
      exact good_written hgood hmore n
    · simp only [hmore, if_false, Option.some.injEq] at hnext
      subst hnext
      apply h.advance (.inr hgood.1.lock) (h.names.setFile _) (hsame _)
      exact good_synced hgood hmore
  | replacing c =>
    rw [hpc] at hgood hnext
    obtain ⟨fd, hfd, rfl⟩ := Option.map_eq_some_iff.mp hnext
    obtain ⟨hholds, hrenamed⟩ := good_renamed hgood hfd
    exact h.advance (.inr hgood.1.lock) (h.names.rename hfd) (agrees_append hholds) hrenamed
  | removing c =>
    rw [hpc] at hgood hnext
    cases hnext
    apply h.advance (.inr hgood.lock) h.names.unlink (h.agrees.of_state_eq rfl)
    exact ⟨by simp [hgood.lock], hgood.since⟩
  | returning | idle | dead =>
    rw [hpc] at hnext
    cases hnext

theorem Machine.Inv.fails (h : m.Inv boot) (hnext : m.fails p = some m') : m'.Inv boot := by
  have hgood := h.good p
  unfold Machine.fails at hnext
  cases hpc : m.pc p with
  | opening c =>
    rw [hpc] at hgood hnext
    cases hnext
    exact h.goto (good_unreadable hgood.1 hgood.2.1)
  | reading c fd got =>
    rw [hpc] at hgood hnext
    cases hnext
    exact h.goto (good_unreadable hgood.1 hgood.2.1)
  | creating c | removing c =>
    rw [hpc] at hgood hnext
    cases hnext
    exact h.goto ⟨by simp [hgood.lock], hgood.since⟩
  | writing c fd total =>
    rw [hpc] at hgood hnext
    cases hnext
    exact h.goto hgood.1
  | replacing c =>
    rw [hpc] at hgood hnext
    cases hnext
    exact h.goto hgood.1
  | returning | idle | dead =>
    rw [hpc] at hnext
    cases hnext

theorem Machine.Inv.next [Fintype P] (hboot : ∀ f, boot = some f → f.synced = true)
    (h : m.Inv boot) {a : Action P} (hnext : m.next a = some m') : m'.Inv boot := by
  cases a with
  | call p c =>
    simp only [Machine.next, Option.ite_none_right_eq_some, Option.some.injEq] at hnext
    obtain ⟨⟨-, hgrants⟩, rfl⟩ := hnext
    exact h.enter hgrants
  | goes p n => exact h.goes hboot hnext
  | fails p => exact h.fails hnext
  | kill p =>
    simp only [Machine.next, Option.ite_none_left_eq_some, Option.some.injEq] at hnext
    obtain ⟨hbusy, rfl⟩ := hnext
    exact h.goto ((h.good p).lock_ne hbusy)
  | release p =>
    simp only [Machine.next, Machine.release] at hnext
    split at hnext
    · cases hnext
      exact h.leave
    · cases hnext
      exact h.leave
    · cases hnext
  | restart junk keepTmp =>
    cases hnext
    exact h.restart hboot junk keepTmp

/-- Every step does to the two names what the same system call does in the model of
a single process. -/
theorem Machine.Inv.fs_goes (h : m.Inv boot) {n : ℕ} (hnext : m.goes p n = some m') :
    m'.inodes.fs = m.inodes.fs.run (m.effect p n) := by
  have hgood := h.good p
  unfold Machine.goes at hnext
  unfold Machine.effect
  cases hpc : m.pc p with
  | opening c =>
    rw [hpc] at hnext
    obtain ⟨fd, -, rfl⟩ := Option.map_eq_some_iff.mp hnext
    rfl
  | reading c fd got =>
    rw [hpc] at hnext
    obtain ⟨-, hnext⟩ := Option.ite_none_left_eq_some.mp hnext
    cases hnext
    rfl
  | creating c =>
    rw [hpc] at hnext
    cases hnext
    exact h.names.openTmp_fs
  | writing c fd total =>
    rw [hpc] at hgood hnext
    obtain ⟨-, htmp, htotal, hdata⟩ := hgood
    dsimp only at hnext ⊢
    split_ifs at hnext ⊢ with hmore
    · cases hnext
      exact h.names.write_fs htmp (by simp [hdata, htotal]) _
    · cases hnext
      exact h.names.fsync_fs htmp
  | replacing c =>
    rw [hpc] at hnext
    obtain ⟨fd, htmp, rfl⟩ := Option.map_eq_some_iff.mp hnext
    exact Inodes.rename_fs htmp
  | removing c =>
    rw [hpc] at hnext
    cases hnext
    rfl
  | returning | idle | dead =>
    rw [hpc] at hnext
    cases hnext

end Invariant

/-! ## Every schedule -/

section Schedules

variable [Fintype P] [DecidableEq P] {d : Inodes} {as : List (Action P)} {m : Machine P}

theorem Machine.inv_exec (hnames : d.WellFormed) (hsettled : Settled d.fs)
    (hrun : exec Machine.next { inodes := d } as = some m) : m.Inv d.fs.state := by
  have hstart : Machine.Inv d.fs.state { inodes := d : Machine P } :=
    ⟨Locks.exclusive_free, hnames, rfl, fun _ => rfl⟩
  exact exec_invariant (fun h _ hnext => h.next hsettled hnext) hstart
    (meets_of_forall (fun _ _ => trivial) _ as) hrun

/-- However the calls of any number of processes are interleaved, cut short and
killed: a writer is alone with the file; the file is a whole record of the last
value renamed into place, or is as it was found; a call that succeeds returns
what the file holds when it gives up the lock; a store that returns 0 has put its
value in place exactly once and nobody else has since it got the lock; in a call
that fails, or only loads, nothing was put in place; and each next step does to the
two names what that system call does in the model of a single process. -/
theorem concurrent_calls_linearize (hnames : d.WellFormed) (hsettled : Settled d.fs)
    (hrun : exec Machine.next { inodes := d } as = some m) :
    (∀ p q, q ≠ p → m.locks p = some .exclusive → m.locks q = none) ∧
    Agrees d.fs.state m.log m.inodes.fs ∧
    (∀ p c s, m.pc p = .returning c (some s) → Holds m.inodes.fs s) ∧
    (∀ p s padding s', m.pc p = .returning (.store s padding) (some s') →
      s' = s ∧ m.log.drop (m.since p) = [(p, s)]) ∧
    (∀ p c, m.pc p = .returning c none → m.log.drop (m.since p) = []) ∧
    (∀ p s, m.pc p = .returning .load (some s) → m.log.drop (m.since p) = []) ∧
    (∀ p n m', m.goes p n = some m' → m'.inodes.fs = m.inodes.fs.run (m.effect p n)) := by
  have h := Machine.inv_exec hnames hsettled hrun
  have hat : ∀ p pc, m.pc p = pc → pc.Good m.inodes m.log p (m.since p) (m.locks p) :=
    fun p pc hpc => hpc ▸ h.good p
  refine ⟨h.exclusive, h.agrees, ?_, ?_, ?_, ?_, fun _ _ _ hnext => h.fs_goes hnext⟩
  · intro p c s hpc
    exact (hat p _ hpc).2.1
  · intro p s padding s' hpc
    obtain ⟨-, -, rfl, hlog⟩ := hat p _ hpc
    exact ⟨rfl, hlog⟩
  · intro p c hpc
    obtain ⟨-, hsince⟩ := hat p _ hpc
    rw [hsince, List.drop_length]
  · intro p s hpc
    obtain ⟨-, -, hsince⟩ := hat p _ hpc
    rw [hsince, List.drop_length]

/-- One process initialises the file and is killed inside its first store; another then stores
over the temporary file that was left behind. -/
def contested (s : SatelliteState) : List (Action Bool) :=
  [.call false (.init 0), .fails false, .goes false 0, .goes false 20, .goes false 12,
    .goes false 0, .goes false 0, .release false,
    .call false (.store stateDefaults 7), .goes false 0, .goes false 5, .kill false, .release false,
    .call true (.store s 0), .goes true 0, .goes true 32, .goes true 0, .goes true 0]

def noFiles : Inodes := ⟨fun _ => ⟨[], true⟩, 0, none, none⟩

def contestedEnd (s : SatelliteState) : Machine Bool :=
  (exec Machine.next { inodes := noFiles } (contested s)).getD { inodes := noFiles }

theorem concurrent_calls_linearize_contested :
    let s : SatelliteState := { stateDefaults with activeExperimentId := 7 }
    Holds (contestedEnd s).inodes.fs s ∧
      (contestedEnd s).log.drop ((contestedEnd s).since true) = [(true, s)] := by
  intro s
  have hnames : noFiles.WellFormed := .of_no_tmp (fun _ h => nomatch h) rfl
  have hrun : exec Machine.next { inodes := noFiles } (contested s) = some (contestedEnd s) := by
    have hsome : (exec Machine.next { inodes := noFiles } (contested s)).isSome = true := by
      decide +kernel
    obtain ⟨m, hm⟩ := Option.isSome_iff_exists.mp hsome
    rw [contestedEnd, hm]
    rfl
  have hpc : (contestedEnd s).pc true = .returning (.store s 0) (some s) := by decide +kernel
  obtain ⟨-, -, hholds, hstored, -⟩ :=
    concurrent_calls_linearize hnames (fun _ h => nomatch h) hrun
  exact ⟨hholds true _ s hpc, (hstored true s 0 s hpc).2⟩

end Schedules

end PiDaemon.Store
