import PiDaemon.Base.CString

/-!
# The process manager

`process.c`: the table of supervised processes and the seven operations on it.
The kernel keeps the children that were forked and not yet reaped. It answers
`fork()`, `waitpid()` and the clocks from a script, one moment per system call,
and each moment also says which children exit before the call: so a child can
exit between any two calls the daemon makes, and every clock reading, every
failing `fork()` and every order of reaping can be asked for. Two things the
script cannot ask for: a pid that belongs to an unreaped child, and a `waitpid()`
that returns a child which has not exited.

Next to every `managed_process_t` stands a record of what was done to it, newest
first. The program never reads it.
-/

namespace PiDaemon.Process

open Base

abbrev Pid := ℕ

/-- `DAEMON_MAX_PROCESSES`. -/
def maxProcesses : ℕ := 16

/-- `DAEMON_RESTART_MAX_ATTEMPTS`. -/
def restartMaxAttempts : ℕ := 5

/-- `DAEMON_RESTART_WINDOW_SEC`. -/
def restartWindowSec : ℤ := 60

/-- `DAEMON_RESTART_BACKOFF_MS`. -/
def restartBackoffMs : ℤ := 500

/-- `restart_policy_t`. -/
inductive RestartPolicy
  | always
  | onFailure
  | never
  deriving DecidableEq, Repr

/-- `process_spec_t`. -/
structure ProcessSpec where
  name : List UInt8 := []
  path : List UInt8 := []
  argv : List (List UInt8) := []
  restart : RestartPolicy := .always
  deriving DecidableEq, Repr

/-- `managed_process_t`; the default value is a slot after `memset`. -/
structure ManagedProcess where
  spec : ProcessSpec := {}
  pid : Pid := 0
  attempts : ℕ := 0
  windowStart : ℤ := 0
  nextStart : ℤ := 0
  givenUp : Bool := false
  shuttingDown : Bool := false
  killDeadline : ℤ := 0
  killSent : Bool := false
  deriving DecidableEq, Repr

/-- How a child ended, as `WIFEXITED` and `WIFSIGNALED` tell it. -/
inductive Status
  | exited (code : ℕ)
  | signaled (sig : ℕ)
  deriving DecidableEq, Repr

/-- `int failed = WIFSIGNALED(status) || (WIFEXITED(status) && WEXITSTATUS(status) != 0);` -/
def Status.failed : Status → Bool
  | exited code => code ≠ 0
  | signaled _ => true

/-! ## The kernel -/

/-- A child that was forked and not yet reaped; `status` is `none` while it runs. -/
structure Child where
  pid : Pid
  status : Option Status := none
  deriving DecidableEq, Repr

structure Timespec where
  sec : ℤ := 0
  nsec : ℤ := 0
  deriving DecidableEq, Repr

def nanos (t : Timespec) : ℤ := t.sec * 1000000000 + t.nsec

/-- What happens up to the next system call, and how that call is answered. -/
structure Moment where
  /-- the children that exit before the call -/
  exits : List (Pid × Status) := []
  /-- the pid `fork()` returns, if it succeeds -/
  fork : Option Pid := none
  /-- the child `waitpid(-1, ...)` returns, if it has exited -/
  pick : Pid := 0
  /-- `time(NULL)` -/
  clock : ℤ := 0
  /-- `clock_gettime(CLOCK_MONOTONIC, ...)` -/
  monotonic : Timespec := {}
  deriving DecidableEq, Repr

structure Kernel where
  children : List Child := []
  script : List Moment := []
  deriving DecidableEq, Repr

namespace Kernel

def pids (k : Kernel) : List Pid := k.children.map Child.pid

def exit (k : Kernel) (p : Pid) (st : Status) : Kernel :=
  { k with children := k.children.map fun c =>
      if c.pid = p ∧ c.status = none then { c with status := some st } else c }

def moment (k : Kernel) : Moment := k.script.headD {}

def advance (k : Kernel) : Kernel :=
  { k.moment.exits.foldl (fun k e => k.exit e.1 e.2) k with script := k.script.tail }

def time (k : Kernel) : ℤ × Kernel := (k.moment.clock, k.advance)

def clockGettime (k : Kernel) : Timespec × Kernel := (k.moment.monotonic, k.advance)

def fork (k : Kernel) : Option Pid × Kernel :=
  match k.moment.fork with
  | none => (none, k.advance)
  | some p =>
    if p = 0 ∨ p ∈ k.pids then (none, k.advance)
    else (some p, { k.advance with children := ⟨p, none⟩ :: k.advance.children })

def exited (k : Kernel) : List (Pid × Status) :=
  k.children.filterMap fun c => c.status.map fun st => (c.pid, st)

def remove (k : Kernel) (p : Pid) : Kernel :=
  { k with children := k.children.filter (·.pid ≠ p) }

/-- `waitpid(-1, &status, WNOHANG)`: any child that has exited, and nothing if there is none. -/
def waitpid (k : Kernel) : Option (Pid × Status) × Kernel :=
  match (k.advance.exited.find? (·.1 = k.moment.pick)).or k.advance.exited.head? with
  | none => (none, k.advance)
  | some (p, st) => (some (p, st), k.advance.remove p)

/-- `waitpid(p, NULL, 0)`, which returns when `p` has exited; the handlers are installed
with `SA_RESTART`, so a signal does not cut it short. -/
def waitFor (k : Kernel) (p : Pid) : Kernel := k.advance.remove p

end Kernel

/-! ## The table -/

inductive Op
  | startAll
  | startOne
  | tick
  | shutdownOne
  | shutdownAll
  deriving DecidableEq, Repr

inductive Signal
  | term
  | kill
  deriving DecidableEq, Repr

/-- What `pm_reap` makes of an exit. -/
inductive Verdict
  /-- an intentional stop -/
  | stopped
  /-- the policy does not ask for a restart -/
  | finished
  /-- too many attempts -/
  | gaveUp
  /-- a restart is due, decided at this time and with this count of attempts -/
  | restart (now : ℤ) (attempts : ℕ)
  deriving DecidableEq, Repr

inductive Event
  /-- the operation was called and reached this slot -/
  | call (op : Op)
  /-- the operation called `fork()` for this slot, having read the clock as `now` -/
  | fork (op : Op) (now : ℤ) (answer : Option Pid)
  | signal (op : Op) (sig : Signal) (p : Pid)
  /-- `pm_reap` took the exit of `p` -/
  | reaped (p : Pid) (st : Status) (verdict : Verdict)
  /-- `pm_shutdown_all` took the exit of `p` -/
  | collected (p : Pid)
  deriving DecidableEq, Repr

structure Entry where
  proc : ManagedProcess := {}
  past : List Event := []
  deriving DecidableEq, Repr

abbrev Slot := Fin maxProcesses

instance : NeZero maxProcesses := ⟨by decide⟩

/-- `process_manager_t` and the kernel under it. -/
structure Manager where
  procs : Slot → Entry := fun _ => {}
  count : ℕ := 0
  kernel : Kernel

/-- `pm_init`, at any time and with any children to come. -/
def pmInit (script : List Moment) : Manager := { kernel := { script := script } }

namespace ManagedProcess

/-- `int should_restart = ...` -/
def shouldRestart (mp : ManagedProcess) (st : Status) : Bool :=
  decide (mp.spec.restart = .always) || (decide (mp.spec.restart = .onFailure) && st.failed)

def countAttempt (mp : ManagedProcess) (now : ℤ) : ManagedProcess :=
  if now - mp.windowStart > restartWindowSec then { mp with windowStart := now, attempts := 1 }
  else { mp with attempts := mp.attempts + 1 }

def schedule (mp : ManagedProcess) (now : ℤ) : ManagedProcess × Verdict :=
  let mp := mp.countAttempt now
  if mp.attempts > restartMaxAttempts then ({ mp with givenUp := true }, .gaveUp)
  else
    let delayMs := restartBackoffMs * mp.attempts
    ({ mp with nextStart := now + (delayMs + 999).tdiv 1000 }, .restart now mp.attempts)

/-- The body of the loop of `pm_reap` behind `mp->pid = 0;`. -/
def judge (mp : ManagedProcess) (st : Status) (now : ℤ) : ManagedProcess × Verdict :=
  if mp.shuttingDown then ({ mp with shuttingDown := false, killSent := false }, .stopped)
  else if !mp.shouldRestart st then ({ mp with givenUp := true }, .finished)
  else mp.schedule now

end ManagedProcess

namespace Entry

def note (s : Entry) (e : Event) : Entry := { s with past := e :: s.past }

/-- The restart state is reset, as `pm_start_all` and `pm_start_one` do. -/
def reset (s : Entry) (now : ℤ) : Entry :=
  { s with proc := { s.proc with
      attempts := 0, windowStart := now, nextStart := now, givenUp := false } }

/-- `start_one` behind its `fork()`. -/
def fork (s : Entry) (op : Op) (now : ℤ) (answer : Option Pid) : Entry where
  proc := { s.proc with pid := answer.getD s.proc.pid }
  past := .fork op now answer :: s.past

/-- `pm_tick` has waited long enough. -/
def forceKill (s : Entry) : Entry where
  proc := { s.proc with killSent := true }
  past := .signal .tick .kill s.proc.pid :: s.past

/-- `pm_reap` takes the exit of the process. -/
def reap (s : Entry) (st : Status) (now : ℤ) : Entry where
  proc := ({ s.proc with pid := 0 }.judge st now).1
  past := .reaped s.proc.pid st ({ s.proc with pid := 0 }.judge st now).2 :: s.past

/-- `pm_shutdown_all` takes the exit of the process. -/
def collect (s : Entry) : Entry where
  proc := { s.proc with pid := 0 }
  past := .collected s.proc.pid :: s.past

/-- The first loop of `pm_shutdown_all`. -/
def abandon (s : Entry) : Entry where
  proc := { s.proc with givenUp := true }
  past := if 0 < s.proc.pid then .signal .shutdownAll .term s.proc.pid :: .call .shutdownAll :: s.past
    else .call .shutdownAll :: s.past

/-- `pm_shutdown_one` once it has found the slot: nothing runs there. -/
def stopIdle (s : Entry) : Entry where
  proc := { s.proc with givenUp := true }
  past := .call .shutdownOne :: s.past

/-- `pm_shutdown_one` once it has found the slot: the process is asked to stop. -/
def stop (s : Entry) (now : ℤ) (timeoutMs : ℤ) : Entry where
  proc := { s.proc with
    givenUp := true
    shuttingDown := true
    killSent := false
    killDeadline := now + (timeoutMs + 999).tdiv 1000 }
  past := .signal .shutdownOne .term s.proc.pid :: .call .shutdownOne :: s.past

end Entry

namespace Manager

abbrev proc (m : Manager) (i : Slot) : ManagedProcess := (m.procs i).proc

def slots (m : Manager) : List Slot := (List.finRange maxProcesses).filter (·.val < m.count)

def set (m : Manager) (i : Slot) (s : Entry) : Manager :=
  { m with procs := Function.update m.procs i s }

def withKernel (m : Manager) (k : Kernel) : Manager := { m with kernel := k }

/-- `pm_find_by_pid`. -/
def pmFindByPid (m : Manager) (p : Pid) : Option Slot := m.slots.find? fun i => (m.proc i).pid = p

/-- The search by name in `pm_start_one` and `pm_shutdown_one`. -/
def findByName (m : Manager) (name : List UInt8) : Option Slot :=
  m.slots.find? fun i => strcmpEq (m.proc i).spec.name name

/-! ## Adding and starting -/

/-- The slot `pm_add` fills in. -/
def added (spec : ProcessSpec) : Entry :=
  { proc := { spec := { spec with argv := spec.path :: spec.argv.tail } } }

def pmAdd (m : Manager) (spec : ProcessSpec) : Manager × ℤ :=
  if h : m.count < maxProcesses then
    ({ m.set ⟨m.count, h⟩ (added spec) with count := m.count + 1 }, 0)
  else (m, -1)

/-- `start_one`, for an operation that has read the clock as `now`. -/
def startOne (m : Manager) (i : Slot) (op : Op) (now : ℤ) : Manager × Bool :=
  ((m.set i ((m.procs i).fork op now m.kernel.fork.1)).withKernel m.kernel.fork.2,
    m.kernel.fork.1.isSome)

/-- The body of the loop of `pm_start_all`. -/
def startSlot (now : ℤ) (acc : Manager × ℕ) (i : Slot) : Manager × ℕ :=
  let m := acc.1.set i (((acc.1.procs i).note (.call .startAll)).reset now)
  if (m.proc i).pid = 0 then ((m.startOne i .startAll now).1,
    if (m.startOne i .startAll now).2 then acc.2 + 1 else acc.2)
  else (m, acc.2)

def pmStartAll (m : Manager) : Manager × ℕ :=
  m.slots.foldl (startSlot m.kernel.time.1) (m.withKernel m.kernel.time.2, 0)

def pmStartOne (m : Manager) (name : List UInt8) : Manager × ℤ :=
  match m.findByName name with
  | none => (m, -1)
  | some i =>
    let m := m.set i ((m.procs i).note (.call .startOne))
    if (m.proc i).pid ≠ 0 then (m, -1)
    else
      let now := m.kernel.time.1
      let m := (m.set i ((m.procs i).reset now)).withKernel m.kernel.time.2
      ((m.startOne i .startOne now).1, if (m.startOne i .startOne now).2 then 0 else -1)

/-! ## Ticks -/

/-- The body of the loop of `pm_tick`. -/
def tickSlot (now : ℤ) (m : Manager) (i : Slot) : Manager :=
  let mp := m.proc i
  if mp.shuttingDown then
    if 0 < mp.pid ∧ mp.killSent = false ∧ mp.killDeadline ≤ now then m.set i (m.procs i).forceKill
    else m
  else if mp.pid = 0 ∧ mp.givenUp = false ∧ mp.nextStart ≤ now then (m.startOne i .tick now).1
  else m

def pmTick (m : Manager) : Manager :=
  m.slots.foldl (tickSlot m.kernel.time.1) (m.withKernel m.kernel.time.2)

/-! ## Reaping -/

/-- The body of the loop of `pm_reap` once `waitpid()` has returned a child. The clock
is read only where a restart is considered. -/
def reapExit (m : Manager) (p : Pid) (st : Status) : Manager :=
  match m.pmFindByPid p with
  | none => m
  | some i =>
    if (m.proc i).shuttingDown = false ∧ (m.proc i).shouldRestart st then
      (m.set i ((m.procs i).reap st m.kernel.time.1)).withKernel m.kernel.time.2
    else m.set i ((m.procs i).reap st 0)

/-- The loop of `pm_reap`, with the number of children reaped so far. -/
def reapLoop : ℕ → Manager → ℕ → Manager × ℕ
  | 0, m, reaped => (m, reaped)
  | fuel + 1, m, reaped =>
    match m.kernel.waitpid with
    | (none, k) => (m.withKernel k, reaped)
    | (some (p, st), k) => reapLoop fuel ((m.withKernel k).reapExit p st) (reaped + 1)

/-- `pm_reap`. A call of `waitpid()` takes a child away or is the last. -/
def pmReap (m : Manager) : Manager × ℕ := reapLoop (m.kernel.children.length + 1) m 0

/-! ## Shutting down -/

def abandonSlot (m : Manager) (i : Slot) : Manager := m.set i (m.procs i).abandon

def collectExit (m : Manager) (p : Pid) : Manager :=
  match m.pmFindByPid p with
  | none => m
  | some i => m.set i (m.procs i).collect

def elapsedMs (start now : Timespec) : ℤ :=
  (now.sec - start.sec) * 1000 + (now.nsec - start.nsec).tdiv 1000000

/-- The waiting loop of `pm_shutdown_all`. -/
def waitLoop (start : Timespec) (timeoutMs : ℤ) : ℕ → Manager → Manager
  | 0, m => m
  | fuel + 1, m =>
    if m.slots.all fun i => (m.proc i).pid = 0 then m
    else
      match m.kernel.waitpid with
      | (some (p, _), k) => waitLoop start timeoutMs fuel ((m.withKernel k).collectExit p)
      | (none, k) =>
        let m := m.withKernel k.clockGettime.2
        if timeoutMs ≤ elapsedMs start k.clockGettime.1 then m else waitLoop start timeoutMs fuel m

/-- The last loop of `pm_shutdown_all`: `SIGKILL` and a blocking `waitpid()`. -/
def killSlot (m : Manager) (i : Slot) : Manager :=
  if 0 < (m.proc i).pid then
    (m.set i ((m.procs i).note (.signal .shutdownAll .kill (m.proc i).pid)).collect).withKernel
      (m.kernel.waitFor (m.proc i).pid)
  else m

/-- `pm_shutdown_all`. A turn of the waiting loop uses up an answer of the kernel or a
child, or it is one of the turns before the deadline in which nothing happens. -/
def pmShutdownAll (m : Manager) (timeoutMs : ℤ) : Manager :=
  let m := m.slots.foldl abandonSlot m
  let k := m.kernel.clockGettime
  let m := waitLoop k.1 timeoutMs (k.2.script.length + k.2.children.length) (m.withKernel k.2)
  m.slots.foldl killSlot m

def pmShutdownOne (m : Manager) (name : List UInt8) (timeoutMs : ℤ) : Manager × ℤ :=
  match m.findByName name with
  | none => (m, -1)
  | some i =>
    if (m.proc i).pid = 0 then (m.set i (m.procs i).stopIdle, 0)
    else ((m.set i ((m.procs i).stop m.kernel.time.1 timeoutMs)).withKernel m.kernel.time.2, 0)

end Manager

/-! ## Runs -/

inductive Call
  | add (spec : ProcessSpec)
  | startAll
  | startOne (name : List UInt8)
  | tick
  | reap
  | shutdownOne (name : List UInt8) (timeoutMs : ℤ)
  | shutdownAll (timeoutMs : ℤ)
  deriving DecidableEq, Repr

namespace Manager

def perform (m : Manager) : Call → Manager
  | .add spec => (m.pmAdd spec).1
  | .startAll => m.pmStartAll.1
  | .startOne name => (m.pmStartOne name).1
  | .tick => m.pmTick
  | .reap => m.pmReap.1
  | .shutdownOne name timeoutMs => (m.pmShutdownOne name timeoutMs).1
  | .shutdownAll timeoutMs => m.pmShutdownAll timeoutMs

def Starts (m : Manager) (i : Slot) : Call → Prop
  | .startAll => i ∈ m.slots
  | .startOne name => m.findByName name = some i
  | _ => False

def Admits (may : Entry → Prop) (m : Manager) (c : Call) : Prop := ∀ i, m.Starts i c → may (m.procs i)

end Manager

end PiDaemon.Process
