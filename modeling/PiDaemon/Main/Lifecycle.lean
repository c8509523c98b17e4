import PiDaemon.Main.EventLoop
import PiDaemon.Process.ShutdownAll
import PiDaemon.Server.Durability

/-!
# The life of the daemon

`main` from its first call to its `return`: the registration of the supervised processes,
the creation of the listening socket, every early exit, and the end of the loop. The loop
itself is that of `Main.EventLoop`, which begins before `pm_start_all`, so signals can
arrive from there on.

Besides the processes, what outlives a daemon is the names it has put into the file
system. `Setup.names` are the names in use when it starts, but for those of the state file
and its temporary file, which are those of `Store.Fs`.
-/

namespace PiDaemon.Main

open Base Proto Process Server Store

abbrev Path := List UInt8

/-- `PATH_MAX`. -/
def pathMax : ℕ := 4096

/-- `sizeof(((struct sockaddr_un *)0)->sun_path)`. -/
def sunPathSize : ℕ := 108

/-- `sizeof(srv->socket_path)`. -/
def socketPathSize : ℕ := 256

/-- The size of `path` in `process_spec_t`. -/
def specPathSize : ℕ := 256

/-- `DAEMON_SHUTDOWN_GRACE_MS`. -/
def shutdownGraceMs : ℤ := 3000

def slash : UInt8 := 47

def dirname (path : Path) : Path :=
  match path.reverse.dropWhile (· = slash) with
  | [] => if path = [] then ascii "." else [slash]
  | rest =>
    match rest.dropWhile (· ≠ slash) with
    | [] => ascii "."
    | rest =>
      match rest.dropWhile (· = slash) with
      | [] => [slash]
      | dir => dir.reverse

/-- `self_exe_dir` with a buffer of `PATH_MAX` bytes, by what `readlink()` finds. -/
def selfExeDir (exe : Option Path) : Option Path :=
  match exe with
  | none => none
  | some exe =>
    let dir := dirname (cString (exe.take (pathMax - 1)))
    if pathMax ≤ dir.length then none else some dir

/-! ## Registration -/

def registerPayloadApp (m : Manager) (binDir : Path) : Manager :=
  (m.pmAdd
    { name := snprintf nameMax (ascii "payload_app")
      path := snprintf specPathSize (binDir ++ ascii "/payload_app")
      argv := [[], ascii "payload_app"]
      restart := .always }).1

/-- `register_network`; `bin` is `NETWORK_BIN_PATH`. -/
def registerNetwork (m : Manager) (bin : Option Path) : Manager :=
  match bin with
  | none => m
  | some bin =>
    (m.pmAdd
      { name := snprintf nameMax (ascii "network")
        path := snprintf specPathSize bin
        argv := [[]]
        restart := .always }).1

/-- `register_video_uploader`; `isFile` says whether `stat()` finds a regular file. -/
def registerVideoUploader (m : Manager) (binDir videoPath : Path) (isFile : Bool) : Manager :=
  if !isFile then m
  else
    (m.pmAdd
      { name := snprintf nameMax (ascii "video_uploader")
        path := snprintf specPathSize (binDir ++ ascii "/video_uploader")
        argv := [[], videoPath, ascii "video_uploader"]
        restart := .never }).1

/-! ## The listening socket -/

/-- Answers to the system calls of `ipc_server_create`; `staleOk` and `cleanupOk` are those of
`unlink()` before `bind()` and behind a failure. -/
structure CreateScript where
  dirOk : Bool := true
  socketOk : Bool := true
  staleOk : Bool := true
  bindOk : Bool := true
  listenOk : Bool := true
  callocOk : Bool := true
  cleanupOk : Bool := true
  deriving DecidableEq, Repr

/-- The directory of a path, from a copy in a buffer of `PATH_MAX` bytes. -/
def dirOf (path : Path) : Path := dirname (path.take (pathMax - 1))

def unlink (ok : Bool) (path : Path) (names : List Path) : List Path :=
  if ok then names.filter (· ≠ path) else names

/-- `ipc_server_create`: the path the server keeps, if it succeeds, and the names then. `bind()`
fails on a name that is in use. -/
def ipcServerCreate (path : Path) (sc : CreateScript) (names : List Path) :
    Option Path × List Path :=
  if !sc.dirOk then (none, names)
  else
    let names := names.insert (dirOf path)
    if sunPathSize ≤ path.length then (none, names)
    else if !sc.socketOk then (none, names)
    else
      let names := unlink sc.staleOk path names
      if !sc.bindOk ∨ path ∈ names then (none, names)
      else
        let names := path :: names
        if !sc.listenOk then (none, unlink sc.cleanupOk path names)
        else if !sc.callocOk then (none, unlink sc.cleanupOk path names)
        else (some (cString (strncpy (socketPathSize - 1) path ++ [0])), names)

/-- `ipc_server_destroy`, as far as names are concerned. -/
def ipcServerDestroy (ok : Bool) (socketPath : Path) (names : List Path) : List Path :=
  unlink ok socketPath names

/-! ## `main` -/

/-- What `acquire_singleton_lock` comes to. -/
inductive LockOutcome
  | noDirectory
  /-- the pid file cannot be opened -/
  | noFile
  /-- the lock is another instance's -/
  | busy
  /-- `flock()` or `ftruncate()` fails otherwise -/
  | failed
  | held
  deriving DecidableEq, Repr

/-- What a daemon finds, and how the system calls before and in its loop are answered. -/
structure Setup where
  names : List Path
  pidPath : Path
  statePath : Path
  socketPath : Path
  videoPath : Path
  handlersOk : Bool := true
  lock : LockOutcome := .held
  found : Fs
  reachable : Store.Reachable found
  /-- `daemon_ensure_dir` in `sat_state_init` -/
  stateDirOk : Bool := true
  /-- `open()` of the lock file there -/
  stateLockOk : Bool := true
  /-- the rest of `sat_state_init`, from `flock()` on -/
  init : InitScript := {}
  exe : Option Path
  networkBin : Option Path
  videoIsFile : Bool
  moments : List Moment
  create : CreateScript := {}
  listenFd : ℤ := 3
  paddings : List UInt16 := []
  sends : List SendResult := []
  reallocs : List Bool := []
  stores : List StoreScript := []
  /-- `unlink()` in `ipc_server_destroy` -/
  unlinkSocketOk : Bool := true
  /-- the last `unlink()` of `main` -/
  unlinkPidOk : Bool := true

/-- How a daemon has ended: the return value of `main`, the process table, the names, and the
state file with its temporary file. -/
structure Ending where
  code : ℕ
  manager : Manager
  names : List Path
  disk : Fs

structure Started where
  daemon : Daemon
  socketPath : Path
  names : List Path

namespace Setup

variable (u : Setup)

/-- The names behind `acquire_singleton_lock`. -/
def lockedNames : List Path :=
  match u.lock with
  | .noDirectory => u.names
  | .noFile => u.names.insert (dirOf u.pidPath)
  | .busy | .failed | .held => (u.names.insert (dirOf u.pidPath)).insert u.pidPath

/-- `lock_path` in `sat_state_init`. -/
def stateLockPath : Path := u.statePath ++ ascii ".lock"

def stateFits : Bool := u.statePath.length < pathMax - 5

/-- The names behind `sat_state_init`. -/
def stateNames : List Path :=
  if !(u.stateFits && u.stateDirOk) then u.lockedNames
  else if !u.stateLockOk then u.lockedNames.insert (dirOf u.statePath)
  else (u.lockedNames.insert (dirOf u.statePath)).insert u.stateLockPath

/-- All of `sat_state_init`. -/
def initScript : InitScript :=
  { u.init with setupOk := u.stateFits && u.stateDirOk && u.stateLockOk && u.init.setupOk }

def registered (binDir : Path) : Manager :=
  registerVideoUploader (registerNetwork (registerPayloadApp (pmInit u.moments) binDir) u.networkBin)
    binDir u.videoPath u.videoIsFile

/-- `main` up to its loop. -/
def launch : Ending ⊕ Started :=
  if !u.handlersOk then .inl ⟨1, pmInit u.moments, u.names, u.found⟩
  else if u.lock ≠ .held then .inl ⟨1, pmInit u.moments, u.lockedNames, u.found⟩
  else
    match hinit : satStateInit u.found u.initScript with
    | (disk, none) => .inl ⟨1, pmInit u.moments, u.stateNames, disk⟩
    | (disk, some state) =>
      match selfExeDir u.exe with
      | none => .inl ⟨1, pmInit u.moments, u.stateNames, disk⟩
      | some binDir =>
        match ipcServerCreate u.socketPath u.create u.stateNames with
        | (none, names) =>
          .inl ⟨1, (u.registered binDir).pmStartAll.1.pmShutdownAll shutdownGraceMs, names, disk⟩
        | (some socketPath, names) =>
          let boot : Boot :=
            { found := u.found, reachable := u.reachable, script := u.initScript, disk := disk,
              state := state, init := hinit, listenFd := u.listenFd, paddings := u.paddings,
              sends := u.sends, reallocs := u.reallocs, stores := u.stores }
          .inr ⟨.boot (u.registered binDir) boot.world, socketPath, names⟩

/-- `main` behind its loop. -/
def finish (started : Started) (s : Daemon) : Ending where
  code := 0
  manager := s.manager.pmShutdownAll shutdownGraceMs
  names := unlink u.unlinkPidOk u.pidPath
    (ipcServerDestroy u.unlinkSocketOk started.socketPath started.names)
  disk := s.server.disk

end Setup

/-- The ways `main` returns, for a pipe of `cap` bytes. -/
inductive Returns (cap : ℕ) (u : Setup) : Ending → Prop
  | early {e : Ending} : u.launch = .inl e → Returns cap u e
  | late {started : Started} {s : Daemon} : u.launch = .inr started →
      Loop cap started.daemon s → s.point = .left → Returns cap u (u.finish started s)

/-! ## The loop drives the process manager -/

def Untouched (s : Entry) : Prop := s.past = []

theorem registered_rule (u : Setup) (binDir : Path) {P : Manager → Prop}
    (hinit : P (pmInit u.moments)) (hadd : ∀ m spec, P m → P (m.pmAdd spec).1) :
    P (u.registered binDir) := by
  have happ : P (registerPayloadApp (pmInit u.moments) binDir) := hadd _ _ hinit
  have hnet : P (registerNetwork (registerPayloadApp (pmInit u.moments) binDir) u.networkBin) := by
    unfold registerNetwork
    split
    · exact happ
    · exact hadd _ _ happ
  unfold Setup.registered registerVideoUploader
  split_ifs
  · exact hnet
  · exact hadd _ _ hnet

theorem registered_run (u : Setup) (binDir : Path) (may : Entry → Prop) :
    Process.Run may (u.registered binDir) :=
  registered_rule u binDir (.init _) fun _ spec hm => .call (.add spec) hm fun _ hs => hs.elim

theorem registered_untouched (u : Setup) (binDir : Path) :
    ∀ i, Untouched ((u.registered binDir).procs i) := by
  refine registered_rule u binDir (P := fun m => ∀ i, Untouched (m.procs i)) (fun _ => rfl)
    fun m spec hm i => ?_
  unfold Manager.pmAdd
  split_ifs
  · simp only [Manager.set_procs]
    split_ifs
    · rfl
    · exact hm i
  · exact hm i

/-- Whatever signals arrive and whenever children exit, the table is taken from step to step as
by the calls of the process manager, and only the first step starts anything on request. -/
theorem Loop.manager_steps {cap : ℕ} {m : Manager} {w : World} {s : Daemon}
    (h0 : 0 ∉ m.kernel.pids) (hm : ∀ i, Untouched (m.procs i)) (h : Loop cap (.boot m w) s) :
    Manager.Steps Untouched m s.manager ∧ (s.point = .starting → s.manager.procs = m.procs) := by
  induction h with
  | start => exact ⟨.refl, fun _ => rfl⟩
  | @act s a _ ih =>
    obtain ⟨hsteps, hstart⟩ := ih
    have hpos := Manager.steps_pids_pos hsteps h0
    cases a with
    | signal sig => cases sig <;> exact ⟨hsteps, hstart⟩
    | stray => exact ⟨hsteps, hstart⟩
    | exit p st => exact ⟨hsteps.tail (.quiet _ (Kernel.exit_pids _ p st)), hstart⟩
    | step ans =>
      change Manager.Steps Untouched m (s.next ans).manager ∧
        ((s.next ans).point = .starting → (s.next ans).manager.procs = m.procs)
      unfold Daemon.next
      split
      case h_1 hpoint =>
        refine ⟨hsteps.trans (Manager.pmStartAll_steps fun i _ => ?_), fun h => by cases h⟩
        rw [hstart hpoint]
        exact hm i
      case h_2 | h_5 | h_7 => exact ⟨hsteps, fun h => by dsimp only at h; split at h <;> cases h⟩
      case h_3 | h_8 | h_10 => exact ⟨hsteps, fun h => by cases h⟩
      case h_4 => split <;> exact ⟨hsteps, fun h => by cases h⟩
      case h_6 hpoint => split <;> exact ⟨hsteps, fun h => by simp [hpoint] at h⟩
      case h_9 hpoint =>
        unfold Daemon.reapTurn
        split
        case h_1 k hwait =>
          exact ⟨hsteps.tail (.quiet _ (s.manager.kernel.waitpid_none hwait)), fun h => by cases h⟩
        case h_2 p st k hwait =>
          obtain ⟨hchild, hpids⟩ := s.manager.kernel.waitpid_some hwait
          have hp : p ≠ 0 := fun hp => hpos (hp ▸ hchild)
          exact ⟨hsteps.tail (Manager.reapExit_step hp hchild hpids), fun h => by simp [hpoint] at h⟩
      case h_11 => exact ⟨hsteps.trans Manager.pmTick_steps, fun h => by cases h⟩
      case h_12 hpoint => exact ⟨hsteps, fun h => by simp [hpoint] at h⟩

/-- What every step of the process manager keeps of an entry holds throughout the loop, with
nothing but the entries of new slots started on request. -/
theorem Loop.entries {cap : ℕ} {u : Setup} {binDir : Path} {w : World} {s : Daemon}
    {P : Entry → Prop} (hP : Entry.Local Untouched P)
    (h : Loop cap (.boot (u.registered binDir) w) s) : ∀ i, P (s.manager.procs i) := by
  have hrun := registered_run u binDir Untouched
  exact hP.steps (hP.run hrun) (h.manager_steps hrun.pids_pos (registered_untouched u binDir)).1

/-! ## No child is left -/

theorem pids_eq_nil {m : Manager} (h : m.Matched) (hidle : ∀ i, (m.proc i).pid = 0) :
    m.kernel.pids = [] := by
  refine List.eq_nil_iff_forall_not_mem.mpr fun p hp => ?_
  obtain ⟨hp0, i, hi⟩ := (h.children p).mp hp
  exact hp0 (hi ▸ hidle i)

theorem shutdownAll_count {m : Manager} (h : m.Known) (timeoutMs : ℤ) :
    (m.pmShutdownAll timeoutMs).count = m.count := by
  have hkills (is : List Process.Slot) : ∀ m : Manager, (is.foldl Manager.killSlot m).count = m.count := by
    induction is with
    | nil => exact fun _ => rfl
    | cons i is ih => exact fun m => (ih _).trans Manager.killSlot_count
  rw [Manager.pmShutdownAll_eq, hkills, (h.afterGrace timeoutMs).count, m.abandonSlots_frame.2]

/-- `pm_shutdown_all` takes every child away. -/
theorem shutdown_leaves_no_child {m : Manager} (h : m.Matched) (h0 : 0 ∉ m.kernel.pids)
    (timeoutMs : ℤ) : (m.pmShutdownAll timeoutMs).kernel.pids = [] ∧
      ∀ i, ((m.pmShutdownAll timeoutMs).proc i).pid = 0 := by
  have hsteps : Manager.Steps (fun _ => True) m (m.pmShutdownAll timeoutMs) :=
    Manager.pmShutdownAll_steps h0 timeoutMs
  have hend : (m.pmShutdownAll timeoutMs).Matched :=
    steps_invariant (fun _ _ hm hst => hm.step hst) hsteps h
  have hknown : m.Known := h.known (List.Subset.refl _) h0
  have hidle (i : Process.Slot) : ((m.pmShutdownAll timeoutMs).proc i).pid = 0 := by
    by_cases hi : i ∈ m.slots
    · rcases (hknown.shutdownAll_entry timeoutMs hi).2 with ⟨hforced, -⟩ | ⟨hcollected, -⟩
      · rw [Manager.proc, hforced, Entry.forced_pid]
      · rw [Manager.proc, hcollected]
        rfl
    · refine hend.unused i fun hi' => hi ?_
      rw [Manager.mem_slots] at hi' ⊢
      rwa [shutdownAll_count hknown] at hi'
  exact ⟨pids_eq_nil hend hidle, hidle⟩

/-! ### What runs of `main` lead to -/

theorem Loop.matched {cap : ℕ} {u : Setup} {binDir : Path} {w : World} {s : Daemon}
    (h : Loop cap (.boot (u.registered binDir) w) s) :
    s.manager.Matched ∧ 0 ∉ s.manager.kernel.pids := by
  have hrun := registered_run u binDir Untouched
  obtain ⟨hsteps, -⟩ := h.manager_steps hrun.pids_pos (registered_untouched u binDir)
  have hmatched : (u.registered binDir).Matched :=
    hrun.invariant Manager.matched_init Manager.Matched.step
  exact ⟨steps_invariant (fun _ _ hm hst => hm.step hst) hsteps hmatched,
    Manager.steps_pids_pos hsteps hrun.pids_pos⟩

namespace Setup

variable {u : Setup} {e : Ending} {started : Started}

theorem launch_ended (h : u.launch = .inl e) : e.code = 1 ∧
    (e.manager = pmInit u.moments ∧ e.names ∈ [u.names, u.lockedNames, u.stateNames] ∨
      ∃ binDir, e.manager = (u.registered binDir).pmStartAll.1.pmShutdownAll shutdownGraceMs ∧
        ipcServerCreate u.socketPath u.create u.stateNames = (none, e.names)) := by
  unfold launch at h
  split_ifs at h
  · cases h
    exact ⟨rfl, .inl ⟨rfl, by simp⟩⟩
  · cases h
    exact ⟨rfl, .inl ⟨rfl, by simp⟩⟩
  · split at h
    · cases h
      exact ⟨rfl, .inl ⟨rfl, by simp⟩⟩
    · split at h
      · cases h
        exact ⟨rfl, .inl ⟨rfl, by simp⟩⟩
      · rename_i binDir _
        split at h
        · rename_i hcreate
          cases h
          exact ⟨rfl, .inr ⟨binDir, rfl, hcreate⟩⟩
        · cases h

/-- What holds when the loop begins: the lock is held, and the store is set up. -/
theorem launch_started (h : u.launch = .inr started) : u.lock = .held ∧
    u.initScript.setupOk = true ∧ ∃ binDir boot,
      started.daemon = .boot (u.registered binDir) (Boot.world boot) ∧
        ipcServerCreate u.socketPath u.create u.stateNames =
          (some started.socketPath, started.names) := by
  unfold launch at h
  split_ifs at h with _ hlock
  split at h
  · cases h
  · rename_i hinit
    have hsetup : u.initScript.setupOk = true := by
      by_contra hno
      rw [satStateInit, Bool.eq_false_iff.mpr hno] at hinit
      cases hinit
    split at h
    · cases h
    · split at h
      · cases h
      · rename_i hcreate
        cases h
        exact ⟨not_not.mp hlock, hsetup, _, _, rfl, hcreate⟩

end Setup

/-- However `main` returns, whatever has happened to its processes and whatever signals have
arrived: every child it has forked is reaped, and none is left in the table. -/
theorem main_leaves_no_child {cap : ℕ} {u : Setup} {e : Ending} (h : Returns cap u e) :
    e.manager.kernel.pids = [] ∧ ∀ i, (e.manager.proc i).pid = 0 := by
  cases h with
  | early hlaunch =>
    rcases (Setup.launch_ended hlaunch).2 with ⟨hinit, -⟩ | ⟨binDir, hdown, -⟩
    · rw [hinit]
      exact ⟨rfl, fun _ => rfl⟩
    · have hrun : Process.Run (fun _ => True) (u.registered binDir).pmStartAll.1 :=
        .call .startAll (registered_run u binDir _) fun _ _ => trivial
      rw [hdown]
      exact shutdown_leaves_no_child (hrun.invariant Manager.matched_init Manager.Matched.step)
        hrun.pids_pos _
  | late hlaunch hloop =>
    obtain ⟨-, -, binDir, boot, hdaemon, -⟩ := Setup.launch_started hlaunch
    rw [hdaemon] at hloop
    exact shutdown_leaves_no_child hloop.matched.1 hloop.matched.2 _

theorem reachable_nothing : Store.Reachable ⟨none, none⟩ := .boot none none

/-- A daemon without network bridge and video; its only process, the payload app, is started as
child 100, does not react to `SIGTERM`, and is killed three seconds later. -/
def stubbornApp : Setup where
  names := [ascii "/run/s"]
  pidPath := ascii "/run/p"
  statePath := ascii "/var/t"
  socketPath := ascii "/run/s"
  videoPath := []
  found := ⟨none, none⟩
  reachable := reachable_nothing
  exe := some (ascii "/opt/bin/daemond")
  networkBin := none
  videoIsFile := false
  moments := [{}, { fork := some 100 }, {}, {}, { monotonic := { sec := 3 } }, {}]

def terminated (s : Daemon) : Daemon :=
  [.step {}, .signal .term, .step {}].foldl (Daemon.act 1) s

theorem Loop.acts {cap : ℕ} {start s : Daemon} (h : Loop cap start s) (as : List Occurrence) :
    Loop cap start (as.foldl (Daemon.act cap) s) := by
  induction as generalizing s with
  | nil => exact h
  | cons a as ih => exact ih (h.act a)

theorem loop_terminated (s : Daemon) : Loop 1 s (terminated s) := Loop.start.acts _

theorem stubbornApp_returns : ∃ started, stubbornApp.launch = .inr started ∧
    Returns 1 stubbornApp (stubbornApp.finish started (terminated started.daemon)) := by
  refine ⟨_, rfl, .late rfl (loop_terminated _) ?_⟩
  decide +kernel

theorem main_leaves_no_child_stubbornApp : ∃ started, stubbornApp.launch = .inr started ∧
    (terminated started.daemon).manager.kernel.pids = [100] ∧
    (stubbornApp.finish started (terminated started.daemon)).manager.kernel.pids = [] := by
  obtain ⟨started, hlaunch, hreturns⟩ := stubbornApp_returns
  refine ⟨started, hlaunch, ?_, (main_leaves_no_child hreturns).1⟩
  cases hlaunch
  decide +kernel

/-! ## The names that are left -/

theorem mem_unlink {ok : Bool} {names : List Path} {path n : Path} :
    n ∈ unlink ok path names ↔ n ∈ names ∧ (ok = true → n ≠ path) := by
  cases ok <;> simp [unlink]

/-- What `ipc_server_create` does to the names: if it succeeds, its socket is there under the
path that it keeps; if not, no socket is left that was not there before. -/
theorem ipcServerCreate_names {path : Path} (hnul : (0 : UInt8) ∉ path) (hdir : path ≠ dirOf path)
    {sc : CreateScript} {names names' : List Path} {kept : Option Path}
    (h : ipcServerCreate path sc names = (kept, names')) :
    (∀ n ∈ names', n ∈ names ∨ n = dirOf path ∨ n = path) ∧
      (∀ n ∈ names, n ≠ path → n ∈ names') ∧
      (kept = none ∧ (sc.cleanupOk = true → path ∈ names' → path ∈ names) ∨
        kept = some path ∧ dirOf path ∈ names' ∧ path ∈ names') := by
  have hkeep (hlen : ¬sunPathSize ≤ path.length) :
      cString (strncpy (socketPathSize - 1) path ++ [0]) = path := by
    have hpath : cString path = path := by
      refine List.takeWhile_eq_self_iff.mpr fun c hc => ?_
      have hc0 : c ≠ 0 := fun h0 => hnul (h0 ▸ hc)
      simpa using hc0
    rw [cString_strncpy (by rw [hpath]; simp only [sunPathSize, socketPathSize] at *; omega), hpath]
  unfold ipcServerCreate at h
  dsimp only at h
  split_ifs at h with hmk hlen hsocket hbind hlisten hcalloc
  · cases h
    exact ⟨fun _ => .inl, fun _ hn _ => hn, .inl ⟨rfl, fun _ => id⟩⟩
  all_goals
    cases h
    refine ⟨?_, ?_, ?_⟩
    · simp only [mem_unlink, List.mem_cons, List.mem_insert_iff]
      tauto
    · simp only [mem_unlink, List.mem_cons, List.mem_insert_iff]
      tauto
  -- all but the last are failures
  iterate 5
    refine .inl ⟨rfl, ?_⟩
    simp only [mem_unlink, List.mem_cons, List.mem_insert_iff]
    tauto
  refine .inr ⟨by rw [hkeep hlen], ?_, List.mem_cons_self⟩
  exact List.mem_cons_of_mem _ (mem_unlink.mpr ⟨List.mem_insert_self, fun _ => hdir.symm⟩)

namespace Setup

variable (u : Setup)

/-- The names that `main` puts there and does not remove: directories and the lock file. -/
def kept : List Path := [dirOf u.pidPath, dirOf u.statePath, u.stateLockPath, dirOf u.socketPath]

/-- The pid file and the socket have names of their own. -/
structure Apart : Prop where
  each : u.pidPath ≠ u.socketPath
  pid : u.pidPath ∉ u.kept
  socket : u.socketPath ∉ u.kept

theorem mem_lockedNames {n : Path} :
    (n ∈ u.names → n ∈ u.lockedNames) ∧
      (n ∈ u.lockedNames → n ∈ u.names ∨ n = dirOf u.pidPath ∨ n = u.pidPath) ∧
      (u.lock = .held → dirOf u.pidPath ∈ u.lockedNames) := by
  unfold lockedNames
  cases u.lock <;> simp only [List.mem_insert_iff] <;> refine ⟨by tauto, by tauto, by simp⟩

theorem mem_stateNames {n : Path} :
    (n ∈ u.names → n ∈ u.stateNames) ∧
      (n ∈ u.stateNames → n ∈ u.names ∨ n ∈ u.kept ∨ n = u.pidPath) ∧
      (u.lock = .held → u.initScript.setupOk = true → dirOf u.pidPath ∈ u.stateNames ∧
        dirOf u.statePath ∈ u.stateNames ∧ u.stateLockPath ∈ u.stateNames) := by
  obtain ⟨hkeep, hadd, -⟩ := u.mem_lockedNames (n := n)
  have hdir := (u.mem_lockedNames (n := n)).2.2
  simp only [initScript, Bool.and_eq_true, kept, List.mem_cons, List.not_mem_nil, or_false]
  unfold stateNames
  split_ifs with hfits hlock
  · refine ⟨hkeep, by tauto, fun _ hsetup => ?_⟩
    simp [hsetup.1.1] at hfits
  · simp only [List.mem_insert_iff]
    refine ⟨by tauto, by tauto, fun _ hsetup => ?_⟩
    simp [hsetup.1.2] at hlock
  · simp only [List.mem_insert_iff]
    exact ⟨by tauto, by tauto, fun hheld _ => by simp [hdir hheld]⟩

end Setup

/-- What `main` leaves of the names it finds and makes. -/
structure Leaves (u : Setup) (e : Ending) : Prop where
  adds : ∀ n ∈ e.names, n ∈ u.names ∨ n ∈ u.kept ∨ n = u.pidPath ∨ n = u.socketPath
  keeps : ∀ n ∈ u.names, n ≠ u.pidPath → n ≠ u.socketPath → n ∈ e.names
  early : e.code = 1 → u.create.cleanupOk = true → u.socketPath ∈ e.names → u.socketPath ∈ u.names
  late : e.code = 0 → (u.unlinkSocketOk = true → u.socketPath ∉ e.names) ∧
    (u.unlinkPidOk = true → u.pidPath ∉ e.names) ∧ (∀ n ∈ u.kept, n ∈ e.names) ∧
      ∃ st, Holds e.disk st

theorem Loop.holds {cap : ℕ} {m : Manager} {b : Boot} {s : Daemon}
    (h : Loop cap (.boot m b.world) s) (hleft : s.point = .left) : ∃ st, Holds s.server.disk st := by
  have hstage := h.server_run
  rw [hleft] at hstage
  obtain ⟨w, slots, hrun, hserver⟩ := hstage
  exact ⟨_, by rw [hserver]; exact (mirrors_of_reachable hrun.reachable).file⟩

theorem Setup.leaves_early {u : Setup} {e : Ending} (hlaunch : u.launch = .inl e)
    (hnul : (0 : UInt8) ∉ u.socketPath) (hapart : u.Apart) : Leaves u e := by
  obtain ⟨hcode, hcases⟩ := Setup.launch_ended hlaunch
  have hsocket : u.socketPath ∈ u.stateNames → u.socketPath ∈ u.names := fun hmem => by
    rcases u.mem_stateNames.2.1 hmem with h | h | h
    · exact h
    · exact absurd h hapart.socket
    · exact absurd h.symm hapart.each
  rcases hcases with ⟨-, hnames⟩ | ⟨-, -, hcreate⟩
  · -- nothing has been done about the socket
    have hstage : (∀ n ∈ u.names, n ∈ e.names) ∧
        ∀ n ∈ e.names, n ∈ u.names ∨ n ∈ u.kept ∨ n = u.pidPath := by
      simp only [List.mem_cons, List.not_mem_nil, or_false] at hnames
      rcases hnames with h | h | h <;> rw [h]
      · exact ⟨fun _ => id, fun _ => .inl⟩
      · refine ⟨fun n => u.mem_lockedNames.1, fun n hn => ?_⟩
        rcases u.mem_lockedNames.2.1 hn with h | h | h
        · exact .inl h
        · exact .inr (.inl (by simp [kept, h]))
        · exact .inr (.inr h)
      · exact ⟨fun n => u.mem_stateNames.1, fun n => u.mem_stateNames.2.1⟩
    refine ⟨fun n hn => ?_, fun n hn _ _ => hstage.1 n hn, fun _ _ hmem => ?_, fun h0 => by omega⟩
    · exact (hstage.2 n hn).imp_right (Or.imp_right .inl)
    · rcases hstage.2 _ hmem with h | h | h
      · exact h
      · exact absurd h hapart.socket
      · exact absurd h.symm hapart.each
  · have hdir : u.socketPath ≠ dirOf u.socketPath := fun h => hapart.socket (by simp [kept, ← h])
    obtain ⟨hadds, hkeeps, hor⟩ := ipcServerCreate_names hnul hdir hcreate
    refine ⟨fun n hn => ?_, fun n hn _ hne => hkeeps n (u.mem_stateNames.1 hn) hne,
      fun _ hok hmem => ?_, fun h0 => by omega⟩
    · rcases hadds n hn with h | h | h
      · exact (u.mem_stateNames.2.1 h).imp_right (Or.imp_right .inl)
      · exact .inr (.inl (by simp [kept, h]))
      · exact .inr (.inr (.inr h))
    · rcases hor with ⟨-, hbefore⟩ | ⟨hsome, -⟩
      · exact hsocket (hbefore hok hmem)
      · cases hsome

theorem Setup.leaves_late {cap : ℕ} {u : Setup} {started : Started} {s : Daemon}
    (hlaunch : u.launch = .inr started) (hloop : Loop cap started.daemon s) (hleft : s.point = .left)
    (hnul : (0 : UInt8) ∉ u.socketPath) (hapart : u.Apart) : Leaves u (u.finish started s) := by
  obtain ⟨hlock, hsetup, binDir, boot, hdaemon, hcreate⟩ := Setup.launch_started hlaunch
  have hdir : u.socketPath ≠ dirOf u.socketPath := fun h => hapart.socket (by simp [kept, ← h])
  obtain ⟨hadds, hkeeps, hor⟩ := ipcServerCreate_names hnul hdir hcreate
  obtain ⟨hkept, hdirThere, -⟩ := hor.resolve_left fun hnone => by cases hnone.1
  have hkept : started.socketPath = u.socketPath := Option.some.inj hkept
  have hnames {n : Path} : n ∈ (u.finish started s).names ↔
      (n ∈ started.names ∧ (u.unlinkSocketOk = true → n ≠ u.socketPath)) ∧
        (u.unlinkPidOk = true → n ≠ u.pidPath) := by
    rw [Setup.finish, mem_unlink, ipcServerDestroy, mem_unlink, hkept]
  refine ⟨fun n hn => ?_, fun n hn hpid hsocket => ?_, fun hone => ?_, fun _ => ⟨?_, ?_, ?_, ?_⟩⟩
  · rcases hadds n (hnames.mp hn).1.1 with h | h | h
    · exact (u.mem_stateNames.2.1 h).imp_right (Or.imp_right .inl)
    · exact .inr (.inl (by simp [kept, h]))
    · exact .inr (.inr (.inr h))
  · exact hnames.mpr ⟨⟨hkeeps n (u.mem_stateNames.1 hn) hsocket, fun _ => hsocket⟩, fun _ => hpid⟩
  · cases hone
  · exact fun hok hmem => (hnames.mp hmem).1.2 hok rfl
  · exact fun hok hmem => (hnames.mp hmem).2 hok rfl
  · intro n hn
    have hne : n ≠ u.socketPath := fun h => hapart.socket (h ▸ hn)
    have hthere : n ∈ started.names := by
      obtain ⟨hpidDir, hstateDir, hlockFile⟩ :=
        (u.mem_stateNames (n := n)).2.2 hlock hsetup
      simp only [kept, List.mem_cons, List.not_mem_nil, or_false] at hn
      rcases hn with rfl | rfl | rfl | rfl
      · exact hkeeps _ hpidDir hne
      · exact hkeeps _ hstateDir hne
      · exact hkeeps _ hlockFile hne
      · exact hdirThere
    exact hnames.mpr ⟨⟨hthere, fun _ => hne⟩, fun _ h => hapart.pid (h ▸ hn)⟩
  · rw [hdaemon] at hloop
    exact hloop.holds hleft

/-- However `main` returns: besides the state file and its temporary file, the names it has added
are among its pid file, its socket, the directories of its paths and the lock file of the state,
and it has removed none but the first two; an early return leaves no socket that was not there
before, and if it returns 0 the pid file and the socket are gone, each unless its `unlink()`
fails, and the rest is there, with a valid state file. -/
theorem main_removes_names {cap : ℕ} {u : Setup} {e : Ending} (h : Returns cap u e)
    (hnul : (0 : UInt8) ∉ u.socketPath) (hapart : u.Apart) : Leaves u e := by
  cases h with
  | early hlaunch => exact Setup.leaves_early hlaunch hnul hapart
  | late hlaunch hloop hleft => exact Setup.leaves_late hlaunch hloop hleft hnul hapart

theorem main_removes_names_stubbornApp : ∃ started, stubbornApp.launch = .inr started ∧
    stubbornApp.socketPath ∈ started.names ∧
    stubbornApp.socketPath ∉ (stubbornApp.finish started (terminated started.daemon)).names ∧
    ascii "/var/t.lock" ∈ (stubbornApp.finish started (terminated started.daemon)).names := by
  obtain ⟨started, hlaunch, hreturns⟩ := stubbornApp_returns
  have hapart : stubbornApp.Apart := ⟨by decide, by decide, by decide⟩
  obtain ⟨hsocket, -, hkept, -⟩ := (main_removes_names hreturns (by decide) hapart).late rfl
  refine ⟨started, hlaunch, ?_, hsocket rfl, hkept _ (by decide)⟩
  cases hlaunch
  decide +kernel

/-! ## One-shot processes -/

def isChild : Event → Bool
  | .fork _ _ (some _) => true
  | .fork _ _ none => false
  | .call _ | .signal .. | .reaped .. | .collected _ => false

def children (past : List Event) : ℕ := past.countP isChild

theorem children_cons (e : Event) (past : List Event) :
    children (e :: past) = children past + if isChild e then 1 else 0 := List.countP_cons

/-- A slot whose process is never restarted has had no child yet, or one, which is still there
or after which the slot was given up. -/
structure OneShot (s : Entry) : Prop where
  new : s.past = [] → s.proc.shuttingDown = false
  stopping : s.proc.shuttingDown = true → s.proc.givenUp = true
  abandoned : .call .shutdownAll ∈ s.past → s.proc.givenUp = true
  once : s.proc.spec.restart = .never → children s.past = 0 ∧ s.proc.pid = 0 ∨
    children s.past = 1 ∧ (s.proc.pid ≠ 0 ∨ s.proc.givenUp = true)

namespace OneShot

variable {s : Entry} (h : OneShot s)
include h

theorem note {mp : ManagedProcess} {e : Event} (he : isChild e = false)
    (hspec : mp.spec = s.proc.spec) (hgiven : s.proc.givenUp = true → mp.givenUp = true)
    (hdown : mp.shuttingDown = true → mp.givenUp = true)
    (hall : e = .call .shutdownAll → mp.givenUp = true)
    (hpid : mp.pid = s.proc.pid ∨
      mp.pid = 0 ∧ (s.proc.spec.restart = .never → mp.givenUp = true)) :
    OneShot ⟨mp, e :: s.past⟩ where
  new hnil := by cases hnil
  stopping := hdown
  abandoned hmem := by
    rcases List.mem_cons.mp hmem with heq | hmem
    · exact hall heq.symm
    · exact hgiven (h.abandoned hmem)
  once hnever := by
    rw [hspec] at hnever
    have hcount : children (e :: s.past) = children s.past := by simp [children_cons, he]
    rw [hcount]
    rcases h.once hnever with ⟨hnone, hidle⟩ | ⟨hone, hrest⟩
    · exact .inl ⟨hnone, by rcases hpid with heq | ⟨h0, -⟩ <;> simp_all⟩
    · refine .inr ⟨hone, ?_⟩
      rcases hpid with heq | ⟨-, hup⟩
      · exact hrest.imp (fun h0 => heq ▸ h0) hgiven
      · exact .inr (hup hnever)

/-- A new child, or an attempt to fork one, for a slot that has none and is not given up. -/
theorem fork (hidle : s.proc.pid = 0) (hup : s.proc.givenUp = false)
    (hdown : s.proc.shuttingDown = false) (op : Op) (now : ℤ) {answer : Option Pid}
    (hanswer : answer ≠ some 0) : OneShot (s.fork op now answer) where
  new hnil := by cases hnil
  stopping hd := by simp [Entry.fork, hdown] at hd
  abandoned hmem := by
    have hmem : .call .shutdownAll ∈ s.past := by simpa [Entry.fork] using hmem
    simp [h.abandoned hmem] at hup
  once hnever := by
    rcases h.once hnever with ⟨hnone, -⟩ | ⟨-, hrun | hgiven⟩
    · cases answer with
      | none => exact .inl ⟨by simp [Entry.fork, children_cons, isChild, hnone], hidle⟩
      | some p =>
        refine .inr ⟨?_, .inl fun h0 => hanswer (congrArg some h0)⟩
        simp [Entry.fork, children_cons, isChild, hnone]
    · exact absurd hidle hrun
    · simp [hup] at hgiven

theorem reap (st : Status) (now : ℤ) : OneShot (s.reap st now) := by
  refine h.note rfl (judge_spec _ _ _) (fun hgiven => ?_) (fun hd => ?_) (by simp)
    (.inr ⟨Manager.judge_pid _ _ _, fun hnever => ?_⟩)
  · exact judge_givenUp { s.proc with pid := 0 } hgiven st now
  · simp [judge_shuttingDown] at hd
  · cases hdown : s.proc.shuttingDown with
    | true => exact judge_givenUp { s.proc with pid := 0 } (h.stopping hdown) st now
    | false => simp [ManagedProcess.judge, ManagedProcess.shouldRestart, hdown, hnever]

end OneShot

/-- A start reaches the slot for the first time. -/
theorem OneShot.started {s : Entry} (h : OneShot s) (hnew : Untouched s) {op : Op}
    (hop : op ≠ .shutdownAll) (now : ℤ) (hidle : s.proc.spec.restart = .never → s.proc.pid = 0) :
    OneShot ((s.note (.call op)).reset now) where
  new hnil := by cases hnil
  stopping hd := by simp [Entry.reset, Entry.note, h.new hnew] at hd
  abandoned hmem := by
    have hmem : .call .shutdownAll ∈ Event.call op :: s.past := hmem
    rw [hnew, List.mem_singleton] at hmem
    exact absurd (Event.call.inj hmem).symm hop
  once hnever := by
    have hzero : children ((s.note (.call op)).reset now).past = 0 := by
      change children (.call op :: s.past) = 0
      rw [hnew]
      rfl
    exact .inl ⟨hzero, hidle hnever⟩

theorem OneShot.idle_of_new {s : Entry} (h : OneShot s) (hnew : Untouched s)
    (hnever : s.proc.spec.restart = .never) : s.proc.pid = 0 := by
  rcases h.once hnever with ⟨-, hidle⟩ | ⟨hone, -⟩
  · exact hidle
  · rw [hnew] at hone
    simp [children] at hone

theorem oneShot_local : Entry.Local Untouched OneShot where
  fresh := ⟨fun _ => rfl, by simp, by simp, fun _ => .inl ⟨rfl, rfl⟩⟩
  added _ := ⟨fun _ => rfl, by simp [Manager.added], by simp [Manager.added], fun _ => .inl ⟨rfl, rfl⟩⟩
  step {s s'} h hstep := by
    cases hstep with
    | start op now answer hmay hop hidle hanswer =>
      have hne : op ≠ .shutdownAll := by rcases hop with rfl | rfl <;> simp
      exact (h.started hmay hne now fun _ => hidle).fork hidle rfl (h.new hmay) op now hanswer
    | refresh now hmay => exact h.started hmay (by simp) now (h.idle_of_new hmay)
    | running => exact h.note rfl rfl id h.stopping (by simp) (.inl rfl)
    | tickStart now answer hup hidle hgiven _ hanswer => exact h.fork hidle hgiven hup .tick now hanswer
    | tickKill => exact h.note rfl rfl id h.stopping (by simp) (.inl rfl)
    | reap st now => exact h.reap st now
    | abandon =>
      have hcalled : OneShot ⟨{ s.proc with givenUp := true }, .call .shutdownAll :: s.past⟩ :=
        h.note rfl rfl (fun _ => rfl) (fun _ => rfl) (fun _ => rfl) (.inl rfl)
      unfold Entry.abandon
      split_ifs
      · exact hcalled.note rfl rfl id hcalled.stopping (by simp) (.inl rfl)
      · exact hcalled
    | collect _ hall =>
      exact h.note rfl rfl id h.stopping (by simp) (.inr ⟨rfl, fun _ => h.abandoned hall⟩)
    | straggler _ hall =>
      have hkilled : OneShot (s.note (.signal .shutdownAll .kill s.proc.pid)) :=
        h.note rfl rfl id h.stopping (by simp) (.inl rfl)
      exact hkilled.note rfl rfl id h.stopping (by simp) (.inr ⟨rfl, fun _ => h.abandoned hall⟩)
    | stopIdle => exact h.note rfl rfl (fun _ => rfl) (fun _ => rfl) (by simp) (.inl rfl)
    | stop now timeoutMs =>
      have hcalled : OneShot (s.note (.call .shutdownOne)) :=
        h.note rfl rfl id h.stopping (by simp) (.inl rfl)
      exact hcalled.note rfl rfl (fun _ => rfl) (fun _ => rfl) (by simp) (.inl rfl)

/-- A process that `main` registers with `RESTART_NEVER`, which is the video uploader, has had
at most one child when `main` returns, whatever signals arrived in between, however the child
ended and however often `fork()` failed. -/
theorem one_shot_process_runs_once {cap : ℕ} {u : Setup} {e : Ending} (h : Returns cap u e)
    (i : Process.Slot) (hnever : (e.manager.proc i).spec.restart = .never) :
    children (e.manager.procs i).past ≤ 1 := by
  suffices hone : OneShot (e.manager.procs i) by
    rcases hone.once hnever with ⟨hnone, -⟩ | ⟨hone, -⟩ <;> omega
  cases h with
  | early hlaunch =>
    rcases (Setup.launch_ended hlaunch).2 with ⟨hinit, -⟩ | ⟨binDir, hdown, -⟩
    · rw [hinit]
      exact oneShot_local.fresh
    · have hrun : Process.Run Untouched (u.registered binDir).pmStartAll.1 :=
        .call .startAll (registered_run u binDir _) fun i _ => registered_untouched u binDir i
      rw [hdown]
      exact oneShot_local.steps (oneShot_local.run hrun)
        (Manager.pmShutdownAll_steps hrun.pids_pos _) i
  | late hlaunch hloop =>
    obtain ⟨-, -, binDir, boot, hdaemon, -⟩ := Setup.launch_started hlaunch
    rw [hdaemon] at hloop
    exact oneShot_local.steps (hloop.entries oneShot_local)
      (Manager.pmShutdownAll_steps hloop.matched.2 _) i

def failingUpload : Setup :=
  { stubbornApp with
    videoPath := ascii "/v.mp4"
    videoIsFile := true
    moments := [{}, { fork := some 100 }, { fork := some 101 }, { pick := 101 }] ++
      List.replicate 6 {} ++ [{ monotonic := { sec := 3 } }, {}] }

def uploadFails : List Occurrence :=
  Occurrence.step {} :: .exit 101 (.exited 1) :: .signal .chld ::
    (List.replicate 19 (.step {}) ++ [.signal .term, .step {}])

theorem one_shot_process_runs_once_upload : ∃ started e, failingUpload.launch = .inr started ∧
    (uploadFails.foldl (Daemon.act 1) started.daemon).point = .left ∧
    Returns 1 failingUpload e ∧ (e.manager.proc 1).spec.restart = .never ∧
    Event.reaped 101 (.exited 1) .finished ∈ (e.manager.procs 1).past ∧
    children (e.manager.procs 1).past ≤ 1 := by
  have hleft : ∃ started, failingUpload.launch = .inr started ∧
      (uploadFails.foldl (Daemon.act 1) started.daemon).point = .left := ⟨_, rfl, by decide +kernel⟩
  obtain ⟨started, hlaunch, hleft⟩ := hleft
  have hreturns := Returns.late hlaunch (Loop.start.acts uploadFails) hleft
  have hnever : ((failingUpload.finish started
      (uploadFails.foldl (Daemon.act 1) started.daemon)).manager.proc 1).spec.restart = .never := by
    cases hlaunch
    decide +kernel
  refine ⟨started, _, hlaunch, hleft, hreturns, hnever, ?_, one_shot_process_runs_once hreturns 1 hnever⟩
  cases hlaunch
  decide +kernel

end PiDaemon.Main
