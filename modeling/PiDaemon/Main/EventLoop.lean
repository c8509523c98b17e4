import PiDaemon.Base.Transition
import PiDaemon.Process.Exits
import PiDaemon.Process.Steps
import PiDaemon.Server.Readiness

/-!
# The main loop and its signals

`on_signal` and the event loop of `main`. The handler sets a flag and writes a byte
to the self-pipe; the loop drains the pipe, then looks at the flags. Each access
of the loop to a flag, the pipe or the children is a step of its own, and the handler
runs between any two of them. The poll set, the service pass and the tick touch
neither flags nor pipe and are single steps.

The order matters twice: the pipe is drained before `g_got_chld` is tested, and
`g_got_chld` is cleared before the first `waitpid()`.
-/

namespace PiDaemon.Main

open Base Proto Process Server

/-- Where the daemon stands in `main`. -/
inductive Point
  /-- the handlers are installed and the loop has not begun -/
  | starting
  /-- about to test `!g_got_term` -/
  | test
  /-- about to fill in `fds` -/
  | collect
  /-- about to call `poll()`, or blocked in it -/
  | poll
  /-- `poll()` has returned, with or without `POLLIN` for the pipe -/
  | polled (readable : Bool)
  /-- about to `read()` from the pipe -/
  | drain
  /-- about to test `g_got_chld` -/
  | check
  /-- about to clear `g_got_chld` -/
  | clear
  /-- in `pm_reap`, about to call `waitpid()` -/
  | reap
  | service
  | tick
  /-- the loop is left -/
  | left
  deriving DecidableEq, Repr

/-- The daemon with its self-pipe, of which only the number of bytes matters. -/
structure Daemon where
  point : Point := .starting
  gotTerm : Bool := false
  gotChld : Bool := false
  pipe : ℕ := 0
  manager : Manager
  server : World
  fds : List PollFd := []
  /-- the children that had exited when a `SIGCHLD` was delivered and were not reaped
  since; the program does not know them -/
  announced : List Pid := []

/-- The signals `on_signal` is installed for. -/
inductive Sig
  | chld
  | term
  | int
  deriving DecidableEq, Repr

/-- How `poll()` returns. -/
inductive PollAnswer
  | intr
  | fail
  | ready (rs : List World.Ready)
  deriving DecidableEq, Repr

structure Answer where
  poll : PollAnswer := .ready []
  /-- `read()` on the pipe returns no bytes although there are some -/
  readFails : Bool := false
  accepts : List AcceptChoice := []
  deriving DecidableEq, Repr

def drainSize : ℕ := 64

namespace Daemon

/-- `write(g_sig_pipe[1], &c, 1)`, which fails when the pipe is full. -/
def writePipe (cap : ℕ) (s : Daemon) : Daemon :=
  { s with pipe := if s.pipe < cap then s.pipe + 1 else s.pipe }

def onSignal (cap : ℕ) (s : Daemon) : Sig → Daemon
  | .chld => { s with gotChld := true, announced := s.manager.kernel.zombies }.writePipe cap
  | .term | .int => { s with gotTerm := true }.writePipe cap

/-- One turn of the loop of `pm_reap`. -/
def reapTurn (s : Daemon) : Daemon :=
  match s.manager.kernel.waitpid with
  | (none, k) => { s with point := .service, manager := s.manager.withKernel k }
  | (some (p, st), k) =>
    { s with
      manager := (s.manager.withKernel k).reapExit p st
      announced := s.announced.filter (· ≠ p) }

def next (s : Daemon) (a : Answer) : Daemon :=
  match s.point with
  | .starting => { s with point := .test, manager := s.manager.pmStartAll.1 }
  | .test => { s with point := if s.gotTerm then .left else .collect }
  | .collect =>
    { s with
      point := .poll
      server := (s.server.collectPollfds (maxClients + 1)).1
      fds := (s.server.collectPollfds (maxClients + 1)).2 }
  | .poll =>
    match a.poll with
    | .intr => { s with point := .test }
    | .fail => { s with point := .left }
    | .ready rs =>
      { s with
        point := .polled (0 < s.pipe)
        fds := s.fds.mapIdx fun k p =>
          { p with revents := (rs.getD k {}).revents, recvs := (rs.getD k {}).recvs } }
  | .polled readable => { s with point := if readable then .drain else .check }
  | .drain =>
    if a.readFails ∨ s.pipe = 0 then { s with point := .check }
    else { s with pipe := s.pipe - drainSize }
  | .check => { s with point := if s.gotChld then .clear else .service }
  | .clear => { s with point := .reap, gotChld := false }
  | .reap => s.reapTurn
  | .service => { s with point := .tick, server := s.server.service s.fds a.accepts }
  | .tick => { s with point := .test, manager := s.manager.pmTick }
  | .left => s

end Daemon

inductive Occurrence
  | step (a : Answer)
  | signal (sig : Sig)
  /-- a child exits; its `SIGCHLD` may be delivered at once, later, or together with others -/
  | exit (p : Pid) (st : Status)
  /-- a child that has not called `execv()` yet runs the handler on its copy of the
  flags and on the same pipe -/
  | stray
  deriving DecidableEq, Repr

def Daemon.act (cap : ℕ) (s : Daemon) : Occurrence → Daemon
  | .step a => s.next a
  | .signal sig => s.onSignal cap sig
  | .exit p st => { s with manager := s.manager.withKernel (s.manager.kernel.exit p st) }
  | .stray => s.writePipe cap

/-- The states of a daemon whose pipe holds `cap` bytes, from `s` on. -/
inductive Loop (cap : ℕ) (start : Daemon) : Daemon → Prop
  | start : Loop cap start start
  | act {s : Daemon} (a : Occurrence) : Loop cap start s → Loop cap start (s.act cap a)

/-- The daemon behind `install_signal_handlers` and `pm_add`. -/
def Daemon.boot (m : Manager) (w : World) : Daemon := { manager := m, server := w }

/-! ## No lost wake-up -/

/-- Between the test of `g_got_term` and `poll()`. -/
def Point.termTested : Point → Bool
  | .collect | .poll => true
  | _ => false

/-- Between the test of `g_got_chld` and `poll()`. -/
def Point.chldTested : Point → Bool
  | .starting | .test | .collect | .poll | .reap | .service | .tick => true
  | .polled _ | .drain | .check | .clear | .left => false

/-- A flag that was set behind its test has left a byte in the pipe, and a delivered
exit that is not reaped has left `g_got_chld` set, or `pm_reap` will still come to it. -/
structure Awake (s : Daemon) : Prop where
  term : s.point.termTested = true → s.gotTerm = true → 0 < s.pipe
  chld : s.point.chldTested = true → s.gotChld = true → 0 < s.pipe
  announced : s.point ≠ .reap → s.gotChld = false → s.announced = []
  zombie : ∀ p ∈ s.announced, p ∈ s.manager.kernel.zombies

theorem awake_boot (m : Manager) (w : World) : Awake (.boot m w) where
  term _ h := by cases h
  chld _ h := by cases h
  announced _ _ := rfl
  zombie _ h := by cases h

namespace Awake

variable {cap : ℕ} {s : Daemon}

theorem writePipe_pos (hcap : 0 < cap) (s : Daemon) : 0 < (s.writePipe cap).pipe := by
  simp only [Daemon.writePipe]
  split_ifs <;> omega

theorem writePipe (hcap : 0 < cap) (h : Awake s) : Awake (s.writePipe cap) where
  term _ _ := writePipe_pos hcap s
  chld _ _ := writePipe_pos hcap s
  announced := h.announced
  zombie := h.zombie

theorem onSignal (hcap : 0 < cap) (h : Awake s) (sig : Sig) : Awake (s.onSignal cap sig) := by
  have hterm : Awake (Daemon.writePipe cap { s with gotTerm := true }) :=
    ⟨fun _ _ => writePipe_pos hcap _, fun _ _ => writePipe_pos hcap _, h.announced, h.zombie⟩
  cases sig with
  | chld =>
    refine ⟨fun _ _ => writePipe_pos hcap _, fun _ _ => writePipe_pos hcap _, ?_, fun _ hp => hp⟩
    intro _ hno
    cases hno
  | term => exact hterm
  | int => exact hterm

/-- `pm_reap` ends when nothing is left of what was delivered before `g_got_chld` was cleared. -/
theorem reapTurn (h : Awake s) (hpoint : s.point = .reap) : Awake s.reapTurn := by
  have hchld : s.gotChld = true → 0 < s.pipe := h.chld (by rw [hpoint]; rfl)
  unfold Daemon.reapTurn
  rcases s.manager.kernel.waitpid_zombies with ⟨k, hwait, hnone⟩ | ⟨q, st, k, hwait, hkeep⟩
  · have hempty : s.announced = [] := by
      refine List.eq_nil_iff_forall_not_mem.mpr fun p hp => ?_
      have hz := h.zombie p hp
      rw [hnone] at hz
      cases hz
    rw [hwait]
    refine ⟨fun htested => (by cases htested), fun _ => hchld, fun _ _ => hempty, ?_⟩
    intro p hp
    rw [hempty] at hp
    cases hp
  · rw [hwait]
    refine ⟨?_, fun _ => hchld, fun hp => absurd hpoint hp, ?_⟩
    · intro htested
      rw [hpoint] at htested
      cases htested
    · intro p hp
      obtain ⟨hmem, hne⟩ := List.mem_filter.mp hp
      exact Manager.zombies_reapExit (m := s.manager.withKernel k)
        (hkeep p (h.zombie p hmem) (by simpa using hne)) q st

/-- For a step outside `pm_reap` that leaves `g_got_chld` alone, the pipe is all there is to see. -/
theorem moved (h : Awake s) {t : Daemon} (hpoint : s.point ≠ .reap)
    (hterm : t.point.termTested = true → t.gotTerm = true → 0 < t.pipe)
    (hchld : t.point.chldTested = true → s.gotChld = true → 0 < t.pipe)
    (hflag : t.gotChld = s.gotChld) (hannounced : t.announced = s.announced)
    (hzombies : ∀ p ∈ s.manager.kernel.zombies, p ∈ t.manager.kernel.zombies) : Awake t where
  term := hterm
  chld htested hflagged := hchld htested (hflag ▸ hflagged)
  announced _ hno := hannounced.trans (h.announced hpoint (hflag ▸ hno))
  zombie p hp := hzombies p (h.zombie p (hannounced ▸ hp))

theorem untested (h : Awake s) {t : Daemon} (hpoint : s.point ≠ .reap)
    (hterm : t.point.termTested = false) (hchld : t.point.chldTested = false)
    (hflag : t.gotChld = s.gotChld) (hannounced : t.announced = s.announced)
    (hmanager : t.manager = s.manager) : Awake t := by
  refine h.moved hpoint (fun ht => ?_) (fun ht => ?_) hflag hannounced fun p hp => hmanager ▸ hp
  · simp [hterm] at ht
  · simp [hchld] at ht

theorem next (h : Awake s) (a : Answer) : Awake (s.next a) := by
  have hterm := h.term
  have hchld := h.chld
  unfold Daemon.next
  cases hpoint : s.point with
  | reap => exact h.reapTurn hpoint
  | starting =>
    rw [hpoint] at hchld
    refine h.moved (by simp [hpoint]) ?_ (fun _ => hchld rfl) rfl rfl fun _ => Manager.zombies_startAll
    exact fun htested => by cases htested
  | test =>
    rw [hpoint] at hchld
    refine h.moved (by simp [hpoint]) ?_ (fun _ => hchld rfl) rfl rfl fun _ hp => hp
    -- the loop goes on only if `g_got_term` is not set
    intro htested hgot
    dsimp only at htested hgot
    rw [if_pos hgot] at htested
    cases htested
  | collect =>
    rw [hpoint] at hterm hchld
    exact h.moved (by simp [hpoint]) (fun _ => hterm rfl) (fun _ => hchld rfl) rfl rfl fun _ hp => hp
  | poll =>
    rw [hpoint] at hchld
    dsimp only
    split
    · refine h.moved (by simp [hpoint]) ?_ (fun _ => hchld rfl) rfl rfl fun _ hp => hp
      exact fun htested => by cases htested
    · exact h.untested (by simp [hpoint]) rfl rfl rfl rfl rfl
    · exact h.untested (by simp [hpoint]) rfl rfl rfl rfl rfl
  | polled readable =>
    cases readable with
    | true => exact h.untested (by simp [hpoint]) rfl rfl rfl rfl rfl
    | false => exact h.untested (by simp [hpoint]) rfl rfl rfl rfl rfl
  | drain =>
    dsimp only
    split_ifs
    · exact h.untested (by simp [hpoint]) rfl rfl rfl rfl rfl
    · exact h.untested (by simp [hpoint]) rfl rfl rfl rfl rfl
  | check =>
    dsimp only
    split_ifs with hgot
    · exact h.untested (by simp [hpoint]) rfl rfl rfl rfl rfl
    · refine h.moved (by simp [hpoint]) ?_ (fun _ hyes => absurd hyes hgot) rfl rfl fun _ hp => hp
      exact fun htested => by cases htested
  | clear =>
    refine ⟨fun htested => ?_, fun _ hyes => ?_, fun hout => absurd rfl hout, h.zombie⟩
    · cases htested
    · cases hyes
  | service =>
    rw [hpoint] at hchld
    refine h.moved (by simp [hpoint]) ?_ (fun _ => hchld rfl) rfl rfl fun _ hp => hp
    exact fun htested => by cases htested
  | tick =>
    rw [hpoint] at hchld
    refine h.moved (by simp [hpoint]) ?_ (fun _ => hchld rfl) rfl rfl fun _ => Manager.zombies_tick
    exact fun htested => by cases htested
  | left => exact h

theorem act (hcap : 0 < cap) (h : Awake s) (a : Occurrence) : Awake (s.act cap a) := by
  cases a with
  | step a => exact h.next a
  | signal sig => exact h.onSignal hcap sig
  | exit p st =>
    exact ⟨h.term, h.chld, h.announced, fun q hq => Kernel.zombies_exit (h.zombie q hq) p st⟩
  | stray => exact h.writePipe hcap

end Awake

theorem Loop.awake {cap : ℕ} (hcap : 0 < cap) {m : Manager} {w : World} {s : Daemon}
    (h : Loop cap (.boot m w) s) : Awake s := by
  induction h with
  | start => exact awake_boot m w
  | act a _ ih => exact ih.act hcap a

/-- Whatever signals arrive between which steps, and however small the pipe is: when the
loop comes to `poll()` with a flag set, there is a byte in the pipe; and except
between clearing `g_got_chld` and the last `waitpid()` of `pm_reap`, the flag is set as
long as a child whose exit was delivered is not reaped. -/
theorem no_lost_wakeup {cap : ℕ} (hcap : 0 < cap) {m : Manager} {w : World} {s : Daemon}
    (h : Loop cap (.boot m w) s) :
    (s.point = .poll → s.gotChld = true ∨ s.gotTerm = true → 0 < s.pipe) ∧
    (s.point ≠ .reap → ∀ p ∈ s.announced, s.gotChld = true) := by
  have hawake := h.awake hcap
  constructor
  · rintro hpoint (hgot | hgot)
    · exact hawake.chld (by rw [hpoint]; rfl) hgot
    · exact hawake.term (by rw [hpoint]; rfl) hgot
  · intro hpoint p hp
    by_contra hno
    rw [hawake.announced hpoint (by simpa using hno)] at hp
    cases hp

/-- A child is started and exits; its `SIGCHLD` comes just before `poll()` and fills the
pipe, so nothing is written for the `SIGTERM` behind it. -/
def fullPipe : Daemon :=
  [.step {}, .exit 100 (.exited 1), .step {}, .step {}, .signal .chld, .signal .term].foldl
    (Daemon.act 1) (.boot ((pmInit [{}, { fork := some 100 }]).perform (.add { name := [97] }))
      (Boot.fresh [] []).world)

theorem no_lost_wakeup_fullPipe : fullPipe.point = .poll ∧ fullPipe.gotTerm = true ∧
    fullPipe.announced = [100] ∧ 0 < fullPipe.pipe ∧ fullPipe.gotChld = true := by
  have hloop : Loop 1 (.boot ((pmInit [{}, { fork := some 100 }]).perform (.add { name := [97] }))
      (Boot.fresh [] []).world) fullPipe := by
    unfold fullPipe
    simp only [List.foldl_cons, List.foldl_nil]
    exact .act _ (.act _ (.act _ (.act _ (.act _ (.act _ .start)))))
  have hpoint : fullPipe.point = .poll := by decide +kernel
  have hterm : fullPipe.gotTerm = true := by decide +kernel
  have hannounced : fullPipe.announced = [100] := by decide +kernel
  obtain ⟨hpipe, hchld⟩ := no_lost_wakeup (by decide) hloop
  exact ⟨hpoint, hterm, hannounced, hpipe hpoint (.inr hterm),
    hchld (by simp [hpoint]) 100 (by simp [hannounced])⟩

/-! ## The loop drives the process manager and the server -/

theorem reapExit_pids (m : Manager) (p : Pid) (st : Status) :
    (m.reapExit p st).kernel.pids = m.kernel.pids := by
  unfold Manager.reapExit
  split
  · rfl
  · split_ifs
    · exact m.kernel.time_pids
    · rfl

/-- Turn by turn and undisturbed, the loop of `pm_reap` comes to its end, and to the
same table as `pmReap`. -/
theorem reapTurn_pmReap (s : Daemon) (hpoint : s.point = .reap) :
    ∃ n, ((Daemon.next · {})^[n] s).point = .service ∧
      ((Daemon.next · {})^[n] s).manager = s.manager.pmReap.1 := by
  have hloop (fuel : ℕ) : ∀ (s : Daemon) (reaped : ℕ), s.point = .reap →
      s.manager.kernel.pids.length < fuel → ∃ n, ((Daemon.next · {})^[n] s).point = .service ∧
        ((Daemon.next · {})^[n] s).manager = (Manager.reapLoop fuel s.manager reaped).1 := by
    induction fuel with
    | zero => exact fun _ _ _ h => absurd h (Nat.not_lt_zero _)
    | succ fuel ih =>
      intro s reaped hpoint hlen
      have hturn : s.next {} = s.reapTurn := by rw [Daemon.next, hpoint]
      rcases s.manager.kernel.waitpid_spec with ⟨k, hwait, -⟩ | ⟨p, st, k, hwait, -, hp, hk⟩
      · refine ⟨1, ?_, ?_⟩
        · simp [hturn, Daemon.reapTurn, hwait]
        · simp [hturn, Daemon.reapTurn, hwait, Manager.reapLoop]
      · -- the child that was taken is one less
        have hless : (s.reapTurn.manager.kernel.pids).length < fuel := by
          have hfilter : (s.manager.kernel.pids.filter (· ≠ p)).length <
              s.manager.kernel.pids.length :=
            List.length_filter_lt_length_iff_exists.mpr ⟨p, hp, by simp⟩
          simp only [Daemon.reapTurn, hwait, reapExit_pids, Manager.withKernel_kernel, hk]
          omega
        have hpoint' : s.reapTurn.point = .reap := by simp [Daemon.reapTurn, hwait, hpoint]
        obtain ⟨n, hservice, hmanager⟩ := ih s.reapTurn (reaped + 1) hpoint' hless
        refine ⟨n + 1, ?_, ?_⟩
        · rw [Function.iterate_succ_apply, hturn, hservice]
        · rw [Function.iterate_succ_apply, hturn, hmanager]
          simp [Daemon.reapTurn, hwait, Manager.reapLoop]
  exact hloop _ s 0 hpoint (by simp [Kernel.pids])

/-- How far the server's round has come at a point of the loop. -/
inductive Stage
  | between
  | collected
  | polled
  deriving DecidableEq, Repr

def Point.stage : Point → Stage
  | .starting | .test | .collect | .tick | .left => .between
  | .poll => .collected
  | .polled _ | .drain | .check | .clear | .reap | .service => .polled

/-- What the server and the poll set are at each stage of a round of a run. A round that
`EINTR` cuts short leaves only another `slot_map` behind. -/
def Stage.Holds (b : Boot) (server : World) (fds : List PollFd) : Stage → Prop
  | .between => ∃ w slots, Run b w ∧ server = { w with slotMap := slots }
  | .collected => ∃ w, Run b w ∧ server = w.collected ∧ fds = (w.collectPollfds (maxClients + 1)).2
  | .polled => ∃ w ready, Run b w ∧ server = w.collected ∧ fds = w.polled ready

theorem stage_next {b : Boot} {s : Daemon} (h : s.point.stage.Holds b s.server s.fds) (a : Answer) :
    (s.next a).point.stage.Holds b (s.next a).server (s.next a).fds := by
  cases hpoint : s.point with
  | starting | tick | clear | left =>
    rw [hpoint] at h
    simp only [Daemon.next, hpoint]
    exact h
  | test | check | polled | drain =>
    rw [hpoint] at h
    simp only [Daemon.next, hpoint]
    split_ifs <;> exact h
  | reap =>
    rw [hpoint] at h
    simp only [Daemon.next, hpoint, Daemon.reapTurn]
    split <;> exact h
  | collect =>
    rw [hpoint] at h
    obtain ⟨w, slots, hrun, hserver⟩ := h
    simp only [Daemon.next, hpoint, hserver]
    exact ⟨w, hrun, rfl, rfl⟩
  | poll =>
    rw [hpoint] at h
    obtain ⟨w, hrun, hserver, hfds⟩ := h
    simp only [Daemon.next, hpoint]
    split
    · exact ⟨w, _, hrun, hserver⟩
    · exact ⟨w, _, hrun, hserver⟩
    · exact ⟨w, _, hrun, hserver, by rw [hfds]; rfl⟩
  | service =>
    rw [hpoint] at h
    obtain ⟨w, ready, hrun, hserver, hfds⟩ := h
    simp only [Daemon.next, hpoint, hserver, hfds]
    exact ⟨w.round ready a.accepts, _, hrun.round ready a.accepts, rfl⟩

/-- Whatever signals arrive, the server is taken from round to round as in `Run`. -/
theorem Loop.server_run {cap : ℕ} {m : Manager} {b : Boot} {s : Daemon}
    (h : Loop cap (.boot m b.world) s) : s.point.stage.Holds b s.server s.fds := by
  induction h with
  | start => exact ⟨b.world, _, .boot, rfl⟩
  | act a _ ih =>
    cases a with
    | step a => exact stage_next ih a
    | signal sig => cases sig <;> exact ih
    | exit | stray => exact ih

end PiDaemon.Main
