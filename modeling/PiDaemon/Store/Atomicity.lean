import PiDaemon.Store.Disk

/-!
# Crash and failure atomicity of the state file

The abstract view of the store is a register: a value that a successful store
replaces and that a failed one leaves alone. `Holds` relates the files to the
register's value, and is kept by every prefix of every call and by a restart.
The reader then returns the register's value, whatever a cut call left in the
temporary file.
-/

namespace PiDaemon.Store

open Base Proto

def Holds (fs : Fs) (s : SatelliteState) : Prop :=
  ∃ f r, fs.state = some f ∧ f.synced = true ∧ validate (f.data.take recordSize) = .ok r ∧ r.data = s

def Settled (fs : Fs) : Prop := ∀ f, fs.state = some f → f.synced = true

theorem Holds.settled {fs : Fs} {s : SatelliteState} (h : Holds fs s) : Settled fs := by
  obtain ⟨f, r, hf, hs, -, -⟩ := h
  intro g hg
  rw [hf] at hg
  exact Option.some.inj hg ▸ hs

theorem Holds.of_state_eq {fs fs' : Fs} {s : SatelliteState} (h : Holds fs s)
    (heq : fs'.state = fs.state) : Holds fs' s := by
  obtain ⟨f, r, hf, hrest⟩ := h
  exact ⟨f, r, heq.trans hf, hrest⟩

theorem state_of_written (fs : Fs) {bs : List UInt8} {chunks : List (List UInt8)}
    (hc : chunks.flatten = bs) :
    (fs.run (FsOp.openTmp :: (chunks.map FsOp.writeTmp ++ [FsOp.fsyncTmp, FsOp.renameTmp]))).state =
      some ⟨bs, true⟩ := by
  have hopen : (FsOp.openTmp.apply fs).tmp = some ⟨[], false⟩ := rfl
  obtain ⟨b, hb⟩ := Fs.run_writes chunks hopen
  rw [List.nil_append, hc] at hb
  rw [Fs.run_cons, Fs.run_append, Fs.run_cons, Fs.run_cons, Fs.run_nil]
  simp only [FsOp.apply] at hb ⊢
  rw [hb]
  rfl

theorem holds_of_written (fs : Fs) (s : SatelliteState) (padding : UInt32)
    {chunks : List (List UInt8)} (hc : chunks.flatten = (Record.ofState s padding).encode) :
    Holds (fs.run (FsOp.openTmp ::
      (chunks.map FsOp.writeTmp ++ [FsOp.fsyncTmp, FsOp.renameTmp]))) s := by
  refine ⟨_, Record.ofState s padding, state_of_written fs hc, rfl, ?_, rfl⟩
  rw [List.take_of_length_le (by simp), validate_ofState]

/-- Any prefix of a call either leaves the name of the state file alone, or is
the whole of a call that returned 0 and the file holds the new record. -/
theorem StoresOrFails.cut {s : SatelliteState} {call : List FsOp × Bool}
    (h : StoresOrFails s call) (fs : Fs) (k : ℕ) :
    (fs.run (call.1.take k)).state = fs.state ∨
      (call.2 = true ∧ call.1.length ≤ k ∧ Holds (fs.run (call.1.take k)) s) := by
  obtain ⟨-, hno⟩ | ⟨padding, chunks, hc, rfl⟩ := h
  · exact .inl (Fs.run_state (fun hmem => hno (List.mem_of_mem_take hmem)) fs)
  · have hsplit : FsOp.openTmp :: (chunks.map FsOp.writeTmp ++ [FsOp.fsyncTmp, FsOp.renameTmp]) =
        (FsOp.openTmp :: (chunks.map FsOp.writeTmp ++ [FsOp.fsyncTmp])) ++ [FsOp.renameTmp] := by simp
    by_cases hk : chunks.length + 3 ≤ k
    · have hlen : (FsOp.openTmp ::
          (chunks.map FsOp.writeTmp ++ [FsOp.fsyncTmp, FsOp.renameTmp])).length ≤ k := by
        simp
        omega
      refine .inr ⟨rfl, hlen, ?_⟩
      rw [List.take_of_length_le hlen]
      exact holds_of_written fs s padding hc
    · -- the rename is the last effect, so a proper prefix does not contain it
      have hno : FsOp.renameTmp ∉
          (FsOp.openTmp :: (chunks.map FsOp.writeTmp ++ [FsOp.fsyncTmp, FsOp.renameTmp])).take k := by
        rw [hsplit, List.take_append_of_le_length (by simp; omega)]
        intro hmem
        simpa using List.mem_of_mem_take hmem
      exact .inl (Fs.run_state hno fs)

/-- A whole call: the register takes the new value exactly when the call returns 0. -/
theorem StoresOrFails.whole {s : SatelliteState} {call : List FsOp × Bool}
    (h : StoresOrFails s call) (fs : Fs) :
    (call.2 = true → Holds (fs.run call.1) s) ∧
      (call.2 = false → (fs.run call.1).state = fs.state) := by
  obtain ⟨hret, hno⟩ | ⟨padding, chunks, hc, rfl⟩ := h
  · exact ⟨fun ht => by simp [hret] at ht, fun _ => Fs.run_state hno fs⟩
  · exact ⟨fun _ => holds_of_written fs s padding hc, fun hf => by simp at hf⟩

/-! ## Restarts -/

/-- The daemon comes up again: after it merely stopped, or after the machine crashed. -/
inductive Restart : Fs → Fs → Prop
  | process (fs : Fs) : Restart fs fs
  | machine (fs : Fs) (junk : List UInt8) (tmp : Option (List UInt8)) :
      Restart fs (fs.crash junk tmp)

theorem Restart.state_eq {fs fs' : Fs} (h : Restart fs fs') (hs : Settled fs) :
    fs'.state = fs.state := by
  cases h with
  | process => rfl
  | machine junk tmp =>
    cases hf : fs.state with
    | none => simp [Fs.crash, hf]
    | some f => simp [Fs.crash, hf, hs f hf]

/-- File systems the daemon can find: whatever is on the disk at boot, and what
its own calls, complete or cut short, and restarts make of it. -/
inductive Reachable : Fs → Prop
  | boot (state tmp : Option (List UInt8)) :
      Reachable ⟨state.map fun bs => ⟨bs, true⟩, tmp.map fun bs => ⟨bs, true⟩⟩
  | write {fs : Fs} (s : SatelliteState) (padding : UInt32) (w : WriteScript) (k : ℕ) :
      Reachable fs → Reachable (fs.run ((writeRecordLocked (Record.ofState s padding) w).1.take k))
  | restart {fs fs' : Fs} : Reachable fs → Restart fs fs' → Reachable fs'

theorem Reachable.settled {fs : Fs} (h : Reachable fs) : Settled fs := by
  induction h with
  | boot state tmp =>
    intro f hf
    obtain ⟨bs, -, rfl⟩ := Option.map_eq_some_iff.mp hf
    rfl
  | write s padding w k _ ih =>
    obtain heq | ⟨-, -, hholds⟩ := (writeRecordLocked_cases s padding w).cut _ k
    · exact fun f hf => ih f (heq ▸ hf)
    · exact hholds.settled
  | restart _ hr ih => exact fun f hf => ih f (hr.state_eq ih ▸ hf)

/-- A successful `sat_state_init` leaves a record of the state it returns. -/
theorem holds_of_init {fs fs' : Fs} {sc : InitScript} {s : SatelliteState} (hs : Settled fs)
    (h : satStateInit fs sc = (fs', some s)) : Holds fs' s := by
  unfold satStateInit at h
  split_ifs at h
  · simp at h
  · cases hread : readRecordLocked fs sc.openOk sc.reads with
    | ok r =>
      simp only [hread, Prod.mk.injEq, Option.some.injEq] at h
      obtain ⟨rfl, rfl⟩ := h
      unfold readRecordLocked at hread
      cases hf : fs.state with
      | none => simp [hf] at hread
      | some f =>
        simp only [hf] at hread
        split_ifs at hread with _ hfail
        rw [readLoop_data _ _ _ (by simpa using hfail)] at hread
        exact ⟨f, r, hf, hs f hf, hread, rfl⟩
    | error e =>
      simp only [hread, Prod.mk.injEq] at h
      obtain ⟨rfl, hret⟩ := h
      split_ifs at hret with hok
      cases hret
      exact ((writeRecordLocked_cases stateDefaults sc.padding sc.write).whole fs).1 hok

/-- System calls of an initialisation that report no error; reads may still be
short or interrupted. -/
structure InitScript.Clean (sc : InitScript) : Prop where
  setup : sc.setupOk = true
  opened : sc.openOk = true
  reads : IoResult.fail ∉ sc.reads

theorem init_of_holds {fs : Fs} {sc : InitScript} {s : SatelliteState} (hc : sc.Clean)
    (h : Holds fs s) : satStateInit fs sc = (fs, some s) := by
  obtain ⟨f, r, hf, -, hv, rfl⟩ := h
  have hok := (readLoop_ok hc.reads recordSize f.data).1
  simp [satStateInit, readRecordLocked, hc.setup, hc.opened, hf, hok, readLoop_data _ _ _ hok, hv]

theorem load_of_holds {fs : Fs} {reads : List IoResult} {s : SatelliteState}
    (hreads : IoResult.fail ∉ reads) (h : Holds fs s) : satStateLoad fs true true reads = some s := by
  obtain ⟨f, r, hf, -, hv, rfl⟩ := h
  have hok := (readLoop_ok hreads recordSize f.data).1
  simp [satStateLoad, readRecordLocked, hf, hok, readLoop_data _ _ _ hok, hv]

theorem init_after_restart {fs fs' : Fs} {sc : InitScript} {s : SatelliteState} (hc : sc.Clean)
    (h : Holds fs s) (hr : Restart fs fs') : (satStateInit fs' sc).2 = some s := by
  rw [init_of_holds hc (h.of_state_eq (hr.state_eq h.settled))]

/-! ## Sequences of stores -/

/-- One call of `sat_state_store` and the answers it gets. -/
structure StoreCall where
  state : SatelliteState
  script : StoreScript
  deriving DecidableEq, Repr

def StoreCall.run (c : StoreCall) : List FsOp × Bool := satStateStore c.state c.script

def runStores (fs : Fs) (calls : List StoreCall) : Fs :=
  calls.foldl (fun fs c => fs.run c.run.1) fs

def lastStored (s : SatelliteState) (calls : List StoreCall) : SatelliteState :=
  calls.foldl (fun s c => if c.run.2 then c.state else s) s

theorem holds_runStores (calls : List StoreCall) : ∀ {fs : Fs} {s : SatelliteState},
    Holds fs s → Holds (runStores fs calls) (lastStored s calls) := by
  induction calls with
  | nil => exact fun h => h
  | cons c calls ih =>
    intro fs s h
    obtain ⟨hok, hfail⟩ := (satStateStore_cases c.state c.script).whole fs
    apply ih
    change Holds (fs.run c.run.1) (if c.run.2 = true then c.state else s)
    cases hret : c.run.2 with
    | true => exact hok hret
    | false => exact h.of_state_eq (hfail hret)

/-- After any history, a successful initialisation and any sequence of stores,
each with arbitrary partial writes and failures: a call that returned -1 left the
state file as it was; a stop or crash between calls is followed by exactly the
last successful state; and one inside a call by that state or the one being
stored. -/
theorem stateFile_atomic {fs₀ fs₁ : Fs} (hreach : Reachable fs₀) {sc₀ : InitScript}
    {s₀ : SatelliteState} (hinit : satStateInit fs₀ sc₀ = (fs₁, some s₀))
    (calls : List StoreCall) :
    (∀ c : StoreCall, c.run.2 = false →
      (runStores fs₁ (calls ++ [c])).state = (runStores fs₁ calls).state) ∧
    (∀ fs sc, Restart (runStores fs₁ calls) fs → InitScript.Clean sc →
      (satStateInit fs sc).2 = some (lastStored s₀ calls)) ∧
    (∀ (c : StoreCall) (k : ℕ) fs sc,
      Restart ((runStores fs₁ calls).run (c.run.1.take k)) fs → InitScript.Clean sc →
      (satStateInit fs sc).2 = some (lastStored s₀ calls) ∨
        (satStateInit fs sc).2 = some c.state) := by
  have hholds := holds_runStores calls (holds_of_init hreach.settled hinit)
  refine ⟨fun c hret => ?_, fun fs sc hr hc => init_after_restart hc hholds hr,
    fun c k fs sc hr hc => ?_⟩
  · rw [runStores, List.foldl_append]
    exact ((satStateStore_cases c.state c.script).whole _).2 hret
  · obtain heq | ⟨-, -, hnew⟩ := (satStateStore_cases c.state c.script).cut
      (runStores fs₁ calls) k
    · exact .inl (init_after_restart hc (hholds.of_state_eq heq) hr)
    · exact .inr (init_after_restart hc hnew hr)

/-- A first store that succeeds and a second one whose rename fails, on a machine
that had no state file: the first value is what a restart finds. -/
theorem stateFile_atomic_failed_rename :
    let s : SatelliteState := { stateDefaults with activeExperimentId := 7 }
    let calls : List StoreCall := [⟨s, {}⟩, ⟨stateDefaults, { write := { renameOk := false } }⟩]
    (satStateInit (runStores (satStateInit ⟨none, none⟩ {}).1 calls) {}).2 = some s := by
  intro s calls
  have hinit : satStateInit ⟨none, none⟩ {} =
    ((satStateInit ⟨none, none⟩ {}).1, some stateDefaults) := rfl
  have h := (stateFile_atomic (.boot none none) hinit calls).2.1 _ {} (.process _)
    ⟨rfl, rfl, by simp⟩
  have hlast : lastStored stateDefaults calls = s := by decide +kernel
  rw [h, hlast]

end PiDaemon.Store
