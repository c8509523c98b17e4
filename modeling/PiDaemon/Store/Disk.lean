import PiDaemon.Base.Io
import PiDaemon.Store.Record

/-!
# The state file and its file system

`write_record_locked`, `read_record_locked`, `sat_state_init` and
`sat_state_store` over the two paths they use. A call is modelled by the list of
file-system effects it performs, in order, and by its return value, so that
cutting it between any two system calls is keeping a prefix of that list.
System-call answers are scripts; a script that runs out means that the call
transfers everything that was asked for.

What is assumed of the file system is in `FsOp.apply` and `Fs.crash`: `rename`
replaces the target in one step and is durable, data that was fsynced survives a
crash, and data that was not may be anything afterwards.
-/

namespace PiDaemon.Store

open Base Proto

/-- An inode's contents and whether they are known to be on the disk. -/
structure File where
  data : List UInt8
  synced : Bool
  deriving DecidableEq, Repr

/-- What the names `g_state_path` and `g_tmp_path` refer to. -/
structure Fs where
  state : Option File
  tmp : Option File
  deriving DecidableEq, Repr

/-- The effects of `write_record_locked` on the two names. -/
inductive FsOp
  | openTmp
  | writeTmp (bs : List UInt8)
  | fsyncTmp
  | renameTmp
  | unlinkTmp
  deriving DecidableEq, Repr

def FsOp.apply (fs : Fs) : FsOp → Fs
  | openTmp => { fs with tmp := some ⟨[], false⟩ }
  | writeTmp bs => { fs with tmp := fs.tmp.map fun f => ⟨f.data ++ bs, false⟩ }
  | fsyncTmp => { fs with tmp := fs.tmp.map fun f => ⟨f.data, true⟩ }
  | renameTmp =>
    match fs.tmp with
    | some f => ⟨some f, none⟩
    | none => fs
  | unlinkTmp => { fs with tmp := none }

def Fs.run (fs : Fs) (ops : List FsOp) : Fs := ops.foldl FsOp.apply fs

/-- A crash: unsynced contents become `junk`, and any temporary file may be left behind. -/
def Fs.crash (fs : Fs) (junk : List UInt8) (tmp : Option (List UInt8)) : Fs where
  state := fs.state.map fun f => if f.synced then f else ⟨junk, true⟩
  tmp := tmp.map fun bs => ⟨bs, true⟩

/-! ## Writing -/

/-- Answers to the system calls of one `write_record_locked`. -/
structure WriteScript where
  openOk : Bool := true
  writes : List IoResult := []
  fsyncOk : Bool := true
  renameOk : Bool := true
  unlinkOk : Bool := true
  deriving DecidableEq, Repr

def writeLoop : List UInt8 → List IoResult → List FsOp × Bool
  | rem, [] => (if rem = [] then [] else [.writeTmp rem], true)
  | rem, r :: rs =>
    if rem = [] then ([], true)
    else
      match r with
      | .intr => writeLoop rem rs
      | .fail => ([], false)
      | .bytes n =>
        let tail := writeLoop (rem.drop n) rs
        (.writeTmp (rem.take n) :: tail.1, tail.2)

/-- `write_record_locked`. The directory `fsync` after the rename adds nothing to
a rename that is durable by itself, and its failure is ignored. -/
def writeRecordLocked (r : Record) (w : WriteScript) : List FsOp × Bool :=
  let cleanup := if w.unlinkOk then [FsOp.unlinkTmp] else []
  if !w.openOk then ([], false)
  else
    let body := writeLoop r.encode w.writes
    if !body.2 then (.openTmp :: (body.1 ++ cleanup), false)
    else if !w.fsyncOk then (.openTmp :: (body.1 ++ cleanup), false)
    else if !w.renameOk then (.openTmp :: (body.1 ++ (.fsyncTmp :: cleanup)), false)
    else (.openTmp :: (body.1 ++ [.fsyncTmp, .renameTmp]), true)

/-- Answers to the system calls of one `sat_state_store`. -/
structure StoreScript where
  flockOk : Bool := true
  padding : UInt32 := 0
  write : WriteScript := {}
  deriving DecidableEq, Repr

/-- `sat_state_store` on an initialised store. -/
def satStateStore (s : SatelliteState) (sc : StoreScript) : List FsOp × Bool :=
  if !sc.flockOk then ([], false)
  else writeRecordLocked (Record.ofState s sc.padding) sc.write

/-! ## Reading -/

/-- Answers to the system calls of one `sat_state_init`: path check, directory,
lock file and lock (`setupOk`), opening and reading the record, and writing the
defaults should the record be rejected. -/
structure InitScript where
  setupOk : Bool := true
  openOk : Bool := true
  reads : List IoResult := []
  padding : UInt32 := 0
  write : WriteScript := {}
  deriving DecidableEq, Repr

def readRecordLocked (fs : Fs) (openOk : Bool) (reads : List IoResult) :
    Except ReadError Record :=
  match fs.state with
  | none => .error .unreadable
  | some f =>
    if !openOk then .error .unreadable
    else
      let out := readLoop recordSize f.data reads
      if out.failed then .error .unreadable else validate out.data

/-- `sat_state_init`: the file system it leaves and `*out`, or `none` for -1. -/
def satStateInit (fs : Fs) (sc : InitScript) : Fs × Option SatelliteState :=
  if !sc.setupOk then (fs, none)
  else
    match readRecordLocked fs sc.openOk sc.reads with
    | .ok r => (fs, some r.data)
    | .error _ =>
      let w := writeRecordLocked (Record.ofState stateDefaults sc.padding) sc.write
      (fs.run w.1, if w.2 then some stateDefaults else none)

/-- `sat_state_load` on an initialised store: `*out`, or `none` for -1. -/
def satStateLoad (fs : Fs) (flockOk openOk : Bool) (reads : List IoResult) :
    Option SatelliteState :=
  if !flockOk then none
  else
    match readRecordLocked fs openOk reads with
    | .ok r => some r.data
    | .error _ => none

/-! ## What a call does to the files -/

@[simp] theorem Fs.run_nil (fs : Fs) : fs.run [] = fs := rfl

@[simp] theorem Fs.run_cons (fs : Fs) (op : FsOp) (ops : List FsOp) :
    fs.run (op :: ops) = (op.apply fs).run ops := rfl

theorem Fs.run_append (fs : Fs) (xs ys : List FsOp) : fs.run (xs ++ ys) = (fs.run xs).run ys := by
  simp [Fs.run]

theorem Fs.run_state {ops : List FsOp} (h : FsOp.renameTmp ∉ ops) :
    ∀ fs : Fs, (fs.run ops).state = fs.state := by
  induction ops with
  | nil => exact fun _ => rfl
  | cons op ops ih =>
    intro fs
    obtain ⟨hop, hops⟩ := not_or.mp (List.mem_cons.not.mp h)
    rw [Fs.run_cons, ih hops]
    cases op <;> first | rfl | exact absurd rfl hop

theorem Fs.run_writes (chunks : List (List UInt8)) : ∀ {fs : Fs} {d : List UInt8} {b : Bool},
    fs.tmp = some ⟨d, b⟩ →
      ∃ b', (fs.run (chunks.map .writeTmp)).tmp = some ⟨d ++ chunks.flatten, b'⟩ := by
  induction chunks with
  | nil => intro fs d b h; exact ⟨b, by simpa using h⟩
  | cons c chunks ih =>
    intro fs d b h
    have hc : ((FsOp.writeTmp c).apply fs).tmp = some ⟨d ++ c, false⟩ := by simp [FsOp.apply, h]
    obtain ⟨b', hb⟩ := ih hc
    exact ⟨b', by simpa using hb⟩

theorem writeLoop_chunks (rs : List IoResult) : ∀ rem : List UInt8,
    ∃ chunks : List (List UInt8), (writeLoop rem rs).1 = chunks.map .writeTmp ∧
      ((writeLoop rem rs).2 = true → chunks.flatten = rem) := by
  induction rs with
  | nil =>
    intro rem
    by_cases h : rem = []
    · exact ⟨[], by simp [writeLoop, h]⟩
    · exact ⟨[rem], by simp [writeLoop, h]⟩
  | cons r rs ih =>
    intro rem
    by_cases h : rem = []
    · exact ⟨[], by simp [writeLoop, h]⟩
    · cases r with
      | intr => simpa [writeLoop, h] using ih rem
      | fail => exact ⟨[], by simp [writeLoop, h]⟩
      | bytes n =>
        obtain ⟨chunks, hops, hall⟩ := ih (rem.drop n)
        refine ⟨rem.take n :: chunks, by simp [writeLoop, h, hops], fun hok => ?_⟩
        simp only [writeLoop, h, if_false] at hok
        simp [hall hok]

/-- Everything a call that stores `s` can do. Either it fails without a rename,
or it writes a whole record of `s` to the temporary file, syncs it and renames it. -/
def StoresOrFails (s : SatelliteState) (call : List FsOp × Bool) : Prop :=
  (call.2 = false ∧ FsOp.renameTmp ∉ call.1) ∨
  ∃ (padding : UInt32) (chunks : List (List UInt8)),
    chunks.flatten = (Record.ofState s padding).encode ∧
      call = (.openTmp :: (chunks.map FsOp.writeTmp ++ [.fsyncTmp, .renameTmp]), true)

theorem writeRecordLocked_cases (s : SatelliteState) (padding : UInt32) (w : WriteScript) :
    StoresOrFails s (writeRecordLocked (Record.ofState s padding) w) := by
  obtain ⟨chunks, hops, hall⟩ := writeLoop_chunks w.writes (Record.ofState s padding).encode
  unfold writeRecordLocked
  dsimp only
  rw [hops]
  split_ifs with _ hbody <;>
    first
      | exact .inl ⟨rfl, by simp⟩
      | exact .inr ⟨padding, chunks, hall (by simpa using hbody), rfl⟩

theorem satStateStore_cases (s : SatelliteState) (sc : StoreScript) :
    StoresOrFails s (satStateStore s sc) := by
  unfold satStateStore
  split_ifs
  · exact .inl ⟨rfl, by simp⟩
  · exact writeRecordLocked_cases s sc.padding sc.write

end PiDaemon.Store
