import PiDaemon.Base.Checksum
import PiDaemon.Store.Atomicity

/-!
# Detection of corrupted records

One round of FNV-1a is a bijection of the running hash, and injective in the byte
it takes in, so a change of one byte changes the checksum. A record in which one
byte of a field was changed therefore cannot be another valid record: either the
checksum covers the byte, or it is compared with a checksum or a constant that
has not changed.
-/

namespace PiDaemon.Store

open Base Proto

/-! ## The hash -/

/-- The FNV prime is odd, and this is its inverse modulo 2³². -/
theorem fnvPrime_inverse (x : UInt32) : x * 0x01000193 * 0x359C449B = x := by
  rw [UInt32.mul_assoc]
  exact UInt32.mul_one x

theorem xor_eq_of_fnvStep_eq {x y : UInt32} {a b : UInt8} (h : fnvStep x a = fnvStep y b) :
    x ^^^ a.toUInt32 = y ^^^ b.toUInt32 := by
  have hmul := congrArg (· * (0x359C449B : UInt32)) h
  simpa only [fnvStep, fnvPrime_inverse] using hmul

theorem fnvStep_injective_hash (b : UInt8) : Function.Injective fun hash => fnvStep hash b :=
  fun _ _ h => (UInt32.xor_left_inj _).mp (xor_eq_of_fnvStep_eq h)

theorem fnvStep_injective_byte (hash : UInt32) : Function.Injective (fnvStep hash) :=
  fun _ _ h => UInt8.toUInt32_inj.mp ((UInt32.xor_right_inj _).mp (xor_eq_of_fnvStep_eq h))

theorem fnv1a_ne_of_differAt {k : ℕ} {xs ys : List UInt8} (h : DifferAt k xs ys) :
    fnv1a xs ≠ fnv1a ys :=
  foldl_ne_of_differAt fnvStep_injective_hash fnvStep_injective_byte h _

/-! ## Records -/

/-- The bytes of `magic`, `version`, `data` and `checksum`; padding follows. -/
def recordFieldsSize : ℕ := 28

section Windows
variable (s : SatelliteState) (padding : UInt32)

theorem slice_tags : slice (Record.ofState s padding).encode 0 8 =
    le32 satStateMagic ++ le32 satStateVersion := by
  have h := slice_field [] (s.encode ++ (le32 (fnv1a s.encode) ++ le32 padding)) 0
    (show (le32 satStateMagic ++ le32 satStateVersion).length = 8 by simp) rfl
  rw [List.nil_append, List.append_assoc] at h
  exact h

theorem slice_data : slice (Record.ofState s padding).encode 8 stateSize = s.encode := by
  have h := slice_field (le32 satStateMagic ++ le32 satStateVersion)
    (le32 (fnv1a s.encode) ++ le32 padding) 8 s.length_encode (by simp)
  simpa [Record.encode, Record.ofState] using h

theorem slice_checksum : slice (Record.ofState s padding).encode 24 4 = le32 (fnv1a s.encode) := by
  have h := slice_field (le32 satStateMagic ++ (le32 satStateVersion ++ s.encode)) (le32 padding) 24
    (length_le32 (fnv1a s.encode)) (by simp [stateSize])
  simpa [Record.encode, Record.ofState] using h

end Windows

theorem le32_injective : Function.Injective le32 := by
  intro x y h
  have hx := getLe32_field [] [] 0 x rfl
  rw [h, getLe32_field [] [] 0 y rfl] at hx
  exact hx.symm

theorem decode_of_validate {bs : List UInt8} {r : Record} (h : validate bs = .ok r) :
    Record.decode bs = r := by
  unfold validate at h
  dsimp only at h
  split_ifs at h
  exact Except.ok.inj h

theorem not_differAt_ofState {s s' : SatelliteState} {padding padding' : UInt32} {k : ℕ}
    (hk : k < recordFieldsSize) :
    ¬DifferAt k (Record.ofState s padding).encode (Record.ofState s' padding').encode := by
  intro h
  unfold recordFieldsSize at hk
  rcases Nat.lt_or_ge k 8 with htag | htag
  · have hwin := h.slice (Nat.zero_le k) (show k < 0 + 8 by omega)
    rw [slice_tags, slice_tags] at hwin
    exact hwin.place rfl
  · rcases Nat.lt_or_ge k 24 with hdata | hdata
    · -- the checksum covers the byte, and is the same in both
      have hwin := h.slice htag (show k < 8 + stateSize from hdata)
      have hsum := h.slice_eq 24 4 (.inl hdata)
      rw [slice_data, slice_data] at hwin
      rw [slice_checksum, slice_checksum] at hsum
      exact fnv1a_ne_of_differAt hwin (le32_injective hsum)
    · -- the data is the same in both, and with it the checksum
      have hwin := h.slice hdata (show k < 24 + 4 from hk)
      have heq := h.slice_eq 8 stateSize (.inr hdata)
      rw [slice_data, slice_data] at heq
      rw [slice_checksum, slice_checksum, heq] at hwin
      exact hwin.place rfl

/-! ## The state file -/

structure WriteScript.Clean (w : WriteScript) : Prop where
  opened : w.openOk = true
  writes : IoResult.fail ∉ w.writes
  fsynced : w.fsyncOk = true
  renamed : w.renameOk = true

theorem writeLoop_ok {rs : List IoResult} (h : IoResult.fail ∉ rs) :
    ∀ rem : List UInt8, (writeLoop rem rs).2 = true := by
  induction rs with
  | nil => exact fun _ => rfl
  | cons r rs ih =>
    intro rem
    obtain ⟨hr, hrs⟩ := not_or.mp (List.mem_cons.not.mp h)
    by_cases hrem : rem = []
    · simp [writeLoop, hrem]
    · cases r with
      | intr => simpa [writeLoop, hrem] using ih hrs rem
      | fail => exact absurd rfl hr
      | bytes n => simpa [writeLoop, hrem] using ih hrs (rem.drop n)

theorem writeRecordLocked_ok {w : WriteScript} (h : w.Clean) (r : Record) :
    (writeRecordLocked r w).2 = true := by
  simp [writeRecordLocked, h.opened, writeLoop_ok h.writes, h.fsynced, h.renamed]

/-- A state file with these bytes is rejected: no record is read off it, however the reads
are answered, and an initialisation returns the defaults and leaves a record of them. -/
structure Rejected (bs : List UInt8) : Prop where
  unread {fs : Fs} {synced : Bool} : fs.state = some ⟨bs, synced⟩ →
    ∀ openOk reads, ∃ e, readRecordLocked fs openOk reads = .error e
  defaults {fs : Fs} {synced : Bool} : fs.state = some ⟨bs, synced⟩ →
    ∀ sc : InitScript, sc.setupOk = true → sc.write.Clean →
      ∃ fs', satStateInit fs sc = (fs', some stateDefaults) ∧ Holds fs' stateDefaults

theorem rejected_of_invalid {bs : List UInt8}
    (h : ∀ r, validate (bs.take recordSize) ≠ .ok r) : Rejected bs := by
  have hunread {fs : Fs} {synced : Bool} (hfs : fs.state = some ⟨bs, synced⟩) (openOk : Bool)
      (reads : List IoResult) : ∃ e, readRecordLocked fs openOk reads = .error e := by
    unfold readRecordLocked
    simp only [hfs]
    split_ifs with hopen hfail
    · exact ⟨_, rfl⟩
    · exact ⟨_, rfl⟩
    · rw [readLoop_data _ _ _ (by simpa using hfail)]
      cases hv : validate (bs.take recordSize) with
      | error e => exact ⟨e, rfl⟩
      | ok r => exact absurd hv (h r)
  refine ⟨hunread, fun {fs synced} hfs sc hsetup hwrite => ?_⟩
  obtain ⟨e, he⟩ := hunread hfs sc.openOk sc.reads
  have hok := writeRecordLocked_ok hwrite (Record.ofState stateDefaults sc.padding)
  refine ⟨_, by simp [satStateInit, hsetup, he, hok]; rfl, ?_⟩
  exact ((writeRecordLocked_cases stateDefaults sc.padding sc.write).whole fs).1 hok

/-- Two byte strings that differ in one byte have different checksums. A state file that a
successful `sat_state_store` has written is read back as the state; changed in one byte of
a field, or cut short, it is rejected and replaced by the defaults. -/
theorem corruption_detected :
    (∀ (k : ℕ) (xs ys : List UInt8), DifferAt k xs ys → fnv1a xs ≠ fnv1a ys) ∧
    ∀ (s : SatelliteState) (fs : Fs) (sc : StoreScript), (satStateStore s sc).2 = true →
      ∃ f : File, (fs.run (satStateStore s sc).1).state = some f ∧ f.data.length = recordSize ∧
        (∀ k bs, k < recordFieldsSize → DifferAt k f.data bs → Rejected bs) ∧
        (∀ n, n < recordSize → Rejected (f.data.take n)) ∧
        (∀ sc' : InitScript, sc'.Clean → satStateInit (fs.run (satStateStore s sc).1) sc' =
          (fs.run (satStateStore s sc).1, some s)) ∧
        ∀ reads, IoResult.fail ∉ reads →
          satStateLoad (fs.run (satStateStore s sc).1) true true reads = some s := by
  refine ⟨fun _ _ _ h => fnv1a_ne_of_differAt h, fun s fs sc hok => ?_⟩
  obtain ⟨hno, -⟩ | ⟨padding, chunks, hc, hcall⟩ := satStateStore_cases s sc
  · simp [hno] at hok
  rw [hcall]
  have hstate := state_of_written fs hc
  have hholds := holds_of_written fs s padding hc
  refine ⟨_, hstate, by simp, fun k bs hk hdiff => ?_, fun n hn => ?_,
    fun sc' hclean => init_of_holds hclean hholds, fun reads hreads => load_of_holds hreads hholds⟩
  · have hlen : bs.length = recordSize := by simp [← hdiff.length]
    apply rejected_of_invalid
    intro r hr
    rw [List.take_of_length_le hlen.le] at hr
    -- what is accepted is the record of some state, and one byte away from that of `s`
    obtain ⟨-, hrec⟩ := validate_ok hr
    have hbs : bs = (Record.ofState r.data r.padding).encode := by
      rw [← hrec, ← Record.encode_decode hlen, decode_of_validate hr]
    rw [hbs] at hdiff
    exact not_differAt_ofState hk hdiff
  · apply rejected_of_invalid
    intro r hr
    have hlong := (validate_ok hr).1
    rw [List.length_take, List.length_take] at hlong
    omega

end PiDaemon.Store
