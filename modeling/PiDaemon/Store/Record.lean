import PiDaemon.Proto.Wire

/-!
# The persisted state record

`sat_state_record_t`, its FNV-1a checksum and the validation that
`read_record_locked` applies to the bytes it has read. The record ends with four
bytes of alignment padding that the writer leaves uninitialised; they are a
field here, chosen by whoever builds the record.
-/

namespace PiDaemon.Store

open Base Proto

/-- `SAT_STATE_MAGIC`. -/
def satStateMagic : UInt32 := 0x53415453

/-- `SAT_STATE_VERSION`. -/
def satStateVersion : UInt32 := 1

def fnvStep (hash : UInt32) (b : UInt8) : UInt32 := (hash ^^^ b.toUInt32) * 0x01000193

def fnv1a (buf : List UInt8) : UInt32 := buf.foldl fnvStep 0x811C9DC5

/-- `state_defaults`: zeroed, with `op_state` set to `SAT_OP_IDLE`. -/
def stateDefaults : SatelliteState where
  opState := 0
  activeExperimentId := 0
  dceAuthorityHeld := 0
  padding := 0
  lastUpdatedMet := 0

/-- `sat_state_record_t`. -/
structure Record where
  magic : UInt32
  version : UInt32
  data : SatelliteState
  checksum : UInt32
  padding : UInt32
  deriving DecidableEq, Repr

/-- `sizeof(sat_state_record_t)`. -/
def recordSize : ℕ := 32

/-- The record `sat_state_store` builds for a state. -/
def Record.ofState (s : SatelliteState) (padding : UInt32) : Record where
  magic := satStateMagic
  version := satStateVersion
  data := s
  checksum := fnv1a s.encode
  padding := padding

def Record.encode (r : Record) : List UInt8 :=
  le32 r.magic ++ (le32 r.version ++ (r.data.encode ++ (le32 r.checksum ++ le32 r.padding)))

def Record.decode (bs : List UInt8) : Record where
  magic := getLe32 bs 0
  version := getLe32 bs 4
  data := SatelliteState.decode (slice bs 8 stateSize)
  checksum := getLe32 bs 24
  padding := getLe32 bs 28

@[simp] theorem Record.length_encode (r : Record) : r.encode.length = recordSize := by
  simp [encode, recordSize, stateSize]

@[simp] theorem Record.decode_encode (r : Record) : decode r.encode = r := by
  obtain ⟨magic, version, data, checksum, padding⟩ := r
  have h0 := getLe32_field [] (le32 version ++ (data.encode ++ (le32 checksum ++ le32 padding))) 0
    magic rfl
  have h4 := getLe32_field (le32 magic) (data.encode ++ (le32 checksum ++ le32 padding)) 4
    version (by simp)
  have h8 := slice_field (le32 magic ++ le32 version) (le32 checksum ++ le32 padding) 8
    data.length_encode (by simp)
  have h24 := getLe32_field (le32 magic ++ (le32 version ++ data.encode)) (le32 padding) 24
    checksum (by simp [stateSize])
  have h28 := getLe32_field (le32 magic ++ (le32 version ++ (data.encode ++ le32 checksum))) [] 28
    padding (by simp [stateSize])
  simp only [List.nil_append, List.append_nil, List.append_assoc] at h0 h4 h8 h24 h28
  simp only [decode, encode, h0, h4, h8, h24, h28, SatelliteState.decode_encode]

/-- The reader copies the file into the struct, so nothing of it is lost. -/
theorem Record.encode_decode {bs : List UInt8} (h : bs.length = recordSize) :
    (decode bs).encode = bs := by
  have hlen : bs.length = 32 := h
  have hdata : (slice bs 8 stateSize).length = stateSize :=
    length_slice (by rw [hlen]; decide)
  have hall : slice bs 0 (4 + (4 + (stateSize + (4 + 4)))) = bs := by
    rw [slice, List.drop_zero, List.take_of_length_le (by rw [hlen]; decide)]
  simp only [encode, decode, le32_getLe32 bs 0 (by omega), le32_getLe32 bs 4 (by omega),
    SatelliteState.encode_decode hdata, le32_getLe32 bs 24 (by omega), le32_getLe32 bs 28 (by omega)]
  simp only [slice_add] at hall
  exact hall

/-- How `read_record_locked` fails: the call's own error, or the `errno` it sets. -/
inductive ReadError
  | unreadable
  | eio
  | einval
  deriving DecidableEq, Repr

/-- The checks made on what was read: length, magic and version, checksum. -/
def validate (bs : List UInt8) : Except ReadError Record :=
  let r := Record.decode bs
  if bs.length ≠ recordSize then .error .eio
  else if r.magic ≠ satStateMagic ∨ r.version ≠ satStateVersion then .error .einval
  else if r.checksum ≠ fnv1a r.data.encode then .error .eio
  else .ok r

/-- What `sat_state_store` writes is accepted and read back as the same record. -/
theorem validate_ofState (s : SatelliteState) (padding : UInt32) :
    validate (Record.ofState s padding).encode = .ok (Record.ofState s padding) := by
  simp [validate, Record.ofState]

theorem validate_ok {bs : List UInt8} {r : Record} (h : validate bs = .ok r) :
    bs.length = recordSize ∧ r = Record.ofState r.data r.padding := by
  unfold validate at h
  dsimp only at h
  split_ifs at h with h1 h2 h3
  simp only [not_not] at h1
  simp only [not_or, not_not] at h2 h3
  cases h
  obtain ⟨hm, hv⟩ := h2
  refine ⟨h1, ?_⟩
  rw [Record.ofState, ← hm, ← hv, ← h3]

end PiDaemon.Store
