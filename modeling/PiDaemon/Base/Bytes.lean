import PiDaemon.Base.Buffer

/-!
# Fixed-width integers as byte lists

A number of a known width is a list of bytes, least significant byte first
(`leBytes`) or last (`beBytes`). Both directions are total: encoding drops what
does not fit the width, decoding takes the bytes it is given. The round trips
hold for every width, so the 16-, 32- and 64-bit codecs below are instances.
-/

namespace PiDaemon.Base

def leBytes : ℕ → ℕ → List UInt8
  | 0, _ => []
  | width + 1, n => UInt8.ofNat n :: leBytes width (n / 256)

def leNat : List UInt8 → ℕ
  | [] => 0
  | b :: bs => b.toNat + 256 * leNat bs

@[simp] theorem length_leBytes (width n : ℕ) : (leBytes width n).length = width := by
  induction width generalizing n with
  | zero => rfl
  | succ width ih => simp [leBytes, ih]

theorem leNat_leBytes (width n : ℕ) : leNat (leBytes width n) = n % 256 ^ width := by
  induction width generalizing n with
  | zero => simp [leBytes, leNat, Nat.mod_one]
  | succ width ih =>
    have hb : (UInt8.ofNat n).toNat = n % 256 := by simp
    rw [leBytes, leNat, ih, hb, pow_succ', Nat.mod_mul]

theorem leNat_lt (bs : List UInt8) : leNat bs < 256 ^ bs.length := by
  induction bs with
  | nil => simp [leNat]
  | cons b bs ih =>
    have hb := b.toNat_lt
    rw [leNat, List.length_cons, pow_succ]
    omega

theorem leBytes_leNat (bs : List UInt8) : leBytes bs.length (leNat bs) = bs := by
  induction bs with
  | nil => rfl
  | cons b bs ih =>
    have hb := b.toNat_lt
    have hdiv : (b.toNat + 256 * leNat bs) / 256 = leNat bs := by omega
    have hhead : UInt8.ofNat (b.toNat + 256 * leNat bs) = b := by
      apply UInt8.toNat_inj.mp
      simp
    rw [List.length_cons, leNat, leBytes, hdiv, hhead, ih]

def beBytes (width n : ℕ) : List UInt8 := (leBytes width n).reverse

def beNat (bs : List UInt8) : ℕ := leNat bs.reverse

@[simp] theorem length_beBytes (width n : ℕ) : (beBytes width n).length = width := by
  simp [beBytes]

theorem beNat_beBytes (width n : ℕ) : beNat (beBytes width n) = n % 256 ^ width := by
  simp [beNat, beBytes, leNat_leBytes]

/-! ## Host-order and network-order fields -/

def le16 (x : UInt16) : List UInt8 := leBytes 2 x.toNat
def le32 (x : UInt32) : List UInt8 := leBytes 4 x.toNat
def le64 (x : UInt64) : List UInt8 := leBytes 8 x.toNat
def be16 (x : UInt16) : List UInt8 := beBytes 2 x.toNat
def be32 (x : UInt32) : List UInt8 := beBytes 4 x.toNat
def be64 (x : UInt64) : List UInt8 := beBytes 8 x.toNat

/-- Fields are read at a byte offset, as a C program does with a cursor. -/
def getLe16 (buf : List UInt8) (off : ℕ) : UInt16 := UInt16.ofNat (leNat (slice buf off 2))
def getLe32 (buf : List UInt8) (off : ℕ) : UInt32 := UInt32.ofNat (leNat (slice buf off 4))
def getLe64 (buf : List UInt8) (off : ℕ) : UInt64 := UInt64.ofNat (leNat (slice buf off 8))
def getByte (buf : List UInt8) (off : ℕ) : UInt8 := buf.getD off 0
def getBe16 (buf : List UInt8) (off : ℕ) : UInt16 := UInt16.ofNat (beNat (slice buf off 2))

@[simp] theorem length_le16 (x : UInt16) : (le16 x).length = 2 := length_leBytes _ _
@[simp] theorem length_le32 (x : UInt32) : (le32 x).length = 4 := length_leBytes _ _
@[simp] theorem length_le64 (x : UInt64) : (le64 x).length = 8 := length_leBytes _ _
@[simp] theorem length_be16 (x : UInt16) : (be16 x).length = 2 := length_beBytes _ _
@[simp] theorem length_be32 (x : UInt32) : (be32 x).length = 4 := length_beBytes _ _
@[simp] theorem length_be64 (x : UInt64) : (be64 x).length = 8 := length_beBytes _ _

section RoundTrip
variable (pre post : List UInt8) (off : ℕ)

/-- A field written after `pre` is what the reader finds at offset `pre.length`. -/
theorem slice_field {field : List UInt8} {width : ℕ} (hwidth : field.length = width)
    (hoff : off = pre.length) : slice (pre ++ (field ++ post)) off width = field := by
  subst hoff hwidth
  simp [slice]

theorem getByte_field (b : UInt8) (hoff : off = pre.length) :
    getByte (pre ++ (b :: post)) off = b := by
  subst hoff
  simp [getByte]

theorem getLe16_field (x : UInt16) (hoff : off = pre.length) :
    getLe16 (pre ++ (le16 x ++ post)) off = x := by
  have hx : x.toNat % 256 ^ 2 = x.toNat := Nat.mod_eq_of_lt x.toNat_lt
  rw [getLe16, slice_field _ _ _ (length_le16 x) hoff, le16, leNat_leBytes, hx, UInt16.ofNat_toNat]

theorem getLe32_field (x : UInt32) (hoff : off = pre.length) :
    getLe32 (pre ++ (le32 x ++ post)) off = x := by
  have hx : x.toNat % 256 ^ 4 = x.toNat := Nat.mod_eq_of_lt x.toNat_lt
  rw [getLe32, slice_field _ _ _ (length_le32 x) hoff, le32, leNat_leBytes, hx, UInt32.ofNat_toNat]

theorem getLe64_field (x : UInt64) (hoff : off = pre.length) :
    getLe64 (pre ++ (le64 x ++ post)) off = x := by
  have hx : x.toNat % 256 ^ 8 = x.toNat := Nat.mod_eq_of_lt x.toNat_lt
  rw [getLe64, slice_field _ _ _ (length_le64 x) hoff, le64, leNat_leBytes, hx, UInt64.ofNat_toNat]

theorem getBe16_field (x : UInt16) (hoff : off = pre.length) :
    getBe16 (pre ++ (be16 x ++ post)) off = x := by
  have hx : x.toNat % 256 ^ 2 = x.toNat := Nat.mod_eq_of_lt x.toNat_lt
  rw [getBe16, slice_field _ _ _ (length_be16 x) hoff, be16, beNat_beBytes, hx, UInt16.ofNat_toNat]

end RoundTrip

/-- Decoding `width` bytes at an offset and encoding them again is the identity. -/
theorem leBytes_slice {bs : List UInt8} {off width : ℕ} (h : off + width ≤ bs.length) :
    leBytes width (leNat (slice bs off width)) = slice bs off width ∧
      leNat (slice bs off width) < 256 ^ width := by
  have hlt := leNat_lt (slice bs off width)
  have hrt := leBytes_leNat (slice bs off width)
  rw [length_slice h] at hlt hrt
  exact ⟨hrt, hlt⟩

theorem singleton_getByte (bs : List UInt8) (off : ℕ) (h : off < bs.length) :
    [getByte bs off] = slice bs off 1 := by
  have hget : getByte bs off = bs[off] := by simp [getByte, h]
  rw [hget, slice, List.drop_eq_getElem_cons h]
  rfl

theorem le16_getLe16 (bs : List UInt8) (off : ℕ) (h : off + 2 ≤ bs.length) :
    le16 (getLe16 bs off) = slice bs off 2 := by
  obtain ⟨hrt, hlt⟩ := leBytes_slice h
  rw [le16, getLe16, UInt16.toNat_ofNat', Nat.mod_eq_of_lt (b := 2 ^ 16) hlt, hrt]

theorem le32_getLe32 (bs : List UInt8) (off : ℕ) (h : off + 4 ≤ bs.length) :
    le32 (getLe32 bs off) = slice bs off 4 := by
  obtain ⟨hrt, hlt⟩ := leBytes_slice h
  rw [le32, getLe32, UInt32.toNat_ofNat', Nat.mod_eq_of_lt (b := 2 ^ 32) hlt, hrt]

theorem le64_getLe64 (bs : List UInt8) (off : ℕ) (h : off + 8 ≤ bs.length) :
    le64 (getLe64 bs off) = slice bs off 8 := by
  obtain ⟨hrt, hlt⟩ := leBytes_slice h
  rw [le64, getLe64, UInt64.toNat_ofNat', Nat.mod_eq_of_lt (b := 2 ^ 64) hlt, hrt]

end PiDaemon.Base
