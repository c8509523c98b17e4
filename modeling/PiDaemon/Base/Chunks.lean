import Mathlib.Algebra.Order.Floor.Div
import PiDaemon.Base.Buffer

/-!
# Cutting a list into chunks

A list is cut into pieces of a fixed size, of which the last may be shorter. The
number of pieces is `⌈length / size⌉`; a program that computes it by a rounding
addition in 32 bits gets that number, or 0 when the addition wraps.

Chunks of a list of equally long records are made of whole records when the size
is a multiple of the record's.
-/

namespace PiDaemon.Base

variable {α β : Type*}

def chunks (size count : ℕ) (xs : List α) : List (List α) :=
  (List.range count).map fun i => slice xs (i * size) size

theorem chunks_succ (size count : ℕ) (xs : List α) :
    chunks size (count + 1) xs = chunks size count xs ++ [slice xs (count * size) size] := by
  simp [chunks, List.range_succ]

theorem flatten_chunks (size count : ℕ) (xs : List α) :
    (chunks size count xs).flatten = xs.take (count * size) := by
  induction count with
  | zero => simp [chunks]
  | succ count ih =>
    rw [chunks_succ, List.flatten_append, ih, Nat.succ_mul, List.take_add]
    simp [slice]

/-! ## How many chunks there are -/

theorem le_ceilDiv_mul {size : ℕ} (hsize : 0 < size) (len : ℕ) : len ≤ (len ⌈/⌉ size) * size := by
  have h := le_smul_ceilDiv (b := len) hsize
  rwa [smul_eq_mul, Nat.mul_comm] at h

theorem ceilDiv_ne_zero {size len : ℕ} (hsize : 0 < size) (hlen : 0 < len) : len ⌈/⌉ size ≠ 0 := by
  intro hzero
  have h := le_ceilDiv_mul hsize len
  rw [hzero] at h
  omega

theorem mul_lt_of_lt_ceilDiv {size len i : ℕ} (hsize : 0 < size) (h : i < len ⌈/⌉ size) :
    i * size < len := by
  by_contra hle
  have := (ceilDiv_le_iff_le_smul (b := len) (c := i) hsize).mpr (by
    rw [smul_eq_mul, Nat.mul_comm]
    omega)
  omega

theorem ceilDiv_mul_left {k : ℕ} (hk : 0 < k) {size : ℕ} (hsize : 0 < size) (len : ℕ) :
    (k * len) ⌈/⌉ (k * size) = len ⌈/⌉ size := by
  apply eq_of_forall_ge_iff
  intro c
  rw [ceilDiv_le_iff_le_smul (Nat.mul_pos hk hsize), ceilDiv_le_iff_le_smul hsize, smul_eq_mul,
    smul_eq_mul, Nat.mul_assoc, Nat.mul_le_mul_left_iff hk]

/-- The rounding addition in 32 bits, as `(len + size - 1) / size`. -/
def ceilDiv32 (len size : UInt32) : UInt32 := (len + size - 1) / size

theorem toNat_ceilDiv32 (len : UInt32) {size : UInt32} (hsize : 0 < size.toNat) :
    (ceilDiv32 len size).toNat =
      if len.toNat + (size.toNat - 1) < 2 ^ 32 then len.toNat ⌈/⌉ size.toNat else 0 := by
  have hlen := len.toNat_lt
  have hs := size.toNat_lt
  have hsum : (len + size - 1).toNat = (len.toNat + (size.toNat - 1)) % 2 ^ 32 := by
    rw [UInt32.toNat_sub, UInt32.toNat_add, UInt32.toNat_one]
    omega
  rw [ceilDiv32, UInt32.toNat_div, hsum, Nat.ceilDiv_eq_add_pred_div]
  split_ifs with h
  · rw [Nat.mod_eq_of_lt h, Nat.add_sub_assoc hsize]
  · exact Nat.div_eq_of_lt (by omega)

theorem toNat_chunkStart {i : ℕ} (size : UInt32) (hi : i < 2 ^ 32)
    (hstart : i * size.toNat < 2 ^ 32) : (UInt32.ofNat i * size).toNat = i * size.toNat := by
  rw [UInt32.toNat_mul, UInt32.toNat_ofNat_of_lt' hi, Nat.mod_eq_of_lt hstart]

/-- What the chunk at `start` holds of `len`, as `remaining < size ? remaining : size`. -/
def chunkSize32 (len start size : UInt32) : UInt32 :=
  if len - start < size then len - start else size

theorem chunkSize32_le (len start size : UInt32) : (chunkSize32 len start size).toNat ≤ size.toNat := by
  unfold chunkSize32
  split_ifs with h
  · exact (UInt32.lt_iff_toNat_lt.mp h).le
  · exact le_rfl

theorem toNat_chunkSize32 {len start : UInt32} (h : start.toNat ≤ len.toNat) (size : UInt32) :
    (chunkSize32 len start size).toNat = min size.toNat (len.toNat - start.toNat) := by
  have hsub : (len - start).toNat = len.toNat - start.toNat :=
    UInt32.toNat_sub_of_le _ _ (UInt32.le_iff_toNat_le.mpr h)
  unfold chunkSize32
  split_ifs with hlt
  · rw [UInt32.lt_iff_toNat_lt, hsub] at hlt
    omega
  · rw [UInt32.lt_iff_toNat_lt, hsub] at hlt
    omega

/-! ## Chunks of records -/

section Records
variable {f : α → List β} {width : ℕ}

theorem length_flatMap_records (hf : ∀ a, (f a).length = width) (xs : List α) :
    (xs.flatMap f).length = width * xs.length := by
  simp [List.length_flatMap, hf, Nat.mul_comm]

theorem drop_flatMap_records (hf : ∀ a, (f a).length = width) (n : ℕ) : ∀ xs : List α,
    (xs.flatMap f).drop (width * n) = (xs.drop n).flatMap f := by
  induction n with
  | zero => simp
  | succ n ih =>
    intro xs
    cases xs with
    | nil => simp
    | cons x xs =>
      rw [List.flatMap_cons, Nat.mul_succ, Nat.add_comm, ← hf x, List.drop_length_add_append, hf x, ih,
        List.drop_succ_cons]

theorem take_flatMap_records (hf : ∀ a, (f a).length = width) (n : ℕ) : ∀ xs : List α,
    (xs.flatMap f).take (width * n) = (xs.take n).flatMap f := by
  induction n with
  | zero => simp
  | succ n ih =>
    intro xs
    cases xs with
    | nil => simp
    | cons x xs =>
      rw [List.flatMap_cons, Nat.mul_succ, Nat.add_comm, ← hf x, List.take_length_add_append, hf x, ih,
        List.take_succ_cons, List.flatMap_cons]

theorem slice_flatMap_records (hf : ∀ a, (f a).length = width) (xs : List α) (i n : ℕ) :
    slice (xs.flatMap f) (i * (width * n)) (width * n) = (slice xs (i * n) n).flatMap f := by
  have hoff : i * (width * n) = width * (i * n) := by ring
  rw [slice, hoff, drop_flatMap_records hf, take_flatMap_records hf]
  rfl

end Records

end PiDaemon.Base
