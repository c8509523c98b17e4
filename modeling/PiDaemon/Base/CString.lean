import Mathlib.Data.List.TakeWhile
import Mathlib.Tactic

/-!
# C strings in byte arrays

A C string is the part of an array before its first NUL. `strncpy` and the
equality test of `strncmp` are given on byte lists with the library's documented
meaning: `strncpy` copies at most `n` bytes and fills the rest with NULs, and
`strncmp` compares at most `n` bytes and stops at a NUL; `strcmp` has no limit.
-/

namespace PiDaemon.Base

def cString (bs : List UInt8) : List UInt8 := bs.takeWhile (· ≠ 0)

/-- The `n` bytes that `strncpy(dst, src, n)` stores. -/
def strncpy (n : ℕ) (src : List UInt8) : List UInt8 :=
  (cString src).take n ++ List.replicate (n - (cString src).length) 0

/-- Whether `strncmp(a, b, n)` returns zero. -/
def strncmpEq (n : ℕ) (a b : List UInt8) : Bool :=
  cString (a.take n) = cString (b.take n)

/-- Whether `strcmp(a, b)` returns zero. -/
def strcmpEq (a b : List UInt8) : Bool := cString a = cString b

/-- The string that `snprintf(buf, n, "%s", text)` leaves in `buf`. -/
def snprintf (n : ℕ) (text : List UInt8) : List UInt8 := (cString text).take (n - 1)

def ascii (s : String) : List UInt8 := s.toList.map fun c => UInt8.ofNat c.toNat

@[simp] theorem length_strncpy (n : ℕ) (src : List UInt8) : (strncpy n src).length = n := by
  simp [strncpy]
  omega

theorem zero_notMem_cString (bs : List UInt8) : (0 : UInt8) ∉ cString bs := by
  intro h
  have := List.mem_takeWhile_imp h
  simp at this

theorem cString_append_zero {text : List UInt8} (htext : (0 : UInt8) ∉ text)
    (tail : List UInt8) : cString (text ++ (0 :: tail)) = text := by
  have hpos : ∀ b ∈ text, decide (b ≠ 0) = true := by
    intro b hb
    simpa using fun h : b = 0 => htext (h ▸ hb)
  rw [cString, List.takeWhile_append_of_pos hpos]
  simp

/-- What a field holds is the string, cut off at the size of the field. -/
theorem cString_strncpy_append (n : ℕ) (src tail : List UInt8) :
    cString (strncpy n src ++ (0 :: tail)) = (cString src).take n := by
  have htext : (0 : UInt8) ∉ (cString src).take n :=
    fun h => zero_notMem_cString src (List.mem_of_mem_take h)
  rw [strncpy, List.append_assoc]
  cases hk : n - (cString src).length with
  | zero => simpa using cString_append_zero htext tail
  | succ k =>
    rw [List.replicate_succ, List.cons_append]
    exact cString_append_zero htext _

theorem cString_strncpy {n : ℕ} {src : List UInt8} (h : (cString src).length ≤ n)
    (tail : List UInt8) : cString (strncpy n src ++ (0 :: tail)) = cString src := by
  rw [cString_strncpy_append, List.take_of_length_le h]

theorem strncpy_strncpy (n : ℕ) (src tail : List UInt8) :
    strncpy n (strncpy n src ++ (0 :: tail)) = strncpy n src := by
  rw [strncpy, cString_strncpy_append, List.take_take, min_self, strncpy]
  congr 2
  rw [List.length_take]
  omega

end PiDaemon.Base
