import Mathlib.Tactic

/-!
# Allocated buffers

A block of memory is the list of its cells, so its length is its capacity.
`slice` is a bounded read, `write` a bounded copy into the block and `resize`
a reallocation. A `write` that stays inside the block keeps the capacity, and
one that does not makes the list longer: `length = capacity` after a write is
therefore the statement that the copy was in bounds.
-/

namespace PiDaemon.Base

variable {α : Type*}

def slice (buf : List α) (off len : ℕ) : List α := (buf.drop off).take len

def write (buf : List α) (off : ℕ) (data : List α) : List α :=
  buf.take off ++ (data ++ buf.drop (off + data.length))

/-- Reallocation to `cap` cells keeps the common part; fresh cells hold `fill`. -/
def resize (fill : α) (buf : List α) (cap : ℕ) : List α :=
  buf.take cap ++ List.replicate (cap - buf.length) fill

theorem length_slice {buf : List α} {off len : ℕ} (h : off + len ≤ buf.length) :
    (slice buf off len).length = len := by
  simp [slice]
  omega

@[simp] theorem slice_zero (buf : List α) (off : ℕ) : slice buf off 0 = [] := by
  simp [slice]

theorem slice_add (buf : List α) (off a b : ℕ) :
    slice buf off (a + b) = slice buf off a ++ slice buf (off + a) b := by
  simp [slice, List.take_add]

theorem slice_take {buf : List α} {off len n : ℕ} (h : off + len ≤ n) :
    slice (buf.take n) off len = slice buf off len := by
  rw [slice, slice, List.drop_take, List.take_take, min_eq_left (by omega)]

theorem slice_append_left {xs ys : List α} {off len : ℕ} (h : off + len ≤ xs.length) :
    slice (xs ++ ys) off len = slice xs off len := by
  rw [slice, slice, List.drop_append_of_le_length (by omega),
    List.take_append_of_le_length (by simp; omega)]

theorem slice_map_range (a : ℕ → α) (len off n : ℕ) :
    slice ((List.range len).map a) off n =
      (List.range (min n (len - off))).map fun k => a (off + k) := by
  have hdrop : (List.range len).drop off = (List.range (len - off)).map (off + ·) := by
    rcases Nat.le_total off len with h | h
    · obtain ⟨k, rfl⟩ := Nat.exists_eq_add_of_le h
      rw [List.range_add, List.drop_left' List.length_range, Nat.add_sub_cancel_left]
    · rw [List.drop_of_length_le (by simpa using h), Nat.sub_eq_zero_of_le h]
      rfl
  rw [slice, ← List.map_drop, hdrop, ← List.map_take, ← List.map_take, List.take_range, List.map_map]
  rfl

theorem length_write {buf data : List α} {off : ℕ} (h : off + data.length ≤ buf.length) :
    (write buf off data).length = buf.length := by
  simp [write]
  omega

theorem slice_write_self {buf data : List α} {off : ℕ} (hoff : off ≤ buf.length) :
    slice (write buf off data) off data.length = data := by
  have hl : (buf.take off).length = off := by simp [hoff]
  rw [slice, write, List.drop_append_of_le_length (by omega), List.drop_of_length_le (by omega)]
  simp

theorem slice_write_left {buf data : List α} {lo len off : ℕ} (hlen : lo + len ≤ off)
    (hoff : off ≤ buf.length) : slice (write buf off data) lo len = slice buf lo len := by
  have hl : (buf.take off).length = off := by simp [hoff]
  rw [write, slice_append_left (by omega), slice_take hlen]

theorem length_resize (fill : α) (buf : List α) (cap : ℕ) : (resize fill buf cap).length = cap := by
  simp [resize]
  omega

theorem slice_resize {fill : α} {buf : List α} {off len cap : ℕ} (hcap : off + len ≤ cap)
    (hbuf : off + len ≤ buf.length) : slice (resize fill buf cap) off len = slice buf off len := by
  rw [resize, slice_append_left (by simp; omega), slice_take hcap]

/-! ## Pieces one behind the other -/

theorem flatMap_eq_flatMap_iff {β : Type*} {f g : β → List α} {bs : List β}
    (h : ∀ b ∈ bs, f b <+: g b) : bs.flatMap f = bs.flatMap g ↔ ∀ b ∈ bs, f b = g b := by
  refine ⟨fun heq => ?_, List.flatMap_congr⟩
  induction bs with
  | nil => simp
  | cons b bs ih =>
    have htail := fun c hc => h c (List.mem_cons_of_mem b hc)
    have hle : (bs.flatMap f).length ≤ (bs.flatMap g).length := by
      rw [List.length_flatMap, List.length_flatMap]
      exact List.sum_le_sum fun c hc => (htail c hc).length_le
    -- what the first piece lacked would have to be made up for by the others
    obtain ⟨rest, hrest⟩ := h b List.mem_cons_self
    rw [List.flatMap_cons, List.flatMap_cons, ← hrest, List.append_assoc,
      List.append_cancel_left_eq] at heq
    have hempty : rest = [] := by
      have hlen := congrArg List.length heq
      rw [List.length_append] at hlen
      exact List.eq_nil_of_length_eq_zero (by omega)
    rw [hempty, List.append_nil] at hrest
    rw [hempty, List.nil_append] at heq
    exact List.forall_mem_cons.mpr ⟨hrest, ih htail heq⟩

end PiDaemon.Base
