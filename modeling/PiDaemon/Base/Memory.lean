import PiDaemon.Base.Bytes

/-!
# Byte-addressed memory

A memory region is a function from offsets to bytes. It has no end: whether an
access stays inside the array the program declared is a fact about offsets and
lengths, and what lies behind the bytes a program has received is unspecified
rather than absent.
-/

namespace PiDaemon.Base

abbrev Mem := ℕ → UInt8

namespace Mem

def load (m : Mem) (off n : ℕ) : List UInt8 := (List.range n).map fun k => m (off + k)

/-- `memcpy(m + off, bs, n)` with `n` the length of `bs`. -/
def store (m : Mem) (off : ℕ) (bs : List UInt8) : Mem := fun k =>
  if off ≤ k ∧ k < off + bs.length then bs.getD (k - off) 0 else m k

def advance (m : Mem) (off : ℕ) : Mem := fun k => m (off + k)

def be16At (m : Mem) (off : ℕ) : UInt16 := UInt16.ofNat (beNat (m.load off 2))
def be32At (m : Mem) (off : ℕ) : UInt32 := UInt32.ofNat (beNat (m.load off 4))

@[simp] theorem length_load (m : Mem) (off n : ℕ) : (m.load off n).length = n := by
  simp [load]

@[simp] theorem load_zero (m : Mem) (off : ℕ) : m.load off 0 = [] := rfl

theorem load_add (m : Mem) (off a b : ℕ) :
    m.load off (a + b) = m.load off a ++ m.load (off + a) b := by
  simp [load, List.range_add, Nat.add_assoc]

theorem load_advance (m : Mem) (off o n : ℕ) : (m.advance off).load o n = m.load (off + o) n := by
  simp [load, advance, Nat.add_assoc]

theorem slice_load (m : Mem) (len off n : ℕ) :
    slice (m.load 0 len) off n = m.load off (min n (len - off)) := by
  simpa [load] using slice_map_range m len off n

theorem load_congr {m m' : Mem} {off n : ℕ} (h : ∀ k, off ≤ k → k < off + n → m k = m' k) :
    m.load off n = m'.load off n := by
  apply List.map_congr_left
  intro k hk
  have := List.mem_range.mp hk
  exact h _ (by omega) (by omega)

@[simp] theorem load_store_self (m : Mem) (off : ℕ) (bs : List UInt8) :
    (m.store off bs).load off bs.length = bs := by
  apply List.ext_getElem
  · simp
  · intro k _ hk
    simp [load, store, hk]

theorem load_store_of_disjoint (m : Mem) {off o n : ℕ} {bs : List UInt8}
    (h : o + n ≤ off ∨ off + bs.length ≤ o) : (m.store off bs).load o n = m.load o n := by
  apply load_congr
  intro k h1 h2
  rw [store, if_neg (by omega)]

theorem load_append {m : Mem} {off : ℕ} {xs ys : List UInt8}
    (h : m.load off (xs ++ ys).length = xs ++ ys) :
    m.load off xs.length = xs ∧ m.load (off + xs.length) ys.length = ys := by
  rw [List.length_append, load_add] at h
  exact List.append_inj h (by simp)

theorem load_foldl_store {α : Type*} {f : α → List UInt8} {width : α → ℕ}
    (hwidth : ∀ a, (f a).length = width a) (as : List α) : ∀ (buf : Mem) (done : List UInt8),
      buf.load 0 done.length = done →
        let out := as.foldl (fun out a => (out.1.store out.2 (f a), out.2 + width a)) (buf, done.length)
        out.1.load 0 out.2 = done ++ as.flatMap f ∧ out.2 = (done ++ as.flatMap f).length := by
  induction as with
  | nil => intro buf done h; simpa using h
  | cons a as ih =>
    intro buf done h
    have hnext : (buf.store done.length (f a)).load 0 (done ++ f a).length = done ++ f a := by
      rw [List.length_append, load_add, Nat.zero_add, load_store_self,
        load_store_of_disjoint _ (.inl (by omega)), h]
    simpa [hwidth, Nat.add_assoc] using ih _ _ hnext

theorem be16At_of_load {m : Mem} {off : ℕ} {x : UInt16} (h : m.load off 2 = be16 x) :
    m.be16At off = x := by
  have hx : x.toNat % 256 ^ 2 = x.toNat := Nat.mod_eq_of_lt x.toNat_lt
  rw [be16At, h, be16, beNat_beBytes, hx, UInt16.ofNat_toNat]

theorem be32At_of_load {m : Mem} {off : ℕ} {x : UInt32} (h : m.load off 4 = be32 x) :
    m.be32At off = x := by
  have hx : x.toNat % 256 ^ 4 = x.toNat := Nat.mod_eq_of_lt x.toNat_lt
  rw [be32At, h, be32, beNat_beBytes, hx, UInt32.ofNat_toNat]

theorem be32_be32At (m : Mem) (off : ℕ) : be32 (m.be32At off) = m.load off 4 := by
  have hlt := leNat_lt (m.load off 4).reverse
  have hbytes := leBytes_leNat (m.load off 4).reverse
  rw [List.length_reverse, length_load] at hlt hbytes
  rw [be32, be32At, UInt32.toNat_ofNat', beNat, Nat.mod_eq_of_lt (b := 2 ^ 32) hlt, beBytes, hbytes,
    List.reverse_reverse]

/-! ### Regions that agree on a prefix -/

def Agree (n : ℕ) (m m' : Mem) : Prop := ∀ k < n, m k = m' k

section Agree
variable {n : ℕ} {m m' : Mem}

theorem Agree.load (h : Agree n m m') {off len : ℕ} (hle : off + len ≤ n) :
    m.load off len = m'.load off len :=
  load_congr fun k _ hk => h k (by omega)

theorem Agree.be16At (h : Agree n m m') {off : ℕ} (hle : off + 2 ≤ n) :
    m.be16At off = m'.be16At off := by
  rw [Mem.be16At, Mem.be16At, h.load hle]

theorem Agree.be32At (h : Agree n m m') {off : ℕ} (hle : off + 4 ≤ n) :
    m.be32At off = m'.be32At off := by
  rw [Mem.be32At, Mem.be32At, h.load hle]

theorem Agree.advance (h : Agree n m m') {off k : ℕ} (hle : off + k ≤ n) :
    Agree k (m.advance off) (m'.advance off) :=
  fun j hj => h (off + j) (by omega)

end Agree

end Mem

/-! ## Checked accesses

A program that checks its accesses fails where the program it checks would leave an
array; where it does not fail, the two compute the same. -/

/-- An access to `n` elements from `off` on, in an array of `size`. -/
def access (size off n : ℕ) : Option Unit := if off + n ≤ size then some () else none

theorem access_ok {size off n : ℕ} (h : off + n ≤ size) : access size off n = some () := if_pos h

/-- The rule for loops: a checked body that succeeds, and agrees with the body, wherever
`P` holds of the elements to come and of the loop's state. -/
theorem foldlM_eq_foldl {α β : Type*} {g : β → α → Option β} {f : β → α → β}
    {P : List α → β → Prop} (hbody : ∀ x xs b, P (x :: xs) b → g b x = some (f b x) ∧ P xs (f b x)) :
    ∀ (xs : List α) (b : β), P xs b → xs.foldlM g b = some (xs.foldl f b) ∧ P [] (xs.foldl f b) := by
  intro xs
  induction xs with
  | nil => exact fun b h => ⟨rfl, h⟩
  | cons x xs ih =>
    intro b h
    obtain ⟨hx, hnext⟩ := hbody x xs b h
    obtain ⟨hfold, hlast⟩ := ih (f b x) hnext
    refine ⟨?_, hlast⟩
    rw [List.foldlM_cons, hx]
    exact hfold

end PiDaemon.Base
