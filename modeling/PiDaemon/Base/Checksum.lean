import PiDaemon.Base.Buffer

/-!
# Checksums that are folds

A checksum that is computed by one step per element detects every change of a
single element if its step is injective in the running value and in the element:
from the changed element on the two running values differ, and no later step
brings them together again.
-/

namespace PiDaemon.Base

variable {α σ : Type*}

structure DifferAt (k : ℕ) (xs ys : List α) : Prop where
  length : xs.length = ys.length
  place : xs[k]? ≠ ys[k]?
  elsewhere (j : ℕ) : j ≠ k → xs[j]? = ys[j]?

namespace DifferAt

variable {k : ℕ} {xs ys : List α}

theorem tail {x y : α} (h : DifferAt (k + 1) (x :: xs) (y :: ys)) : x = y ∧ DifferAt k xs ys := by
  refine ⟨by simpa using h.elsewhere 0 (by omega), by simpa using h.length, by simpa using h.place, ?_⟩
  intro j hj
  simpa using h.elsewhere (j + 1) (by omega)

theorem head {x y : α} (h : DifferAt 0 (x :: xs) (y :: ys)) : x ≠ y ∧ xs = ys := by
  refine ⟨by simpa using h.place, List.ext_getElem? fun j => ?_⟩
  simpa using h.elsewhere (j + 1) (by omega)

theorem slice_eq (h : DifferAt k xs ys) (off n : ℕ) (hk : k < off ∨ off + n ≤ k) :
    slice xs off n = slice ys off n := by
  apply List.ext_getElem?
  intro j
  simp only [slice, List.getElem?_take, List.getElem?_drop]
  split_ifs
  · exact h.elsewhere (off + j) (by omega)
  · rfl

theorem slice (h : DifferAt k xs ys) {off n : ℕ} (hlow : off ≤ k) (hhigh : k < off + n) :
    DifferAt (k - off) (slice xs off n) (Base.slice ys off n) := by
  constructor
  · simp [Base.slice, h.length]
  · have hplace : off + (k - off) = k := by omega
    simpa [Base.slice, List.getElem?_take, show k - off < n by omega, hplace] using h.place
  · intro j hj
    simp only [Base.slice, List.getElem?_take, List.getElem?_drop]
    split_ifs
    · exact h.elsewhere (off + j) (by omega)
    · rfl

end DifferAt

variable {f : σ → α → σ}

theorem foldl_injective (hf : ∀ a, Function.Injective fun s => f s a) (xs : List α) :
    Function.Injective fun s => xs.foldl f s := by
  induction xs with
  | nil => exact fun _ _ h => h
  | cons x xs ih => exact fun s t h => hf x (ih h)

theorem foldl_ne_of_differAt (hstate : ∀ a, Function.Injective fun s => f s a)
    (helem : ∀ s, Function.Injective (f s)) : ∀ {k : ℕ} {xs ys : List α}, DifferAt k xs ys →
      ∀ s, xs.foldl f s ≠ ys.foldl f s
  | _, [], [], h, _ => absurd rfl h.place
  | _, [], _ :: _, h, _ => by simpa using h.length
  | _, _ :: _, [], h, _ => by simpa using h.length
  | 0, x :: xs, y :: ys, h, s => by
    obtain ⟨hne, rfl⟩ := h.head
    exact fun heq => hne (helem s (foldl_injective hstate xs heq))
  | k + 1, x :: xs, y :: ys, h, s => by
    obtain ⟨rfl, htail⟩ := h.tail
    exact foldl_ne_of_differAt hstate helem htail (f s x)

end PiDaemon.Base
