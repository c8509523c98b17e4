import Mathlib.Tactic

/-!
# Advisory reader-writer locks

The locks that a family of processes hold on one file, as `flock` grants them. A
process that holds the lock exclusively is alone, so whoever relies on the data
behind the lock relies on it only while holding the lock.
-/

namespace PiDaemon.Base

inductive LockMode
  | shared
  | exclusive
  deriving DecidableEq, Repr

abbrev Locks (ι : Type*) := ι → Option LockMode

namespace Locks

variable {ι : Type*} {l : Locks ι} {p q : ι} {mode : LockMode}

def Grants (l : Locks ι) (p : ι) (mode : LockMode) : Prop :=
  ∀ q, q ≠ p → l q = none ∨ (mode = .shared ∧ l q = some .shared)

instance [Fintype ι] [DecidableEq ι] : Decidable (l.Grants p mode) :=
  inferInstanceAs (Decidable (∀ q, q ≠ p → l q = none ∨ (mode = .shared ∧ l q = some .shared)))

def Exclusive (l : Locks ι) : Prop := ∀ p q, q ≠ p → l p = some .exclusive → l q = none

theorem exclusive_free : Exclusive fun _ : ι => none := fun _ _ _ _ => rfl

variable [DecidableEq ι]

theorem Grants.exclusive (hg : l.Grants p mode) :
    Exclusive (Function.update l p (some mode)) := by
  intro r s hsr hr
  by_cases hrp : r = p
  · subst hrp
    rw [Function.update_self, Option.some.injEq] at hr
    rw [Function.update_of_ne hsr]
    rcases hg s hsr with hfree | ⟨hshared, -⟩
    · exact hfree
    · rw [hshared] at hr
      cases hr
  · rw [Function.update_of_ne hrp] at hr
    -- an exclusive holder other than `p` would have kept the lock from `p`
    rcases hg r hrp with hfree | ⟨-, hshared⟩
    · rw [hfree] at hr
      cases hr
    · rw [hshared] at hr
      cases hr

theorem Exclusive.release (h : l.Exclusive) : Exclusive (Function.update l p none) := by
  intro r s hsr hr
  by_cases hrp : r = p
  · subst hrp
    rw [Function.update_self] at hr
    cases hr
  · rw [Function.update_of_ne hrp] at hr
    by_cases hsp : s = p
    · rw [hsp, Function.update_self]
    · rw [Function.update_of_ne hsp]
      exact h r s hsr hr

end Locks

end PiDaemon.Base
