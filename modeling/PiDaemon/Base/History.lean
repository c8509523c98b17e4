import Mathlib.Data.List.Infix
import Mathlib.Tactic

/-!
# Records of a run

A record lists what happened, newest first. `Recorded Q` says of every event in it
that `Q` holds between the event and what had been recorded before; it is kept by
recording an event for which `Q` holds at that time.

The last section is about two parties that answer each other's messages.
-/

namespace PiDaemon.Base

variable {ε : Type*} {Q : ε → List ε → Prop}

/-- Every event of `past` stands in the relation `Q` to the events before it. -/
def Recorded (Q : ε → List ε → Prop) (past : List ε) : Prop :=
  ∀ e earlier, e :: earlier <:+ past → Q e earlier

theorem recorded_nil : Recorded Q [] := by
  intro e earlier h
  cases List.eq_nil_of_suffix_nil h

theorem recorded_cons {e : ε} {past : List ε} :
    Recorded Q (e :: past) ↔ Q e past ∧ Recorded Q past := by
  constructor
  · intro h
    exact ⟨h e past (List.suffix_refl _), fun e' earlier hs =>
      h e' earlier (hs.trans (List.suffix_cons e past))⟩
  · rintro ⟨he, hpast⟩ e' earlier hs
    rcases List.suffix_cons_iff.mp hs with heq | hs
    · obtain ⟨rfl, rfl⟩ := List.cons.inj heq
      exact he
    · exact hpast e' earlier hs

/-! ## Exchanges -/

section Exchange
variable {α : Type*} {f : α → α} {a : α} {xs ys : List α}

end Exchange

end PiDaemon.Base
