import Mathlib.Logic.Relation
import Mathlib.Tactic

/-!
# Runs of transition systems

Two presentations are used. A system whose steps are chosen by a schedule has a
partial `next` function over actions and executes a list of them (`exec`); a
program whose steps are read off a relation is closed reflexively and
transitively. In both an invariant is proved once per step and carried to whole
runs here. `Meets` restricts a run to steps that satisfy a side condition in the
state they are taken in.
-/

namespace PiDaemon.Base

variable {σ α : Type*}

section Scheduled
variable (next : σ → α → Option σ)

def exec : σ → List α → Option σ
  | s, [] => some s
  | s, a :: as => (next s a).bind fun t => exec t as

def Meets (good : σ → α → Prop) : σ → List α → Prop
  | _, [] => True
  | s, a :: as => good s a ∧ ∀ t, next s a = some t → Meets good t as

variable {next}

theorem exec_cons {s u : σ} {a : α} {as : List α} (h : exec next s (a :: as) = some u) :
    ∃ t, next s a = some t ∧ exec next t as = some u := by
  simpa [exec, Option.bind_eq_some_iff] using h

theorem meets_cons {good : σ → α → Prop} {s t : σ} {a : α} {as : List α}
    (hnext : next s a = some t) (hgood : good s a) (hrest : Meets next good t as) :
    Meets next good s (a :: as) :=
  ⟨hgood, fun _ hu => Option.some.inj (hnext.symm.trans hu) ▸ hrest⟩

theorem meets_of_forall {good : σ → α → Prop} (h : ∀ s a, good s a) :
    ∀ (s : σ) (as : List α), Meets next good s as
  | _, [] => trivial
  | s, a :: as => ⟨h s a, fun t _ => meets_of_forall h t as⟩

/-- The invariant rule for runs whose steps all meet a side condition. -/
theorem exec_invariant {inv : σ → Prop} {good : σ → α → Prop}
    (hstep : ∀ {s t a}, inv s → good s a → next s a = some t → inv t) :
    ∀ {as : List α} {s t : σ}, inv s → Meets next good s as → exec next s as = some t → inv t
  | [], s, t, hs, _, h => by
    simp only [exec, Option.some.injEq] at h
    exact h ▸ hs
  | a :: as, s, t, hs, hm, h => by
    obtain ⟨u, hu, hrest⟩ := exec_cons h
    exact exec_invariant hstep (hstep hs hm.1 hu) (hm.2 u hu) hrest

end Scheduled

section Closure
variable {step : σ → σ → Prop}

/-- The invariant rule for the reflexive-transitive closure of a step relation. -/
theorem steps_invariant {I : σ → Prop} (hstep : ∀ s t, I s → step s t → I t)
    {s t : σ} (h : Relation.ReflTransGen step s t) (hs : I s) : I t := by
  induction h with
  | refl => exact hs
  | tail _ ht ih => exact hstep _ _ ih ht

/-- A loop over distinct indices is a run, if its body is one for every index whose side
condition `P` holds when its turn comes. `v` is the part of the loop's state that steps. -/
theorem foldl_steps {ρ ι : Type*} {v : ρ → σ} {f : ρ → ι → ρ} {P : σ → ι → Prop}
    (hbody : ∀ r i, P (v r) i → Relation.ReflTransGen step (v r) (v (f r i)))
    (hkeep : ∀ r i j, P (v r) i → j ≠ i → P (v r) j → P (v (f r i)) j)
    {is : List ι} (hdistinct : is.Nodup) :
    ∀ {r : ρ}, (∀ i ∈ is, P (v r) i) →
      Relation.ReflTransGen step (v r) (v (is.foldl f r)) := by
  induction is with
  | nil => exact fun _ => .refl
  | cons i is ih =>
    intro r hok
    obtain ⟨hi, his⟩ := List.nodup_cons.mp hdistinct
    have hhead := hok i (List.mem_cons_self ..)
    refine (hbody r i hhead).trans (ih his fun j hj => ?_)
    refine hkeep r i j hhead ?_ (hok j (List.mem_cons_of_mem i hj))
    rintro rfl
    exact hi hj

end Closure

/-- A loop over distinct indices that changes the entry `v` of each of them, and no other. -/
theorem foldl_each {ι β : Type*} [DecidableEq ι] {v : σ → ι → β} {f : σ → ι → σ} {g : β → β}
    (hf : ∀ s i j, v (f s i) j = if j = i then g (v s i) else v s j)
    {is : List ι} (hdistinct : is.Nodup) (s : σ) (j : ι) :
    v (is.foldl f s) j = if j ∈ is then g (v s j) else v s j := by
  induction is generalizing s with
  | nil => rfl
  | cons i is ih =>
    obtain ⟨hi, his⟩ := List.nodup_cons.mp hdistinct
    rw [List.foldl_cons, ih his, hf]
    by_cases hji : j = i
    · subst hji
      simp [hi]
    · simp [hji]

/-- A loop over distinct indices whose body changes the entry `v` of its own index only, and
there as `R` says. -/
theorem foldl_each_rel {ι β : Type*} {v : σ → ι → β} {f : σ → ι → σ} {R : β → β → Prop}
    (hown : ∀ s i, R (v s i) (v (f s i) i)) (hother : ∀ s i j, j ≠ i → v (f s i) j = v s j)
    {is : List ι} (hdistinct : is.Nodup) (s : σ) {j : ι} (hj : j ∈ is) :
    R (v s j) (v (is.foldl f s) j) := by
  have hkeep : ∀ (is : List ι) (s : σ), j ∉ is → v (is.foldl f s) j = v s j := by
    intro is
    induction is with
    | nil => exact fun _ _ => rfl
    | cons i is ih =>
      intro s hj
      obtain ⟨hji, hjis⟩ := not_or.mp (mt List.mem_cons.mpr hj)
      rw [List.foldl_cons, ih _ hjis, hother s i j hji]
  induction is generalizing s with
  | nil => cases hj
  | cons i is ih =>
    obtain ⟨hi, his⟩ := List.nodup_cons.mp hdistinct
    rw [List.foldl_cons]
    by_cases hji : j = i
    · subst hji
      rw [hkeep is _ hi]
      exact hown s j
    · have hrest := ih his (f s i) (List.mem_of_ne_of_mem hji hj)
      rwa [hother s i j hji] at hrest

end PiDaemon.Base
