import Mathlib.Tactic

/-!
# Rate limits by fixed windows

A limiter counts the hits since its window opened. A hit that comes more than `width`
after the opening opens a new window at its own time, and a hit is admitted while the
count is at most `limit`. Nothing but the hits anchors the windows, so an interval as
long as a window can meet two of them, and no more.
-/

namespace PiDaemon.Base

structure Limiter where
  start : ℤ
  count : ℕ

namespace Limiter

def hit (width : ℤ) (l : Limiter) (now : ℤ) : Limiter :=
  if now - l.start > width then ⟨now, 1⟩ else ⟨l.start, l.count + 1⟩

/-- The limiter goes from `l₀` to `l` and admits hits at the times `ts`, newest first. -/
inductive Trace (width : ℤ) (limit : ℕ) (l₀ : Limiter) : List ℤ → Limiter → Prop
  | start : Trace width limit l₀ [] l₀
  | accept {ts : List ℤ} {l : Limiter} (now : ℤ) : Trace width limit l₀ ts l →
      (l.hit width now).count ≤ limit → Trace width limit l₀ (now :: ts) (l.hit width now)
  | refuse {ts : List ℤ} {l : Limiter} (now : ℤ) : Trace width limit l₀ ts l →
      limit < (l.hit width now).count → Trace width limit l₀ ts (l.hit width now)

def opening (width start : ℤ) : List ℤ → ℤ
  | [] => start
  | now :: ts => if now - opening width start ts > width then now else opening width start ts

def openings (width start : ℤ) : List ℤ → List ℤ
  | [] => []
  | now :: ts => opening width start (now :: ts) :: openings width start ts

def within (width t : ℤ) (ts : List ℤ) : ℕ := ts.countP fun now => t ≤ now ∧ now ≤ t + width

variable {width : ℤ} {limit : ℕ} {l₀ l : Limiter} {ts : List ℤ} {now t : ℤ}

theorem hit_reset (h : now - l.start > width) : l.hit width now = ⟨now, 1⟩ := if_pos h

theorem hit_same (h : ¬now - l.start > width) : l.hit width now = ⟨l.start, l.count + 1⟩ := if_neg h

/-! ## Windows -/

theorem refused_same (hlimit : 0 < limit) (h : limit < (l.hit width now).count) :
    l.hit width now = ⟨l.start, l.count + 1⟩ := by
  by_cases hreset : now - l.start > width
  · rw [hit_reset hreset] at h
    dsimp only at h
    omega
  · exact hit_same hreset

theorem Trace.start_eq (hlimit : 0 < limit) (h : Trace width limit l₀ ts l) :
    l.start = opening width l₀.start ts := by
  induction h with
  | start => rfl
  | accept now _ _ ih =>
    rw [opening, ← ih, hit]
    split_ifs <;> rfl
  | refuse now _ hrefused ih => rw [refused_same hlimit hrefused, ih]

theorem openings_le (hwidth : 0 ≤ width) (start : ℤ) :
    ∀ ts : List ℤ, ∀ w ∈ openings width start ts, w ≤ opening width start ts
  | [] => by simp [openings]
  | now :: ts => by
    have hgrow : opening width start ts ≤ opening width start (now :: ts) := by
      rw [opening]
      split_ifs <;> omega
    intro w hw
    rcases List.mem_cons.mp hw with rfl | hw
    · exact le_rfl
    · exact (openings_le hwidth start ts w hw).trans hgrow

/-- No window admits more than `limit` hits, and what the open one admitted has been counted. -/
theorem Trace.count_openings_le (hwidth : 0 ≤ width) (hlimit : 0 < limit)
    (h : Trace width limit l₀ ts l) :
    (openings width l₀.start ts).count l.start ≤ l.count ∧
      ∀ w, (openings width l₀.start ts).count w ≤ limit := by
  induction h with
  | start => simp [openings]
  | @accept ts l now htrace haccept ih =>
    have hstart := htrace.start_eq hlimit
    by_cases hreset : now - l.start > width
    · have hopen : opening width l₀.start (now :: ts) = now := by rw [opening, ← hstart, if_pos hreset]
      -- the window that opens is later than all the others
      have hnew : (openings width l₀.start ts).count now = 0 := by
        refine List.count_eq_zero.mpr fun hmem => ?_
        have := openings_le hwidth l₀.start ts now hmem
        omega
      rw [hit_reset hreset, openings, hopen]
      refine ⟨by rw [List.count_cons_self, hnew], fun w => ?_⟩
      by_cases hw : now = w
      · rw [← hw, List.count_cons_self, hnew]
        exact hlimit
      · rw [List.count_cons_of_ne hw]
        exact ih.2 w
    · have hopen : opening width l₀.start (now :: ts) = l.start := by
        rw [opening, ← hstart, if_neg hreset]
      rw [hit_same hreset] at haccept ⊢
      rw [openings, hopen]
      refine ⟨by rw [List.count_cons_self]; exact Nat.add_le_add_right ih.1 1, fun w => ?_⟩
      by_cases hw : l.start = w
      · rw [← hw, List.count_cons_self]
        exact (Nat.add_le_add_right ih.1 1).trans haccept
      · rw [List.count_cons_of_ne hw]
        exact ih.2 w
  | @refuse ts l now htrace hrefused ih =>
    rw [refused_same hlimit hrefused]
    exact ⟨ih.1.trans (Nat.le_succ _), ih.2⟩

/-- The window that is open is the one the hits `ts` have opened, and has counted no other
hits than these. -/
structure Accounted (width start : ℤ) (ts : List ℤ) (l : Limiter) : Prop where
  start_eq : l.start = opening width start ts
  count_le : l.count ≤ (openings width start ts).count l.start

theorem Accounted.hit {start : ℤ} (h : Accounted width start ts l) (now : ℤ) :
    Accounted width start (now :: ts) (l.hit width now) := by
  by_cases hreset : now - l.start > width
  · have hnew : opening width start (now :: ts) = now := by
      rw [opening, ← h.start_eq, if_pos hreset]
    rw [hit_reset hreset]
    exact ⟨hnew.symm, by simp [openings, hnew]⟩
  · have hopen : opening width start (now :: ts) = l.start := by
      rw [opening, ← h.start_eq, if_neg hreset]
    rw [hit_same hreset]
    refine ⟨hopen.symm, ?_⟩
    rw [openings, hopen, List.count_cons_self]
    exact Nat.add_le_add_right h.count_le 1

theorem Accounted.refused {start : ℤ} (h : Accounted width start ts l) (hlimit : 0 < limit)
    (hrefused : limit < (l.hit width now).count) :
    now - l.start ≤ width ∧ limit ≤ (openings width start ts).count l.start := by
  have hsame : ¬now - l.start > width := by
    intro hreset
    rw [hit_reset hreset] at hrefused
    dsimp only at hrefused
    omega
  rw [hit_same hsame] at hrefused
  exact ⟨not_lt.mp hsame, (Nat.lt_succ_iff.mp hrefused).trans h.count_le⟩

/-! ## Intervals -/

theorem within_cons : within width t (now :: ts) =
    within width t ts + if t ≤ now ∧ now ≤ t + width then 1 else 0 := by
  simp [within, List.countP_cons]

theorem within_le_length (width t : ℤ) (ts : List ℤ) : within width t ts ≤ ts.length :=
  List.countP_le_length

theorem within_eq_zero (h : ∀ x ∈ ts, x < t) : within width t ts = 0 := by
  refine List.countP_eq_zero.mpr fun x hx => ?_
  have := h x hx
  simp only [decide_eq_true_eq]
  omega

/-- How the hits so far are spread over intervals: until the limiter opens a window of
its own there are few of them; from then on an interval holds the hits of the open
window, and those of one window before it only if the open one opens in the interval. -/
def Spread (width : ℤ) (limit : ℕ) (ts : List ℤ) (l : Limiter) : Prop :=
  ts.length ≤ min l.count limit ∨
    l.start ∈ ts ∧ ∀ t, within width t ts ≤ 2 * limit ∧
      (l.start < t → within width t ts ≤ min l.count limit) ∧
      (t ≤ l.start → l.start ≤ t + width → within width t ts ≤ limit + min l.count limit)

theorem Spread.reset (h : Spread width limit ts l) (hlimit : 0 < limit) (hlast : ∀ x ∈ ts, x ≤ now)
    (hreset : now - l.start > width) : Spread width limit (now :: ts) ⟨now, 1⟩ := by
  have hall (t : ℤ) : within width t ts ≤ 2 * limit := by
    rcases h with hfew | ⟨-, hspread⟩
    · have := within_le_length width t ts
      omega
    · exact (hspread t).1
  -- the window that was open before `now` had opened before the interval
  have hone (t : ℤ) (ht : now ≤ t + width) : within width t ts ≤ limit := by
    rcases h with hfew | ⟨-, hspread⟩
    · have := within_le_length width t ts
      omega
    · have := (hspread t).2.1 (by omega)
      omega
  refine .inr ⟨List.mem_cons_self .., fun t => ?_⟩
  rw [within_cons]
  dsimp only
  refine ⟨?_, fun ht => ?_, fun ht hend => ?_⟩
  · split_ifs with hin
    · have := hone t hin.2
      omega
    · exact hall t
  · rw [within_eq_zero fun x hx => (hlast x hx).trans_lt ht, if_neg fun hin => absurd hin.1 (by omega)]
    exact Nat.zero_le _
  · have := hone t hend
    split_ifs <;> omega

theorem Spread.same (h : Spread width limit ts l) (hlast : ∀ x ∈ ts, x ≤ now)
    (haccept : l.count + 1 ≤ limit) : Spread width limit (now :: ts) ⟨l.start, l.count + 1⟩ := by
  rcases h with hfew | ⟨hmem, hspread⟩
  · left
    rw [List.length_cons]
    dsimp only
    omega
  · refine .inr ⟨List.mem_cons_of_mem _ hmem, fun t => ?_⟩
    obtain ⟨hall, hbefore, hinside⟩ := hspread t
    have hstart := hlast _ hmem
    rw [within_cons]
    dsimp only
    refine ⟨?_, fun ht => ?_, fun ht hend => ?_⟩
    · split_ifs with hin
      · rcases lt_or_ge l.start t with ht | ht
        · have := hbefore ht
          omega
        · have := hinside ht (hstart.trans hin.2)
          omega
      · exact hall
    · have := hbefore ht
      split_ifs <;> omega
    · have := hinside ht hend
      split_ifs <;> omega

theorem Spread.refuse (h : Spread width limit ts l) :
    Spread width limit ts ⟨l.start, l.count + 1⟩ := by
  have hgrow : min l.count limit ≤ min (l.count + 1) limit := by omega
  rcases h with hfew | ⟨hmem, hspread⟩
  · exact .inl (hfew.trans hgrow)
  · refine .inr ⟨hmem, fun t => ?_⟩
    obtain ⟨hall, hbefore, hinside⟩ := hspread t
    exact ⟨hall, fun ht => (hbefore ht).trans hgrow, fun ht hend =>
      (hinside ht hend).trans (Nat.add_le_add_left hgrow _)⟩

theorem Trace.spread (hlimit : 0 < limit) (h : Trace width limit l₀ ts l)
    (hsorted : ts.Pairwise (· ≥ ·)) : Spread width limit ts l := by
  induction h with
  | start => exact .inl (Nat.zero_le _)
  | @accept ts l now _ haccept ih =>
    obtain ⟨hlast, hsorted⟩ := List.pairwise_cons.mp hsorted
    by_cases hreset : now - l.start > width
    · rw [hit_reset hreset]
      exact (ih hsorted).reset hlimit hlast hreset
    · rw [hit_same hreset] at haccept ⊢
      exact (ih hsorted).same hlast haccept
  | refuse now _ hrefused ih =>
    rw [refused_same hlimit hrefused]
    exact (ih hsorted).refuse

/-- Where the clock does not go back, an interval as long as a window holds at most the
hits of two windows. -/
theorem Trace.within_le (hlimit : 0 < limit) (h : Trace width limit l₀ ts l)
    (hsorted : ts.Pairwise (· ≥ ·)) (t : ℤ) : within width t ts ≤ 2 * limit := by
  rcases h.spread hlimit hsorted with hfew | ⟨-, hspread⟩
  · have := within_le_length width t ts
    omega
  · exact (hspread t).1

end Limiter

end PiDaemon.Base
