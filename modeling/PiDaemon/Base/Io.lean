import Mathlib.Tactic

/-!
# Partial and interrupted transfers

`read()` and `write()` may move fewer bytes than asked for, be interrupted, or
fail. A caller that wants a whole buffer calls them in a loop. The kernel's
answers are a list; once it is used up every call moves all it is asked to.
-/

namespace PiDaemon.Base

/-- What `write()` or `read()` can return: a byte count, or an error by its `errno` class. -/
inductive IoResult
  | bytes (n : ℕ)
  | intr
  | fail
  deriving DecidableEq, Repr

structure ReadOut where
  data : List UInt8
  rest : List UInt8
  script : List IoResult
  failed : Bool
  deriving DecidableEq, Repr

/-- Read `want` bytes off `rest`, or fewer at the end of the stream. -/
def readLoop : ℕ → List UInt8 → List IoResult → ReadOut
  | want, rest, [] => ⟨rest.take want, rest.drop want, [], false⟩
  | want, rest, r :: rs =>
    if want = 0 then ⟨[], rest, r :: rs, false⟩
    else
      match r with
      | .intr => readLoop want rest rs
      | .fail => ⟨[], rest, rs, true⟩
      | .bytes n =>
        let n := min (max n 1) want
        if rest = [] then ⟨[], [], rs, false⟩
        else
          let out := readLoop (want - n) (rest.drop n) rs
          { out with data := rest.take n ++ out.data }

/-- The loop moves bytes from the front of the stream and loses none. -/
theorem readLoop_append (rs : List IoResult) : ∀ (want : ℕ) (rest : List UInt8),
    (readLoop want rest rs).data ++ (readLoop want rest rs).rest = rest := by
  induction rs with
  | nil => exact fun want rest => List.take_append_drop want rest
  | cons r rs ih =>
    intro want rest
    by_cases hw : want = 0
    · simp [readLoop, hw]
    · cases r with
      | intr => simpa [readLoop, hw] using ih want rest
      | fail => simp [readLoop, hw]
      | bytes n =>
        by_cases hrest : rest = []
        · simp [readLoop, hw, hrest]
        · simp only [readLoop, hw, hrest, if_false, List.append_assoc]
          rw [ih, List.take_append_drop]

theorem readLoop_data (rs : List IoResult) : ∀ (want : ℕ) (rest : List UInt8),
    (readLoop want rest rs).failed = false → (readLoop want rest rs).data = rest.take want := by
  induction rs with
  | nil => exact fun want rest _ => rfl
  | cons r rs ih =>
    intro want rest
    by_cases hw : want = 0
    · simp [readLoop, hw]
    · cases r with
      | intr => simpa [readLoop, hw] using ih want rest
      | fail => simp [readLoop, hw]
      | bytes n =>
        by_cases hrest : rest = []
        · simp [readLoop, hw, hrest]
        · simp only [readLoop, hw, hrest, if_false]
          intro hok
          rw [ih _ _ hok, ← List.take_add]
          congr 1
          omega

theorem readLoop_ok {rs : List IoResult} (h : IoResult.fail ∉ rs) :
    ∀ (want : ℕ) (rest : List UInt8), (readLoop want rest rs).failed = false ∧
      IoResult.fail ∉ (readLoop want rest rs).script := by
  induction rs with
  | nil => exact fun _ _ => ⟨rfl, by simp [readLoop]⟩
  | cons r rs ih =>
    intro want rest
    obtain ⟨hr, hrs⟩ := not_or.mp (List.mem_cons.not.mp h)
    by_cases hw : want = 0
    · simpa [readLoop, hw] using not_or.mp (List.mem_cons.not.mp h)
    · cases r with
      | intr => simpa [readLoop, hw] using ih hrs want rest
      | fail => exact absurd rfl hr
      | bytes n =>
        by_cases hrest : rest = []
        · simpa [readLoop, hw, hrest] using hrs
        · simpa only [readLoop, hw, hrest, if_false] using ih hrs _ _

/-- Write all of `bs`: what is written, the answers left, and whether the loop
succeeds. A `write()` that writes nothing is an error if `zeroFails`, and else
tried again. -/
def writeFully (zeroFails : Bool) : List UInt8 → List IoResult → List UInt8 × List IoResult × Bool
  | bs, [] => (bs, [], true)
  | bs, r :: rs =>
    if bs = [] then ([], r :: rs, true)
    else
      match r with
      | .intr => writeFully zeroFails bs rs
      | .fail => ([], rs, false)
      | .bytes n =>
        if n = 0 ∧ zeroFails then ([], rs, false)
        else
          let out := writeFully zeroFails (bs.drop n) rs
          (bs.take n ++ out.1, out.2)

def Writable (zeroFails : Bool) (rs : List IoResult) : Prop :=
  IoResult.fail ∉ rs ∧ (zeroFails = true → IoResult.bytes 0 ∉ rs)

theorem Writable.tail {zeroFails : Bool} {r : IoResult} {rs : List IoResult}
    (h : Writable zeroFails (r :: rs)) : Writable zeroFails rs :=
  ⟨fun hm => h.1 (by simp [hm]), fun hz hm => h.2 hz (by simp [hm])⟩

theorem writeFully_spec {zeroFails : Bool} (rs : List IoResult) :
    ∀ bs : List UInt8, Writable zeroFails rs →
      ∃ rs', Writable zeroFails rs' ∧ writeFully zeroFails bs rs = (bs, rs', true) := by
  induction rs with
  | nil => exact fun bs h => ⟨[], h, rfl⟩
  | cons r rs ih =>
    intro bs h
    by_cases hbs : bs = []
    · exact ⟨r :: rs, h, by simp [writeFully, hbs]⟩
    · cases r with
      | intr => simpa [writeFully, hbs] using ih bs h.tail
      | fail => exact absurd (by simp) h.1
      | bytes n =>
        have hn : ¬(n = 0 ∧ zeroFails = true) := by
          rintro ⟨rfl, hz⟩
          exact h.2 hz (by simp)
        obtain ⟨rs', hrs', heq⟩ := ih (bs.drop n) h.tail
        refine ⟨rs', hrs', ?_⟩
        rw [writeFully, if_neg hbs]
        simp only [if_neg hn, heq, List.take_append_drop]

end PiDaemon.Base
