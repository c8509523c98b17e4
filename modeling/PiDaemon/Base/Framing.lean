import PiDaemon.Base.Buffer

/-!
# Length-prefixed framing

A frame is a header of a fixed size that declares the length of the body behind
it. `head` reads the first frame off a stream, `frames` reads the stream frame
by frame until it is exhausted, incomplete or over the limit, and `leftover` is
what that reading leaves. The laws say that a decision made on a prefix of the
stream stands whatever bytes follow, which is what makes incremental parsing
independent of how the bytes arrive.
-/

namespace PiDaemon.Base

variable {α : Type*}

/-- A frame layout: the header size, the declared body length, the accepted maximum. -/
structure Format (α : Type*) where
  hdrSize : ℕ
  hdrSize_pos : 0 < hdrSize
  bodyLen : List α → ℕ
  limit : ℕ

inductive Head (α : Type*)
  | short
  | oversized
  | frame (hdr body rest : List α)
  deriving DecidableEq

namespace Format

variable (F : Format α)

def head (bs : List α) : Head α :=
  if bs.length < F.hdrSize then .short
  else if F.limit < F.bodyLen (bs.take F.hdrSize) then .oversized
  else if bs.length < F.hdrSize + F.bodyLen (bs.take F.hdrSize) then .short
  else .frame (bs.take F.hdrSize) (slice bs F.hdrSize (F.bodyLen (bs.take F.hdrSize)))
    (bs.drop (F.hdrSize + F.bodyLen (bs.take F.hdrSize)))

theorem head_frame_iff {bs hdr body rest : List α} :
    F.head bs = .frame hdr body rest ↔
      bs = hdr ++ (body ++ rest) ∧ hdr.length = F.hdrSize ∧ body.length = F.bodyLen hdr ∧
        F.bodyLen hdr ≤ F.limit := by
  constructor
  · intro h
    unfold head at h
    split_ifs at h with h1 h2 h3
    cases h
    refine ⟨?_, ?_, ?_, by omega⟩
    · rw [slice, ← List.drop_drop, List.take_append_drop, List.take_append_drop]
    · simp
      omega
    · exact length_slice (by omega)
  · rintro ⟨rfl, hh, hb, hl⟩
    have ht : (hdr ++ (body ++ rest)).take F.hdrSize = hdr := by rw [← hh]; simp
    have hd : (hdr ++ (body ++ rest)).drop F.hdrSize = body ++ rest := by rw [← hh]; simp
    unfold head
    rw [if_neg (by simp; omega), ht, if_neg (by omega), if_neg (by simp; omega), slice, hd,
      ← List.drop_drop, hd, ← hb]
    simp

theorem head_append_frame {bs hdr body rest : List α} (more : List α)
    (h : F.head bs = .frame hdr body rest) :
    F.head (bs ++ more) = .frame hdr body (rest ++ more) := by
  rw [head_frame_iff] at h ⊢
  obtain ⟨rfl, hh, hb, hl⟩ := h
  exact ⟨by simp, hh, hb, hl⟩

theorem head_oversized {hdr : List α} (more : List α) (hh : hdr.length = F.hdrSize)
    (hl : F.limit < F.bodyLen hdr) : F.head (hdr ++ more) = .oversized := by
  rw [head, if_neg (by simp [hh]), List.take_left' hh, if_pos hl]

theorem head_append_oversized {bs : List α} (more : List α) (h : F.head bs = .oversized) :
    F.head (bs ++ more) = .oversized := by
  unfold head at h
  split_ifs at h with h1 h2
  have ht : (bs ++ more).take F.hdrSize = bs.take F.hdrSize :=
    List.take_append_of_le_length (by omega)
  rw [head, if_neg (by simp; omega), ht, if_pos h2]

/-- Once it is known how a stream begins, what follows does not change it. -/
theorem head_of_append_frame {bs more hdr body rest : List α} (hknown : F.head bs ≠ .short)
    (h : F.head (bs ++ more) = .frame hdr body rest) :
    ∃ rest', F.head bs = .frame hdr body rest' := by
  cases hbs : F.head bs with
  | short => exact absurd hbs hknown
  | oversized =>
    rw [F.head_append_oversized more hbs] at h
    cases h
  | frame hdr' body' rest' =>
    rw [F.head_append_frame more hbs] at h
    cases h
    exact ⟨rest', rfl⟩

theorem head_of_append_oversized {bs more : List α} (hknown : F.head bs ≠ .short)
    (h : F.head (bs ++ more) = .oversized) : F.head bs = .oversized := by
  cases hbs : F.head bs with
  | short => exact absurd hbs hknown
  | oversized => rfl
  | frame hdr body rest =>
    rw [F.head_append_frame more hbs] at h
    cases h

theorem length_of_short {bs : List α} (h : F.head bs = .short) :
    bs.length < F.hdrSize + F.limit := by
  have := F.hdrSize_pos
  unfold head at h
  split_ifs at h <;> omega

theorem head_nil : F.head ([] : List α) = .short := by
  simp [head, F.hdrSize_pos]

def readFrames : ℕ → List α → List (List α × List α) × List α
  | 0, bs => ([], bs)
  | fuel + 1, bs =>
    match F.head bs with
    | .frame hdr body rest =>
      let tail := readFrames fuel rest
      ((hdr, body) :: tail.1, tail.2)
    | _ => ([], bs)

def frames (bs : List α) : List (List α × List α) := (F.readFrames bs.length bs).1

def leftover (bs : List α) : List α := (F.readFrames bs.length bs).2

theorem rest_length_lt {bs hdr body rest : List α} (h : F.head bs = .frame hdr body rest) :
    rest.length < bs.length := by
  obtain ⟨rfl, hh, -, -⟩ := F.head_frame_iff.mp h
  have := F.hdrSize_pos
  simp
  omega

/-- Any bound at least as large as the stream reads all of it. -/
theorem readFrames_fuel (fuel : ℕ) : ∀ bs : List α, bs.length ≤ fuel →
    F.readFrames fuel bs = F.readFrames bs.length bs := by
  induction fuel using Nat.strong_induction_on with
  | _ fuel ih =>
    intro bs hbs
    match fuel, hlen : bs.length with
    | 0, n => simp [show n = 0 by omega]
    | fuel + 1, 0 =>
      rw [List.length_eq_zero_iff.mp hlen]
      simp [readFrames, F.head_nil]
    | fuel + 1, n + 1 =>
      rw [readFrames, readFrames]
      cases hh : F.head bs with
      | short => rfl
      | oversized => rfl
      | frame hdr body rest =>
        have hr := F.rest_length_lt hh
        have h1 := ih fuel (by omega) rest (by omega)
        have h2 := ih n (by omega) rest (by omega)
        simp only [h1, h2]

theorem readFrames_frame {bs hdr body rest : List α} (h : F.head bs = .frame hdr body rest) :
    F.readFrames bs.length bs =
      ((hdr, body) :: F.frames rest, F.leftover rest) := by
  have hr := F.rest_length_lt h
  obtain ⟨n, hn⟩ : ∃ n, bs.length = n + 1 := ⟨bs.length - 1, by omega⟩
  rw [hn, readFrames, h]
  simp only [F.readFrames_fuel n rest (by omega)]
  rfl

theorem frames_of_frame {bs hdr body rest : List α} (h : F.head bs = .frame hdr body rest) :
    F.frames bs = (hdr, body) :: F.frames rest := by
  rw [frames, F.readFrames_frame h]

theorem leftover_of_frame {bs hdr body rest : List α} (h : F.head bs = .frame hdr body rest) :
    F.leftover bs = F.leftover rest := by
  rw [leftover, F.readFrames_frame h]

theorem readFrames_stop {bs : List α} (h : ∀ hdr body rest, F.head bs ≠ .frame hdr body rest) :
    F.frames bs = [] ∧ F.leftover bs = bs := by
  unfold frames leftover
  cases hl : bs.length with
  | zero => simp [readFrames]
  | succ n =>
    rw [readFrames]
    cases hh : F.head bs with
    | short => simp
    | oversized => simp
    | frame hdr body rest => exact absurd hh (h hdr body rest)

theorem frames_ne_nil {bs : List α} (hne : bs ≠ []) (hleft : F.leftover bs = []) :
    F.frames bs ≠ [] := by
  intro hf
  cases hh : F.head bs with
  | frame hdr body rest => simp [F.frames_of_frame hh] at hf
  | short | oversized =>
    have h : F.leftover bs = bs := (F.readFrames_stop (by simp [hh])).2
    exact hne (h.symm.trans hleft)

end Format
end PiDaemon.Base
