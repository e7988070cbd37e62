import Mathlib.Data.List.TakeDrop
import Mathlib.Data.Nat.Notation

/-!
# Streams of frames

A frame is a payload behind a header of a fixed width that says its length; payloads are neither
empty nor longer than `max`.  What can be read off a stream is the longest list of payloads whose
frames it starts with, and reading one frame after the other finds it.
-/

/-- How lengths up to `max` are written in a header. -/
structure Framing (α : Type) (max : ℕ) where
  width : ℕ
  write : ℕ → List α
  read : List α → ℕ
  length_write : ∀ n, n ≤ max → (write n).length = width
  read_write : ∀ n, n ≤ max → read (write n) = n
  write_read : ∀ h, h.length = width → read h ≤ max → write (read h) = h

namespace Framing

variable {α : Type} {max : ℕ} (F : Framing α max) {b rest : List α} {p : List α}
  {ps qs : List (List α)}

def frame (p : List α) : List α := F.write p.length ++ p

/-- The payloads that are framed. -/
def Fits (max : ℕ) (p : List α) : Prop := 1 ≤ p.length ∧ p.length ≤ max

instance (p : List α) : Decidable (Fits max p) := inferInstanceAs (Decidable (_ ∧ _))

/-- The first payload of a stream and what comes behind it. -/
def split (b : List α) : Option (List α × List α) :=
  let body := b.drop F.width
  let size := F.read (b.take F.width)
  if F.width ≤ b.length ∧ 1 ≤ size ∧ size ≤ max ∧ size ≤ body.length then
    some (body.take size, body.drop size)
  else none

theorem split_eq_some_iff : F.split b = some (p, rest) ↔ Fits max p ∧ b = F.frame p ++ rest := by
  unfold split frame
  dsimp only
  constructor
  · intro h
    split_ifs at h with hcond
    obtain ⟨hwidth, hpos, hmax, hbody⟩ := hcond
    cases h
    have hlength : ((b.drop F.width).take (F.read (b.take F.width))).length =
        F.read (b.take F.width) := List.length_take_of_le hbody
    refine ⟨⟨by rwa [hlength], by rwa [hlength]⟩, ?_⟩
    rw [hlength, F.write_read _ (List.length_take_of_le hwidth) hmax, List.append_assoc,
      List.take_append_drop, List.take_append_drop]
  · rintro ⟨⟨hpos, hmax⟩, rfl⟩
    have hwidth := F.length_write p.length hmax
    rw [List.append_assoc, List.take_left' hwidth, List.drop_left' hwidth,
      F.read_write p.length hmax, List.take_left' rfl, List.drop_left' rfl, if_pos]
    refine ⟨?_, hpos, hmax, ?_⟩
    · rw [List.length_append, hwidth]
      exact Nat.le_add_right _ _
    · rw [List.length_append]
      exact Nat.le_add_right _ _

theorem length_lt_of_split (h : F.split b = some (p, rest)) : rest.length < b.length := by
  obtain ⟨⟨hpos, -⟩, rfl⟩ := F.split_eq_some_iff.1 h
  rw [frame, List.length_append, List.length_append]
  omega

/-- The payloads at the front of a stream. -/
def frames (b : List α) : List (List α) :=
  match _h : F.split b with
  | none => []
  | some (p, rest) => p :: frames rest
termination_by b.length
decreasing_by exact F.length_lt_of_split _h

theorem frames_of_none (h : F.split b = none) : F.frames b = [] := by
  rw [frames]
  split
  · rfl
  · rename_i h'
    rw [h] at h'
    cases h'

theorem frames_of_some (h : F.split b = some (p, rest)) : F.frames b = p :: F.frames rest := by
  rw [frames]
  split
  · rename_i h'
    rw [h] at h'
    cases h'
  · rename_i p' rest' h'
    rw [h] at h'
    cases h'
    rfl

theorem frames_frame_append (hp : Fits max p) (rest : List α) :
    F.frames (F.frame p ++ rest) = p :: F.frames rest :=
  F.frames_of_some (F.split_eq_some_iff.2 ⟨hp, rfl⟩)

/-- A stream of frames and nothing else gives the payloads back. -/
theorem frames_flatMap (hps : ∀ p ∈ ps, Fits max p) (rest : List α) :
    F.frames (ps.flatMap F.frame ++ rest) = ps ++ F.frames rest := by
  induction ps with
  | nil => rfl
  | cons p ps ih =>
    rw [List.flatMap_cons, List.append_assoc,
      F.frames_frame_append (hps p List.mem_cons_self),
      ih fun q hq => hps q (List.mem_cons_of_mem p hq), List.cons_append]

/-- The payloads of the longest list of frames at the front of the stream. -/
structure Longest (b : List α) (ps : List (List α)) : Prop where
  fits : ∀ p ∈ ps, Fits max p
  isPrefix : ps.flatMap F.frame <+: b
  longest : ∀ qs, (∀ q ∈ qs, Fits max q) → qs.flatMap F.frame <+: b → qs <+: ps

theorem longest_frames (b : List α) : F.Longest b (F.frames b) := by
  have hfront : (∀ p ∈ F.frames b, Fits max p) ∧ (F.frames b).flatMap F.frame <+: b := by
    induction b using frames.induct F with
    | case1 b h =>
      rw [F.frames_of_none h]
      exact ⟨fun p hp => absurd hp List.not_mem_nil, List.nil_prefix⟩
    | case2 b p rest h ih =>
      obtain ⟨hp, e⟩ := F.split_eq_some_iff.1 h
      rw [F.frames_of_some h]
      refine ⟨fun q hq => ?_, ?_⟩
      · rcases List.mem_cons.1 hq with rfl | hq
        · exact hp
        · exact ih.1 q hq
      · rw [List.flatMap_cons, e]
        exact (List.prefix_append_right_inj _).2 ih.2
  refine ⟨hfront.1, hfront.2, ?_⟩
  rintro qs hqs ⟨rest, rfl⟩
  rw [F.frames_flatMap hqs]
  exact List.prefix_append qs _

/-! ## What is left of a stream -/

theorem split_of_short (h : b.length < F.width) : F.split b = none :=
  if_neg fun hcond => absurd hcond.1 (Nat.not_le.2 h)

/-- The front of a stream is read in two steps: the header, then as much as it says. -/
theorem split_of_header {size : ℕ} (hwidth : F.width ≤ b.length)
    (hsize : F.read (b.take F.width) = size) :
    F.split b = if 1 ≤ size ∧ size ≤ max ∧ size ≤ (b.drop F.width).length then
      some ((b.drop F.width).take size, (b.drop F.width).drop size) else none := by
  unfold split
  dsimp only
  rw [hsize]
  simp only [hwidth, true_and]

end Framing
