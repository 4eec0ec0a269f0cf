/-
Streams of frames whose header announces their size. Every stream is in one way only a list of whole
frames and the beginning of one more, and splitting it chunk by chunk, keeping what is left over,
gives the same frames as splitting it at once.
-/
import Mathlib.Tactic

namespace Cursus.Stream

/-- A frame begins with `header` elements, and these determine its size. -/
structure Framing (α : Type) where
  header : ℕ
  size : List α → ℕ
  header_pos : 0 < header
  header_le : ∀ bs, header ≤ size bs
  size_append : ∀ bs rest, header ≤ bs.length → size (bs ++ rest) = size bs

namespace Framing

variable {α : Type} (F : Framing α)

def IsFrame (f : List α) : Prop := F.header ≤ f.length ∧ f.length = F.size f

/-- A frame is at the head. -/
def Starts (bs : List α) : Prop := F.header ≤ bs.length ∧ F.size bs ≤ bs.length

instance (bs : List α) : Decidable (F.Starts bs) := inferInstanceAs (Decidable (_ ∧ _))

/-- The beginning of a frame, and not all of it. -/
def IsIncomplete (r : List α) : Prop := ∃ f, F.IsFrame f ∧ r <+: f ∧ r ≠ f

/-- The frames of a stream and what is left. -/
structure Decomposes (bs : List α) (frames : List (List α)) (rest : List α) : Prop where
  eq : bs = frames.flatten ++ rest
  isFrame : ∀ f ∈ frames, F.IsFrame f
  isIncomplete : F.IsIncomplete rest

/-! ## Frames at the head -/

section Head

variable {F}

theorem IsFrame.size_append {f : List α} (h : F.IsFrame f) (bs : List α) : F.size (f ++ bs) = f.length := by
  rw [F.size_append f bs h.1, h.2]

theorem IsFrame.starts {f : List α} (h : F.IsFrame f) (bs : List α) : F.Starts (f ++ bs) := by
  constructor
  · rw [List.length_append]
    exact le_add_right h.1
  · rw [h.size_append, List.length_append]
    omega

theorem Starts.isFrame_take {bs : List α} (h : F.Starts bs) : F.IsFrame (bs.take (F.size bs)) := by
  have hlen : (bs.take (F.size bs)).length = F.size bs := by
    rw [List.length_take]
    exact Nat.min_eq_left h.2
  have hle : F.header ≤ (bs.take (F.size bs)).length := by
    rw [hlen]
    exact F.header_le bs
  refine ⟨hle, ?_⟩
  rw [hlen, ← F.size_append _ (bs.drop (F.size bs)) hle, List.take_append_drop]

/-- Without a frame at its head a list is the beginning of one. -/
theorem isIncomplete_of_not_starts [Inhabited α] {r : List α} (h : ¬ F.Starts r) : F.IsIncomplete r := by
  -- pad to a header, which announces a size, and then to this size
  let padded := r ++ List.replicate (F.header - r.length) default
  have hpadded : padded.length = max r.length F.header := by
    simp only [padded, List.length_append, List.length_replicate]
    omega
  have hheader := F.header_le padded
  have hlt : r.length < F.size padded := by
    by_cases hr : F.header ≤ r.length
    · -- `r` holds the header already
      have heq : padded = r := by simp [padded, Nat.sub_eq_zero_of_le hr]
      rw [heq]
      exact not_le.1 fun hle => h ⟨hr, hle⟩
    · exact lt_of_lt_of_le (not_le.1 hr) hheader
  let f := padded ++ List.replicate (F.size padded - padded.length) default
  have hflen : f.length = F.size padded := by
    simp only [f, List.length_append, List.length_replicate]
    omega
  have hsize : F.size f = F.size padded := F.size_append padded _ (by omega)
  refine ⟨f, ⟨by omega, by omega⟩, ⟨_, (List.append_assoc _ _ _).symm⟩, ?_⟩
  intro heq
  have hlen := congrArg List.length heq
  omega

theorem IsIncomplete.not_starts {r : List α} (h : F.IsIncomplete r) : ¬ F.Starts r := by
  obtain ⟨f, hf, ⟨t, rfl⟩, hne⟩ := h
  rintro ⟨hheader, hsize⟩
  have hlen := hf.2
  rw [F.size_append r t hheader, List.length_append] at hlen
  have ht : t = [] := List.length_eq_zero_iff.1 (by omega)
  exact hne (by rw [ht, List.append_nil])

end Head

/-! ## Splitting -/

/-- Take frames from the head as long as there is one. -/
def split (bs : List α) : List (List α) × List α :=
  if F.Starts bs then
    (bs.take (F.size bs) :: (split (bs.drop (F.size bs))).1, (split (bs.drop (F.size bs))).2)
  else ([], bs)
termination_by bs.length
decreasing_by
  all_goals
    rename_i h
    have := F.header_pos
    have := F.header_le bs
    have := h.2
    rw [List.length_drop]
    omega

theorem split_of_not_starts {bs : List α} (h : ¬ F.Starts bs) : F.split bs = ([], bs) := by
  unfold split
  rw [if_neg h]

theorem split_of_starts {bs : List α} (h : F.Starts bs) :
    F.split bs = (bs.take (F.size bs) :: (F.split (bs.drop (F.size bs))).1, (F.split (bs.drop (F.size bs))).2) := by
  rw [split, if_pos h]

theorem split_frame_append {f : List α} (h : F.IsFrame f) (bs : List α) :
    F.split (f ++ bs) = (f :: (F.split bs).1, (F.split bs).2) := by
  rw [F.split_of_starts (h.starts bs), h.size_append, List.take_left, List.drop_left]

theorem split_flatten_append :
    ∀ {frames : List (List α)}, (∀ f ∈ frames, F.IsFrame f) → ∀ bs,
      F.split (frames.flatten ++ bs) = (frames ++ (F.split bs).1, (F.split bs).2)
  | [], _, bs => by simp
  | f :: frames, h, bs => by
    rw [List.forall_mem_cons] at h
    rw [List.flatten_cons, List.append_assoc, F.split_frame_append h.1, split_flatten_append h.2]
    rfl

theorem not_starts_split (bs : List α) : ¬ F.Starts (F.split bs).2 := by
  fun_induction split F bs with
  | case1 bs h ih => exact ih
  | case2 bs h => exact h

theorem split_sound (bs : List α) :
    bs = (F.split bs).1.flatten ++ (F.split bs).2 ∧ ∀ f ∈ (F.split bs).1, F.IsFrame f := by
  fun_induction split F bs with
  | case1 bs h ih =>
    constructor
    · rw [List.flatten_cons, List.append_assoc, ← ih.1, List.take_append_drop]
    · rw [List.forall_mem_cons]
      exact ⟨h.isFrame_take, ih.2⟩
  | case2 bs h => simp

theorem decomposes_split [Inhabited α] (bs : List α) : F.Decomposes bs (F.split bs).1 (F.split bs).2 :=
  ⟨(F.split_sound bs).1, (F.split_sound bs).2, isIncomplete_of_not_starts (F.not_starts_split bs)⟩

/-- A stream has one decomposition. -/
theorem Decomposes.eq_split {F : Framing α} {bs : List α} {frames : List (List α)} {rest : List α}
    (h : F.Decomposes bs frames rest) : F.split bs = (frames, rest) := by
  rw [h.eq, F.split_flatten_append h.isFrame, F.split_of_not_starts h.isIncomplete.not_starts, List.append_nil]

/-- A stream that comes in two parts has the frames of the first, and those of the second behind what
was left of the first. -/
theorem split_append (a b : List α) :
    F.split (a ++ b) =
      ((F.split a).1 ++ (F.split ((F.split a).2 ++ b)).1, (F.split ((F.split a).2 ++ b)).2) := by
  obtain ⟨heq, hframes⟩ := F.split_sound a
  conv_lhs => rw [heq]
  rw [List.append_assoc, F.split_flatten_append hframes]

end Framing

end Cursus.Stream
