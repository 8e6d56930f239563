import Mathlib.Data.List.Basic
import Mathlib.Data.List.TakeDrop

/-!
# Contiguous pieces of a list

`slice F p n` is what lies in `F` at the positions `p`, `p + 1`, ..., up to `n`
of them. Pieces that meet join to a piece, and cutting a piece gives pieces;
a prefix of a piece is determined by its length.
-/

namespace CifsClientStream.Slice

variable {α : Type*}

def slice (F : List α) (p n : ℕ) : List α := (F.drop p).take n

@[simp] theorem slice_length (F : List α) (p n : ℕ) :
    (slice F p n).length = min n (F.length - p) := by
  simp only [slice, List.length_take, List.length_drop]

@[simp] theorem slice_zero (F : List α) (p : ℕ) : slice F p 0 = [] := List.take_zero

theorem slice_full (F : List α) (p n : ℕ) (h : p + n ≤ F.length) :
    (slice F p n).length = n := by
  rw [slice_length]
  omega

theorem slice_append (F : List α) (p a b : ℕ) :
    slice F p a ++ slice F (p + a) b = slice F p (a + b) := by
  simp only [slice]
  rw [← List.drop_drop, ← List.take_add]

theorem take_slice (F : List α) (p n k : ℕ) : (slice F p n).take k = slice F p (min k n) := by
  simp only [slice, List.take_take]

theorem drop_slice (F : List α) (p n k : ℕ) : (slice F p n).drop k = slice F (p + k) (n - k) := by
  simp only [slice, List.drop_take, List.drop_drop]

theorem slice_clip (F : List α) (p n : ℕ) : slice F p n = slice F p (min n (F.length - p)) := by
  simp only [slice]
  rw [← List.length_drop, List.take_eq_take_min]

theorem eq_slice (F : List α) (p n : ℕ) (c : List α) (h : c <+: slice F p n) :
    c = slice F p c.length := by
  have hle : c.length ≤ n := by
    have := h.length_le
    rw [slice_length] at this
    omega
  rw [List.prefix_iff_eq_take] at h
  rw [take_slice, Nat.min_eq_left hle] at h
  exact h

end CifsClientStream.Slice
