import CifsClientStream.Lib.Slice
import Mathlib.Algebra.Ring.Nat
import Mathlib.Data.List.Sort

/-!
# Fragments that tile an interval

A fragment is a piece of a sequence with the position it belongs at. Fragments
tile an interval when each position lies in exactly one of them. Put in order
they are then contiguous (`tiles_contiguous`), and the sequence they make up is
the only one that has every fragment at its place (`Holds.unique`).
-/

namespace CifsClientStream.Tiling
open Slice

variable {α : Type*}

structure Tiles (lo hi : ℕ) (fs : List (ℕ × List α)) : Prop where
  le : lo ≤ hi
  inside : ∀ f ∈ fs, lo ≤ f.1 ∧ f.1 + f.2.length ≤ hi
  covered : ∀ i, lo ≤ i → i < hi → ∃ f ∈ fs, f.1 ≤ i ∧ i < f.1 + f.2.length
  disjoint : fs.Pairwise fun f g => f.1 + f.2.length ≤ g.1 ∨ g.1 + g.2.length ≤ f.1

/-- The sequence has every fragment at its place. -/
def Holds (fs : List (ℕ × List α)) (b : List α) : Prop :=
  ∀ f ∈ fs, slice b f.1 f.2.length = f.2

/-- Each fragment begins where the one before it ends. -/
def Contiguous : ℕ → List (ℕ × List α) → Prop
  | _, [] => True
  | lo, f :: fs => f.1 = lo ∧ Contiguous (lo + f.2.length) fs

def size (fs : List (ℕ × List α)) : ℕ := (fs.map (·.2.length)).sum

def joined (fs : List (ℕ × List α)) : List α := (fs.map Prod.snd).flatten

@[simp] theorem size_nil : size ([] : List (ℕ × List α)) = 0 := rfl

@[simp] theorem size_cons (f : ℕ × List α) (fs : List (ℕ × List α)) :
    size (f :: fs) = f.2.length + size fs := by
  simp [size]

@[simp] theorem size_append (fs gs : List (ℕ × List α)) : size (fs ++ gs) = size fs + size gs := by
  simp [size]

@[simp] theorem joined_nil : joined ([] : List (ℕ × List α)) = [] := rfl

@[simp] theorem joined_cons (f : ℕ × List α) (fs : List (ℕ × List α)) :
    joined (f :: fs) = f.2 ++ joined fs := by
  simp [joined]

theorem joined_length (fs : List (ℕ × List α)) : (joined fs).length = size fs := by
  induction fs with
  | nil => rfl
  | cons f fs ih => simp [ih]

variable {lo hi : ℕ} {fs gs : List (ℕ × List α)}

/-! ### The order does not matter -/

theorem size_perm (h : fs.Perm gs) : size fs = size gs := (h.map _).sum_nat

theorem Tiles.perm (h : fs.Perm gs) (ht : Tiles lo hi fs) : Tiles lo hi gs := by
  refine ⟨ht.le, fun f hf => ht.inside f (h.mem_iff.mpr hf), fun i h1 h2 => ?_, ?_⟩
  · obtain ⟨f, hf, hi⟩ := ht.covered i h1 h2
    exact ⟨f, h.mem_iff.mp hf, hi⟩
  · exact ht.disjoint.perm h Or.symm

theorem Holds.perm {b : List α} (h : fs.Perm gs) (hb : Holds fs b) : Holds gs b :=
  fun f hf => hb f (h.mem_iff.mpr hf)

/-- Two fragments that are not empty do not begin at the same position. -/
theorem Tiles.nodup (h : Tiles lo hi fs) (hne : ∀ f ∈ fs, f.2 ≠ []) :
    (fs.map Prod.fst).Nodup := by
  rw [List.Nodup, List.pairwise_map]
  refine h.disjoint.imp_of_mem fun {f g} hf hg hd he => ?_
  have hf' := List.length_pos_of_ne_nil (hne f hf)
  have hg' := List.length_pos_of_ne_nil (hne g hg)
  omega

/-! ### Fragments in order -/

theorem contiguous_tiles (h : Contiguous lo fs) : Tiles lo (lo + size fs) fs := by
  induction fs generalizing lo with
  | nil =>
    refine ⟨le_rfl, fun f hf => absurd hf List.not_mem_nil, fun i h1 h2 => ?_, .nil⟩
    rw [size_nil] at h2
    omega
  | cons f fs ih =>
    obtain ⟨hf, hrest⟩ := h
    have ht := ih hrest
    rw [size_cons]
    refine ⟨by omega, fun g hg => ?_, fun i h1 h2 => ?_, List.pairwise_cons.mpr ⟨fun g hg => ?_,
      ht.disjoint⟩⟩
    · rcases List.mem_cons.mp hg with rfl | hg
      · omega
      · have := ht.inside g hg
        omega
    · by_cases hi : i < lo + f.2.length
      · exact ⟨f, List.mem_cons_self, by omega, by omega⟩
      · obtain ⟨g, hg, hgi⟩ := ht.covered i (by omega) (by omega)
        exact ⟨g, List.mem_cons_of_mem f hg, hgi⟩
    · have := ht.inside g hg
      omega

/-- Tiles in order, none of them empty, are contiguous. -/
theorem tiles_contiguous (h : Tiles lo hi fs) (hsorted : fs.Pairwise fun f g => f.1 ≤ g.1)
    (hne : ∀ f ∈ fs, f.2 ≠ []) : Contiguous lo fs ∧ hi = lo + size fs := by
  induction fs generalizing lo with
  | nil =>
    refine ⟨trivial, ?_⟩
    rw [size_nil]
    by_contra hlt
    have hle := h.le
    obtain ⟨f, hf, _⟩ := h.covered lo le_rfl (by omega)
    exact absurd hf List.not_mem_nil
  | cons f fs ih =>
    obtain ⟨hfirst, hsorted'⟩ := List.pairwise_cons.mp hsorted
    obtain ⟨hdisjoint, hdisjoint'⟩ := List.pairwise_cons.mp h.disjoint
    have hlen := List.length_pos_of_ne_nil (hne f List.mem_cons_self)
    have hin := h.inside f List.mem_cons_self
    -- the fragment with the first position is the first one
    have hstart : f.1 = lo := by
      obtain ⟨g, hg, hle, _⟩ := h.covered lo le_rfl (by omega)
      rcases List.mem_cons.mp hg with rfl | hg
      · omega
      · have := hfirst g hg
        omega
    have hbehind : ∀ g ∈ fs, f.1 + f.2.length ≤ g.1 := by
      intro g hg
      have hlen' := List.length_pos_of_ne_nil (hne g (List.mem_cons_of_mem f hg))
      have := hfirst g hg
      rcases hdisjoint g hg with hd | hd
      · exact hd
      · omega
    have hrest : Tiles (lo + f.2.length) hi fs := by
      refine ⟨by omega, fun g hg => ?_, fun i h1 h2 => ?_, hdisjoint'⟩
      · have := hbehind g hg
        have := h.inside g (List.mem_cons_of_mem f hg)
        omega
      · obtain ⟨g, hg, hgi⟩ := h.covered i (by omega) h2
        rcases List.mem_cons.mp hg with rfl | hg
        · omega
        · exact ⟨g, hg, hgi⟩
    obtain ⟨hcont, hhi⟩ := ih hrest hsorted' fun g hg => hne g (List.mem_cons_of_mem f hg)
    rw [size_cons]
    exact ⟨⟨hstart, hcont⟩, by omega⟩

theorem contiguous_holds (h : Contiguous lo fs) (before : List α) (hb : before.length = lo) :
    Holds fs (before ++ joined fs) := by
  induction fs generalizing lo before with
  | nil => exact fun f hf => absurd hf List.not_mem_nil
  | cons f fs ih =>
    obtain ⟨hf, hrest⟩ := h
    rw [joined_cons]
    intro g hg
    rcases List.mem_cons.mp hg with rfl | hg
    · rw [hf, ← hb, slice, List.drop_left, List.take_left]
    · rw [← List.append_assoc]
      exact ih hrest (before ++ f.2) (by rw [List.length_append]; omega) g hg

/-! ### The sequence -/

theorem Holds.unique {n : ℕ} (ht : Tiles 0 n fs) {b b' : List α} (hb : Holds fs b)
    (hb' : Holds fs b') (hlen : b.length = n) (hlen' : b'.length = n) : b = b' := by
  apply List.ext_getElem?
  intro i
  by_cases hi : i < n
  · obtain ⟨f, hf, hle, hlt⟩ := ht.covered i (Nat.zero_le i) hi
    have hat : ∀ l : List α, slice l f.1 f.2.length = f.2 → l[i]? = f.2[i - f.1]? := by
      intro l hl
      have hget := congrArg (fun l => l[i - f.1]?) hl
      dsimp only [slice] at hget
      rw [List.getElem?_take_of_lt (by omega), List.getElem?_drop,
        Nat.add_sub_cancel' hle] at hget
      exact hget
    rw [hat b (hb f hf), hat b' (hb' f hf)]
  · rw [List.getElem?_eq_none (by omega), List.getElem?_eq_none (by omega)]

/-! ### Sorting -/

def sorted (fs : List (ℕ × List α)) : List (ℕ × List α) :=
  fs.insertionSort fun f g => f.1 ≤ g.1

theorem sorted_perm (fs : List (ℕ × List α)) : (sorted fs).Perm fs := List.perm_insertionSort _ fs

theorem sorted_pairwise (fs : List (ℕ × List α)) :
    (sorted fs).Pairwise fun f g => f.1 ≤ g.1 := by
  have htotal : Std.Total fun f g : ℕ × List α => f.1 ≤ g.1 := ⟨fun f g => Nat.le_total f.1 g.1⟩
  have htrans : IsTrans (ℕ × List α) fun f g => f.1 ≤ g.1 := ⟨fun _ _ _ h h' => h.trans h'⟩
  exact List.pairwise_insertionSort _ fs

theorem tiles_iff_sorted (hne : ∀ f ∈ fs, f.2 ≠ []) :
    Tiles lo hi fs ↔ Contiguous lo (sorted fs) ∧ hi = lo + size fs := by
  have hperm := sorted_perm fs
  rw [← size_perm hperm]
  constructor
  · intro h
    exact tiles_contiguous (h.perm hperm.symm) (sorted_pairwise fs) fun f hf =>
      hne f (hperm.mem_iff.mp hf)
  · rintro ⟨h, rfl⟩
    exact (contiguous_tiles h).perm hperm

/-- Fragments at different positions are sorted in one way only. -/
theorem sorted_unique (h : fs.Perm gs) (hd : (fs.map Prod.fst).Nodup) : sorted fs = sorted gs := by
  have hp : (sorted fs).Perm (sorted gs) :=
    (sorted_perm fs).trans (h.trans (sorted_perm gs).symm)
  refine hp.eq_of_pairwise (fun f g hf hg hle hge => ?_) (sorted_pairwise fs) (sorted_pairwise gs)
  have hf' : f ∈ fs := (sorted_perm fs).mem_iff.mp hf
  have hg' : g ∈ fs := h.mem_iff.mpr ((sorted_perm gs).mem_iff.mp hg)
  exact List.inj_on_of_nodup_map hd hf' hg' (Nat.le_antisymm hle hge)

end CifsClientStream.Tiling
