import Mathlib.Data.List.Sort

/-!
# Sorting a list by a key

A comparison `cmp` of keys that is oriented and transitive sorts a list of
records by a key of theirs. A record with the smaller key stands first wherever
it occurs; where records of equal keys are equal, the outcome is one and the
same for every arrangement of the input.
-/

namespace CifsClientStream.KeySort

variable {α κ : Type*} {cmp : κ → κ → Ordering}

theorem compareLex_append_left [Std.ReflCmp cmp] (common xs ys : List κ) :
    List.compareLex cmp (common ++ xs) (common ++ ys) = List.compareLex cmp xs ys := by
  induction common with
  | nil => rfl
  | cons k common ih =>
    simp only [List.cons_append, List.compareLex_cons_cons, Std.ReflCmp.compare_self, ih]
    rfl

theorem compareLex_cons_lt {k k' : κ} (h : cmp k k' = .lt) (xs ys : List κ) :
    List.compareLex cmp (k :: xs) (k' :: ys) = .lt := by
  rw [List.compareLex_cons_cons, h]
  rfl

/-- Every occurrence of `a` stands before every occurrence of `b`. -/
def Before (xs : List α) (a b : α) : Prop :=
  ∀ i j : ℕ, xs[i]? = some a → xs[j]? = some b → i < j

variable [Std.TransCmp cmp] {key : α → κ}

variable (cmp key) in
theorem transCmp_key : Std.TransCmp fun a b : α => cmp (key a) (key b) where
  eq_swap := Std.OrientedCmp.eq_swap
  isLE_trans := Std.TransCmp.isLE_trans

variable (cmp key) in
theorem pairwise_sort (xs : List α) :
    (xs.insertionSort fun a b => cmp (key a) (key b) ≠ .gt).Pairwise
      fun a b => cmp (key a) (key b) ≠ .gt := by
  have htotal : Std.Total fun a b : α => cmp (key a) (key b) ≠ .gt := by
    constructor
    intro a b
    by_cases h : cmp (key a) (key b) = .gt
    · right
      rw [Std.OrientedCmp.lt_of_gt h]
      intro hgt
      cases hgt
    · exact Or.inl h
  have htrans : IsTrans α fun a b => cmp (key a) (key b) ≠ .gt := by
    constructor
    intro a b c hab hbc
    rw [ne_eq, ← Ordering.isLE_iff_ne_gt] at hab hbc ⊢
    exact Std.TransCmp.isLE_trans hab hbc
  exact List.pairwise_insertionSort _ xs

theorem before_of_lt (xs : List α) {a b : α} (h : cmp (key a) (key b) = .lt) :
    Before (xs.insertionSort fun a b => cmp (key a) (key b) ≠ .gt) a b := by
  intro i j hi hj
  have hsorted := pairwise_sort cmp key xs
  rcases Nat.lt_trichotomy i j with hlt | heq | hgt
  · exact hlt
  · rw [heq, hj, Option.some.injEq] at hi
    have hself : cmp (key b) (key b) = .eq := Std.ReflCmp.compare_self
    rw [← hi, hself] at h
    cases h
  · obtain ⟨hjl, hjb⟩ := List.getElem?_eq_some_iff.mp hj
    obtain ⟨hil, hia⟩ := List.getElem?_eq_some_iff.mp hi
    have hle := List.pairwise_iff_getElem.mp hsorted j i hjl hil hgt
    rw [hjb, hia] at hle
    exact absurd (Std.OrientedCmp.gt_of_lt h) hle

theorem sort_eq_of_perm {xs ys : List α} (hperm : xs.Perm ys)
    (hkey : ∀ a ∈ xs, ∀ b ∈ xs, cmp (key a) (key b) = .eq → a = b) :
    (xs.insertionSort fun a b => cmp (key a) (key b) ≠ .gt) =
      ys.insertionSort fun a b => cmp (key a) (key b) ≠ .gt := by
  have hx := List.perm_insertionSort (fun a b => cmp (key a) (key b) ≠ .gt) xs
  have hy := List.perm_insertionSort (fun a b => cmp (key a) (key b) ≠ .gt) ys
  have hxy := hx.trans (hperm.trans hy.symm)
  apply hxy.eq_of_pairwise
  · intro a b ha hb hab hba
    have hbx : b ∈ xs := hperm.mem_iff.mpr (hy.mem_iff.mp hb)
    apply hkey a (hx.mem_iff.mp ha) b hbx
    cases hcmp : cmp (key a) (key b) with
    | eq => rfl
    | lt => exact absurd (Std.OrientedCmp.gt_of_lt hcmp) hba
    | gt => exact absurd hcmp hab
  · exact pairwise_sort cmp key xs
  · exact pairwise_sort cmp key ys

end CifsClientStream.KeySort
