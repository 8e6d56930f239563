import Mathlib.Data.List.Basic
import Mathlib.Data.List.TakeWhile

/-!
# Maximal blocks of a list

A Boolean class `p` of the elements cuts a list into its maximal blocks: each
block is not empty and of one class, and what follows it starts with the other
class. Every list has exactly one such cut, and cuts of two lists join where
the classes on both sides of the seam differ.
-/

namespace CifsClientStream.Blocks

variable {α : Type*} (p : α → Bool)

inductive Cut : List α → List (List α) → Prop
  | nil : Cut [] []
  | block {b : Bool} {block rest : List α} {blocks : List (List α)} :
    block ≠ [] → (∀ x ∈ block, p x = b) → (∀ x ∈ rest.head?, p x = !b) → Cut rest blocks →
      Cut (block ++ rest) (block :: blocks)

variable {p}

theorem takeWhile_class (b : Bool) {block rest : List α} (hblock : ∀ x ∈ block, p x = b)
    (hrest : ∀ x ∈ rest.head?, p x = !b) :
    (block ++ rest).takeWhile (fun x => p x == b) = block ∧
      (block ++ rest).dropWhile (fun x => p x == b) = rest := by
  induction block with
  | nil =>
    cases rest with
    | nil => simp
    | cons y ys =>
      have hy : p y = !b := hrest y rfl
      simp [hy]
  | cons x xs ih =>
    have hx : p x = b := hblock x List.mem_cons_self
    have hxs := ih fun y hy => hblock y (List.mem_cons_of_mem _ hy)
    simp [hx, hxs]

theorem Cut.flatten {xs : List α} {blocks : List (List α)} (h : Cut p xs blocks) :
    blocks.flatten = xs := by
  induction h with
  | nil => rfl
  | block _ _ _ _ ih => rw [List.flatten_cons, ih]

theorem Cut.ne_nil {xs block : List α} {blocks : List (List α)} (h : Cut p xs blocks)
    (hmem : block ∈ blocks) : block ≠ [] := by
  induction h with
  | nil => cases hmem
  | block hne _ _ _ ih =>
    cases hmem with
    | head => exact hne
    | tail _ hlater => exact ih hlater

theorem Cut.mem_class {xs block : List α} {blocks : List (List α)} (h : Cut p xs blocks)
    (hmem : block ∈ blocks) : ∃ b, ∀ x ∈ block, p x = b := by
  induction h with
  | nil => cases hmem
  | @block b _ _ _ _ hblock _ _ ih =>
    cases hmem with
    | head => exact ⟨b, hblock⟩
    | tail _ hlater => exact ih hlater

theorem Cut.unique {xs : List α} {blocks blocks' : List (List α)} (h : Cut p xs blocks)
    (h' : Cut p xs blocks') : blocks = blocks' := by
  induction h generalizing blocks' with
  | nil =>
    cases hb : blocks' with
    | nil => rfl
    | cons block rest =>
      have hflat := h'.flatten
      have hne := h'.ne_nil (hb ▸ List.mem_cons_self)
      rw [hb, List.flatten_cons, List.append_eq_nil_iff] at hflat
      exact absurd hflat.1 hne
  | @block b block rest blocks hne hblock hrest hcut ih =>
    generalize hxs : block ++ rest = xs at h'
    cases h' with
    | nil => exact absurd (List.append_eq_nil_iff.mp hxs).1 hne
    | @block b' block' rest' blocks' hne' hblock' hrest' hcut' =>
      have hb : b = b' := by
        cases block with
        | nil => exact absurd rfl hne
        | cons x _ =>
          cases block' with
          | nil => exact absurd rfl hne'
          | cons y _ =>
            have hxy : x = y := (List.cons.inj hxs).1
            rw [← hblock x List.mem_cons_self, ← hblock' y List.mem_cons_self, hxy]
      have hsplit := takeWhile_class b hblock hrest
      have hsplit' := takeWhile_class b (hb ▸ hblock') (hb ▸ hrest')
      rw [hxs] at hsplit
      have hblocks : block = block' := hsplit.1.symm.trans hsplit'.1
      have hrests : rest = rest' := hsplit.2.symm.trans hsplit'.2
      rw [hblocks, ih (hrests ▸ hcut')]

theorem exists_cut (xs : List α) : ∃ blocks, Cut p xs blocks := by
  induction hn : xs.length using Nat.strongRecOn generalizing xs with
  | ind n ih =>
    cases xs with
    | nil => exact ⟨[], .nil⟩
    | cons x xs =>
      set after := (x :: xs).dropWhile fun y => p y == p x with hafter
      have hshort : after.length < n := by
        have hle := List.length_dropWhile_le (fun y => p y == p x) xs
        simp only [hafter, List.dropWhile_cons, beq_self_eq_true, if_true]
        simp only [List.length_cons] at hn
        omega
      obtain ⟨blocks, hcut⟩ := ih after.length hshort after rfl
      have hjoin : (x :: xs).takeWhile (fun y => p y == p x) ++ after = x :: xs :=
        List.takeWhile_append_dropWhile
      have hclass : ∀ y ∈ (x :: xs).takeWhile (fun y => p y == p x), p y = p x := by
        intro y hy
        have := List.mem_takeWhile_imp hy
        simpa using this
      have hhead : ∀ y ∈ after.head?, p y = !p x := by
        intro y hy
        have hstop := List.head?_dropWhile_not (fun y => p y == p x) (x :: xs)
        rw [← hafter, Option.mem_def.mp hy] at hstop
        have hne : p y ≠ p x := by simpa using hstop
        exact Bool.eq_not.mpr hne
      have hblock : (x :: xs).takeWhile (fun y => p y == p x) ≠ [] := by simp
      have hall := Cut.block hblock hclass hhead hcut
      rw [hjoin] at hall
      exact ⟨_, hall⟩

/-- Two cuts join at a seam between different classes. -/
theorem Cut.append {xs ys : List α} {blocks blocks' : List (List α)} (h : Cut p xs blocks)
    (h' : Cut p ys blocks') (hseam : ∀ x ∈ xs.getLast?, ∀ y ∈ ys.head?, p y = !p x) :
    Cut p (xs ++ ys) (blocks ++ blocks') := by
  induction h with
  | nil => exact h'
  | @block b block rest blocks hne hblock hrest _ ih =>
    rw [List.append_assoc, List.cons_append]
    cases rest with
    | nil =>
      have hcut := ih fun x hx => by cases hx
      refine .block hne hblock ?_ hcut
      intro y hy
      have hx := List.getLast?_eq_some_getLast hne
      have hxb := hblock _ (List.getLast_mem hne)
      rw [← hxb]
      exact hseam _ (by simpa using hx) y hy
    | cons z zs =>
      refine .block hne hblock hrest (ih ?_)
      intro x hx
      refine hseam x ?_
      rw [List.getLast?_append, Option.mem_def.mp hx]
      rfl

end CifsClientStream.Blocks
