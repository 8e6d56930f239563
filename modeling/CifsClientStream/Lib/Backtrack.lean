import Mathlib.Data.List.Basic

/-!
# Patterns that are matched with backtracking

A pattern takes characters from the front of a text. It gives all the ways in
which it can do so, the preferred one first: an option is rather taken than
left, and a repetition takes all it can and gives back from the end. What comes
after a pattern filters its ways, so the match of a whole pattern is the first
way that is left. `many_bind_run` and `many_run` say what a repetition does on
a run of its characters, the `mem` lemmas what the ways of a pattern are when
their order does not matter.
-/

namespace CifsClientStream.Backtrack

variable {α β γ : Type}

def Pattern (α β : Type) : Type := List α → List (β × List α)

namespace Pattern

instance : Monad (Pattern α) where
  pure b := fun s => [(b, s)]
  bind m f := fun s => (m s).flatMap fun r => f r.1 r.2

def item (p : α → Bool) : Pattern α α
  | [] => []
  | c :: s => if p c then [(c, s)] else []

def lit [DecidableEq α] (c : α) : Pattern α Unit
  | [] => []
  | d :: s => if d = c then [((), s)] else []

def literal [DecidableEq α] : List α → Pattern α Unit
  | [] => pure ()
  | c :: word => do
    lit c
    literal word

def option (m : Pattern α β) : Pattern α (Option β) := fun s =>
  (m s).map (fun r => (some r.1, r.2)) ++ [(none, s)]

def many (p : α → Bool) : Pattern α (List α)
  | [] => [([], [])]
  | c :: s =>
    if p c then (many p s).map (fun r => (c :: r.1, r.2)) ++ [([], c :: s)] else [([], c :: s)]

def plus (p : α → Bool) : Pattern α (List α)
  | [] => []
  | c :: s => if p c then (many p s).map (fun r => (c :: r.1, r.2)) else []

def atEnd : Pattern α Unit
  | [] => [((), [])]
  | _ :: _ => []

/-- The preferred way to match. -/
def first (m : Pattern α β) (s : List α) : Option β := (m s).head?.map Prod.fst

/-! ### Sequences -/

theorem pure_apply (b : β) (s : List α) : (pure b : Pattern α β) s = [(b, s)] := rfl

theorem bind_apply (m : Pattern α β) (f : β → Pattern α γ) (s : List α) :
    (m >>= f) s = (m s).flatMap fun r => f r.1 r.2 := rfl

theorem bind_nil {m : Pattern α β} {s : List α} (h : m s = []) (f : β → Pattern α γ) :
    (m >>= f) s = [] := by
  rw [bind_apply, h, List.flatMap_nil]

theorem bind_single {m : Pattern α β} {s rest : List α} {b : β} (h : m s = [(b, rest)])
    (f : β → Pattern α γ) : (m >>= f) s = f b rest := by
  rw [bind_apply, h, List.flatMap_singleton]

/-- If the preferred way goes on, it stays the preferred one. -/
theorem bind_head {m : Pattern α β} {s rest : List α} {b : β} {f : β → Pattern α γ}
    {r : γ × List α} (h : (m s).head? = some (b, rest)) (hf : (f b rest).head? = some r) :
    ((m >>= f) s).head? = some r := by
  obtain ⟨tail, htail⟩ := List.head?_eq_some_iff.mp h
  rw [bind_apply, htail, List.flatMap_cons, List.head?_append, hf]
  rfl

theorem id_map_pattern (m : Pattern α β) : id <$> m = m := by
  funext s
  change (m s).flatMap (fun r => [(r.1, r.2)]) = m s
  exact (List.flatMap_pure_eq_map _ _).trans (List.map_id _)

theorem pure_bind_pattern (b : β) (f : β → Pattern α γ) : (pure b >>= f) = f b := by
  funext s
  exact List.flatMap_singleton _ _

theorem bind_assoc_pattern {δ : Type} (m : Pattern α β) (f : β → Pattern α γ)
    (g : γ → Pattern α δ) : (m >>= f >>= g) = m >>= fun b => f b >>= g := by
  funext s
  exact List.flatMap_assoc

instance : LawfulMonad (Pattern α) :=
  LawfulMonad.mk' (Pattern α) id_map_pattern pure_bind_pattern bind_assoc_pattern

/-! ### Options and single characters -/

theorem option_bind (m : Pattern α β) (f : Option β → Pattern α γ) (s : List α) :
    (option m >>= f) s = (m >>= fun b => f (some b)) s ++ f none s := by
  rw [bind_apply, option, List.flatMap_append, List.flatMap_map, List.flatMap_singleton,
    bind_apply]

theorem option_bind_none {m : Pattern α β} {s : List α} (h : m s = [])
    (f : Option β → Pattern α γ) : (option m >>= f) s = f none s := by
  rw [option_bind, bind_nil h, List.nil_append]

/-- An option that can be taken so that the rest matches is taken. -/
theorem option_head {m : Pattern α β} {f : Option β → Pattern α γ} {s : List α}
    {r : γ × List α} (h : ((m >>= fun b => f (some b)) s).head? = some r) :
    ((option m >>= f) s).head? = some r := by
  rw [option_bind, List.head?_append, h]
  rfl

section
variable [DecidableEq α]

theorem lit_append (c : α) (s : List α) : lit c (c :: s) = [((), s)] := if_pos rfl

theorem lit_bind (c : α) (f : Unit → Pattern α β) (s : List α) :
    (lit c >>= f) (c :: s) = f () s := bind_single (lit_append c s) f

theorem lit_other {c : α} {s : List α} (h : s.head? ≠ some c) : lit c s = [] := by
  cases s with
  | nil => rfl
  | cons d s => exact if_neg fun hd => h (by rw [hd]; rfl)

theorem lit_bind_other {c : α} {s : List α} (h : s.head? ≠ some c) (f : Unit → Pattern α β) :
    (lit c >>= f) s = [] := bind_nil (lit_other h) f

theorem literal_bind (word : List α) (f : Unit → Pattern α β) (s : List α) :
    (literal word >>= f) (word ++ s) = f () s := by
  induction word generalizing s with
  | nil => rw [literal, pure_bind]; rfl
  | cons c word ih =>
    rw [literal, bind_assoc, List.cons_append, lit_bind]
    exact ih s

end

/-! ### Runs -/

section
variable (p : α → Bool)

theorem many_foreign {rest : List α} (h : ∀ c ∈ rest.head?, p c = false) :
    many p rest = [([], rest)] := by
  cases rest with
  | nil => rfl
  | cons c rest =>
    have hc := h c rfl
    simp [many, hc]

/-- A repetition prefers the whole run. -/
theorem many_run {run rest : List α} (hrun : ∀ c ∈ run, p c)
    (hrest : ∀ c ∈ rest.head?, p c = false) :
    (many p (run ++ rest)).head? = some (run, rest) := by
  induction run with
  | nil => rw [List.nil_append, many_foreign p hrest]; rfl
  | cons c run ih =>
    have hc := hrun c List.mem_cons_self
    have hrun := ih fun d hd => hrun d (List.mem_cons_of_mem c hd)
    rw [List.cons_append, many, if_pos hc, List.head?_append, List.head?_map, hrun]
    rfl

theorem plus_run {run rest : List α} (hne : run ≠ []) (hrun : ∀ c ∈ run, p c)
    (hrest : ∀ c ∈ rest.head?, p c = false) :
    (plus p (run ++ rest)).head? = some (run, rest) := by
  cases run with
  | nil => exact absurd rfl hne
  | cons c run =>
    have hc := hrun c List.mem_cons_self
    have hmany := many_run p (fun d hd => hrun d (List.mem_cons_of_mem c hd)) hrest
    rw [List.cons_append, plus, if_pos hc, List.head?_map, hmany]
    rfl

/-- If the rest cannot match inside the run, the whole run is the only way. -/
theorem many_bind_run {f : List α → Pattern α β} {run rest : List α} (hrun : ∀ c ∈ run, p c)
    (hrest : ∀ c ∈ rest.head?, p c = false)
    (hinside : ∀ a c b, run = a ++ c :: b → f a (c :: b ++ rest) = []) :
    (many p >>= f) (run ++ rest) = f run rest := by
  induction run generalizing f with
  | nil => exact bind_single (many_foreign p hrest) f
  | cons c run ih =>
    have hc := hrun c List.mem_cons_self
    have hnone : f [] (c :: (run ++ rest)) = [] := hinside [] c run rfl
    have htail := ih (f := fun t => f (c :: t)) (fun d hd => hrun d (List.mem_cons_of_mem c hd))
      fun a d b hab => hinside (c :: a) d b (by rw [hab]; rfl)
    rw [bind_apply] at htail ⊢
    rw [List.cons_append, many, if_pos hc, List.flatMap_append, List.flatMap_map,
      List.flatMap_singleton, hnone, List.append_nil]
    exact htail

theorem plus_bind_run {f : List α → Pattern α β} {run rest : List α} (hne : run ≠ [])
    (hrun : ∀ c ∈ run, p c) (hrest : ∀ c ∈ rest.head?, p c = false)
    (hinside : ∀ a c b, run = a ++ c :: b → f a (c :: b ++ rest) = []) :
    (plus p >>= f) (run ++ rest) = f run rest := by
  cases run with
  | nil => exact absurd rfl hne
  | cons c run =>
    have hc := hrun c List.mem_cons_self
    have hmany : (many p >>= fun t => f (c :: t)) (run ++ rest) = f (c :: run) rest := by
      apply many_bind_run p (fun d hd => hrun d (List.mem_cons_of_mem c hd)) hrest
      intro a d b hab
      exact hinside (c :: a) d b (by rw [hab]; rfl)
    rw [bind_apply] at hmany ⊢
    rw [List.cons_append, plus, if_pos hc, List.flatMap_map]
    exact hmany

end

section
variable [DecidableEq α] {d : α}

theorem forall_other {s : List α} : (∀ c ∈ s, (c != d) = true) ↔ d ∉ s := by
  simp only [bne_iff_ne]
  constructor
  · intro h hmem
    exact h d hmem rfl
  · intro h c hc heq
    exact h (heq ▸ hc)

/-- All up to a delimiter: the run before the first one is the only way. -/
theorem many_bind_lit {f : List α → Pattern α β} {run rest : List α} (hrun : d ∉ run)
    (hrest : ∀ c ∈ rest.head?, c = d) :
    ((many fun c => c != d) >>= fun t => lit d >>= fun _ => f t) (run ++ rest) =
      (lit d >>= fun _ => f run) rest := by
  apply many_bind_run
  · exact forall_other.mpr hrun
  · intro c hc
    rw [hrest c hc, bne_self_eq_false]
  · intro a c b hab
    apply lit_bind_other
    intro h
    have hc : c = d := Option.some.inj h
    exact hrun (by rw [hab, hc]; simp)

/-- What a repetition with a delimiter excluded does on a text that has none. -/
theorem many_all {s : List α} (h : d ∉ s) :
    (many (fun c => c != d) s).head? = some (s, []) := by
  have hmany : (many (fun c => c != d) (s ++ [])).head? = some (s, []) :=
    many_run _ (forall_other.mpr h) nofun
  rw [List.append_nil] at hmany
  exact hmany

end

/-! ### The ways of a pattern -/

theorem mem_pure {b b' : β} {s rest : List α} :
    (b, rest) ∈ (pure b' : Pattern α β) s ↔ b = b' ∧ rest = s := by
  simp [pure_apply]

theorem mem_bind {m : Pattern α β} {f : β → Pattern α γ} {s : List α} {r : γ × List α} :
    r ∈ (m >>= f) s ↔ ∃ b rest, (b, rest) ∈ m s ∧ r ∈ f b rest := by
  simp [bind_apply]

theorem mem_item {p : α → Bool} {c : α} {s rest : List α} :
    (c, rest) ∈ item p s ↔ p c ∧ s = c :: rest := by
  cases s with
  | nil => simp [item]
  | cons d s =>
    by_cases hd : p d
    · simp only [item, hd, if_true, List.mem_singleton, Prod.mk.injEq, List.cons.injEq]
      constructor
      · intro h
        obtain ⟨rfl, rfl⟩ := h
        exact ⟨hd, rfl, rfl⟩
      · intro h
        exact ⟨h.2.1.symm, h.2.2.symm⟩
    · simp only [item, hd, Bool.false_eq_true, if_false, List.not_mem_nil, List.cons.injEq, false_iff]
      intro h
      rw [h.2.1] at hd
      exact hd h.1

theorem mem_lit [DecidableEq α] {c : α} {u : Unit} {s rest : List α} :
    (u, rest) ∈ lit c s ↔ s = c :: rest := by
  cases s with
  | nil => simp [lit]
  | cons d s =>
    by_cases hd : d = c
    · subst hd
      simp [lit, eq_comm]
    · simp [lit, hd]

theorem mem_many {p : α → Bool} {t s rest : List α} :
    (t, rest) ∈ many p s ↔ s = t ++ rest ∧ ∀ c ∈ t, p c := by
  induction s generalizing t with
  | nil =>
    simp only [many, List.mem_singleton, Prod.mk.injEq]
    constructor
    · intro h
      obtain ⟨rfl, rfl⟩ := h
      exact ⟨rfl, nofun⟩
    · intro h
      have hnil := List.append_eq_nil_iff.mp h.1.symm
      exact hnil
  | cons c s ih =>
    by_cases hc : p c
    · simp only [many, hc, if_true, List.mem_append, List.mem_map, List.mem_singleton,
        Prod.mk.injEq]
      constructor
      · intro h
        rcases h with ⟨⟨t', rest'⟩, hmem, rfl, rfl⟩ | ⟨rfl, rfl⟩
        · obtain ⟨rfl, hall⟩ := ih.mp hmem
          refine ⟨rfl, fun d hd => ?_⟩
          rcases List.mem_cons.mp hd with rfl | hd
          · exact hc
          · exact hall d hd
        · exact ⟨rfl, nofun⟩
      · intro h
        obtain ⟨hs, hall⟩ := h
        cases t with
        | nil => exact Or.inr ⟨rfl, hs.symm⟩
        | cons d t =>
          rw [List.cons_append, List.cons.injEq] at hs
          obtain ⟨rfl, hs⟩ := hs
          exact Or.inl ⟨(t, rest), ih.mpr ⟨hs, fun e he => hall e (List.mem_cons_of_mem _ he)⟩,
            rfl, rfl⟩
    · simp only [many, hc, Bool.false_eq_true, if_false, List.mem_singleton, Prod.mk.injEq]
      constructor
      · intro h
        obtain ⟨rfl, rfl⟩ := h
        exact ⟨rfl, nofun⟩
      · intro h
        obtain ⟨hs, hall⟩ := h
        cases t with
        | nil => exact ⟨rfl, hs.symm⟩
        | cons d t =>
          rw [List.cons_append, List.cons.injEq] at hs
          rw [hs.1] at hc
          exact absurd (hall d List.mem_cons_self) hc

theorem mem_plus {p : α → Bool} {t s rest : List α} :
    (t, rest) ∈ plus p s ↔ t ≠ [] ∧ s = t ++ rest ∧ ∀ c ∈ t, p c := by
  cases s with
  | nil =>
    simp only [plus, List.not_mem_nil, false_iff]
    intro h
    exact h.1 (List.append_eq_nil_iff.mp h.2.1.symm).1
  | cons c s =>
    by_cases hc : p c
    · simp only [plus, hc, if_true, List.mem_map, Prod.mk.injEq]
      constructor
      · intro h
        obtain ⟨⟨t', rest'⟩, hmem, rfl, rfl⟩ := h
        obtain ⟨rfl, hall⟩ := mem_many.mp hmem
        refine ⟨List.cons_ne_nil _ _, rfl, fun d hd => ?_⟩
        rcases List.mem_cons.mp hd with rfl | hd
        · exact hc
        · exact hall d hd
      · intro h
        obtain ⟨hne, hs, hall⟩ := h
        cases t with
        | nil => exact absurd rfl hne
        | cons d t =>
          rw [List.cons_append, List.cons.injEq] at hs
          obtain ⟨rfl, hs⟩ := hs
          exact ⟨(t, rest), mem_many.mpr ⟨hs, fun e he => hall e (List.mem_cons_of_mem _ he)⟩,
            rfl, rfl⟩
    · simp only [plus, hc, Bool.false_eq_true, if_false, List.not_mem_nil, false_iff]
      intro h
      obtain ⟨hne, hs, hall⟩ := h
      cases t with
      | nil => exact absurd rfl hne
      | cons d t =>
        rw [List.cons_append, List.cons.injEq] at hs
        rw [hs.1] at hc
        exact absurd (hall d List.mem_cons_self) hc

theorem mem_option {m : Pattern α β} {o : Option β} {s rest : List α} :
    (o, rest) ∈ option m s ↔ (∃ b, o = some b ∧ (b, rest) ∈ m s) ∨ o = none ∧ rest = s := by
  simp only [option, List.mem_append, List.mem_map, List.mem_singleton, Prod.mk.injEq]
  constructor
  · intro h
    rcases h with ⟨⟨b, rest'⟩, hmem, rfl, rfl⟩ | h
    · exact Or.inl ⟨b, rfl, hmem⟩
    · exact Or.inr h
  · intro h
    rcases h with ⟨b, rfl, hmem⟩ | h
    · exact Or.inl ⟨(b, rest), hmem, rfl, rfl⟩
    · exact Or.inr h

theorem mem_atEnd {u : Unit} {s rest : List α} : (u, rest) ∈ atEnd s ↔ s = [] ∧ rest = [] := by
  cases s with
  | nil => simp [atEnd]
  | cons c s => simp [atEnd]

/-- A text falls in one way only into a run of `p` and what begins with another character. -/
theorem run_unique {p : α → Bool} {run rest a b : List α} {c : α} (hrun : ∀ d ∈ run, p d)
    (hrest : ∀ d ∈ rest.head?, p d = false) (ha : ∀ d ∈ a, p d) (hc : p c = false)
    (h : run ++ rest = a ++ c :: b) : run = a ∧ rest = c :: b := by
  induction run generalizing a with
  | nil =>
    cases a with
    | nil => exact ⟨rfl, h⟩
    | cons d a =>
      have hd := ha d List.mem_cons_self
      rw [List.nil_append] at h
      rw [hrest d (by rw [h]; rfl)] at hd
      exact absurd hd (by decide)
  | cons d run ih =>
    cases a with
    | nil =>
      rw [List.cons_append, List.nil_append, List.cons.injEq] at h
      have hd := hrun d List.mem_cons_self
      rw [h.1, hc] at hd
      exact absurd hd (by decide)
    | cons e a =>
      rw [List.cons_append, List.cons_append, List.cons.injEq] at h
      obtain ⟨rfl, h⟩ := h
      obtain ⟨rfl, hrest⟩ := ih (fun x hx => hrun x (List.mem_cons_of_mem _ hx))
        (fun x hx => ha x (List.mem_cons_of_mem _ hx)) h
      exact ⟨rfl, hrest⟩

end Pattern

end CifsClientStream.Backtrack
