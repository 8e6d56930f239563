import Mathlib.Data.List.Basic
import Mathlib.Data.List.ReduceOption

/-!
# Runs of a machine

A machine takes one input at a time, moves and gives one output. `run` takes a
list of inputs. What one step preserves a run preserves; `run_under` is the
form for a condition on the whole run that is recorded in the state (a log):
it may be assumed of every state on the way, since the log only grows.
-/

namespace CifsClientStream.Runs

variable {σ ι ο : Type*} (step : σ → ι → ο × σ)

def run : σ → List ι → List ο × σ
  | s, [] => ([], s)
  | s, i :: is =>
    let r := step s i
    let rest := run r.2 is
    (r.1 :: rest.1, rest.2)

@[simp] theorem run_nil (s : σ) : run step s [] = ([], s) := rfl

theorem run_cons (s : σ) (i : ι) (is : List ι) :
    run step s (i :: is) =
      ((step s i).1 :: (run step (step s i).2 is).1, (run step (step s i).2 is).2) := rfl

theorem run_append (s : σ) (xs ys : List ι) :
    run step s (xs ++ ys) =
      ((run step s xs).1 ++ (run step (run step s xs).2 ys).1,
        (run step (run step s xs).2 ys).2) := by
  induction xs generalizing s with
  | nil => rfl
  | cons x xs ih => simp only [List.cons_append, run_cons, ih]

variable {step}

theorem run_invariant {P : σ → Prop} (hstep : ∀ s i, P s → P (step s i).2)
    (s : σ) (is : List ι) (hs : P s) : P (run step s is).2 := by
  induction is generalizing s with
  | nil => exact hs
  | cons i is ih => exact ih _ (hstep s i hs)

theorem run_rel {R : σ → σ → Prop} (hrefl : ∀ s, R s s) (htrans : ∀ a b c, R a b → R b c → R a c)
    (hstep : ∀ s i, R s (step s i).2) (s : σ) (is : List ι) : R s (run step s is).2 := by
  induction is generalizing s with
  | nil => exact hrefl s
  | cons i is ih => exact htrans _ _ _ (hstep s i) (ih _)

/-- The growth of a log: `C` of a later state gives `C` of every earlier one. -/
structure Grows (step : σ → ι → ο × σ) (R : σ → σ → Prop) (C : σ → Prop) : Prop where
  refl : ∀ s, R s s
  trans : ∀ a b c, R a b → R b c → R a c
  step : ∀ s i, R s (step s i).2
  back : ∀ s s', R s s' → C s' → C s

theorem Grows.of_run {R : σ → σ → Prop} {C : σ → Prop} (g : Grows step R C) (s : σ) (is : List ι)
    (h : C (run step s is).2) : C s :=
  g.back _ _ (run_rel g.refl g.trans g.step s is) h

/-- If the condition `C` on the run's log holds at the end, an invariant that
each step keeps while `C` holds is kept by the run, and every output is good. -/
theorem run_under {R : σ → σ → Prop} {C P : σ → Prop} {Q : ο → Prop} (g : Grows step R C)
    (hstep : ∀ s i, C (step s i).2 → P s → Q (step s i).1 ∧ P (step s i).2)
    (s : σ) (is : List ι) (hC : C (run step s is).2) (hs : P s) :
    (∀ o ∈ (run step s is).1, Q o) ∧ P (run step s is).2 := by
  induction is generalizing s with
  | nil => exact ⟨fun o ho => absurd ho List.not_mem_nil, hs⟩
  | cons i is ih =>
    rw [run_cons] at hC ⊢
    have h1 := hstep s i (g.of_run _ is hC) hs
    have h2 := ih _ hC h1.2
    refine ⟨fun o ho => ?_, h2.2⟩
    rcases List.mem_cons.mp ho with rfl | ho
    · exact h1.1
    · exact h2.1 o ho

theorem run_outputs {P : σ → Prop} {Q : ο → Prop}
    (hstep : ∀ s i, P s → Q (step s i).1 ∧ P (step s i).2) (s : σ) (is : List ι) (hs : P s) :
    (∀ o ∈ (run step s is).1, Q o) ∧ P (run step s is).2 := by
  have hgrows : Grows step (fun _ _ => True) fun _ => True :=
    ⟨fun _ => trivial, fun _ _ _ _ _ => trivial, fun _ _ => trivial, fun _ _ _ _ => trivial⟩
  exact run_under hgrows (fun s i _ h => hstep s i h) s is trivial hs

/-- An invariant of the state together with what was put out so far. -/
theorem run_history {P : List ο → σ → Prop}
    (hstep : ∀ out s i, P out s → P (out ++ [(step s i).1]) (step s i).2)
    (out : List ο) (s : σ) (is : List ι) (h : P out s) :
    P (out ++ (run step s is).1) (run step s is).2 := by
  induction is generalizing out s with
  | nil =>
    rw [run_nil, List.append_nil]
    exact h
  | cons i is ih =>
    have hrest := ih _ _ (hstep out s i h)
    rw [List.append_assoc] at hrest
    exact hrest

/-! ### Refinement -/

/-- Where each step of a machine shows what a step of `spec` gives, from related states to
related states, a run shows what the run of `spec` gives. -/
theorem run_refines {τ ω : Type*} {spec : τ → ι → ω × τ} {R : σ → τ → Prop} {shown : ο → ω}
    {P : ι → Prop}
    (h : ∀ s t i, P i → R s t → shown (step s i).1 = (spec t i).1 ∧ R (step s i).2 (spec t i).2)
    (s : σ) (t : τ) (is : List ι) (hP : ∀ i ∈ is, P i) (hR : R s t) :
    (run step s is).1.map shown = (run spec t is).1 ∧
      R (run step s is).2 (run spec t is).2 := by
  induction is generalizing s t with
  | nil => exact ⟨rfl, hR⟩
  | cons i is ih =>
    obtain ⟨h1, h2⟩ := h s t i (hP i List.mem_cons_self) hR
    obtain ⟨h3, h4⟩ := ih _ _ (fun j hj => hP j (List.mem_cons_of_mem _ hj)) h2
    refine ⟨?_, h4⟩
    rw [run_cons, run_cons, List.map_cons, h1, h3]

/-- Inputs that a machine does not answer and that leave its state can be left out. -/
theorem run_filter {spec : σ → ι → Option ο × σ} {keep : ι → Bool}
    (h : ∀ s i, keep i = false → spec s i = (none, s)) (s : σ) (is : List ι) :
    (run spec s (is.filter keep)).1.reduceOption = (run spec s is).1.reduceOption := by
  induction is generalizing s with
  | nil => rfl
  | cons i is ih =>
    cases hk : keep i with
    | false =>
      rw [List.filter_cons_of_neg (by rw [hk]; decide), run_cons, h s i hk, ih,
        List.reduceOption_cons_of_none]
    | true =>
      rw [List.filter_cons_of_pos hk, run_cons, run_cons]
      cases hs : (spec s i).1 with
      | none => rw [List.reduceOption_cons_of_none, List.reduceOption_cons_of_none, ih]
      | some o => rw [List.reduceOption_cons_of_some, List.reduceOption_cons_of_some, ih]

end CifsClientStream.Runs
