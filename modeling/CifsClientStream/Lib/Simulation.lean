import CifsClientStream.Lib.Async
import CifsClientStream.Lib.Runs

/-!
# Simulation between futures

A future on one state does what a future on another state does. What befalls
the second one on its way is given to it in advance (`load`), and how much of
this script a call uses up shows only when it has ended: a simulation finds
the script for the call and works with any rest behind it. `Matches` states
this for one pair of states, and the constructs that futures are built of
keep it.
-/

namespace CifsClientStream.Simulation
open Cursor Async

variable {ε σ τ ω α β γ δ : Type} (load : List ω → τ → τ)

/-- Both return, and `Q` holds of what they return, or both stop for the same reason, and `E`
holds of the states. -/
inductive Matches (Q : α → β → σ → τ → Prop) (E : σ → τ → Prop) (x : Fut ε σ α) (s : σ)
    (y : Fut ε τ β) (t : τ) : Prop
  | returns (script : List ω) (a : α) (b : β) (s' : σ) (t' : τ) (left : x s = .ok a s')
      (right : ∀ rest, y (load (script ++ rest) t) = .ok b (load rest t')) (holds : Q a b s' t')
  | stops (script : List ω) (e : Stop ε) (s' : σ) (t' : τ) (left : x s = .error e s')
      (right : ∀ rest, y (load (script ++ rest) t) = .error e (load rest t')) (holds : E s' t')

variable {load} {Q : α → β → σ → τ → Prop} {E : σ → τ → Prop} {s : σ} {t : τ}
  {x : Fut ε σ α} {y : Fut ε τ β}

theorem Matches.mono {Q' : α → β → σ → τ → Prop} {E' : σ → τ → Prop}
    (h : Matches load Q E x s y t) (hQ : ∀ a b s' t', Q a b s' t' → Q' a b s' t')
    (hE : ∀ s' t', E s' t' → E' s' t') : Matches load Q' E' x s y t := by
  cases h with
  | returns script a b s' t' left right holds =>
    exact .returns script a b s' t' left right (hQ _ _ _ _ holds)
  | stops script e s' t' left right holds => exact .stops script e s' t' left right (hE _ _ holds)

/-! ### The constructs -/

theorem matches_pure {a : α} {b : β} (h : Q a b s t) :
    Matches load Q E (pure a : Fut ε σ α) s (pure b : Fut ε τ β) t :=
  .returns [] a b s t rfl (fun _ => rfl) h

theorem matches_raise (e : ε) (h : E s t) :
    Matches load Q E (raise e : Fut ε σ α) s (raise e : Fut ε τ β) t :=
  .stops [] (.error e) s t rfl (fun _ => rfl) h

theorem matches_lift {Q : α → α → σ → τ → Prop} (r : Except (Fault ε) α)
    (hok : ∀ a, r = .ok a → Q a a s t) (hstop : E s t) :
    Matches load Q E (lift r : Fut ε σ α) s (lift r : Fut ε τ α) t := by
  rcases r with (e | _) | a
  · exact matches_raise e hstop
  · exact .stops [] .panic s t rfl (fun _ => rfl) hstop
  · exact matches_pure (hok a rfl)

theorem matches_ofExcept {Q : α → α → σ → τ → Prop} (r : Except ε α)
    (hok : ∀ a, r = .ok a → Q a a s t) (hstop : E s t) :
    Matches load Q E (ofExcept r : Fut ε σ α) s (ofExcept r : Fut ε τ α) t := by
  cases r with
  | ok a => exact matches_pure (hok a rfl)
  | error e => exact matches_raise e hstop

theorem matches_modify {Q : PUnit → PUnit → σ → τ → Prop} {g : σ → σ} {h : τ → τ}
    (hload : ∀ script, h (load script t) = load script (h t)) (hQ : Q ⟨⟩ ⟨⟩ (g s) (h t)) :
    Matches load Q E (modify g : Fut ε σ PUnit) s (modify h : Fut ε τ PUnit) t := by
  refine .returns [] ⟨⟩ ⟨⟩ (g s) (h t) rfl (fun rest => ?_) hQ
  rw [← hload rest]
  rfl

/-- The states are read; what the second call does with its own does not depend on the script. -/
theorem matches_get {f : σ → Fut ε σ α} {g : τ → Fut ε τ β}
    (hload : ∀ script, g (load script t) = g t) (h : Matches load Q E (f s) s (g t) t) :
    Matches load Q E (get >>= f) s (get >>= g) t := by
  have hleft : (get >>= f : Fut ε σ α) s = f s s := by
    rw [fut_bind]
    rfl
  have hright (script : List ω) : (get >>= g : Fut ε τ β) (load script t) =
      g t (load script t) := by
    rw [fut_bind, ← hload script]
    rfl
  cases h with
  | returns script a b s' t' left right holds =>
    refine .returns script a b s' t' (hleft.trans left) (fun rest => ?_) holds
    rw [hright, right]
  | stops script e s' t' left right holds =>
    refine .stops script e s' t' (hleft.trans left) (fun rest => ?_) holds
    rw [hright, right]

/-- The script of two calls in a row is the one of the first and then the one of the second. -/
theorem matches_bind {Q' : γ → δ → σ → τ → Prop} {f : α → Fut ε σ γ} {g : β → Fut ε τ δ}
    (h : Matches load Q E x s y t)
    (hnext : ∀ a b s' t', Q a b s' t' → Matches load Q' E (f a) s' (g b) t') :
    Matches load Q' E (x >>= f) s (y >>= g) t := by
  cases h with
  | stops script e s' t' left right holds =>
    refine .stops script e s' t' ?_ (fun rest => ?_) holds
    · rw [fut_bind, left]
    · rw [fut_bind, right]
  | returns script a b s' t' left right holds =>
    have hbind (more rest : List ω) : (y >>= g) (load (script ++ more ++ rest) t) =
        g b (load (more ++ rest) t') := by
      rw [fut_bind, List.append_assoc, right]
    cases hnext a b s' t' holds with
    | returns more c d s'' t'' left' right' holds' =>
      refine .returns (script ++ more) c d s'' t'' ?_ (fun rest => ?_) holds'
      · rw [fut_bind, left]
        exact left'
      · rw [hbind, right']
    | stops more e s'' t'' left' right' holds' =>
      refine .stops (script ++ more) e s'' t'' ?_ (fun rest => ?_) holds'
      · rw [fut_bind, left]
        exact left'
      · rw [hbind, right']

theorem matches_bind_pure {Q' : γ → β → σ → τ → Prop} {f : α → γ}
    (h : Matches load Q E x s y t) (hQ : ∀ a b s' t', Q a b s' t' → Q' (f a) b s' t') :
    Matches load Q' E (x >>= fun a => pure (f a)) s y t := by
  cases h with
  | returns script a b s' t' left right holds =>
    refine .returns script (f a) b s' t' ?_ right (hQ _ _ _ _ holds)
    rw [fut_bind, left]
    rfl
  | stops script e s' t' left right holds =>
    refine .stops script e s' t' ?_ right holds
    rw [fut_bind, left]

/-! ### Outcomes -/

/-- How a call ends, as an output with the state it leaves. -/
inductive Outcome (ε : Type) : Type 1
  | returned {α : Type} (a : α)
  | stopped (e : Stop ε)

def Outcome.stop {ε : Type} : Outcome ε → Option (Stop ε)
  | .returned _ => none
  | .stopped e => some e

def outcome (r : EStateM.Result (Stop ε) σ α) : Outcome ε × σ :=
  match r with
  | .ok a s => (.returned a, s)
  | .error e s => (.stopped e, s)

/-- Of calls that match with the same values, the outcomes are equal and the states related. -/
theorem Matches.outcome {y : Fut ε τ α} {R : σ → τ → Prop}
    (h : Matches load (fun a b s' t' => a = b ∧ R s' t') R x s y t) :
    ∃ script t', (∀ rest, Simulation.outcome (y (load (script ++ rest) t)) =
      ((Simulation.outcome (x s)).1, load rest t')) ∧ R (Simulation.outcome (x s)).2 t' := by
  cases h with
  | returns script a b s' t' left right holds =>
    obtain ⟨rfl, hR⟩ := holds
    refine ⟨script, t', fun rest => ?_, ?_⟩
    · rw [right, left]
      rfl
    · rw [left]
      exact hR
  | stops script e s' t' left right holds =>
    refine ⟨script, t', fun rest => ?_, ?_⟩
    · rw [right, left]
      rfl
    · rw [left]
      exact holds

/-! ### Runs -/

section

variable {γ ι κ ο ρ φ : Type*}

/-- Inputs in pairs. How two of them belong together may depend on the inputs before. -/
inductive Paired (next : γ → ι → γ) (M : γ → ι → κ → Prop) : γ → List ι → List κ → Prop
  | nil (g : γ) : Paired next M g [] []
  | cons {g : γ} {i : ι} {j : κ} {is : List ι} {js : List κ} :
    M g i j → Paired next M (next g i) is js → Paired next M g (i :: is) (j :: js)

/-- Where every step is one of `spec` on some input that belongs to its own, so is every run. -/
theorem run_simulated {next : γ → ι → γ} {M : γ → ι → κ → Prop} {step : ρ → ι → ο × ρ}
    {spec : φ → κ → ο × φ} {R : γ → ρ → φ → Prop}
    (h : ∀ g s t i, R g s t → ∃ j, M g i j ∧ (step s i).1 = (spec t j).1 ∧
      R (next g i) (step s i).2 (spec t j).2)
    (g : γ) (s : ρ) (t : φ) (is : List ι) (hR : R g s t) :
    ∃ js, Paired next M g is js ∧ (Runs.run step s is).1 = (Runs.run spec t js).1 ∧
      R (is.foldl next g) (Runs.run step s is).2 (Runs.run spec t js).2 := by
  induction is generalizing g s t with
  | nil => exact ⟨[], .nil g, rfl, hR⟩
  | cons i is ih =>
    obtain ⟨j, hM, hout, hnext⟩ := h g s t i hR
    obtain ⟨js, hpaired, houts, hlast⟩ := ih _ _ _ hnext
    refine ⟨j :: js, .cons hM hpaired, ?_, hlast⟩
    rw [Runs.run_cons, Runs.run_cons, hout, houts]

end

end CifsClientStream.Simulation
