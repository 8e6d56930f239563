import CifsClientStream.Lib.Cursor

/-!
# Futures that may be dropped

An `async` function works on a state and either returns, fails, panics or is
dropped by its caller while it waits. However it ends, what it has done to the
state stays. `Ends x s Q E` says what holds then: `Q` of the value and state it
returns, `E` of the reason and state it stops with. `Moves R x` is the special
case for a relation between the first and the last state.
-/

namespace CifsClientStream.Async
open Cursor

inductive Stop (ε : Type) where
  | error (e : ε)
  | panic
  | dropped
  deriving DecidableEq, Repr

def Stop.map {ε ε' : Type} (f : ε → ε') : Stop ε → Stop ε'
  | .error e => .error (f e)
  | .panic => .panic
  | .dropped => .dropped

abbrev Fut (ε σ α : Type) := EStateM (Stop ε) σ α

variable {ε ε' σ τ α β : Type}

def raise (e : ε) : Fut ε σ α := fun s => .error (.error e) s

def drop : Fut ε σ α := fun s => .error .dropped s

def lift : Except (Fault ε) α → Fut ε σ α
  | .ok a => pure a
  | .error (.error e) => raise e
  | .error .panic => fun s => .error .panic s

def ofExcept : Except ε α → Fut ε σ α
  | .ok a => pure a
  | .error e => raise e

theorem fut_bind (x : Fut ε σ α) (f : α → Fut ε σ β) (s : σ) :
    (x >>= f) s = match x s with
      | .ok a s' => f a s'
      | .error e s' => .error e s' := by
  change EStateM.bind x f s = _
  unfold EStateM.bind
  cases x s with
  | ok a s' => rfl
  | error e s' => rfl

theorem bind_ok (x : Fut ε σ α) (f : α → Fut ε σ β) (s s' : σ) (b : β) :
    (x >>= f) s = .ok b s' ↔ ∃ a s1, x s = .ok a s1 ∧ f a s1 = .ok b s' := by
  rw [fut_bind]
  cases hx : x s with
  | ok a s1 =>
    constructor
    · exact fun h => ⟨a, s1, rfl, h⟩
    · rintro ⟨_, _, h, hf⟩
      cases h
      exact hf
  | error e s1 =>
    constructor
    · exact fun h => nomatch h
    · exact fun ⟨_, _, h, _⟩ => nomatch h

theorem lift_ok (r : Except (Fault ε) α) (s s' : σ) (a : α) :
    (lift r : Fut ε σ α) s = .ok a s' ↔ r = .ok a ∧ s = s' := by
  constructor
  · intro h
    rcases r with (e | _) | b
    · cases h
    · cases h
    · cases h
      exact ⟨rfl, rfl⟩
  · rintro ⟨rfl, rfl⟩
    rfl

/-! ### Futures that do not panic -/

def Safe (x : Fut ε σ α) (s : σ) : Prop := ∀ s', x s ≠ .error .panic s'

theorem safe_ok {x : Fut ε σ α} {s s' : σ} {a : α} (h : x s = .ok a s') : Safe x s := by
  intro s'' hpanic
  rw [h] at hpanic
  cases hpanic

theorem safe_error {x : Fut ε σ α} {s s' : σ} {e : Stop ε} (h : x s = .error e s') :
    Safe x s ↔ e ≠ .panic := by
  unfold Safe
  rw [h]
  constructor
  · intro hsafe he
    exact hsafe s' (by rw [he])
  · intro he s'' hpanic
    cases hpanic
    exact he rfl

theorem safe_bind_ok {x : Fut ε σ α} {f : α → Fut ε σ β} {s s' : σ} {a : α}
    (h : x s = .ok a s') : Safe (x >>= f) s ↔ Safe (f a) s' := by
  unfold Safe
  rw [fut_bind, h]

theorem safe_bind_error {x : Fut ε σ α} {f : α → Fut ε σ β} {s s' : σ} {e : Stop ε}
    (h : x s = .error e s') : Safe (x >>= f) s ↔ e ≠ .panic := by
  have hbind : (x >>= f) s = .error e s' := by rw [fut_bind, h]
  exact safe_error hbind

theorem safe_lift (r : Except (Fault ε) α) (s : σ) :
    Safe (lift r : Fut ε σ α) s ↔ NoPanic r := by
  rcases r with (e | _) | a
  · exact iff_of_true ((safe_error rfl).mpr nofun) (noPanic_error e)
  · exact iff_of_false (fun h => h s rfl) not_noPanic_panic
  · exact iff_of_true (safe_ok rfl) (noPanic_ok a)

/-- A change of the state at the end does not panic. -/
theorem safe_bind_modify (x : Fut ε σ α) (g : α → σ → σ) (s : σ) :
    Safe (x >>= fun a => modify (g a)) s ↔ Safe x s := by
  cases hx : x s with
  | ok a s' => exact iff_of_true ((safe_bind_ok hx).mpr (safe_ok rfl)) (safe_ok hx)
  | error e s' => rw [safe_bind_error hx, safe_error hx]

/-! ### How a future ends -/

/-- `Q` of the value and the state if `x` returns from `s`, `E` of the reason and the
state if it does not. -/
def Ends (x : Fut ε σ α) (s : σ) (Q : α → σ → Prop) (E : Stop ε → σ → Prop) : Prop :=
  match x s with
  | .ok a s' => Q a s'
  | .error e s' => E e s'

variable {x : Fut ε σ α} {f : α → Fut ε σ β} {s : σ} {E : Stop ε → σ → Prop}

theorem ends_raise {Q : α → σ → Prop} (e : ε) (h : E (.error e) s) :
    Ends (raise e : Fut ε σ α) s Q E := h

theorem ends_get {Q : σ → σ → Prop} (h : Q s s) : Ends (get : Fut ε σ σ) s Q E := h

theorem ends_modify {Q : PUnit → σ → Prop} {g : σ → σ} (h : Q ⟨⟩ (g s)) :
    Ends (modify g : Fut ε σ PUnit) s Q E := h

theorem ends_lift {Q : α → σ → Prop} (r : Except (Fault ε) α) (hok : ∀ a, r = .ok a → Q a s)
    (herr : ∀ e, E e s) : Ends (lift r : Fut ε σ α) s Q E := by
  rcases r with (e | _) | a
  · exact herr _
  · exact herr _
  · exact hok a rfl

theorem ends_ofExcept {Q : α → σ → Prop} (r : Except ε α) (hok : ∀ a, r = .ok a → Q a s)
    (herr : ∀ e, r = .error e → E (.error e) s) : Ends (ofExcept r : Fut ε σ α) s Q E := by
  cases r with
  | ok a => exact hok a rfl
  | error e => exact herr e rfl

theorem ends_bind {Q : β → σ → Prop}
    (h : Ends x s (fun a s' => Ends (f a) s' Q E) E) : Ends (x >>= f) s Q E := by
  unfold Ends at h ⊢
  rw [fut_bind]
  cases hx : x s with
  | ok a s' =>
    rw [hx] at h
    exact h
  | error e s' =>
    rw [hx] at h
    exact h

theorem Ends.mono {Q Q' : α → σ → Prop} {E' : Stop ε → σ → Prop} (h : Ends x s Q E)
    (hQ : ∀ a s', Q a s' → Q' a s') (hE : ∀ e s', E e s' → E' e s') : Ends x s Q' E' := by
  unfold Ends at h ⊢
  cases hx : x s with
  | ok a s' =>
    rw [hx] at h
    exact hQ a s' h
  | error e s' =>
    rw [hx] at h
    exact hE e s' h

/-! ### The errors of a future -/

/-- Every error that `x` fails with satisfies `P`. -/
def Raises (P : ε → Prop) (x : Fut ε σ α) : Prop := ∀ s e s', x s = .error (.error e) s' → P e

section

variable {P : ε → Prop}

theorem Raises.pure (a : α) : Raises P (pure a : Fut ε σ α) := by
  intro s e s' h
  cases h

theorem Raises.raise {e : ε} (he : P e) : Raises P (raise e : Fut ε σ α) := by
  intro s e' s' h
  cases h
  exact he

theorem Raises.drop : Raises P (drop : Fut ε σ α) := by
  intro s e s' h
  cases h

theorem Raises.get : Raises P (get : Fut ε σ σ) := by
  intro s e s' h
  cases h

theorem Raises.modify (g : σ → σ) : Raises P (modify g : Fut ε σ PUnit) := by
  intro s e s' h
  cases h

theorem Raises.lift {r : Except (Fault ε) α} (hr : ∀ e, r = .error (.error e) → P e) :
    Raises P (lift r : Fut ε σ α) := by
  intro s e s' h
  rcases r with (e' | _) | a
  · cases h
    exact hr e rfl
  · cases h
  · cases h

theorem Raises.bind (hx : Raises P x) (hf : ∀ a, Raises P (f a)) : Raises P (x >>= f) := by
  intro s e s' h
  rw [fut_bind] at h
  cases hxs : x s with
  | ok a s1 =>
    rw [hxs] at h
    exact hf a s1 e s' h
  | error e1 s1 =>
    rw [hxs] at h
    cases h
    exact hx s e s' hxs

theorem Raises.ite {c : Prop} [Decidable c] {y : Fut ε σ α} (hx : Raises P x) (hy : Raises P y) :
    Raises P (if c then x else y) := by
  split
  · exact hx
  · exact hy

end

/-! ### Relations between the first and the last state -/

def endState : EStateM.Result (Stop ε) σ α → σ
  | .ok _ s => s
  | .error _ s => s

def returned : EStateM.Result (Stop ε) σ α → Option α
  | .ok a _ => some a
  | .error _ _ => none

theorem returned_some {r : EStateM.Result (Stop ε) σ α} {a : α} (h : returned r = some a) :
    ∃ s, r = .ok a s := by
  cases r with
  | ok b s =>
    cases h
    exact ⟨s, rfl⟩
  | error e s => cases h

def Moves (R : σ → σ → Prop) (x : Fut ε σ α) : Prop := ∀ s, R s (endState (x s))

/-- A relation that steps can be chained along. -/
structure Chain (R : σ → σ → Prop) : Prop where
  refl : ∀ s, R s s
  trans : ∀ a b c, R a b → R b c → R a c

variable {R : σ → σ → Prop}

theorem Moves.pure (h : Chain R) (a : α) : Moves R (pure a : Fut ε σ α) := fun s => h.refl s

theorem Moves.raise (h : Chain R) (e : ε) : Moves R (raise e : Fut ε σ α) := fun s => h.refl s

theorem Moves.lift (h : Chain R) (x : Except (Fault ε) α) :
    Moves R (lift x : Fut ε σ α) := by
  intro s
  rcases x with (e | _) | a
  · exact h.refl s
  · exact h.refl s
  · exact h.refl s

theorem Moves.bind (h : Chain R) (hx : Moves R x) (hf : ∀ a, Moves R (f a)) :
    Moves R (x >>= f) := by
  intro s
  have h1 := hx s
  rw [fut_bind]
  cases hxs : x s with
  | ok a s' =>
    rw [hxs] at h1
    exact h.trans _ _ _ h1 (hf a s')
  | error e s' =>
    rw [hxs] at h1
    exact h1

theorem Moves.get (h : Chain R) : Moves R (get : Fut ε σ σ) := fun s => h.refl s

theorem Moves.modify {g : σ → σ} (h : ∀ s, R s (g s)) : Moves R (modify g : Fut ε σ PUnit) :=
  fun s => h s

theorem Moves.drop (h : Chain R) : Moves R (drop : Fut ε σ α) := fun s => h.refl s

theorem Moves.ofExcept (h : Chain R) (r : Except ε α) : Moves R (ofExcept r : Fut ε σ α) := by
  intro s
  cases r with
  | ok a => exact h.refl s
  | error e => exact h.refl s

theorem Moves.ite {c : Prop} [Decidable c] {y : Fut ε σ α} (hx : Moves R x) (hy : Moves R y) :
    Moves R (if c then x else y) := by
  split
  · exact hx
  · exact hy

/-! ### Under a condition on the log

A relation `R` along which states grow a log, and a condition `L` on the log
that a later state passes on to an earlier one. -/

/-- From `P`, `Q` or `E` holds at the end, provided `L` does. -/
def Under (L P : σ → Prop) (x : Fut ε σ α) (Q : α → σ → Prop) (E : σ → Prop) : Prop :=
  ∀ s, P s → Ends x s (fun a s' => L s' → Q a s') (fun _ s' => L s' → E s')

variable {L P E' : σ → Prop} {Q : α → σ → Prop}

theorem Under.bind {Q' : β → σ → Prop} (hL : ∀ s s', R s s' → L s' → L s)
    (hx : Under L P x Q E') (hm : ∀ a, Moves R (f a))
    (hf : ∀ a, Under L (Q a) (f a) Q' E') : Under L P (x >>= f) Q' E' := by
  intro s hs
  refine ends_bind ((hx s hs).mono (fun a s1 hQ => ?_) fun _ _ h => h)
  have hm1 := hm a s1
  have hf1 := hf a s1
  unfold Ends at hf1 ⊢
  cases hfs : f a s1 with
  | ok b s2 =>
    rw [hfs] at hm1 hf1
    exact fun h2 => hf1 (hQ (hL _ _ hm1 h2)) h2
  | error e s2 =>
    rw [hfs] at hm1 hf1
    exact fun h2 => hf1 (hQ (hL _ _ hm1 h2)) h2

theorem Under.mono {P' : σ → Prop} {Q' : α → σ → Prop} (h : Under L P x Q E')
    (hP : ∀ s, P' s → P s) (hQ : ∀ a s, Q a s → Q' a s) : Under L P' x Q' E' :=
  fun s hs => (h s (hP s hs)).mono (fun a s' hq hl => hQ a s' (hq hl)) fun _ _ he => he

theorem Under.pure (a : α) (h : ∀ s, P s → Q a s) : Under L P (pure a : Fut ε σ α) Q E' :=
  fun s hs _ => h s hs

theorem Under.lift (r : Except (Fault ε) α) (hok : ∀ a, r = .ok a → ∀ s, P s → Q a s)
    (herr : ∀ s, P s → E' s) : Under L P (lift r : Fut ε σ α) Q E' := by
  intro s hs
  rcases r with (e | _) | a
  · exact fun _ => herr s hs
  · exact fun _ => herr s hs
  · exact fun _ => hok a rfl s hs

theorem Under.ofExcept (r : Except ε α) (hok : ∀ a, r = .ok a → ∀ s, P s → Q a s)
    (herr : ∀ s, P s → E' s) : Under L P (ofExcept r : Fut ε σ α) Q E' := by
  intro s hs
  cases r with
  | ok a => exact fun _ => hok a rfl s hs
  | error e => exact fun _ => herr s hs

end CifsClientStream.Async
