import Mathlib.Logic.Function.Basic
import Mathlib.Data.Nat.Notation

/-!
# Objects behind raw pointers

Code that gives out raw pointers to its objects, and trusts its caller to hand
in only those that it has not given back. To go through any other pointer is
undefined. `Safe x heap Q` says that `x` does not do so, and that `Q` holds of
what it returns. `Tracks` is what the caller knows: which pointers it owns, and
what kind of object each of them stands for.
-/

namespace CifsClientStream.Boxes

/-- A raw pointer; 0 is null. -/
abbrev Pointer := ℕ

inductive Trap where
  | undefined
  | aborted
  deriving DecidableEq, Repr

abbrev Heap (O : Type) := Pointer → Option O

abbrev Raw (O α : Type) := EStateM Trap (Heap O) α

variable {O α β K : Type}

/-- Goes through a pointer to an object that `read` can read. -/
def deref (read : O → Option α) (p : Pointer) : Raw O α := fun heap =>
  match (heap p).bind read with
  | some a => .ok a heap
  | none => .error .undefined heap

/-- Writes an object, new or not. -/
def put (p : Pointer) (o : O) : Raw O Unit := fun heap =>
  .ok ⟨⟩ (Function.update heap p (some o))

def release (p : Pointer) : Raw O Unit := fun heap => .ok ⟨⟩ (Function.update heap p none)

def abort : Raw O α := fun heap => .error .aborted heap

/-- What was returned, if anything was. -/
def returned : EStateM.Result Trap (Heap O) α → Option α
  | .ok a _ => some a
  | .error _ _ => none

def endHeap : EStateM.Result Trap (Heap O) α → Heap O
  | .ok _ heap => heap
  | .error _ heap => heap

/-! ### Code that stays with its objects -/

def Safe (x : Raw O α) (heap : Heap O) (Q : α → Heap O → Prop) : Prop :=
  match x heap with
  | .ok a heap' => Q a heap'
  | .error trap _ => trap = .aborted

variable {heap heap' : Heap O} {Q Q' : α → Heap O → Prop} {p : Pointer} {o : O} {a : α}

theorem Safe.mono {x : Raw O α} (h : Safe x heap Q) (hQ : ∀ a heap', Q a heap' → Q' a heap') :
    Safe x heap Q' := by
  unfold Safe at h ⊢
  cases hx : x heap with
  | ok a heap' =>
    rw [hx] at h
    exact hQ a heap' h
  | error trap heap' =>
    rw [hx] at h
    exact h

theorem Safe.bind {x : Raw O α} {f : α → Raw O β} {R : β → Heap O → Prop}
    (h : Safe x heap fun a heap' => Safe (f a) heap' R) : Safe (x >>= f) heap R := by
  have hbind : (x >>= f) heap = EStateM.bind x f heap := rfl
  unfold Safe at h ⊢
  rw [hbind, EStateM.bind]
  cases hx : x heap with
  | ok a heap' =>
    rw [hx] at h
    exact h
  | error trap heap' =>
    rw [hx] at h
    exact h

theorem Safe.pure (h : Q a heap) : Safe (pure a) heap Q := h

theorem raw_bind {x : Raw O α} {f : α → Raw O β} (h : x heap = .ok a heap') :
    (x >>= f) heap = f a heap' := by
  have hbind : (x >>= f) heap = EStateM.bind x f heap := rfl
  rw [hbind, EStateM.bind, h]

theorem raw_bind_error {x : Raw O α} {f : α → Raw O β} {trap : Trap}
    (h : x heap = .error trap heap') : (x >>= f) heap = .error trap heap' := by
  have hbind : (x >>= f) heap = EStateM.bind x f heap := rfl
  rw [hbind, EStateM.bind, h]

theorem returned_eq_some {x : EStateM.Result Trap (Heap O) α} (h : returned x = some a) :
    x = .ok a (endHeap x) := by
  cases x with
  | ok b heap' =>
    cases h
    rfl
  | error trap heap' => cases h

theorem deref_ok {read : O → Option α} (ho : heap p = some o) (hread : read o = some a) :
    deref read p heap = .ok a heap := by
  simp [deref, ho, hread]

theorem deref_dangling (read : O → Option α) (hp : heap p = none) :
    deref read p heap = .error .undefined heap := by
  simp [deref, hp]

theorem safe_deref {read : O → Option α} (ho : heap p = some o) (hread : read o = some a)
    (h : Q a heap) : Safe (deref read p) heap Q := by
  simpa [Safe, deref, ho, hread] using h

theorem safe_put {Q : Unit → Heap O → Prop} (h : Q ⟨⟩ (Function.update heap p (some o))) :
    Safe (put p o) heap Q := h

theorem safe_release {Q : Unit → Heap O → Prop} (h : Q ⟨⟩ (Function.update heap p none)) :
    Safe (release p) heap Q := h

theorem safe_abort : Safe (abort : Raw O α) heap Q := rfl

theorem Safe.defined {x : Raw O α} (h : Safe x heap Q) : x heap ≠ .error .undefined heap' := by
  intro hx
  rw [Safe, hx] at h
  cases h

theorem Safe.returned {x : Raw O α} (h : Safe x heap Q) (hx : x heap = .ok a heap') :
    Q a heap' := by
  rw [Safe, hx] at h
  exact h

/-! ### What the caller owns -/

/-- The objects on the heap are those that the caller owns, each of the kind it takes it for. -/
def Tracks (kind : O → K) (owned : Pointer → Option K) (heap : Heap O) : Prop :=
  ∀ p, (heap p).map kind = owned p

variable {kind : O → K} {owned : Pointer → Option K}

theorem Tracks.find {k : K} (h : Tracks kind owned heap) (hp : owned p = some k) :
    ∃ o, heap p = some o ∧ kind o = k := by
  have hmap := h p
  rw [hp] at hmap
  exact Option.map_eq_some_iff.mp hmap

theorem Tracks.put (h : Tracks kind owned heap) (p : Pointer) (o : O) :
    Tracks kind (Function.update owned p (some (kind o))) (Function.update heap p (some o)) := by
  intro q
  by_cases hq : q = p
  · simp [hq]
  · simp [hq, h q]

/-- An object may change as long as its kind does not. -/
theorem Tracks.change (h : Tracks kind owned heap) (hp : owned p = some (kind o)) :
    Tracks kind owned (Function.update heap p (some o)) := by
  intro q
  by_cases hq : q = p
  · simp [hq, hp]
  · simp [hq, h q]

theorem Tracks.release (h : Tracks kind owned heap) (p : Pointer) :
    Tracks kind (Function.update owned p none) (Function.update heap p none) := by
  intro q
  by_cases hq : q = p
  · simp [hq]
  · simp [hq, h q]

theorem Tracks.free (h : Tracks kind owned heap) : heap p = none ↔ owned p = none := by
  rw [← h p, Option.map_eq_none_iff]

end CifsClientStream.Boxes
