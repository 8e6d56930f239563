import Mathlib.Data.List.Basic
import Mathlib.Tactic.Ring

/-!
# Reading and writing byte buffers

A reader takes bytes from the front of a buffer. Asking for more bytes than
remain does not fail with an error value: it panics, and the two are kept
apart in `Fault`. `Fixed r n` says that `r` reads exactly `n` bytes (and
panics exactly on a shorter buffer), `Guarded r n` that `n` bytes are enough
for `r` not to panic. Little-endian writers and the laws that a reader gets
back what a writer put are at the end.
-/

namespace CifsClientStream.Cursor

abbrev Bytes := List UInt8

inductive Fault (ε : Type) where
  | error (e : ε)
  | panic
  deriving DecidableEq, Repr

abbrev Reader (ε α : Type) := StateT Bytes (Except (Fault ε)) α

variable {ε α β : Type}

def Fault.map {ε' : Type} (f : ε → ε') : Fault ε → Fault ε'
  | .error e => .error (f e)
  | .panic => .panic

def fail (e : ε) : Reader ε α := fun _ => .error (.error e)

def remaining : Reader ε ℕ := fun b => .ok (b.length, b)

def copyToBytes (n : ℕ) : Reader ε Bytes := fun b =>
  if n ≤ b.length then .ok (b.take n, b.drop n) else .error .panic

def advance (n : ℕ) : Reader ε Unit := do
  let _ ← copyToBytes n

def leVal : Bytes → ℕ
  | [] => 0
  | b :: bs => b.toNat + 256 * leVal bs

def getU8 : Reader ε UInt8 := do return UInt8.ofNat (leVal (← copyToBytes 1))

def getU16Le : Reader ε UInt16 := do return UInt16.ofNat (leVal (← copyToBytes 2))

def getU32Le : Reader ε UInt32 := do return UInt32.ofNat (leVal (← copyToBytes 4))

def getU64Le : Reader ε UInt64 := do return UInt64.ofNat (leVal (← copyToBytes 8))

/-- `buffer[a..e]`, a panic when the range is not inside the buffer. -/
def slice (b : Bytes) (a e : ℕ) : Except (Fault ε) Bytes :=
  if a ≤ e ∧ e ≤ b.length then .ok ((b.take e).drop a) else .error .panic

/-! ### Readers of a known size -/

theorem bind_apply (r : Reader ε α) (f : α → Reader ε β) (b : Bytes) :
    (r >>= f) b = match r b with
      | .ok (a, b') => f a b'
      | .error e => .error e := by
  change (r b).bind _ = _
  cases r b with
  | error e => rfl
  | ok p => rfl

theorem pure_apply (a : α) (b : Bytes) : (pure a : Reader ε α) b = .ok (a, b) := rfl

theorem fail_apply (e : ε) (b : Bytes) : (fail e : Reader ε α) b = .error (.error e) := rfl

theorem remaining_bind (f : ℕ → Reader ε β) (b : Bytes) :
    ((remaining : Reader ε ℕ) >>= f) b = f b.length b := rfl

/-- `r` reads exactly `n` bytes: it panics on a shorter buffer and succeeds
on every other one. -/
structure Fixed (r : Reader ε α) (n : ℕ) : Prop where
  enough : ∀ b : Bytes, n ≤ b.length → ∃ a, r b = .ok (a, b.drop n)
  short : ∀ b : Bytes, b.length < n → r b = .error .panic

theorem Fixed.pure (a : α) : Fixed (pure a : Reader ε α) 0 :=
  ⟨fun b _ => ⟨a, by rw [pure_apply, List.drop_zero]⟩, fun b h => absurd h (Nat.not_lt_zero _)⟩

theorem Fixed.bind {r : Reader ε α} {f : α → Reader ε β} {n m : ℕ}
    (hr : Fixed r n) (hf : ∀ a, Fixed (f a) m) : Fixed (r >>= f) (n + m) := by
  constructor
  · intro b hb
    obtain ⟨a, ha⟩ := hr.enough b (by omega)
    obtain ⟨c, hc⟩ := (hf a).enough (b.drop n) (by rw [List.length_drop]; omega)
    refine ⟨c, ?_⟩
    rw [bind_apply, ha]
    simp only [hc, List.drop_drop]
  · intro b hb
    rw [bind_apply]
    by_cases hn : n ≤ b.length
    · obtain ⟨a, ha⟩ := hr.enough b hn
      rw [ha]
      exact (hf a).short _ (by rw [List.length_drop]; omega)
    · rw [hr.short b (by omega)]

theorem copyToBytes_fixed (n : ℕ) : Fixed (copyToBytes n : Reader ε Bytes) n := by
  constructor
  · intro b hb
    exact ⟨b.take n, by simp only [copyToBytes, if_pos hb]⟩
  · intro b hb
    simp only [copyToBytes, if_neg (Nat.not_le.mpr hb)]

theorem advance_fixed (n : ℕ) : Fixed (advance n : Reader ε Unit) n :=
  (copyToBytes_fixed n).bind fun _ => Fixed.pure ()

theorem getU8_fixed : Fixed (getU8 : Reader ε UInt8) 1 :=
  (copyToBytes_fixed 1).bind fun _ => Fixed.pure _

theorem getU16Le_fixed : Fixed (getU16Le : Reader ε UInt16) 2 :=
  (copyToBytes_fixed 2).bind fun _ => Fixed.pure _

theorem getU32Le_fixed : Fixed (getU32Le : Reader ε UInt32) 4 :=
  (copyToBytes_fixed 4).bind fun _ => Fixed.pure _

theorem getU64Le_fixed : Fixed (getU64Le : Reader ε UInt64) 8 :=
  (copyToBytes_fixed 8).bind fun _ => Fixed.pure _

/-- `n` bytes are enough for `r` not to panic; when it succeeds it has read
exactly `n` of them. -/
def Guarded (r : Reader ε α) (n : ℕ) : Prop :=
  ∀ b : Bytes, n ≤ b.length →
    (∃ e, r b = .error (.error e)) ∨ ∃ a, r b = .ok (a, b.drop n)

theorem Fixed.guarded {r : Reader ε α} {n : ℕ} (h : Fixed r n) : Guarded r n :=
  fun b hb => Or.inr (h.enough b hb)

theorem fail_guarded (e : ε) (n : ℕ) : Guarded (fail e : Reader ε α) n :=
  fun b _ => Or.inl ⟨e, fail_apply e b⟩

theorem Guarded.bind {r : Reader ε α} {f : α → Reader ε β} {n m : ℕ}
    (hr : Guarded r n) (hf : ∀ a, Guarded (f a) m) : Guarded (r >>= f) (n + m) := by
  intro b hb
  rw [bind_apply]
  rcases hr b (by omega) with ⟨e, he⟩ | ⟨a, ha⟩
  · exact Or.inl ⟨e, by rw [he]⟩
  · rw [ha]
    rcases hf a (b.drop n) (by rw [List.length_drop]; omega) with ⟨e, he⟩ | ⟨c, hc⟩
    · exact Or.inl ⟨e, he⟩
    · exact Or.inr ⟨c, by simp only [hc, List.drop_drop]⟩

theorem Guarded.ite {c : Prop} [Decidable c] {r s : Reader ε α} {n : ℕ}
    (hr : Guarded r n) (hs : Guarded s n) : Guarded (if c then r else s) n := by
  split
  · exact hr
  · exact hs

theorem Guarded.not_panic {r : Reader ε α} {n : ℕ} (h : Guarded r n) {b : Bytes}
    (hb : n ≤ b.length) : r b ≠ .error .panic := by
  rcases h b hb with ⟨e, he⟩ | ⟨a, ha⟩
  · rw [he]; simp
  · rw [ha]; simp

/-! ### Fields at a known place -/

def u8At (b : Bytes) (i : ℕ) : UInt8 := UInt8.ofNat (leVal ((b.drop i).take 1))

def u16At (b : Bytes) (i : ℕ) : UInt16 := UInt16.ofNat (leVal ((b.drop i).take 2))

def u32At (b : Bytes) (i : ℕ) : UInt32 := UInt32.ofNat (leVal ((b.drop i).take 4))

def u64At (b : Bytes) (i : ℕ) : UInt64 := UInt64.ofNat (leVal ((b.drop i).take 8))

theorem copyToBytes_eq (b : Bytes) (n : ℕ) (h : n ≤ b.length) :
    (copyToBytes n : Reader ε Bytes) b = .ok (b.take n, b.drop n) := by
  simp only [copyToBytes, if_pos h]

theorem copyToBytes_at (b : Bytes) (i n : ℕ) (f : Bytes → Reader ε β) (h : i + n ≤ b.length) :
    (copyToBytes n >>= f) (b.drop i) = f ((b.drop i).take n) (b.drop (i + n)) := by
  have hn : n ≤ (b.drop i).length := by rw [List.length_drop]; omega
  rw [bind_apply, copyToBytes_eq _ n hn]
  simp only [List.drop_drop]

theorem advance_at (b : Bytes) (i n : ℕ) (f : Unit → Reader ε β) (h : i + n ≤ b.length) :
    (advance n >>= f) (b.drop i) = f () (b.drop (i + n)) := by
  simp only [advance, bind_assoc, pure_bind]
  rw [copyToBytes_at b i n _ h]

theorem getU8_at (b : Bytes) (i : ℕ) (f : UInt8 → Reader ε β) (h : i + 1 ≤ b.length) :
    (getU8 >>= f) (b.drop i) = f (u8At b i) (b.drop (i + 1)) := by
  simp only [getU8, bind_assoc, pure_bind]
  rw [copyToBytes_at b i 1 _ h]
  rfl

theorem getU16Le_at (b : Bytes) (i : ℕ) (f : UInt16 → Reader ε β) (h : i + 2 ≤ b.length) :
    (getU16Le >>= f) (b.drop i) = f (u16At b i) (b.drop (i + 2)) := by
  simp only [getU16Le, bind_assoc, pure_bind]
  rw [copyToBytes_at b i 2 _ h]
  rfl

theorem getU32Le_at (b : Bytes) (i : ℕ) (f : UInt32 → Reader ε β) (h : i + 4 ≤ b.length) :
    (getU32Le >>= f) (b.drop i) = f (u32At b i) (b.drop (i + 4)) := by
  simp only [getU32Le, bind_assoc, pure_bind]
  rw [copyToBytes_at b i 4 _ h]
  rfl

theorem getU64Le_at (b : Bytes) (i : ℕ) (f : UInt64 → Reader ε β) (h : i + 8 ≤ b.length) :
    (getU64Le >>= f) (b.drop i) = f (u64At b i) (b.drop (i + 8)) := by
  simp only [getU64Le, bind_assoc, pure_bind]
  rw [copyToBytes_at b i 8 _ h]
  rfl

theorem getU8_first (b : Bytes) (f : UInt8 → Reader ε β) (h : 1 ≤ b.length) :
    (getU8 >>= f) b = f (u8At b 0) (b.drop 1) := getU8_at b 0 f (by omega)

theorem getU16Le_first (b : Bytes) (f : UInt16 → Reader ε β) (h : 2 ≤ b.length) :
    (getU16Le >>= f) b = f (u16At b 0) (b.drop 2) := getU16Le_at b 0 f (by omega)

theorem getU32Le_first (b : Bytes) (f : UInt32 → Reader ε β) (h : 4 ≤ b.length) :
    (getU32Le >>= f) b = f (u32At b 0) (b.drop 4) := getU32Le_at b 0 f (by omega)

theorem copyToBytes_first (b : Bytes) (n : ℕ) (f : Bytes → Reader ε β) (h : n ≤ b.length) :
    (copyToBytes n >>= f) b = f (b.take n) (b.drop n) := by
  rw [bind_apply, copyToBytes_eq b n h]

theorem advance_first (b : Bytes) (n : ℕ) (f : Unit → Reader ε β) (h : n ≤ b.length) :
    (advance n >>= f) b = f () (b.drop n) := by
  have hat := advance_at b 0 n f (by omega)
  rwa [List.drop_zero, Nat.zero_add] at hat

/-! ### Running out of bytes -/

def Short (r : Reader ε α) (n : ℕ) : Prop := ∀ b : Bytes, b.length < n → r b = .error .panic

theorem Short.zero (r : Reader ε α) : Short r 0 := fun _ h => absurd h (Nat.not_lt_zero _)

theorem Short.bind {r : Reader ε α} {f : α → Reader ε β} {n m : ℕ}
    (hr : Fixed r n) (hf : ∀ a, Short (f a) m) : Short (r >>= f) (n + m) := by
  intro b hb
  rw [bind_apply]
  by_cases hn : n ≤ b.length
  · obtain ⟨a, ha⟩ := hr.enough b hn
    rw [ha]
    exact hf a _ (by rw [List.length_drop]; omega)
  · rw [hr.short b (by omega)]

theorem Short.before {r : Reader ε α} {n : ℕ} (hr : Short r n) (f : α → Reader ε β) :
    Short (r >>= f) n := by
  intro b hb
  rw [bind_apply, hr b hb]

theorem Short.apply {r : Reader ε α} {n : ℕ} (h : Short r n) {b : Bytes} (hb : b.length < n) :
    r b = .error .panic := h b hb

theorem bind_short {r : Reader ε α} {n : ℕ} (hr : Fixed r n) (f : α → Reader ε β) (b : Bytes)
    (h : b.length < n) : (r >>= f) b = .error .panic := by
  rw [bind_apply, hr.short b h]

/-! ### Computations that do not panic -/

def NoPanic (x : Except (Fault ε) α) : Prop := x ≠ .error .panic

@[simp] theorem noPanic_ok (a : α) : NoPanic (.ok a : Except (Fault ε) α) := nofun

@[simp] theorem noPanic_error (e : ε) : NoPanic (.error (.error e) : Except (Fault ε) α) := by
  simp [NoPanic]

@[simp] theorem not_noPanic_panic : ¬NoPanic (.error .panic : Except (Fault ε) α) :=
  fun h => h rfl

theorem noPanic_bind (x : Except (Fault ε) α) (f : α → Except (Fault ε) β) :
    NoPanic (x >>= f) ↔ NoPanic x ∧ ∀ a, x = .ok a → NoPanic (f a) := by
  cases x with
  | ok a =>
    change NoPanic (f a) ↔ _
    simp
  | error e =>
    change (Except.error e : Except (Fault ε) β) ≠ .error .panic ↔
      (Except.error e : Except (Fault ε) α) ≠ .error .panic ∧ _
    simp

theorem bind_of_ok (a : α) (f : α → Except ε β) : (Except.ok a >>= f) = f a := rfl

theorem except_bind_ok {x : Except ε α} {f : α → Except ε β} {b : β} :
    (x >>= f) = .ok b ↔ ∃ a, x = .ok a ∧ f a = .ok b := by
  cases x with
  | ok a =>
    change f a = _ ↔ _
    simp
  | error e => exact ⟨fun h => (nomatch h), fun ⟨_, h, _⟩ => (nomatch h)⟩

theorem mapError_ok {ε' : Type} (f : ε → ε') (x : Except ε α) (a : α) :
    x.mapError f = .ok a ↔ x = .ok a := by
  cases x with
  | ok b =>
    constructor
    · intro h
      cases h
      rfl
    · intro h
      cases h
      rfl
  | error e => exact ⟨fun h => (nomatch h), fun h => (nomatch h)⟩

/-! ### Little-endian writers -/

def leBytes : ℕ → ℕ → Bytes
  | 0, _ => []
  | n + 1, v => UInt8.ofNat v :: leBytes n (v / 256)

@[simp] theorem leBytes_length (n v : ℕ) : (leBytes n v).length = n := by
  induction n generalizing v with
  | zero => rfl
  | succ n ih => simp only [leBytes, List.length_cons, ih]

theorem leVal_leBytes (n v : ℕ) : leVal (leBytes n v) = v % 256 ^ n := by
  induction n generalizing v with
  | zero => simp only [leBytes, leVal, Nat.pow_zero, Nat.mod_one]
  | succ n ih =>
    have h : (UInt8.ofNat v).toNat = v % 256 := UInt8.toNat_ofNat'
    simp only [leBytes, leVal, ih, h]
    rw [Nat.pow_succ', Nat.mod_mul]

theorem leVal_lt (b : Bytes) : leVal b < 256 ^ b.length := by
  induction b with
  | nil => exact Nat.one_pos
  | cons x b ih =>
    have hx := x.toNat_lt
    simp only [leVal, List.length_cons, Nat.pow_succ]
    omega

theorem leBytes_leVal (b : Bytes) : leBytes b.length (leVal b) = b := by
  induction b with
  | nil => rfl
  | cons x b ih =>
    have hx := x.toNat_lt
    have hdiv : (x.toNat + 256 * leVal b) / 256 = leVal b := by omega
    have hmod : UInt8.ofNat (x.toNat + 256 * leVal b) = x := by
      apply UInt8.toNat_inj.mp
      rw [UInt8.toNat_ofNat']
      omega
    simp only [leVal, List.length_cons, leBytes, hdiv, hmod, ih]

theorem ofNat8_toNat {n : ℕ} (h : n < 2 ^ 8) : (UInt8.ofNat n).toNat = n := by
  rw [UInt8.toNat_ofNat']
  exact Nat.mod_eq_of_lt h

theorem ofNat16_toNat {n : ℕ} (h : n < 2 ^ 16) : (UInt16.ofNat n).toNat = n := by
  rw [UInt16.toNat_ofNat']
  exact Nat.mod_eq_of_lt h

def putU8 (v : UInt8) : Bytes := [v]

def putU16Le (v : UInt16) : Bytes := leBytes 2 v.toNat

def putU32Le (v : UInt32) : Bytes := leBytes 4 v.toNat

def putU64Le (v : UInt64) : Bytes := leBytes 8 v.toNat

def putBytes (v : UInt8) (n : ℕ) : Bytes := List.replicate n v

/-! Writing back what was read at a place. -/

theorem leBytes_take (b : Bytes) (n : ℕ) (h : n ≤ b.length) :
    leBytes n (leVal (b.take n)) = b.take n ∧ leVal (b.take n) < 256 ^ n := by
  have hlen : (b.take n).length = n := List.length_take_of_le h
  have hback := leBytes_leVal (b.take n)
  have hlt := leVal_lt (b.take n)
  rw [hlen] at hback hlt
  exact ⟨hback, hlt⟩

theorem putU8_u8At (b : Bytes) (i : ℕ) (h : i + 1 ≤ b.length) :
    putU8 (u8At b i) = (b.drop i).take 1 := by
  obtain ⟨hback, hlt⟩ := leBytes_take (b.drop i) 1 (by rw [List.length_drop]; omega)
  rw [← hback]
  rfl

theorem putU16Le_u16At (b : Bytes) (i : ℕ) (h : i + 2 ≤ b.length) :
    putU16Le (u16At b i) = (b.drop i).take 2 := by
  obtain ⟨hback, hlt⟩ := leBytes_take (b.drop i) 2 (by rw [List.length_drop]; omega)
  have hmod : leVal ((b.drop i).take 2) % 2 ^ 16 = leVal ((b.drop i).take 2) :=
    Nat.mod_eq_of_lt hlt
  rw [putU16Le, u16At, UInt16.toNat_ofNat', hmod, hback]

theorem putU32Le_u32At (b : Bytes) (i : ℕ) (h : i + 4 ≤ b.length) :
    putU32Le (u32At b i) = (b.drop i).take 4 := by
  obtain ⟨hback, hlt⟩ := leBytes_take (b.drop i) 4 (by rw [List.length_drop]; omega)
  have hmod : leVal ((b.drop i).take 4) % 2 ^ 32 = leVal ((b.drop i).take 4) :=
    Nat.mod_eq_of_lt hlt
  rw [putU32Le, u32At, UInt32.toNat_ofNat', hmod, hback]

theorem putU32Le_at (b : Bytes) (h : 4 ≤ b.length) : putU32Le (u32At b 0) ++ b.drop 4 = b := by
  rw [putU32Le_u32At b 0 (by omega), List.drop_zero, List.take_append_drop]

theorem u32At_put (v : UInt32) (b : Bytes) : u32At (putU32Le v ++ b) 0 = v := by
  have htake : (putU32Le v ++ b).take 4 = putU32Le v := List.take_left' (leBytes_length 4 _)
  have hmod : v.toNat % 256 ^ 4 = v.toNat := Nat.mod_eq_of_lt v.toNat_lt
  rw [u32At, List.drop_zero, htake, putU32Le, leVal_leBytes, hmod, UInt32.ofNat_toNat]

theorem u16At_put (a : Bytes) (v : UInt16) (b : Bytes) : u16At (a ++ (putU16Le v ++ b)) a.length = v := by
  have htake : (putU16Le v ++ b).take 2 = putU16Le v := List.take_left' (leBytes_length 2 _)
  have hmod : v.toNat % 256 ^ 2 = v.toNat := Nat.mod_eq_of_lt v.toNat_lt
  rw [u16At, List.drop_left, htake, putU16Le, leVal_leBytes, hmod, UInt16.ofNat_toNat]

theorem u16At_skip (a b : Bytes) (n i : ℕ) (h : a.length = n) :
    u16At (a ++ b) (n + i) = u16At b i := by
  subst h
  unfold u16At
  rw [← List.drop_drop, List.drop_left]

theorem u16At_eq {b : Bytes} {i : ℕ} {v : UInt16} (h : (b.drop i).take 2 = putU16Le v) :
    u16At b i = v := by
  have hmod : v.toNat % 256 ^ 2 = v.toNat := Nat.mod_eq_of_lt v.toNat_lt
  rw [u16At, h, putU16Le, leVal_leBytes, hmod, UInt16.ofNat_toNat]

theorem u16At_left (a b : Bytes) (i : ℕ) (h : i + 2 ≤ a.length) : u16At (a ++ b) i = u16At a i := by
  unfold u16At
  rw [List.drop_append_of_le_length (by omega),
    List.take_append_of_le_length (by rw [List.length_drop]; omega)]

theorem copyToBytes_append (a b : Bytes) (n : ℕ) (h : a.length = n) :
    (copyToBytes n : Reader ε Bytes) (a ++ b) = .ok (a, b) := by
  subst h
  have hle : a.length ≤ (a ++ b).length := by rw [List.length_append]; omega
  simp only [copyToBytes, if_pos hle, List.take_left, List.drop_left]

theorem advance_append (a b : Bytes) (n : ℕ) (h : a.length = n) :
    (advance n : Reader ε Unit) (a ++ b) = .ok ((), b) := by
  simp only [advance, bind_apply, copyToBytes_append a b n h, pure_apply]

theorem getU8_put (v : UInt8) (b : Bytes) :
    (getU8 : Reader ε UInt8) (putU8 v ++ b) = .ok (v, b) := by
  have h : (copyToBytes 1 : Reader ε Bytes) (putU8 v ++ b) = .ok (putU8 v, b) :=
    copyToBytes_append (putU8 v) b 1 rfl
  have hv : leVal (putU8 v) = v.toNat := by simp only [putU8, leVal, Nat.mul_zero, Nat.add_zero]
  simp only [getU8, bind_apply, h, pure_apply, hv, UInt8.ofNat_toNat]

theorem getU16Le_put (v : UInt16) (b : Bytes) :
    (getU16Le : Reader ε UInt16) (putU16Le v ++ b) = .ok (v, b) := by
  have h : (copyToBytes 2 : Reader ε Bytes) (putU16Le v ++ b) = .ok (putU16Le v, b) :=
    copyToBytes_append (putU16Le v) b 2 (leBytes_length 2 _)
  have hv : leVal (putU16Le v) = v.toNat := by
    rw [putU16Le, leVal_leBytes]
    exact Nat.mod_eq_of_lt v.toNat_lt
  simp only [getU16Le, bind_apply, h, pure_apply, hv, UInt16.ofNat_toNat]

theorem getU32Le_put (v : UInt32) (b : Bytes) :
    (getU32Le : Reader ε UInt32) (putU32Le v ++ b) = .ok (v, b) := by
  have h : (copyToBytes 4 : Reader ε Bytes) (putU32Le v ++ b) = .ok (putU32Le v, b) :=
    copyToBytes_append (putU32Le v) b 4 (leBytes_length 4 _)
  have hv : leVal (putU32Le v) = v.toNat := by
    rw [putU32Le, leVal_leBytes]
    exact Nat.mod_eq_of_lt v.toNat_lt
  simp only [getU32Le, bind_apply, h, pure_apply, hv, UInt32.ofNat_toNat]

theorem getU64Le_put (v : UInt64) (b : Bytes) :
    (getU64Le : Reader ε UInt64) (putU64Le v ++ b) = .ok (v, b) := by
  have h : (copyToBytes 8 : Reader ε Bytes) (putU64Le v ++ b) = .ok (putU64Le v, b) :=
    copyToBytes_append (putU64Le v) b 8 (leBytes_length 8 _)
  have hv : leVal (putU64Le v) = v.toNat := by
    rw [putU64Le, leVal_leBytes]
    exact Nat.mod_eq_of_lt v.toNat_lt
  simp only [getU64Le, bind_apply, h, pure_apply, hv, UInt64.ofNat_toNat]

/-! Reading on after a field that was written. -/

theorem copyToBytes_bind (a b : Bytes) (n : ℕ) (f : Bytes → Reader ε β) (h : a.length = n) :
    (copyToBytes n >>= f) (a ++ b) = f a b := by
  rw [bind_apply, copyToBytes_append a b n h]

theorem advance_bind (a b : Bytes) (n : ℕ) (f : Unit → Reader ε β) (h : a.length = n) :
    (advance n >>= f) (a ++ b) = f () b := by
  rw [bind_apply, advance_append a b n h]

theorem getU8_bind (v : UInt8) (b : Bytes) (f : UInt8 → Reader ε β) :
    (getU8 >>= f) (putU8 v ++ b) = f v b := by
  rw [bind_apply, getU8_put]

theorem getU16Le_bind (v : UInt16) (b : Bytes) (f : UInt16 → Reader ε β) :
    (getU16Le >>= f) (putU16Le v ++ b) = f v b := by
  rw [bind_apply, getU16Le_put]

theorem getU32Le_bind (v : UInt32) (b : Bytes) (f : UInt32 → Reader ε β) :
    (getU32Le >>= f) (putU32Le v ++ b) = f v b := by
  rw [bind_apply, getU32Le_put]

theorem getU64Le_bind (v : UInt64) (b : Bytes) (f : UInt64 → Reader ε β) :
    (getU64Le >>= f) (putU64Le v ++ b) = f v b := by
  rw [bind_apply, getU64Le_put]

end CifsClientStream.Cursor
