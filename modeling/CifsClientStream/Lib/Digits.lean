import Mathlib.Algebra.Group.Nat.Defs
import Mathlib.Data.List.TakeWhile

/-!
# Numbers written in decimal digits

The number that a list of digits writes, of any length. Without its leading
zeros a number is the greater for having more digits, and numbers of equally
many digits stand in the order of their digit strings. The digits come back
from the significant ones and the length.
-/

namespace CifsClientStream.Digits

def number (digits : List Char) : ℕ := Nat.ofDigitChars 10 digits 0

theorem number_cons (c : Char) (digits : List Char) :
    number (c :: digits) = 10 ^ digits.length * (c.toNat - '0'.toNat) + number digits := by
  unfold number
  rw [Nat.ofDigitChars_cons, Nat.ofDigitChars_eq_ofDigitChars_zero, Nat.mul_zero, Nat.zero_add]

theorem isDigit_toNat {c : Char} (h : c.isDigit = true) : 48 ≤ c.toNat ∧ c.toNat ≤ 57 := by
  simp only [Char.isDigit, Bool.and_eq_true, decide_eq_true_eq, UInt32.le_iff_toNat_le] at h
  exact h

theorem number_lt {digits : List Char} (h : ∀ c ∈ digits, c.isDigit = true) :
    number digits < 10 ^ digits.length := by
  induction digits with
  | nil => decide
  | cons c digits ih =>
    have hrest := ih fun d hd => h d (List.mem_cons_of_mem _ hd)
    have hc := isDigit_toNat (h c List.mem_cons_self)
    have hdigit : c.toNat - '0'.toNat ≤ 9 := by
      have : '0'.toNat = 48 := rfl
      omega
    have hmul := Nat.mul_le_mul_left (10 ^ digits.length) hdigit
    rw [number_cons, List.length_cons, Nat.pow_succ]
    omega

/-- The digits without the leading zeros; a lone zero stays. -/
def significant (raw : List Char) : List Char :=
  if raw.dropWhile (· = '0') = [] then ['0'] else raw.dropWhile (· = '0')

theorem number_dropWhile (raw : List Char) : number (raw.dropWhile (· = '0')) = number raw := by
  induction raw with
  | nil => rfl
  | cons c raw ih =>
    rw [List.dropWhile_cons]
    by_cases hc : c = '0'
    · simp only [hc, decide_true, if_true, ih, number_cons, Nat.sub_self, Nat.mul_zero,
        Nat.zero_add]
    · simp only [hc, decide_false, Bool.false_eq_true, if_false]

theorem number_significant (raw : List Char) : number (significant raw) = number raw := by
  unfold significant
  split
  next h =>
    have hzero := number_dropWhile raw
    rw [h] at hzero
    exact hzero
  next h => exact number_dropWhile raw

theorem significant_digits {raw : List Char} (h : ∀ c ∈ raw, c.isDigit = true) :
    ∀ c ∈ significant raw, c.isDigit = true := by
  intro c hc
  unfold significant at hc
  split at hc
  next =>
    rw [List.mem_singleton.mp hc]
    rfl
  next => exact h c ((List.dropWhile_sublist _).subset hc)

/-- Of several significant digits the first counts. -/
theorem pow_le_number {raw : List Char} (h : ∀ c ∈ raw, c.isDigit = true)
    (hlen : 2 ≤ (significant raw).length) :
    10 ^ ((significant raw).length - 1) ≤ number (significant raw) := by
  have hdigits := significant_digits h
  unfold significant at hlen hdigits ⊢
  split at hlen
  next => simp at hlen
  next hne =>
    simp only [hne, if_false] at hdigits ⊢
    have hhead := List.head?_dropWhile_not (fun c : Char => decide (c = '0')) raw
    cases hs : raw.dropWhile (· = '0') with
    | nil => exact absurd hs hne
    | cons c digits =>
      rw [hs] at hhead hdigits
      have hzero : c ≠ '0' := by simpa using hhead
      have hc := isDigit_toNat (hdigits c List.mem_cons_self)
      have hcode : c.toNat ≠ 48 := fun h => hzero (Char.toNat_inj.mp h)
      have hdigit : 1 ≤ c.toNat - '0'.toNat := by
        have : '0'.toNat = 48 := rfl
        omega
      have hmul := Nat.mul_le_mul_left (10 ^ digits.length) hdigit
      rw [number_cons, List.length_cons, Nat.add_sub_cancel]
      omega

theorem significant_length_le {raw raw' : List Char} (h : ∀ c ∈ raw, c.isDigit = true)
    (h' : ∀ c ∈ raw', c.isDigit = true) (hlt : number raw < number raw') :
    (significant raw).length ≤ (significant raw').length := by
  by_contra hlonger
  have hpos : 0 < (significant raw').length := by
    unfold significant
    split
    next => exact Nat.one_pos
    next hne => exact List.length_pos_iff.mpr hne
  have hlow := pow_le_number h (by omega)
  have hhigh := number_lt (significant_digits h')
  have hpow : 10 ^ (significant raw').length ≤ 10 ^ ((significant raw).length - 1) :=
    Nat.pow_le_pow_right (by decide) (by omega)
  rw [number_significant] at hlow hhigh
  omega

/-- Digit strings of one length stand in the order of their numbers. -/
theorem lt_of_number_lt {digits digits' : List Char} (h : ∀ c ∈ digits, c.isDigit = true)
    (h' : ∀ c ∈ digits', c.isDigit = true) (hlen : digits.length = digits'.length)
    (hlt : number digits < number digits') : digits < digits' := by
  induction digits generalizing digits' with
  | nil =>
    rw [List.length_eq_zero_iff.mp hlen.symm] at hlt
    exact absurd hlt (Nat.lt_irrefl _)
  | cons c digits ih =>
    cases digits' with
    | nil => cases hlen
    | cons c' digits' =>
      have hrest : digits.length = digits'.length := Nat.succ.inj hlen
      have hc := isDigit_toNat (h c List.mem_cons_self)
      have hc' := isDigit_toNat (h' c' List.mem_cons_self)
      have hbound := number_lt fun d hd => h' d (List.mem_cons_of_mem _ hd)
      have hzero : '0'.toNat = 48 := rfl
      rw [number_cons, number_cons, hrest] at hlt
      rw [List.cons_lt_cons_iff]
      rcases Nat.lt_trichotomy c.toNat c'.toNat with hless | heq | hmore
      · exact Or.inl hless
      · right
        rw [heq] at hlt
        constructor
        · exact Char.toNat_inj.mp heq
        · exact ih (fun d hd => h d (List.mem_cons_of_mem _ hd))
            (fun d hd => h' d (List.mem_cons_of_mem _ hd)) hrest (by omega)
      · exfalso
        have hmul := Nat.mul_le_mul_left (10 ^ digits'.length)
          (show c'.toNat - '0'.toNat + 1 ≤ c.toNat - '0'.toNat by omega)
        rw [Nat.mul_add, Nat.mul_one] at hmul
        omega

/-! ### The digits from their significant ones -/

theorem dropWhile_zero_inj {raw raw' : List Char} (hlen : raw.length = raw'.length)
    (h : raw.dropWhile (· = '0') = raw'.dropWhile (· = '0')) : raw = raw' := by
  induction raw generalizing raw' with
  | nil => exact (List.length_eq_zero_iff.mp hlen.symm).symm
  | cons c raw ih =>
    cases raw' with
    | nil => cases hlen
    | cons c' raw' =>
      have hrest : raw.length = raw'.length := Nat.succ.inj hlen
      -- a list without its zeros is not longer than the list
      have hle := List.length_dropWhile_le (fun d : Char => decide (d = '0')) raw
      have hle' := List.length_dropWhile_le (fun d : Char => decide (d = '0')) raw'
      rw [List.dropWhile_cons, List.dropWhile_cons] at h
      by_cases hc : c = '0' <;> by_cases hc' : c' = '0' <;> simp only [hc, hc', decide_true,
        decide_false, Bool.false_eq_true, if_true, if_false] at h
      · rw [hc, hc', ih hrest h]
      · have hlong := congrArg List.length h
        rw [List.length_cons] at hlong
        omega
      · have hlong := congrArg List.length h
        rw [List.length_cons] at hlong
        omega
      · exact h

theorem dropWhile_zero_ne (raw : List Char) : raw.dropWhile (· = '0') ≠ ['0'] := by
  intro h
  have hhead := List.head?_dropWhile_not (fun c : Char => decide (c = '0')) raw
  rw [h] at hhead
  simp at hhead

theorem significant_inj {raw raw' : List Char} (hlen : raw.length = raw'.length)
    (h : significant raw = significant raw') : raw = raw' := by
  apply dropWhile_zero_inj hlen
  unfold significant at h
  split at h
  next hz =>
    split at h
    next hz' => rw [hz, hz']
    next => exact absurd h.symm (dropWhile_zero_ne raw')
  next =>
    split at h
    next => exact absurd h (dropWhile_zero_ne raw)
    next => exact h

end CifsClientStream.Digits
