import CifsClientStream.Ntlm
import CifsClientStream.Lib.Bits
import Mathlib.Data.List.Induction

/-!
# The DES key (src/utils.rs, src/ntlm/auth.rs)

`expand_des_key` reads the slice as a string of bits, the most significant
first, and spreads it over eight bytes, seven bits in the upper part of each.
-/

namespace CifsClientStream.Utils
open Cursor Bits

/-! ### The bits of the packed value -/

theorem beVal_concat (bytes : Bytes) (x : UInt8) :
    beVal (bytes ++ [x]) = 2 ^ 8 * beVal bytes + x.toNat := by
  unfold beVal
  rw [List.foldl_append]
  simp only [List.foldl_cons, List.foldl_nil]
  omega

theorem testBit_beVal (bytes : Bytes) {p : ℕ} (h : p < 8 * bytes.length) :
    (beVal bytes).testBit p = bitAt bytes (8 * bytes.length - 1 - p) := by
  induction bytes using List.reverseRecOn generalizing p with
  | nil => cases h
  | append_singleton bytes x ih =>
    rw [List.length_append, List.length_singleton] at h ⊢
    rw [beVal_concat, Nat.testBit_two_pow_mul_add _ x.toNat_lt]
    by_cases hp : p < 8
    · have hindex : 8 * (bytes.length + 1) - 1 - p = 8 * bytes.length + (7 - p) := by omega
      have hdiv : (7 - p) / 8 = 0 := by omega
      have hmod : 7 - (7 - p) % 8 = p := by omega
      rw [if_pos hp, hindex, bitAt_append_right]
      unfold bitAt
      rw [hdiv, hmod]
      rfl
    · have hindex : 8 * (bytes.length + 1) - 1 - p = 8 * bytes.length - 1 - (p - 8) := by omega
      rw [if_neg hp, hindex, ih (by omega), bitAt_append_left _ (by omega)]

/-! ### The loop -/

/-- The group of round `i`: seven bits of the value, moved to the upper bits of a byte. -/
def desGroup (value : UInt64) (i : ℕ) : UInt64 :=
  ((value >>> UInt64.ofNat (7 * i)) &&& 0x7f) <<< UInt64.ofNat (8 * i + 1)

theorem toNat_desGroup (value : UInt64) {i : ℕ} (hi : i < 8) :
    (desGroup value i).toNat =
      ((value >>> UInt64.ofNat (7 * i)) &&& 0x7f).toNat * 2 ^ (8 * i + 1) := by
  have hshift : (UInt64.ofNat (8 * i + 1)).toNat % 64 = 8 * i + 1 := by
    rw [UInt64.toNat_ofNat']
    omega
  have hgroup : ((value >>> UInt64.ofNat (7 * i)) &&& 0x7f).toNat < 2 ^ 7 := by
    rw [UInt64.toNat_and]
    exact Nat.lt_of_le_of_lt Nat.and_le_right (by decide)
  have hpow : 2 ^ 7 * 2 ^ (8 * i + 1) ≤ 2 ^ 64 := by
    rw [← Nat.pow_add]
    exact Nat.pow_le_pow_right (by decide) (by omega)
  have hfits := Nat.mul_lt_mul_of_pos_right hgroup (Nat.two_pow_pos (8 * i + 1))
  unfold desGroup
  rw [UInt64.toNat_shiftLeft, hshift, Nat.shiftLeft_eq]
  exact Nat.mod_eq_of_lt (Nat.lt_of_lt_of_le hfits hpow)

theorem testBit_desGroup (value : UInt64) {i : ℕ} (hi : i < 8) (q : ℕ) :
    (desGroup value i).toNat.testBit q =
      (decide (8 * i + 1 ≤ q) && (value.toNat.testBit (7 * i + (q - (8 * i + 1))) &&
        decide (q - (8 * i + 1) < 7))) := by
  have hshift : (UInt64.ofNat (7 * i)).toNat % 64 = 7 * i := by
    rw [UInt64.toNat_ofNat']
    omega
  have hmask : (0x7f : UInt64).toNat = 2 ^ 7 - 1 := rfl
  rw [toNat_desGroup value hi, Nat.testBit_mul_two_pow, UInt64.toNat_and, Nat.testBit_and, hmask,
    Nat.testBit_two_pow_sub_one, UInt64.toNat_shiftRight, hshift, Nat.testBit_shiftRight]

/-- Bit `t` of byte `i` after `rounds` rounds, counted from the low end. -/
theorem testBit_spreadDesKey (value : UInt64) {rounds : ℕ} (hrounds : rounds ≤ 8) {i t : ℕ}
    (ht : t < 8) :
    (spreadDesKey value rounds).toNat.testBit (8 * i + t) =
      (decide (i < rounds) && (decide (t ≠ 0) && value.toNat.testBit (7 * i + (t - 1)))) := by
  induction rounds with
  | zero => simp [spreadDesKey]
  | succ round ih =>
    have hgroup := testBit_desGroup value (i := round) (by omega) (8 * i + t)
    have hstep : spreadDesKey value (round + 1) = spreadDesKey value round ||| desGroup value round :=
      rfl
    rw [hstep, UInt64.toNat_or, Nat.testBit_or, ih (by omega), hgroup]
    rcases Nat.lt_trichotomy i round with hlt | heq | hgt
    · -- an earlier group, below this round's bits
      have hbelow : ¬8 * round + 1 ≤ 8 * i + t := by omega
      have hlt' : i < round + 1 := by omega
      simp only [hbelow, hlt, hlt', decide_false, decide_true, Bool.false_and, Bool.or_false]
    · have hout : ¬round < round := Nat.lt_irrefl round
      have hin : round < round + 1 := Nat.lt_succ_self round
      have hwhen : 8 * round + 1 ≤ 8 * round + t ↔ t ≠ 0 := by omega
      have hoff : 8 * round + t - (8 * round + 1) = t - 1 := by omega
      have hseven : t - 1 < 7 := by omega
      rw [heq]
      simp only [hout, hin, hwhen, hoff, hseven, decide_false, decide_true, Bool.false_and,
        Bool.false_or, Bool.true_and, Bool.and_true]
    · -- a later byte, above this round's bits
      have habove : ¬8 * i + t - (8 * round + 1) < 7 := by omega
      have hnot : ¬i < round := by omega
      have hnot' : ¬i < round + 1 := by omega
      simp only [habove, hnot, hnot', decide_false, Bool.false_and, Bool.and_false, Bool.or_false]

/-! ### The bytes of the expanded key -/

theorem leBytes_getD (n v : ℕ) {i : ℕ} (h : i < n) :
    (leBytes n v).getD i 0 = UInt8.ofNat (v / 256 ^ i) := by
  induction n generalizing v i with
  | zero => cases h
  | succ n ih =>
    cases i with
    | zero => rw [Nat.pow_zero, Nat.div_one]; rfl
    | succ i =>
      have hrest := ih (v / 256) (Nat.lt_of_succ_lt_succ h)
      rw [Nat.div_div_eq_div_mul, ← Nat.pow_succ'] at hrest
      exact hrest

theorem testBit_putU64Le (v : UInt64) {i t : ℕ} (hi : i < 8) (ht : t < 8) :
    ((putU64Le v).reverse.getD i 0).toNat.testBit t = v.toNat.testBit (8 * (7 - i) + t) := by
  have hlen : (putU64Le v).length = 8 := leBytes_length 8 _
  have hback : (putU64Le v).reverse.getD i 0 = (putU64Le v).getD (7 - i) 0 := by
    rw [List.getD_eq_getElem?_getD, List.getElem?_reverse (by omega), hlen,
      List.getD_eq_getElem?_getD]
  have hpow : 256 ^ (7 - i) = 2 ^ (8 * (7 - i)) := by
    rw [Nat.pow_mul]
  have hbyte : (putU64Le v).getD (7 - i) 0 = UInt8.ofNat (v.toNat / 256 ^ (7 - i)) :=
    leBytes_getD 8 v.toNat (by omega)
  rw [hback, hbyte, UInt8.toNat_ofNat', Nat.testBit_mod_two_pow, hpow, Nat.testBit_div_two_pow,
    Nat.add_comm t]
  simp only [ht, decide_true, Bool.true_and]

/-- The padded key: a zero byte, the slice, and zeros up to eight bytes. -/
def paddedKey (data : Bytes) : Bytes := [0] ++ data ++ List.replicate (7 - data.length) 0

theorem testBit_paddedKey {data : Bytes} (h : data.length ≤ 7) {k : ℕ} (hk : k < 56) :
    (UInt64.ofNat (beVal (paddedKey data))).toNat.testBit (55 - k) = bitAt data k := by
  have hlen : (paddedKey data).length = 8 := by
    simp only [paddedKey, List.length_append, List.length_singleton, List.length_replicate]
    omega
  have hindex : 8 * 8 - 1 - (55 - k) = 8 * [(0 : UInt8)].length + k := by
    rw [List.length_singleton]
    omega
  have hlt : 55 - k < 64 := by omega
  rw [UInt64.toNat_ofNat', Nat.testBit_mod_two_pow, testBit_beVal _ (by omega), hlen, hindex,
    paddedKey, List.append_assoc, bitAt_append_right, bitAt_append_zeros]
  simp only [hlt, decide_true, Bool.true_and]

theorem expandDesKey_eq {data : Bytes} (h : data.length ≤ 7) :
    expandDesKey data =
      .ok (putU64Le (spreadDesKey (UInt64.ofNat (beVal (paddedKey data))) 8)).reverse := by
  unfold expandDesKey
  rw [if_pos h]
  rfl

/-- Byte `i` is the bits `7 * i` to `7 * i + 6` of the slice above a zero bit. -/
structure Spread (data key : Bytes) : Prop where
  length : key.length = 8
  upper : ∀ i < 8, ∀ j < 7, (key.getD i 0).toNat.testBit (7 - j) = bitAt data (7 * i + j)
  lowest : ∀ i < 8, (key.getD i 0).toNat.testBit 0 = false

theorem expandDesKey_spread {data : Bytes} (h : data.length ≤ 7) :
    ∃ key, expandDesKey data = .ok key ∧ Spread data key := by
  refine ⟨_, expandDesKey_eq h, ?_, ?_, ?_⟩
  · rw [List.length_reverse]
    exact leBytes_length 8 _
  · intro i hi j hj
    have hbit : 7 * (7 - i) + (7 - j - 1) = 55 - (7 * i + j) := by omega
    have hpos : 7 - j ≠ 0 := by omega
    have hround : 7 - i < 8 := by omega
    rw [testBit_putU64Le _ hi (by omega), testBit_spreadDesKey _ (Nat.le_refl 8) (by omega), hbit,
      testBit_paddedKey h (by omega)]
    simp only [hround, hpos, ne_eq, not_false_eq_true, decide_true, Bool.true_and]
  · intro i hi
    rw [testBit_putU64Le _ hi (by decide), testBit_spreadDesKey _ (Nat.le_refl 8) (by decide)]
    simp

theorem Spread.bitAt_eq {a b key : Bytes} (ha : Spread a key) (hb : Spread b key) {k : ℕ}
    (hk : k < 56) : bitAt a k = bitAt b k := by
  have hi : k / 7 < 8 := by omega
  have hj : k % 7 < 7 := Nat.mod_lt _ (by decide)
  have hjoin : 7 * (k / 7) + k % 7 = k := Nat.div_add_mod k 7
  have hupper := ha.upper _ hi _ hj
  rw [hb.upper _ hi _ hj, hjoin] at hupper
  exact hupper.symm

theorem expandDesKey_inj {a b : Bytes} (hlen : a.length = b.length) (h : a.length ≤ 7)
    (heq : expandDesKey a = expandDesKey b) : a = b := by
  obtain ⟨key, hkey, hspread⟩ := expandDesKey_spread h
  obtain ⟨key', hkey', hspread'⟩ := expandDesKey_spread (hlen ▸ h)
  rw [hkey, hkey', Except.ok.injEq] at heq
  rw [← heq] at hspread'
  exact eq_of_bitAt hlen fun k hk => hspread.bitAt_eq hspread' (by omega)

/-- Padding the slice on the right with zeros does not change the key. -/
theorem expandDesKey_pad {data : Bytes} {n : ℕ} (h : data.length + n ≤ 7) :
    expandDesKey (data ++ List.replicate n 0) = expandDesKey data := by
  have hpad : paddedKey (data ++ List.replicate n 0) = paddedKey data := by
    have hzeros : n + (7 - (data.length + n)) = 7 - data.length := by omega
    simp only [paddedKey, List.length_append, List.length_replicate]
    rw [List.append_assoc [0], List.append_assoc data, List.replicate_append_replicate, hzeros,
      List.append_assoc]
  have hlen : (data ++ List.replicate n (0 : UInt8)).length ≤ 7 := by
    rw [List.length_append, List.length_replicate]
    exact h
  rw [expandDesKey_eq hlen, expandDesKey_eq (by omega), hpad]

end CifsClientStream.Utils

namespace CifsClientStream.Ntlm
open Cursor Utils

/-! ### The three keys of the first version -/

/-- The 21 bytes that the three keys are cut from: the hash and five zeros. -/
def Auth.ntlmv1Keys (crypto : Crypto) (auth : Auth) : Bytes :=
  (auth.ntlmHash crypto).toList ++ List.replicate 5 0

theorem ntlmv1Keys_cut (crypto : Crypto) (auth : Auth) :
    (auth.ntlmv1Keys crypto).take 7 = (auth.ntlmHash crypto).toList.take 7 ∧
      ((auth.ntlmv1Keys crypto).drop 7).take 7 =
        ((auth.ntlmHash crypto).toList.drop 7).take 7 ∧
      (auth.ntlmv1Keys crypto).drop 14 =
        (auth.ntlmHash crypto).toList.drop 14 ++ List.replicate 5 0 := by
  have hlen : (auth.ntlmHash crypto).toList.length = 16 := Vector.length_toList
  unfold Auth.ntlmv1Keys
  refine ⟨?_, ?_, ?_⟩
  · rw [List.take_append_of_le_length (by omega)]
  · rw [List.drop_append_of_le_length (by omega), List.take_append_of_le_length]
    rw [List.length_drop]
    omega
  · rw [List.drop_append_of_le_length (by omega)]

theorem desOneshot_pad (crypto : Crypto) {secret : Bytes} {n : ℕ} (h : secret.length + n ≤ 7)
    (input : Bytes) :
    Auth.desOneshot crypto (secret ++ List.replicate n 0) input =
      Auth.desOneshot crypto secret input := by
  unfold Auth.desOneshot
  rw [expandDesKey_pad h]

/-- The third key is the last two bytes of the hash with the zeros behind them. -/
theorem ntlmv1Authenticate_keys (crypto : Crypto) (auth : Auth) (challenge : Bytes) :
    auth.ntlmv1Authenticate crypto challenge = (do
      let keys := auth.ntlmv1Keys crypto
      let first ← Auth.desOneshot crypto (keys.take 7) challenge
      let second ← Auth.desOneshot crypto ((keys.drop 7).take 7) challenge
      let third ← Auth.desOneshot crypto (keys.drop 14) challenge
      .ok (first ++ second ++ third)) := by
  have hlen : (auth.ntlmHash crypto).toList.length = 16 := Vector.length_toList
  obtain ⟨hfirst, hsecond, hthird⟩ := ntlmv1Keys_cut crypto auth
  have hseven : ((auth.ntlmHash crypto).toList.drop 14).length + 5 ≤ 7 := by
    rw [List.length_drop]
    omega
  have hpad := desOneshot_pad crypto hseven challenge
  simp only [Auth.ntlmv1Authenticate, hfirst, hsecond, hthird, hpad]

/-- The key expansion spreads the bits of the slice, seven to a byte, and loses none. -/
theorem expandDesKey_bits :
    (∀ data : Bytes, data.length ≤ 7 → ∃ key, expandDesKey data = .ok key ∧ Spread data key) ∧
    (∀ a b : Bytes, a.length = b.length → a.length ≤ 7 → expandDesKey a = expandDesKey b →
      a = b) ∧
    (∀ (crypto : Crypto) (auth : Auth) (challenge : Bytes),
      auth.ntlmv1Authenticate crypto challenge = (do
        let keys := (auth.ntlmHash crypto).toList ++ List.replicate 5 0
        let first ← Auth.desOneshot crypto (keys.take 7) challenge
        let second ← Auth.desOneshot crypto ((keys.drop 7).take 7) challenge
        let third ← Auth.desOneshot crypto (keys.drop 14) challenge
        .ok (first ++ second ++ third))) ∧
    ∀ (value : UInt64) (i : ℕ), i < 8 →
      (((value >>> UInt64.ofNat (7 * i)) &&& 0x7f) <<< UInt64.ofNat (8 * i + 1)).toNat =
        ((value >>> UInt64.ofNat (7 * i)) &&& 0x7f).toNat * 2 ^ (8 * i + 1) := by
  refine ⟨?_, ?_, ?_, ?_⟩
  · intro data h
    exact expandDesKey_spread h
  · intro a b hlen h heq
    exact expandDesKey_inj hlen h heq
  · exact ntlmv1Authenticate_keys
  · intro value i hi
    exact toNat_desGroup value hi

theorem expandDesKey_bits_short :
    ∃ key, expandDesKey [0x80, 0x01] = .ok key ∧ Spread [0x80, 0x01] key :=
  expandDesKey_bits.1 [0x80, 0x01] (by decide)

end CifsClientStream.Ntlm
