import Mathlib.Data.List.GetD

/-!
# Bytes as a string of bits

The bits of a byte string, the most significant bit of the first byte first.
Past its end the string reads as zeros, so padding on the right changes no bit.
-/

namespace CifsClientStream.Bits

def bitAt (bytes : List UInt8) (k : ℕ) : Bool := (bytes.getD (k / 8) 0).toNat.testBit (7 - k % 8)

theorem bitAt_append_left {a : List UInt8} (b : List UInt8) {k : ℕ} (h : k < 8 * a.length) :
    bitAt (a ++ b) k = bitAt a k := by
  have hlt : k / 8 < a.length := by omega
  unfold bitAt
  rw [List.getD_append _ _ _ _ hlt]

theorem bitAt_append_right (a b : List UInt8) (k : ℕ) :
    bitAt (a ++ b) (8 * a.length + k) = bitAt b k := by
  have hdiv : (8 * a.length + k) / 8 = a.length + k / 8 := by omega
  have hmod : (8 * a.length + k) % 8 = k % 8 := by omega
  have hle : a.length ≤ a.length + k / 8 := by omega
  unfold bitAt
  rw [hdiv, hmod, List.getD_append_right _ _ _ _ hle, Nat.add_sub_cancel_left]

theorem bitAt_zeros (n k : ℕ) : bitAt (List.replicate n 0) k = false := by
  have hzero : (List.replicate n (0 : UInt8)).getD (k / 8) 0 = 0 := by
    rw [List.getD_eq_getElem?_getD, List.getElem?_replicate]
    split <;> rfl
  unfold bitAt
  rw [hzero]
  exact Nat.zero_testBit _

/-- Padding on the right with zeros changes no bit. -/
theorem bitAt_append_zeros (bytes : List UInt8) (n k : ℕ) :
    bitAt (bytes ++ List.replicate n 0) k = bitAt bytes k := by
  by_cases h : k < 8 * bytes.length
  · exact bitAt_append_left _ h
  · obtain ⟨past, rfl⟩ := Nat.exists_eq_add_of_le (Nat.not_lt.mp h)
    have hnil := bitAt_append_right bytes [] past
    rw [List.append_nil] at hnil
    rw [bitAt_append_right, hnil, bitAt_zeros]
    exact (bitAt_zeros 0 past).symm

theorem testBit_byte (x : UInt8) {i : ℕ} (h : 8 ≤ i) : x.toNat.testBit i = false := by
  apply Nat.testBit_lt_two_pow
  exact Nat.lt_of_lt_of_le x.toNat_lt (Nat.pow_le_pow_right (by decide) h)

theorem eq_of_bitAt {a b : List UInt8} (hlen : a.length = b.length)
    (h : ∀ k < 8 * a.length, bitAt a k = bitAt b k) : a = b := by
  apply List.ext_getElem hlen
  intro m ha hb
  apply UInt8.toNat_inj.mp
  apply Nat.eq_of_testBit_eq
  intro i
  by_cases hi : i < 8
  · have hbit := h (8 * m + (7 - i)) (by omega)
    have hdiv : (8 * m + (7 - i)) / 8 = m := by omega
    have hmod : 7 - (8 * m + (7 - i)) % 8 = i := by omega
    unfold bitAt at hbit
    rw [hdiv, hmod, List.getD_eq_getElem _ _ ha, List.getD_eq_getElem _ _ hb] at hbit
    exact hbit
  · rw [testBit_byte _ (Nat.not_lt.mp hi), testBit_byte _ (Nat.not_lt.mp hi)]

end CifsClientStream.Bits
