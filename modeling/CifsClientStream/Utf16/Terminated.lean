import CifsClientStream.Utf16

/-!
# The UTF-16 string codec both ways (src/utils.rs)

What `decode_utf16le` accepts is what `encode_utf16le` writes, and
`parse_utf16le_0` stops at the first zero unit on a unit boundary, not at a
zero byte inside a unit.
-/

namespace CifsClientStream.Utils
open Cursor

/-! ### Re-encoding -/

theorem toNat_charOfNat {n : ℕ} (h : n.isValidChar) : (Char.ofNat n).toNat = n := by
  unfold Char.ofNat
  rw [dif_pos h]
  exact UInt32.toNat_ofNatLT (n := n)

theorem toNat_of_unit {u : UInt16} (h : (!isSurrogate u) = true) :
    (Char.ofNat u.toNat).toNat = u.toNat := by
  have hlt := u.toNat_lt
  have hrange : u.toNat < 0xd800 ∨ 0xdfff < u.toNat := by
    rw [Bool.not_eq_true', ← Bool.not_eq_true, ← UInt16.ofNat_toNat (x := u),
      isSurrogate_ofNat _ hlt] at h
    omega
  have hvalid : u.toNat.isValidChar := by
    unfold Nat.isValidChar
    omega
  exact toNat_charOfNat hvalid

theorem encode_unit {u : UInt16} (h : (!isSurrogate u) = true) :
    encodeUtf16Char (Char.ofNat u.toNat) = [u] := by
  have hlt := u.toNat_lt
  unfold encodeUtf16Char
  rw [toNat_of_unit h, if_pos hlt, UInt16.ofNat_toNat]

theorem high_range {u : UInt16} (h : ¬(!isSurrogate u) = true) (hhigh : ¬isLowSurrogate u = true) :
    0xd800 ≤ u.toNat ∧ u.toNat < 0xdc00 := by
  have hlt := u.toNat_lt
  rw [Bool.not_eq_true', Bool.not_eq_false, ← UInt16.ofNat_toNat (x := u),
    isSurrogate_ofNat _ hlt] at h
  rw [← UInt16.ofNat_toNat (x := u), isLowSurrogate_ofNat _ hlt] at hhigh
  omega

theorem low_range {v : UInt16} (h : isLowSurrogate v = true) :
    0xdc00 ≤ v.toNat ∧ v.toNat ≤ 0xdfff := by
  rw [← UInt16.ofNat_toNat (x := v), isLowSurrogate_ofNat _ v.toNat_lt] at h
  exact h

theorem encode_pair {u v : UInt16} (hu : 0xd800 ≤ u.toNat ∧ u.toNat < 0xdc00)
    (hv : 0xdc00 ≤ v.toNat ∧ v.toNat ≤ 0xdfff) : encodeUtf16Char (pairChar u v) = [u, v] := by
  have hvalid : (0x10000 + (u.toNat - 0xd800) * 0x400 + (v.toNat - 0xdc00)).isValidChar := by
    unfold Nat.isValidChar
    omega
  have hcode : (pairChar u v).toNat =
      0x10000 + (u.toNat - 0xd800) * 0x400 + (v.toNat - 0xdc00) := by
    rw [pairChar, toNat_charOfNat hvalid]
  have hwide : ¬(pairChar u v).toNat < 0x10000 := by omega
  have hfirst : 0xd800 + ((pairChar u v).toNat - 0x10000) / 0x400 = u.toNat := by omega
  have hsecond : 0xdc00 + ((pairChar u v).toNat - 0x10000) % 0x400 = v.toNat := by omega
  unfold encodeUtf16Char
  rw [if_neg hwide, hfirst, hsecond, UInt16.ofNat_toNat, UInt16.ofNat_toNat]

/-- The units of a decoded text are the units it was decoded from. -/
theorem encode_decodeUtf16 {us : List UInt16} {cs : List Char} (h : decodeUtf16 us = some cs) :
    cs.flatMap encodeUtf16Char = us := by
  fun_induction decodeUtf16 us generalizing cs with
  | case1 =>
    cases h
    rfl
  | case2 u rest hunit ih =>
    obtain ⟨later, hlater, rfl⟩ := Option.map_eq_some_iff.mp h
    rw [List.flatMap_cons, encode_unit hunit, ih hlater]
    rfl
  | case3 u rest hunit hlow => cases h
  | case4 u hunit hhigh => cases h
  | case5 u hunit hhigh v rest hlow ih =>
    obtain ⟨later, hlater, rfl⟩ := Option.map_eq_some_iff.mp h
    rw [List.flatMap_cons, encode_pair (high_range hunit hhigh) (low_range hlow), ih hlater]
    rfl
  | case6 u hunit hhigh v rest hlow => cases h

theorem put_unitLe (a b : UInt8) : putU16Le (unitLe a b) = [a, b] := by
  have ha := a.toNat_lt
  have hb := b.toNat_lt
  have hunit : (unitLe a b).toNat = a.toNat + 256 * b.toNat := by
    rw [unitLe, UInt16.toNat_ofNat']
    omega
  have hfirst : UInt8.ofNat (a.toNat + 256 * b.toNat) = a := by
    apply UInt8.toNat_inj.mp
    rw [UInt8.toNat_ofNat']
    omega
  have hsecond : UInt8.ofNat ((a.toNat + 256 * b.toNat) / 256) = b := by
    apply UInt8.toNat_inj.mp
    rw [UInt8.toNat_ofNat']
    omega
  simp only [putU16Le, leBytes, hunit, hfirst, hsecond]

theorem put_units {raw : Bytes} (h : raw.length % 2 = 0) : (units raw).flatMap putU16Le = raw := by
  fun_induction units raw with
  | case1 a b rest ih =>
    rw [length_pair] at h
    rw [List.flatMap_cons, put_unitLe, ih h]
    rfl
  | case2 raw hshort =>
    cases raw with
    | nil => rfl
    | cons a raw =>
      cases raw with
      | nil => cases h
      | cons b raw => exact absurd rfl (hshort a b raw)

theorem encodeUtf16Le_decode {raw : Bytes} {cs : List Char} (h : decodeUtf16Le raw = .ok cs) :
    encodeUtf16Le (String.ofList cs) = raw := by
  obtain ⟨heven, hunits⟩ := (decodeUtf16Le_ok raw cs).mp h
  rw [encodeUtf16Le_eq, utf16Units, String.toList_ofList, encode_decodeUtf16 hunits,
    put_units heven]

/-! ### The terminated string -/

theorem splitNul16_put (u : UInt16) (rest : Bytes) :
    splitNul16 (putU16Le u ++ rest) =
      if u = 0 then some ([], rest) else (splitNul16 rest).map fun p => (u :: p.1, p.2) := by
  have hbytes : putU16Le u = [UInt8.ofNat u.toNat, UInt8.ofNat (u.toNat / 256)] := rfl
  rw [hbytes, List.cons_append, List.cons_append, List.nil_append, splitNul16, unitLe_put]

theorem splitNul16_encode {us : List UInt16} (h : 0 ∉ us) (rest : Bytes) :
    splitNul16 (us.flatMap putU16Le ++ 0 :: 0 :: rest) = some (us, rest) := by
  induction us with
  | nil =>
    have hzero := splitNul16_put 0 rest
    rw [if_pos rfl] at hzero
    exact hzero
  | cons u us ih =>
    simp only [List.mem_cons, not_or] at h
    have hu : u ≠ 0 := fun hzero => h.1 hzero.symm
    rw [List.flatMap_cons, List.append_assoc, splitNul16_put, if_neg hu, ih h.2]
    rfl

theorem encodeUtf16Char_ne_zero {c : Char} (h : c ≠ '\x00') : 0 ∉ encodeUtf16Char c := by
  have hcode : c.toNat ≠ 0 := fun hzero => h (Char.toNat_inj.mp hzero)
  have hvalid := char_valid c
  intro hmem
  unfold encodeUtf16Char at hmem
  have hnat (n : ℕ) (hlt : n < 2 ^ 16) (hzero : (0 : UInt16) = UInt16.ofNat n) : n = 0 := by
    have heq := congrArg UInt16.toNat hzero
    rw [UInt16.toNat_ofNat', Nat.mod_eq_of_lt hlt] at heq
    exact heq.symm
  split at hmem
  next hshort =>
    have := hnat _ hshort (List.mem_singleton.mp hmem)
    omega
  next hlong =>
    rcases List.mem_cons.mp hmem with hfirst | hsecond
    · have := hnat _ (by omega) hfirst
      omega
    · have := hnat _ (by omega) (List.mem_singleton.mp hsecond)
      omega

theorem utf16Units_ne_zero {s : String} (h : '\x00' ∉ s.toList) : 0 ∉ utf16Units s := by
  intro hmem
  obtain ⟨c, hc, hzero⟩ := List.mem_flatMap.mp hmem
  have hne : c ≠ '\x00' := by
    intro heq
    rw [heq] at hc
    exact h hc
  exact encodeUtf16Char_ne_zero hne hzero

theorem parseUtf16Le0_encode {s : String} (h : '\x00' ∉ s.toList) (rest : Bytes) :
    parseUtf16Le0 (encodeUtf16Le0 s ++ rest) = .ok (s, rest) := by
  have hsplit : splitNul16 (encodeUtf16Le0 s ++ rest) = some (utf16Units s, rest) := by
    rw [encodeUtf16Le0, encodeUtf16Le_eq, List.append_assoc]
    exact splitNul16_encode (utf16Units_ne_zero h) rest
  unfold parseUtf16Le0
  simp only [hsplit, utf16Units, decodeUtf16_encodeAll, String.ofList_toList]

theorem splitNul16_eq_none {raw : Bytes} : splitNul16 raw = none ↔ 0 ∉ units raw := by
  fun_induction splitNul16 raw with
  | case1 a b rest hzero => simp [units, hzero]
  | case2 a b rest hne ih =>
    have hne' : ¬0 = unitLe a b := fun h => hne h.symm
    rw [Option.map_eq_none_iff, ih, units, List.mem_cons, not_or]
    simp only [hne', not_false_eq_true, true_and]
  | case3 raw hshort =>
    cases raw with
    | nil => simp [units]
    | cons a raw =>
      cases raw with
      | nil => simp [units]
      | cons b raw => exact absurd rfl (hshort a b raw)

theorem unitLe_eq_zero {a b : UInt8} : unitLe a b = 0 ↔ a = 0 ∧ b = 0 := by
  have ha := a.toNat_lt
  have hb := b.toNat_lt
  rw [← UInt16.toNat_inj, ← UInt8.toNat_inj, ← UInt8.toNat_inj, unitLe, UInt16.toNat_ofNat',
    UInt16.toNat_zero, UInt8.toNat_zero]
  omega

/-- A zero unit is two zero bytes on a unit boundary. -/
theorem zero_mem_units {raw : Bytes} :
    0 ∈ units raw ↔ ∃ i : ℕ, raw[2 * i]? = some 0 ∧ raw[2 * i + 1]? = some 0 := by
  fun_induction units raw with
  | case1 a b rest ih =>
    rw [List.mem_cons, eq_comm, unitLe_eq_zero, ih]
    constructor
    · rintro (⟨rfl, rfl⟩ | ⟨i, hfirst, hsecond⟩)
      · exact ⟨0, rfl, rfl⟩
      · exact ⟨i + 1, hfirst, hsecond⟩
    · rintro ⟨i, hfirst, hsecond⟩
      cases i with
      | zero => exact Or.inl ⟨Option.some.inj hfirst, Option.some.inj hsecond⟩
      | succ i => exact Or.inr ⟨i, hfirst, hsecond⟩
  | case2 raw hshort =>
    cases raw with
    | nil => simp
    | cons a raw =>
      cases raw with
      | nil => simp
      | cons b raw => exact absurd rfl (hshort a b raw)

theorem parseUtf16Le0_missing {raw : Bytes} (h : 0 ∉ units raw) :
    parseUtf16Le0 raw = .error .MissingTermination := by
  unfold parseUtf16Le0
  rw [splitNul16_eq_none.mpr h]

/-- The codec both ways, for whole strings and for terminated ones. -/
theorem utf16_codec :
    (∀ s : String, (decodeUtf16Le (encodeUtf16Le s)).map String.ofList = .ok s) ∧
    (∀ (raw : Bytes) (cs : List Char), raw.length % 2 = 0 → decodeUtf16Le raw = .ok cs →
      encodeUtf16Le (String.ofList cs) = raw) ∧
    (∀ (s : String) (rest : Bytes), '\x00' ∉ s.toList →
      parseUtf16Le0 (encodeUtf16Le0 s ++ rest) = .ok (s, rest)) ∧
    (∀ raw : Bytes, (∀ i : ℕ, ¬(raw[2 * i]? = some 0 ∧ raw[2 * i + 1]? = some 0)) →
      parseUtf16Le0 raw = .error .MissingTermination) := by
  refine ⟨?_, ?_, ?_, ?_⟩
  · intro s
    rw [decodeUtf16Le_encode]
    exact congrArg Except.ok String.ofList_toList
  · intro raw cs _ hdecode
    exact encodeUtf16Le_decode hdecode
  · intro s rest hnul
    exact parseUtf16Le0_encode hnul rest
  · intro raw hzero
    apply parseUtf16Le0_missing
    rw [zero_mem_units, not_exists]
    exact hzero

theorem utf16_codec_film :
    parseUtf16Le0 (encodeUtf16Le0 "Ā🎬" ++ [7]) = .ok ("Ā🎬", [7]) ∧
      parseUtf16Le0 [1, 0, 0, 1, 0] = .error .MissingTermination :=
  ⟨utf16_codec.2.2.1 "Ā🎬" [7] (by decide +kernel),
    utf16_codec.2.2.2 _ fun i h => by
      have hlt := (List.getElem?_eq_some_iff.mp h.2).1
      simp only [List.length_cons, List.length_nil] at hlt
      have hi : i = 0 ∨ i = 1 := by omega
      rcases hi with rfl | rfl
      · cases h.1
      · cases h.2⟩

end CifsClientStream.Utils
