import CifsClientStream.Utils

/-!
# UTF-16 text (src/utils.rs)

`decode_utf16le` forms its units while it decodes them. What it returns depends
on the whole units only (`decodeUtf16Le_ok`), unless the bytes end in half a
unit and the decoder gets that far (`decodeUtf16Le_panic`). It gives back what
`encode_utf16le` wrote (`decodeUtf16Le_encode`).
-/

namespace CifsClientStream.Utils
open Cursor

/-- The whole units of a byte string. -/
def units : Bytes → List UInt16
  | a :: b :: rest => unitLe a b :: units rest
  | _ => []

/-! ### What text can begin with -/

/-- The units are the beginning of a well-formed text. -/
def StartsUtf16 (us : List UInt16) : Prop := ∃ more, (decodeUtf16 (us ++ more)).isSome

theorem decodeUtf16_unit {u : UInt16} (us : List UInt16) (h : (!isSurrogate u) = true) :
    decodeUtf16 (u :: us) = (decodeUtf16 us).map (Char.ofNat u.toNat :: ·) := by
  cases us with
  | nil => simp only [decodeUtf16, h, if_true]
  | cons v us => rw [decodeUtf16, if_pos h]

theorem decodeUtf16_low {u : UInt16} (us : List UInt16) (h : ¬(!isSurrogate u) = true)
    (hlow : isLowSurrogate u = true) : decodeUtf16 (u :: us) = none := by
  cases us with
  | nil => rw [decodeUtf16, if_neg h, if_pos hlow]
  | cons v us => rw [decodeUtf16, if_neg h, if_pos hlow]

theorem decodeUtf16_pair {u : UInt16} (v : UInt16) (us : List UInt16)
    (h : ¬(!isSurrogate u) = true) (hhigh : ¬isLowSurrogate u = true) :
    decodeUtf16 (u :: v :: us) =
      if isLowSurrogate v then (decodeUtf16 us).map (pairChar u v :: ·) else none := by
  rw [decodeUtf16, if_neg h, if_neg hhigh]

theorem startsUtf16_nil : StartsUtf16 [] := ⟨[], rfl⟩

theorem startsUtf16_unit {u : UInt16} (us : List UInt16) (h : (!isSurrogate u) = true) :
    StartsUtf16 (u :: us) ↔ StartsUtf16 us := by
  unfold StartsUtf16
  have hstep : ∀ more, (decodeUtf16 (u :: us ++ more)).isSome = (decodeUtf16 (us ++ more)).isSome := by
    intro more
    rw [List.cons_append, decodeUtf16_unit _ h, Option.isSome_map]
  simp only [hstep]

theorem not_startsUtf16_low {u : UInt16} (us : List UInt16) (h : ¬(!isSurrogate u) = true)
    (hlow : isLowSurrogate u = true) : ¬StartsUtf16 (u :: us) := by
  intro hstart
  obtain ⟨more, hmore⟩ := hstart
  rw [List.cons_append, decodeUtf16_low _ h hlow] at hmore
  cases hmore

/-- A high surrogate may come last: a low one can follow. -/
theorem startsUtf16_high {u : UInt16} (h : ¬(!isSurrogate u) = true)
    (hhigh : ¬isLowSurrogate u = true) : StartsUtf16 [u] := by
  refine ⟨[0xdc00], ?_⟩
  have hlow : isLowSurrogate 0xdc00 = true := rfl
  rw [List.cons_append, List.nil_append, decodeUtf16_pair _ _ h hhigh, if_pos hlow]
  rfl

theorem startsUtf16_pair {u : UInt16} (v : UInt16) (us : List UInt16)
    (h : ¬(!isSurrogate u) = true) (hhigh : ¬isLowSurrogate u = true) :
    StartsUtf16 (u :: v :: us) ↔ isLowSurrogate v = true ∧ StartsUtf16 us := by
  unfold StartsUtf16
  have hstep : ∀ more, (decodeUtf16 (u :: v :: us ++ more)).isSome =
      (isLowSurrogate v && (decodeUtf16 (us ++ more)).isSome) := by
    intro more
    rw [List.cons_append, List.cons_append, decodeUtf16_pair _ _ h hhigh]
    cases isLowSurrogate v with
    | true => rw [if_pos rfl, Option.isSome_map, Bool.true_and]
    | false => rfl
  simp only [hstep, Bool.and_eq_true, exists_and_left]

/-! ### Decoding -/

theorem map_panic {α β : Type} (f : α → β) (x : Except (Fault Unit) α) :
    x.map f = .error .panic ↔ x = .error .panic := by
  cases x with
  | ok a => exact ⟨fun h => (nomatch h), fun h => (nomatch h)⟩
  | error e =>
    constructor
    · intro h
      exact congrArg _ (Except.error.inj h)
    · intro h
      exact congrArg _ (Except.error.inj h)

theorem map_ok {α β : Type} (f : α → β) (x : Except (Fault Unit) α) (r : β) :
    x.map f = .ok r ↔ ∃ a, x = .ok a ∧ f a = r := by
  cases x with
  | ok a =>
    constructor
    · intro h
      exact ⟨a, rfl, Except.ok.inj h⟩
    · intro h
      obtain ⟨a', ha, hr⟩ := h
      rw [Except.ok.inj ha, ← hr]
      rfl
  | error e => exact ⟨fun h => (nomatch h), fun h => by obtain ⟨_, ha, _⟩ := h; cases ha⟩

theorem length_pair (a b : UInt8) (rest : Bytes) :
    (a :: b :: rest).length % 2 = rest.length % 2 := by
  rw [List.length_cons, List.length_cons]
  omega

/-- The decoder panics when the bytes end in half a unit and nothing before it is refused. -/
theorem decodeUtf16Le_panic (raw : Bytes) :
    decodeUtf16Le raw = .error .panic ↔ raw.length % 2 = 1 ∧ StartsUtf16 (units raw) := by
  fun_induction decodeUtf16Le raw with
  | case1 => simp
  | case2 a => simp [units, startsUtf16_nil]
  | case3 a b rest h ih =>
    rw [map_panic, ih, units, startsUtf16_unit _ h, length_pair]
  | case4 a b rest h hlow =>
    simp [units, not_startsUtf16_low _ h hlow]
  | case5 a b h hhigh => simp
  | case6 a b h hhigh c => simp [units, startsUtf16_high h hhigh]
  | case7 a b h hhigh c d rest hlow ih =>
    rw [map_panic, ih, units, units, startsUtf16_pair _ _ h hhigh, length_pair, length_pair]
    simp only [hlow, true_and]
  | case8 a b h hhigh c d rest hlow =>
    simp [units, startsUtf16_pair _ _ h hhigh, hlow]

/-- What the decoder returns is the text of the whole units, and there is no half unit. -/
theorem decodeUtf16Le_ok (raw : Bytes) (cs : List Char) :
    decodeUtf16Le raw = .ok cs ↔ raw.length % 2 = 0 ∧ decodeUtf16 (units raw) = some cs := by
  fun_induction decodeUtf16Le raw generalizing cs with
  | case1 => simp [units, decodeUtf16]
  | case2 a => simp
  | case3 a b rest h ih =>
    rw [map_ok, length_pair, units, decodeUtf16_unit _ h, Option.map_eq_some_iff]
    simp only [ih, and_assoc, exists_and_left]
  | case4 a b rest h hlow => simp [units, decodeUtf16_low _ h hlow]
  | case5 a b h hhigh => simp [units, decodeUtf16, h, hhigh]
  | case6 a b h hhigh c => simp
  | case7 a b h hhigh c d rest hlow ih =>
    rw [map_ok, length_pair, length_pair, units, units, decodeUtf16_pair _ _ h hhigh, if_pos hlow,
      Option.map_eq_some_iff]
    simp only [ih, and_assoc, exists_and_left]
  | case8 a b h hhigh c d rest hlow =>
    simp [units, decodeUtf16_pair _ _ h hhigh, hlow]

/-! ### Encoding -/

theorem unitLe_put (u : UInt16) :
    unitLe (UInt8.ofNat u.toNat) (UInt8.ofNat (u.toNat / 256)) = u := by
  have hu := u.toNat_lt
  apply UInt16.toNat_inj.mp
  rw [unitLe, UInt16.toNat_ofNat', UInt8.toNat_ofNat', UInt8.toNat_ofNat']
  omega

theorem units_put (u : UInt16) (rest : Bytes) : units (putU16Le u ++ rest) = u :: units rest := by
  change unitLe _ _ :: units rest = _
  rw [unitLe_put]

theorem char_valid (c : Char) : c.toNat < 0xd800 ∨ (0xdfff < c.toNat ∧ c.toNat < 0x110000) := c.valid

theorem pairChar_encode (c : Char) (h : ¬c.toNat < 0x10000) :
    pairChar (UInt16.ofNat (0xd800 + (c.toNat - 0x10000) / 0x400))
      (UInt16.ofNat (0xdc00 + (c.toNat - 0x10000) % 0x400)) = c := by
  have hvalid := char_valid c
  have hvalue : 0x10000 + ((0xd800 + (c.toNat - 0x10000) / 0x400) % 2 ^ 16 - 0xd800) * 0x400 +
      ((0xdc00 + (c.toNat - 0x10000) % 0x400) % 2 ^ 16 - 0xdc00) = c.toNat := by omega
  rw [pairChar, UInt16.toNat_ofNat', UInt16.toNat_ofNat', hvalue, Char.ofNat_toNat]

theorem isSurrogate_ofNat (n : ℕ) (h : n < 2 ^ 16) :
    isSurrogate (UInt16.ofNat n) = true ↔ 0xd800 ≤ n ∧ n ≤ 0xdfff := by
  have hmod : n % 65536 = n := Nat.mod_eq_of_lt h
  simp [isSurrogate, UInt16.le_iff_toNat_le, hmod]

theorem isLowSurrogate_ofNat (n : ℕ) (h : n < 2 ^ 16) :
    isLowSurrogate (UInt16.ofNat n) = true ↔ 0xdc00 ≤ n ∧ n ≤ 0xdfff := by
  have hmod : n % 65536 = n := Nat.mod_eq_of_lt h
  simp [isLowSurrogate, UInt16.le_iff_toNat_le, hmod]

/-- A character is decoded from the units it was encoded to. -/
theorem decodeUtf16_encode (c : Char) (us : List UInt16) :
    decodeUtf16 (encodeUtf16Char c ++ us) = (decodeUtf16 us).map (c :: ·) := by
  have hvalid := char_valid c
  unfold encodeUtf16Char
  by_cases h : c.toNat < 0x10000
  · have hunit : (!isSurrogate (UInt16.ofNat c.toNat)) = true := by
      rw [Bool.not_eq_true', Bool.eq_false_iff, ne_eq, isSurrogate_ofNat _ h]
      omega
    rw [if_pos h, List.singleton_append, decodeUtf16_unit _ hunit, UInt16.toNat_ofNat',
      Nat.mod_eq_of_lt h, Char.ofNat_toNat]
  · have hhigh : isSurrogate (UInt16.ofNat (0xd800 + (c.toNat - 0x10000) / 0x400)) = true := by
      rw [isSurrogate_ofNat _ (by omega)]
      omega
    have hnot : ¬isLowSurrogate (UInt16.ofNat (0xd800 + (c.toNat - 0x10000) / 0x400)) = true := by
      rw [isLowSurrogate_ofNat _ (by omega)]
      omega
    have hlow : isLowSurrogate (UInt16.ofNat (0xdc00 + (c.toNat - 0x10000) % 0x400)) = true := by
      rw [isLowSurrogate_ofNat _ (by omega)]
      omega
    rw [if_neg h, List.cons_append, List.singleton_append,
      decodeUtf16_pair _ _ (by rw [hhigh]; simp) hnot, if_pos hlow, pairChar_encode c h]

theorem units_encode (us : List UInt16) (rest : Bytes) :
    units (us.flatMap putU16Le ++ rest) = us ++ units rest := by
  induction us with
  | nil => rfl
  | cons u us ih => rw [List.flatMap_cons, List.append_assoc, units_put, ih, List.cons_append]

theorem decodeUtf16_encodeAll (cs : List Char) :
    decodeUtf16 (cs.flatMap encodeUtf16Char) = some cs := by
  induction cs with
  | nil => rfl
  | cons c cs ih => rw [List.flatMap_cons, decodeUtf16_encode, ih, Option.map_some]

/-- `str::encode_utf16`. -/
def utf16Units (s : String) : List UInt16 := s.toList.flatMap encodeUtf16Char

theorem encodeUtf16Le_eq (s : String) : encodeUtf16Le s = (utf16Units s).flatMap putU16Le := by
  rw [utf16Units, List.flatMap_assoc]
  rfl

theorem flatMap_put_length (us : List UInt16) : (us.flatMap putU16Le).length = 2 * us.length := by
  induction us with
  | nil => rfl
  | cons u us ih =>
    have hu : (putU16Le u).length = 2 := leBytes_length 2 _
    rw [List.flatMap_cons, List.length_append, hu, ih, List.length_cons]
    omega

theorem encodeUtf16Le_length (s : String) :
    (encodeUtf16Le s).length = 2 * (utf16Units s).length := by
  rw [encodeUtf16Le_eq, flatMap_put_length]

theorem encodeUtf16Le0_length (s : String) :
    (encodeUtf16Le0 s).length = 2 * (utf16Units s).length + 2 := by
  rw [encodeUtf16Le0, List.length_append, encodeUtf16Le_length]
  rfl

theorem decodeUtf16Le_encode (s : String) : decodeUtf16Le (encodeUtf16Le s) = .ok s.toList := by
  have hnil : units [] = [] := rfl
  have hunits := units_encode (utf16Units s) []
  rw [List.append_nil, hnil, List.append_nil] at hunits
  rw [decodeUtf16Le_ok, encodeUtf16Le_length, encodeUtf16Le_eq, hunits]
  constructor
  · exact Nat.mul_mod_right 2 _
  · exact decodeUtf16_encodeAll _

end CifsClientStream.Utils
