import CifsClientStream.Smb.Info

/-!
# The header there and back (src/smb/info.rs)

What the parser makes of 32 bytes and what the writer makes of it again: the
same bytes, apart from the signature, the reserved bytes and the flag bits
that have no name. The process id goes through two fields that do not lie next
to each other, the status through an enumeration of the codes that have a name.
-/

namespace CifsClientStream.Smb
open Cursor Win

theorem Status.code_ofCode (c : UInt32) : (Status.ofCode c).code = c := by
  cases h : Status.ofCode c with
  | known s => exact ((Status.ofCode_known c s).mp h).symm
  | unknown c' =>
    unfold Status.ofCode at h
    split at h
    · cases h
    · cases h
      rfl

theorem Status.ofCode_canonical (c : UInt32) : (Status.ofCode c).Canonical := by
  unfold Status.ofCode
  split
  · trivial
  · assumption

namespace Info

theorem pid_toNat (high low : UInt16) :
    ((high.toUInt32 <<< 16) ||| low.toUInt32).toNat = high.toNat * 2 ^ 16 + low.toNat := by
  have hhigh := high.toNat_lt
  have hshift : (high.toUInt32 <<< 16).toNat = high.toNat <<< 16 := by
    simp [Nat.shiftLeft_eq]
    omega
  have hadd := Nat.shiftLeft_add_eq_or_of_lt (a := high.toNat) low.toNat_lt
  rw [UInt32.toNat_or, hshift, UInt16.toNat_toUInt32, ← hadd, Nat.shiftLeft_eq]

theorem high_toNat (x : UInt32) : (x >>> 16).toUInt16.toNat = x.toNat / 2 ^ 16 := by
  have h := x.toNat_lt
  simp [Nat.shiftRight_eq_div_pow]
  omega

theorem low_toNat (x : UInt32) : (x &&& 0xffff).toUInt16.toNat = x.toNat % 2 ^ 16 := by
  have hand := Nat.and_two_pow_sub_one_eq_mod (x.toNat % 2 ^ 16) 16
  simpa using hand

theorem pid_high (high low : UInt16) :
    (((high.toUInt32 <<< 16) ||| low.toUInt32) >>> 16).toUInt16 = high := by
  have hlow := low.toNat_lt
  apply UInt16.toNat_inj.mp
  rw [high_toNat, pid_toNat]
  omega

theorem pid_low (high low : UInt16) :
    (((high.toUInt32 <<< 16) ||| low.toUInt32) &&& 0xffff).toUInt16 = low := by
  have hlow := low.toNat_lt
  apply UInt16.toNat_inj.mp
  rw [low_toNat, pid_toNat]
  omega

/-- What the header `b` reads after it was parsed and written again. -/
def rewritten (b : Bytes) : Bytes :=
  b.take 9 ++ putU8 (u8At b 9 &&& Flags1.all) ++ putU16Le (u16At b 10 &&& Flags2.all) ++
    (b.drop 12).take 2 ++ putBytes 0 10 ++ (b.drop 24).take 8

theorem write_ofBytes (b : Bytes) (cmd : Cmd) (h : SMB_HEADER_LEN ≤ b.length)
    (hmagic : b.take 4 = SMB_MAGIC) (hcmd : u8At b 4 = cmd.code) :
    (ofBytes cmd b).write = rewritten b := by
  have hlen : 32 ≤ b.length := h
  have hfront : b.take 9 = SMB_MAGIC ++ putU8 cmd.code ++ putU32Le (u32At b 5) := by
    rw [← hmagic, ← hcmd, putU8_u8At b 4 (by omega), putU32Le_u32At b 5 (by omega), ← List.take_add,
      ← List.take_add]
  have hids : (b.drop 24).take 8 = putU16Le (u16At b 24) ++ putU16Le (u16At b 26) ++
      putU16Le (u16At b 28) ++ putU16Le (u16At b 30) := by
    rw [putU16Le_u16At b 24 (by omega), putU16Le_u16At b 26 (by omega),
      putU16Le_u16At b 28 (by omega), putU16Le_u16At b 30 (by omega)]
    have hsplit : ∀ n k, (b.drop 24).take n ++ (b.drop (24 + n)).take k =
        (b.drop 24).take (n + k) := by
      intro n k
      rw [List.take_add, List.drop_drop]
    rw [hsplit 2 2, hsplit 4 2, hsplit 6 2]
  unfold rewritten write ofBytes
  dsimp only
  rw [hfront, hids, Status.code_ofCode, pid_high, pid_low, putU16Le_u16At b 12 (by omega)]
  simp only [List.append_assoc]
  rfl

/-- What is accepted is well formed, and is what the bytes say. -/
theorem parse_ok {b rest : Bytes} {info : Info} (h : parse b = .ok (info, rest)) :
    info.Canonical ∧ SMB_HEADER_LEN ≤ b.length ∧ b.take 4 = SMB_MAGIC ∧
      u8At b 4 = info.cmd.code ∧ info = ofBytes info.cmd b := by
  obtain ⟨hlen, _⟩ := parse_rest b info rest h
  rw [parse_eq b hlen] at h
  split at h
  · cases h
  · rename_i hmagic
    split at h
    · cases h
    · rename_i cmd hcmd
      split at h
      · cases h
      · rename_i hreply
        cases h
        refine ⟨⟨Status.ofCode_canonical _, not_not.mp hreply, ?_⟩, hlen, not_not.mp hmagic,
          (Cmd.tryFrom_eq_some _ _).mp hcmd, rfl⟩
        change (u16At b 10 &&& Flags2.all) &&& Flags2.all = u16At b 10 &&& Flags2.all
        rw [UInt16.and_assoc, UInt16.and_self]

/-- The header is too short, has the wrong magic or a command without a name, or is a request. -/
def Refused (b : Bytes) : Prop :=
  b.length < SMB_HEADER_LEN ∨ b.take 4 ≠ SMB_MAGIC ∨ Cmd.tryFrom (u8At b 4) = none ∨
    contains (u8At b 9) Flags1.REPLY = false

theorem parse_refused (b : Bytes) : (∃ e, parse b = .error (.error e)) ↔ Refused b := by
  unfold Refused
  by_cases hlen : SMB_HEADER_LEN ≤ b.length
  · have hlong : ¬b.length < SMB_HEADER_LEN := Nat.not_lt.mpr hlen
    rw [parse_eq b hlen, flags1_all]
    by_cases hmagic : b.take 4 = SMB_MAGIC
    · rw [if_neg (not_not.mpr hmagic)]
      cases hcmd : Cmd.tryFrom (u8At b 4) with
      | none => exact iff_of_true ⟨_, rfl⟩ (Or.inr (Or.inr (Or.inl rfl)))
      | some cmd =>
        cases hreply : contains (u8At b 9) Flags1.REPLY with
        | false => exact iff_of_true ⟨_, rfl⟩ (Or.inr (Or.inr (Or.inr rfl)))
        | true =>
          refine iff_of_false (fun ⟨e, h⟩ => ?_) (by simp [hlong, hmagic])
          cases h
    · rw [if_pos hmagic]
      exact iff_of_true ⟨_, rfl⟩ (Or.inr (Or.inl hmagic))
  · rw [parse_short b (Nat.not_le.mp hlen)]
    exact iff_of_true ⟨_, rfl⟩ (Or.inl (Nat.not_le.mp hlen))

/-- A header that was written is read back, whatever follows it; one that was read is written
back; and every other string is refused. -/
theorem header_round_trip :
    (∀ info : Info, info.Canonical → ∀ body, parse (info.write ++ body) = .ok (info, body)) ∧
    (∀ b info rest, parse b = .ok (info, rest) →
      info.Canonical ∧ info.write = rewritten b ∧ rest = b.drop SMB_HEADER_LEN) ∧
    ∀ b, parse b ≠ .error .panic ∧ ((∃ e, parse b = .error (.error e)) ↔ Refused b) := by
  refine ⟨parse_write, fun b info rest h => ?_, fun b => ⟨parse_not_panic b, parse_refused b⟩⟩
  obtain ⟨hcanonical, hlen, hmagic, hcmd, hinfo⟩ := parse_ok h
  refine ⟨hcanonical, ?_, (parse_rest b info rest h).2⟩
  rw [hinfo]
  exact write_ofBytes b info.cmd hlen hmagic hcmd

end Info

end CifsClientStream.Smb
