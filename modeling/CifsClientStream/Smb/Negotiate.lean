import CifsClientStream.Smb.Layout

/-!
# The negotiate reply (`ServerSetup` of src/smb/reply.rs)

The parameters have a fixed layout of 17 words. The guard in front of it asks
for 17 bytes, and the reads behind the dialect need twice as many
(`parsedExactly_iff`).
-/

namespace CifsClientStream.Smb
open Cursor Win Utils

namespace Reply.ServerSetup

/-! ### The layout -/

def SETUP_LEN : ℕ := 34

/-- The index names a dialect that was offered. -/
def Supported (p : Bytes) : Prop := (u16At p 0).toNat < SMB_SUPPORTED_DIALECTS.length

def challengeLength (p : Bytes) : ℕ := (u8At p 33).toNat

/-- The reply with the fields at their places. -/
def ofBytes (p d : Bytes) : ServerSetup where
  dialect := (u16At p 0).toNat
  securityMode := u8At p 2
  maxMpxCount := u16At p 3
  maxNumberVcs := u16At p 5
  maxBufferSize := u32At p 7
  maxRawSize := u32At p 11
  sessionKey := u32At p 15
  capabilities := u32At p 19 &&& Capabilities.all
  systemTime := decodeWindowsTime (u64At p 23)
  timezone := u16At p 31
  challenge := d.take (challengeLength p)

theorem fields_layout (dialect : ℕ) (p : Bytes) (h : SETUP_LEN ≤ p.length) :
    fields dialect (p.drop 2) =
      .ok (({ ofBytes p [] with dialect, challenge := [] }, challengeLength p), p.drop 34) := by
  unfold SETUP_LEN at h
  rw [fields, getU8_at p 2 _ (by omega), getU16Le_at p 3 _ (by omega), getU16Le_at p 5 _ (by omega),
    getU32Le_at p 7 _ (by omega), getU32Le_at p 11 _ (by omega), getU32Le_at p 15 _ (by omega),
    getU32Le_at p 19 _ (by omega), getU64Le_at p 23 _ (by omega), getU16Le_at p 31 _ (by omega),
    getU8_at p 33 _ (by omega)]
  rfl

theorem fields_fixed (dialect : ℕ) : Fixed (fields dialect) 32 := by
  unfold fields
  refine getU8_fixed.bind (m := 31) fun _ => ?_
  refine getU16Le_fixed.bind (m := 29) fun _ => ?_
  refine getU16Le_fixed.bind (m := 27) fun _ => ?_
  refine getU32Le_fixed.bind (m := 23) fun _ => ?_
  refine getU32Le_fixed.bind (m := 19) fun _ => ?_
  refine getU32Le_fixed.bind (m := 15) fun _ => ?_
  refine getU32Le_fixed.bind (m := 11) fun _ => ?_
  refine getU64Le_fixed.bind (m := 3) fun _ => ?_
  refine getU16Le_fixed.bind (m := 1) fun _ => ?_
  refine getU8_fixed.bind (m := 0) fun _ => ?_
  exact Fixed.pure _

/-! ### What is accepted -/

/-- The block is whole, its dialect is supported and the challenge is there. -/
structure Accepts (p d : Bytes) : Prop where
  whole : SETUP_LEN ≤ p.length
  supported : Supported p
  challenge : challengeLength p ≤ d.length

variable {ctx : ReplyCtx}

theorem create_dialect (h : 17 ≤ ctx.parameter.length) :
    create ctx = if u16At ctx.parameter 0 = 0xffff then .error (.error .NoDialect)
      else if SMB_SUPPORTED_DIALECTS.length ≤ (u16At ctx.parameter 0).toNat then
        .error (.error .InvalidHeader)
      else fields (u16At ctx.parameter 0).toNat (ctx.parameter.drop 2) >>= fun r =>
        if ctx.data.length < r.1.2 then .error (.error .InvalidData)
        else (copyToBytes r.1.2 : Reader Error Bytes) ctx.data >>= fun c =>
          .ok { r.1.1 with challenge := c.1 } := by
  have hdialect : (getU16Le : Reader Error UInt16) ctx.parameter =
      .ok (u16At ctx.parameter 0, ctx.parameter.drop 2) := by
    have hfirst := getU16Le_first (ε := Error) ctx.parameter pure (by omega)
    rwa [bind_pure] at hfirst
  rw [create, if_neg (by omega), hdialect]
  rfl

theorem create_short (h : ctx.parameter.length < 17) :
    create ctx = .error (.error (.Unsupported "negotiate header with too few parameter")) :=
  if_pos h

theorem create_unsupported (h : 17 ≤ ctx.parameter.length) (hs : ¬Supported ctx.parameter) :
    ∃ e, create ctx = .error (.error e) := by
  rw [create_dialect h]
  split
  · exact ⟨_, rfl⟩
  · rw [if_pos (Nat.not_lt.mp hs)]
    exact ⟨_, rfl⟩

theorem create_supported (h : 17 ≤ ctx.parameter.length) (hs : Supported ctx.parameter) :
    create ctx = fields (u16At ctx.parameter 0).toNat (ctx.parameter.drop 2) >>= fun r =>
      if ctx.data.length < r.1.2 then .error (.error .InvalidData)
      else (copyToBytes r.1.2 : Reader Error Bytes) ctx.data >>= fun c =>
        .ok { r.1.1 with challenge := c.1 } := by
  have hno : u16At ctx.parameter 0 ≠ 0xffff := by
    intro hno
    unfold Supported at hs
    rw [hno] at hs
    exact absurd hs (by decide)
  rw [create_dialect h, if_neg hno, if_neg (Nat.not_le.mpr hs)]

/-- A block that passes the guard, but ends within the layout. -/
theorem create_cut (h : 17 ≤ ctx.parameter.length) (hcut : ctx.parameter.length < SETUP_LEN)
    (hs : Supported ctx.parameter) : create ctx = .error .panic := by
  unfold SETUP_LEN at hcut
  rw [create_supported h hs, (fields_fixed _).short _ (by rw [List.length_drop]; omega)]
  rfl

theorem create_whole (h : SETUP_LEN ≤ ctx.parameter.length) (hs : Supported ctx.parameter) :
    create ctx = if ctx.data.length < challengeLength ctx.parameter then
        .error (.error .InvalidData)
      else .ok (ofBytes ctx.parameter ctx.data) := by
  have h17 : 17 ≤ ctx.parameter.length := by
    unfold SETUP_LEN at h
    omega
  rw [create_supported h17 hs, fields_layout _ _ h]
  by_cases hd : ctx.data.length < challengeLength ctx.parameter
  · rw [if_pos hd]
    exact if_pos hd
  · rw [if_neg hd]
    refine (if_neg hd).trans ?_
    rw [copyToBytes_eq _ _ (Nat.not_lt.mp hd)]
    rfl

/-! ### The guard -/

/-- Exactly the whole blocks are accepted, with the fields at their places, and all others are
refused without a panic. -/
structure ParsedExactly (ctx : ReplyCtx) : Prop where
  accepted : (∃ setup, create ctx = .ok setup) ↔ Accepts ctx.parameter ctx.data
  fields : ∀ setup, create ctx = .ok setup → setup = ofBytes ctx.parameter ctx.data
  refused : NoPanic (create ctx)

/-- A parser that refuses what is not to be accepted parses exactly. -/
theorem ParsedExactly.of_error {e : Error} (h : create ctx = .error (.error e))
    (hno : ¬Accepts ctx.parameter ctx.data) : ParsedExactly ctx where
  accepted := by
    rw [h]
    exact iff_of_false (fun hok => by obtain ⟨_, hok⟩ := hok; cases hok) hno
  fields := by
    rw [h]
    exact fun setup hok => nomatch hok
  refused := by
    rw [h]
    exact noPanic_error e

/-- The negotiate reply is parsed exactly, unless it passes the guard of 17 bytes with less than
17 words and a supported dialect. -/
theorem parsedExactly_iff (ctx : ReplyCtx) :
    ParsedExactly ctx ↔ ¬(17 ≤ ctx.parameter.length ∧ ctx.parameter.length < SETUP_LEN ∧
      Supported ctx.parameter) := by
  by_cases h17 : ctx.parameter.length < 17
  · refine iff_of_true (.of_error (create_short h17) fun hacc => ?_) fun h => by omega
    have hwhole := hacc.whole
    unfold SETUP_LEN at hwhole
    omega
  · have h17 := Nat.not_lt.mp h17
    by_cases hs : Supported ctx.parameter
    · by_cases hcut : ctx.parameter.length < SETUP_LEN
      · refine iff_of_false (fun h => ?_) fun h => h ⟨h17, hcut, hs⟩
        exact h.refused (create_cut h17 hcut hs)
      · refine iff_of_true ?_ fun h => hcut h.2.1
        have hwhole := Nat.not_lt.mp hcut
        have hcreate := create_whole hwhole hs
        by_cases hd : ctx.data.length < challengeLength ctx.parameter
        · rw [if_pos hd] at hcreate
          exact .of_error hcreate fun hacc => Nat.not_lt.mpr hacc.challenge hd
        · rw [if_neg hd] at hcreate
          refine ⟨iff_of_true ⟨_, hcreate⟩ ⟨hwhole, hs, Nat.not_lt.mp hd⟩, ?_, ?_⟩
          · intro setup hok
            exact (Except.ok.inj (hcreate.symm.trans hok)).symm
          · rw [hcreate]
            exact noPanic_ok _
    · obtain ⟨e, he⟩ := create_unsupported h17 hs
      exact iff_of_true (.of_error he fun hacc => hs hacc.supported) fun h => hs h.2.2

/-- A block of nine zero words. -/
theorem nine_words_panic :
    ¬∀ ctx, ParsedExactly ctx := by
  intro h
  exact (h ⟨Info.default .Negotiate, putBytes 0 18, [], 53⟩).refused rfl

end Reply.ServerSetup

end CifsClientStream.Smb
