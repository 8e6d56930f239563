import CifsClientStream.Lib.Cursor
import CifsClientStream.Win

/-!
# The SMB header (src/smb/info.rs, src/smb/common.rs, src/smb/error.rs)

`Info::parse` and `Info::write`. The parser checks the length once, before the
first read, so no header can make it panic (`parse_not_panic`); what `write`
lays out is read back field by field (`parse_write`).
-/

namespace CifsClientStream.Smb
open Cursor Win

def SMB_HEADER_LEN : ℕ := 32
def SMB_MAGIC : Bytes := [0xff, 0x53, 0x4d, 0x42]

inductive Cmd where
  | Close | Read | Transact2 | TreeDisconnect | Negotiate | SessionSetup | TreeConnect | Create
  | NoCommand
  deriving DecidableEq, Repr

namespace Cmd

def code : Cmd → UInt8
  | Close => 0x04
  | Read => 0x2e
  | Transact2 => 0x32
  | TreeDisconnect => 0x71
  | Negotiate => 0x72
  | SessionSetup => 0x73
  | TreeConnect => 0x75
  | Create => 0xa2
  | NoCommand => 0xff

def all : List Cmd :=
  [Close, Read, Transact2, TreeDisconnect, Negotiate, SessionSetup, TreeConnect, Create, NoCommand]

def tryFrom (c : UInt8) : Option Cmd := all.find? fun k => k.code == c

theorem tryFrom_code (k : Cmd) : tryFrom k.code = some k := by
  cases k <;> rfl

theorem tryFrom_eq_some (c : UInt8) (k : Cmd) : tryFrom c = some k ↔ c = k.code := by
  refine ⟨fun h => ?_, fun h => by rw [h, tryFrom_code]⟩
  have hk := List.find?_some h
  exact (beq_iff_eq.mp hk).symm

end Cmd

inductive Status where
  | known (s : NTStatus)
  | unknown (code : UInt32)
  deriving DecidableEq, Repr

namespace Status

def ofCode (c : UInt32) : Status :=
  match NTStatus.tryFrom c with
  | some s => .known s
  | none => .unknown c

def code : Status → UInt32
  | .known s => s.code
  | .unknown c => c

/-- A status as the parser builds it: `unknown` only for a code that has no name. -/
def Canonical : Status → Prop
  | .known _ => True
  | .unknown c => NTStatus.tryFrom c = none

theorem ofCode_code (s : Status) (h : s.Canonical) : ofCode s.code = s := by
  cases s with
  | known s => simp only [ofCode, code, NTStatus.tryFrom_code]
  | unknown c =>
    simp only [Canonical] at h
    simp only [ofCode, code, h]

theorem ofCode_known (c : UInt32) (s : NTStatus) : ofCode c = .known s ↔ c = s.code := by
  unfold ofCode
  constructor
  · intro h
    split at h
    · rename_i s' hs
      cases h
      have hk := List.find?_some hs
      exact (beq_iff_eq.mp hk).symm
    · cases h
  · intro h
    rw [h, NTStatus.tryFrom_code]

end Status

inductive Error where
  | InvalidHeader
  | InvalidData
  | InvalidCommand (cmd : UInt8)
  | NoDialect
  | NeedSecurityExt
  | ReplyExpected
  | CreatePacket (what : String)
  | Reassemble (desc : String)
  | Unsupported (what : String)
  deriving DecidableEq, Repr

def Flags1.CASE_INSENSITIVE : UInt8 := 0x08
def Flags1.CANONICAL_PATHS : UInt8 := 0x10
def Flags1.REPLY : UInt8 := 0x80
def Flags1.all : UInt8 := 0x01 ||| 0x02 ||| 0x04 ||| 0x08 ||| 0x10 ||| 0x20 ||| 0x40 ||| 0x80
def Flags1.default : UInt8 := Flags1.CASE_INSENSITIVE ||| Flags1.CANONICAL_PATHS

def Flags2.LONG_NAMES_ALLOWED : UInt16 := 0x0001
def Flags2.EAS : UInt16 := 0x0002
def Flags2.LONG_NAMES_USED : UInt16 := 0x0040
def Flags2.EXTENDED_SECURITY : UInt16 := 0x0800
def Flags2.NTSTATUS : UInt16 := 0x4000
def Flags2.UNICODE : UInt16 := 0x8000
def Flags2.all : UInt16 :=
  0x0001 ||| 0x0002 ||| 0x0004 ||| 0x0010 ||| 0x0040 ||| 0x0800 ||| 0x1000 ||| 0x2000 |||
  0x4000 ||| 0x8000
def Flags2.default : UInt16 :=
  Flags2.UNICODE ||| Flags2.NTSTATUS ||| Flags2.EXTENDED_SECURITY ||| Flags2.LONG_NAMES_USED |||
  Flags2.EAS ||| Flags2.LONG_NAMES_ALLOWED

structure Info where
  cmd : Cmd
  status : Status
  flags1 : UInt8
  flags2 : UInt16
  pid : UInt32
  tid : UInt16
  uid : UInt16
  mid : UInt16
  deriving DecidableEq, Repr

namespace Info

def default (cmd : Cmd) : Info where
  cmd := cmd
  flags1 := Flags1.default
  flags2 := Flags2.default
  status := .known .SUCCESS
  pid := 0xfeff
  tid := 0xffff
  uid := 0
  mid := 0

def parseFields : Reader Error Info := do
  let magic ← copyToBytes 4
  if magic ≠ SMB_MAGIC then fail .InvalidHeader
  else do
    let raw ← getU8
    match Cmd.tryFrom raw with
    | none => fail (.InvalidCommand raw)
    | some cmd => do
      let status ← getU32Le
      let flags1 ← getU8
      let flags2 ← getU16Le
      let pidHigh ← getU16Le
      advance 8
      advance 2
      let tid ← getU16Le
      let pidLow ← getU16Le
      let uid ← getU16Le
      let mid ← getU16Le
      if ¬contains (flags1 &&& Flags1.all) Flags1.REPLY then fail .ReplyExpected
      else pure {
        cmd, tid, uid, mid
        status := Status.ofCode status
        flags1 := flags1 &&& Flags1.all
        flags2 := flags2 &&& Flags2.all
        pid := (pidHigh.toUInt32 <<< 16) ||| pidLow.toUInt32 }

def parse : Reader Error Info := do
  if (← remaining) < SMB_HEADER_LEN then fail .InvalidHeader
  else parseFields

def write (info : Info) : Bytes :=
  SMB_MAGIC ++ putU8 info.cmd.code ++ putU32Le info.status.code ++ putU8 info.flags1 ++
    putU16Le info.flags2 ++ putU16Le (info.pid >>> 16).toUInt16 ++ putBytes 0 8 ++ putBytes 0 2 ++
    putU16Le info.tid ++ putU16Le (info.pid &&& 0xffff).toUInt16 ++ putU16Le info.uid ++
    putU16Le info.mid

theorem parseFields_guarded : Guarded parseFields 32 := by
  refine (copyToBytes_fixed 4).guarded.bind (m := 28) fun magic => ?_
  refine Guarded.ite (fail_guarded _ _) ?_
  refine getU8_fixed.guarded.bind (m := 27) fun raw => ?_
  cases Cmd.tryFrom raw with
  | none => exact fail_guarded _ _
  | some cmd =>
    refine getU32Le_fixed.guarded.bind (m := 23) fun status => ?_
    refine getU8_fixed.guarded.bind (m := 22) fun flags1 => ?_
    refine getU16Le_fixed.guarded.bind (m := 20) fun flags2 => ?_
    refine getU16Le_fixed.guarded.bind (m := 18) fun pidHigh => ?_
    refine (advance_fixed 8).guarded.bind (m := 10) fun _ => ?_
    refine (advance_fixed 2).guarded.bind (m := 8) fun _ => ?_
    refine getU16Le_fixed.guarded.bind (m := 6) fun tid => ?_
    refine getU16Le_fixed.guarded.bind (m := 4) fun pidLow => ?_
    refine getU16Le_fixed.guarded.bind (m := 2) fun uid => ?_
    refine getU16Le_fixed.guarded.bind (m := 0) fun mid => ?_
    exact Guarded.ite (fail_guarded _ _) (Fixed.pure _).guarded

theorem parse_short (b : Bytes) (h : b.length < SMB_HEADER_LEN) :
    parse b = .error (.error .InvalidHeader) := by
  rw [parse, remaining_bind, if_pos h]
  rfl

theorem parse_long (b : Bytes) (h : SMB_HEADER_LEN ≤ b.length) : parse b = parseFields b := by
  rw [parse, remaining_bind, if_neg (Nat.not_lt.mpr h)]

theorem parse_not_panic (b : Bytes) : parse b ≠ .error .panic := by
  by_cases h : b.length < SMB_HEADER_LEN
  · rw [parse_short b h]
    simp
  · rw [parse_long b (Nat.not_lt.mp h)]
    exact parseFields_guarded.not_panic (Nat.not_lt.mp h)

theorem parse_rest (b : Bytes) (info : Info) (rest : Bytes) (h : parse b = .ok (info, rest)) :
    SMB_HEADER_LEN ≤ b.length ∧ rest = b.drop SMB_HEADER_LEN := by
  by_cases hl : b.length < SMB_HEADER_LEN
  · rw [parse_short b hl] at h
    cases h
  · have hl := Nat.not_lt.mp hl
    rw [parse_long b hl] at h
    rcases parseFields_guarded b hl with ⟨e, he⟩ | ⟨a, ha⟩
    · rw [he] at h
      cases h
    · rw [ha] at h
      cases h
      exact ⟨hl, rfl⟩

def ofBytes (cmd : Cmd) (b : Bytes) : Info where
  cmd := cmd
  status := Status.ofCode (u32At b 5)
  flags1 := u8At b 9 &&& Flags1.all
  flags2 := u16At b 10 &&& Flags2.all
  pid := ((u16At b 12).toUInt32 <<< 16) ||| (u16At b 26).toUInt32
  tid := u16At b 24
  uid := u16At b 28
  mid := u16At b 30

theorem parse_eq (b : Bytes) (h : SMB_HEADER_LEN ≤ b.length) :
    parse b = if b.take 4 ≠ SMB_MAGIC then .error (.error .InvalidHeader)
      else match Cmd.tryFrom (u8At b 4) with
        | none => .error (.error (.InvalidCommand (u8At b 4)))
        | some cmd =>
          if ¬contains (u8At b 9 &&& Flags1.all) Flags1.REPLY then .error (.error .ReplyExpected)
          else .ok (ofBytes cmd b, b.drop SMB_HEADER_LEN) := by
  have hlen : 32 ≤ b.length := h
  have h0 := fun (f : Bytes → Reader Error Info) => copyToBytes_at b 0 4 f (by omega)
  simp only [List.drop_zero, Nat.zero_add] at h0
  rw [parse_long b h, parseFields, h0]
  by_cases hm : b.take 4 = SMB_MAGIC
  · rw [if_neg (not_not.mpr hm), if_neg (not_not.mpr hm), getU8_at b 4 _ (by omega)]
    cases hc : Cmd.tryFrom (u8At b 4) with
    | none => rfl
    | some cmd =>
      dsimp only
      rw [getU32Le_at b 5 _ (by omega), getU8_at b 9 _ (by omega), getU16Le_at b 10 _ (by omega),
        getU16Le_at b 12 _ (by omega), advance_at b 14 8 _ (by omega),
        advance_at b 22 2 _ (by omega), getU16Le_at b 24 _ (by omega),
        getU16Le_at b 26 _ (by omega), getU16Le_at b 28 _ (by omega),
        getU16Le_at b 30 _ (by omega)]
      split
      · rfl
      · rfl
  · rw [if_pos hm, if_pos hm]
    rfl

theorem write_length (info : Info) : info.write.length = SMB_HEADER_LEN := by
  simp only [write, List.length_append, putU8, putU16Le, putU32Le, putBytes, leBytes_length,
    List.length_replicate, SMB_MAGIC, SMB_HEADER_LEN, List.length_cons, List.length_nil]

theorem pid_halves (pid : UInt32) :
    ((pid >>> 16).toUInt16.toUInt32 <<< 16) ||| (pid &&& 0xffff).toUInt16.toUInt32 = pid := by
  apply UInt32.toNat_inj.mp
  have h := pid.toNat_lt
  have hlow : (pid &&& 0xffff).toUInt16.toUInt32.toNat = pid.toNat % 2 ^ 16 := by
    have hm := Nat.and_two_pow_sub_one_eq_mod (pid.toNat % 2 ^ 16) 16
    simpa using hm
  have hhigh : ((pid >>> 16).toUInt16.toUInt32 <<< 16).toNat = pid.toNat / 2 ^ 16 * 2 ^ 16 := by
    simp [Nat.shiftRight_eq_div_pow, Nat.shiftLeft_eq]
    omega
  rw [UInt32.toNat_or, hlow, hhigh, ← Nat.shiftLeft_eq,
    ← Nat.shiftLeft_add_eq_or_of_lt (Nat.mod_lt _ (by decide)), Nat.shiftLeft_eq]
  omega

/-- A reply header as `parse` returns it. -/
structure Canonical (info : Info) : Prop where
  status : info.status.Canonical
  reply : contains info.flags1 Flags1.REPLY = true
  flags2 : info.flags2 &&& Flags2.all = info.flags2

theorem flags1_all (f : UInt8) : f &&& Flags1.all = f := by
  have h : Flags1.all = 255 := by decide
  rw [h]
  apply UInt8.toNat_inj.mp
  have hm := Nat.and_two_pow_sub_one_of_lt_two_pow (n := 8) f.toNat_lt
  simpa using hm

theorem parse_write (info : Info) (h : info.Canonical) (body : Bytes) :
    parse (info.write ++ body) = .ok (info, body) := by
  have hlen : SMB_HEADER_LEN ≤ (info.write ++ body).length := by
    rw [List.length_append, write_length]
    omega
  rw [parse_long _ hlen, parseFields, write]
  simp only [List.append_assoc]
  rw [copyToBytes_bind SMB_MAGIC _ 4 _ rfl, if_neg (by simp), getU8_bind, Cmd.tryFrom_code]
  dsimp only
  rw [getU32Le_bind, getU8_bind, getU16Le_bind, getU16Le_bind,
    advance_bind (putBytes 0 8) _ 8 _ rfl, advance_bind (putBytes 0 2) _ 2 _ rfl,
    getU16Le_bind, getU16Le_bind, getU16Le_bind, getU16Le_bind, flags1_all,
    if_neg (by simp [h.reply]), h.flags2, Status.ofCode_code _ h.status, pid_halves]
  rfl

end Info

end CifsClientStream.Smb
