import CifsClientStream.Smb.Trans2

/-!
# Messages of the client (src/smb/msg.rs, src/smb/trans2/msg.rs)

A message type says what goes into the parameter words and the data bytes
(`Msg.body`) and into the header (`Msg.fixHeader`); `Msg.write` frames the two.
-/

namespace CifsClientStream.Smb
open Cursor Win Utils

/-- The largest value of a 64-bit `usize`. -/
def usizeMax : ℕ := 2 ^ 64 - 1

/-- `BytesMut::remaining_mut`: the buffer grows on demand. -/
def remainingMut (buffer : Bytes) : ℕ := usizeMax - buffer.length

def asBytes (s : String) : Bytes := s.toByteArray.data.toList

theorem asBytes_eq (s : String) : asBytes s = s.toList.flatMap String.utf8EncodeChar := by
  have h : s.toByteArray = s.toList.utf8Encode := by
    conv => lhs; rw [← String.ofList_toList (s := s)]
    exact String.toByteArray_ofList
  rw [asBytes, h, List.utf8Encode]
  simp

theorem utf8_single (c : Char) : (String.utf8EncodeChar c).length = 1 ↔ c.toNat < 128 := by
  rw [String.length_utf8EncodeChar, Char.utf8Size_eq_one_iff, UInt32.le_iff_toNat_le]
  exact Nat.lt_succ_iff.symm

theorem ofNat8_eq_zero (n : ℕ) : (0 : UInt8) = UInt8.ofNat n ↔ n % 256 = 0 := by
  rw [← UInt8.toNat_inj, UInt8.toNat_ofNat']
  exact eq_comm

theorem zero_mem_encoded (c : Char) : 0 ∈ String.utf8EncodeChar c ↔ c = '\x00' := by
  have hnul : c = '\x00' ↔ c.val.toNat = 0 := by
    rw [Char.ext_iff, ← UInt32.toNat_inj]
    rfl
  have hlt : c.val.toNat < 0x110000 := by
    rcases c.valid with h | h
    · exact Nat.lt_trans h (by decide)
    · exact h.2
  rw [hnul]
  unfold String.utf8EncodeChar
  dsimp only
  split_ifs with h1 h2 h3
  all_goals simp only [List.mem_cons, List.not_mem_nil, or_false, ofNat8_eq_zero]
  all_goals omega

theorem zero_mem_asBytes (s : String) : 0 ∈ asBytes s ↔ '\x00' ∈ s.toList := by
  rw [asBytes_eq, List.mem_flatMap]
  constructor
  · rintro ⟨c, hc, hzero⟩
    rwa [← (zero_mem_encoded c).mp hzero]
  · intro hc
    exact ⟨_, hc, (zero_mem_encoded _).mpr rfl⟩

theorem fromUtf8_asBytes (s : String) : fromUtf8 (asBytes s) = some s := by
  have hbytes : (⟨(asBytes s).toArray⟩ : ByteArray) = s.toByteArray := rfl
  unfold fromUtf8 String.fromUTF8?
  rw [hbytes, dif_pos s.isValidUTF8]
  rfl

def tryU16 (n : ℕ) (what : String) : Except (Fault Error) UInt16 :=
  if n < 65536 then .ok (UInt16.ofNat n) else .error (.error (.CreatePacket what))

/-- `try_into().expect(..)`. -/
def expectU16 (n : ℕ) : Except (Fault Error) UInt16 :=
  if n < 65536 then .ok (UInt16.ofNat n) else .error .panic

/-- The `Msg` trait; `body` gives the parameters behind the AndX block and the data. -/
class Msg (M : Type) where
  CMD : Cmd
  ANDX : Bool
  body : M → Info → Except (Fault Error) (Bytes × Bytes)
  fixHeader : M → Info → Info := fun _ info => info

def Msg.andx (M : Type) [Msg M] : Bytes :=
  if Msg.ANDX M then AndX.write { cmd := .NoCommand, offset := 0 } else []

/-- Appends the message to `buffer`, which holds the header already. -/
def Msg.write {M : Type} [Msg M] (msg : M) (info : Info) (buffer : Bytes) :
    Except (Fault Error) Bytes := do
  let (parameter, data) ← Msg.body msg info
  let parameter := Msg.andx M ++ parameter
  if 256 ≤ parameter.length / 2 then .error (.error (.CreatePacket "parameter length too big"))
  else if remainingMut buffer < parameter.length then
    .error (.error (.CreatePacket "packet buffer too small for parameter"))
  else
    let buffer := buffer ++ putU8 (UInt8.ofNat (parameter.length / 2)) ++ parameter
    let dataLen ← tryU16 data.length "data length too big"
    if remainingMut buffer < data.length then
      .error (.error (.CreatePacket "packet buffer too small for data"))
    else .ok (buffer ++ putU16Le dataLen ++ data)

theorem Msg.write_ok {M : Type} [Msg M] (msg : M) (info : Info) (buffer p d : Bytes)
    (hb : Msg.body msg info = .ok (p, d)) (hp : (Msg.andx M ++ p).length < 512)
    (hd : d.length < 65536) (hl : buffer.length < 2 ^ 32) :
    Msg.write msg info buffer = .ok (buffer ++
      putU8 (UInt8.ofNat ((Msg.andx M ++ p).length / 2)) ++ (Msg.andx M ++ p) ++
      putU16Le (UInt16.ofNat d.length) ++ d) := by
  have h1 : ¬256 ≤ (Msg.andx M ++ p).length / 2 := by omega
  have h2 : ¬remainingMut buffer < (Msg.andx M ++ p).length := by
    unfold remainingMut usizeMax
    omega
  have h3 : ∀ x : UInt8, ¬remainingMut (buffer ++ putU8 x ++ (Msg.andx M ++ p)) < d.length := by
    intro x
    rw [List.length_append] at hp
    simp only [remainingMut, usizeMax, List.length_append, putU8, List.length_singleton]
    omega
  unfold Msg.write
  rw [hb]
  change (if 256 ≤ (Msg.andx M ++ p).length / 2 then _ else _) = _
  rw [if_neg h1, if_neg h2, tryU16, if_pos hd]
  change (if _ < d.length then _ else _) = _
  rw [if_neg (h3 _)]

namespace Msg

structure Negotiate where

instance : Msg Negotiate where
  CMD := .Negotiate
  ANDX := false
  body _ _ := .ok ([], SMB_SUPPORTED_DIALECTS.flatMap fun d => [0x02] ++ asBytes d ++ [0x00])

inductive SessionSetupMode where
  | classic (user domain : String) (secret : Vector UInt8 24)
  | extended (blob : Bytes)

structure SessionSetup where
  maxBufferSize : UInt16
  maxMpxCount : UInt16
  vcNumber : UInt16
  sessionKey : UInt32
  capabilities : UInt32
  mode : SessionSetupMode

def SessionSetup.withAuth (user domain : String) (secret : Vector UInt8 24) : SessionSetup where
  maxBufferSize := 65535
  maxMpxCount := 0
  vcNumber := 0
  sessionKey := 0
  capabilities := Capabilities.UNICODE ||| Capabilities.LARGE_FILES ||| Capabilities.NT_SMBS |||
    Capabilities.NTSTATUS
  mode := .classic user domain secret

def SessionSetup.withBlob (blob : Bytes) : SessionSetup where
  maxBufferSize := 65535
  maxMpxCount := 0
  vcNumber := 0
  sessionKey := 0
  capabilities := Capabilities.UNICODE ||| Capabilities.LARGE_FILES ||| Capabilities.NT_SMBS |||
    Capabilities.NTSTATUS ||| Capabilities.EXTENDED_SECURITY
  mode := .extended blob

def SessionSetup.lengths : SessionSetupMode → Except (Fault Error) Bytes
  | .classic _ _ secret => do
    let secretLen ← tryU16 secret.toList.length "secret in SessionSetup too big"
    .ok (putU16Le secretLen ++ putU16Le secretLen)
  | .extended blob => do
    let blobLen ← tryU16 blob.length "blob in SessionSetup too big"
    .ok (putU16Le blobLen)

def SessionSetup.modeData : SessionSetupMode → Bytes
  | .classic user domain secret =>
    let data := secret.toList ++ secret.toList
    let data := if data.length % 2 = 0 then data ++ [0] else data
    data ++ encodeUtf16Le0 user ++ encodeUtf16Le0 domain
  | .extended blob => if blob.length % 2 = 0 then blob ++ [0] else blob

def SessionSetup.body (msg : SessionSetup) (info : Info) :
    Except (Fault Error) (Bytes × Bytes) := do
  let lengths ← SessionSetup.lengths msg.mode
  let names := if contains info.flags2 Flags2.UNICODE then putU16Le 0 ++ putU16Le 0
    else putBytes 0 2
  .ok (putU16Le msg.maxBufferSize ++ putU16Le msg.maxMpxCount ++ putU16Le msg.vcNumber ++
      putU32Le msg.sessionKey ++ lengths ++ putU32Le 0 ++ putU32Le msg.capabilities,
    SessionSetup.modeData msg.mode ++ names)

instance : Msg SessionSetup where
  CMD := .SessionSetup
  ANDX := true
  body := SessionSetup.body

structure TreeConnect where
  path : String
  password : String
  flags : UInt16

def TreeConnectFlags.EXTENDED_RESPONSE : UInt16 := 0x0008

def TreeConnect.new (path password : String) : TreeConnect :=
  { path, password, flags := TreeConnectFlags.EXTENDED_RESPONSE }

def TreeConnect.body (msg : TreeConnect) (info : Info) : Except (Fault Error) (Bytes × Bytes) := do
  let password := if msg.password.isEmpty then [0x00] else asBytes msg.password
  let passwordLength ← tryU16 password.length "password too long"
  let path :=
    if contains info.flags2 Flags2.UNICODE then
      (if password.length % 2 = 0 then [0] else []) ++ encodeUtf16Le msg.path ++ putU16Le 0
    else asBytes msg.path ++ [0]
  .ok (putU16Le msg.flags ++ putU16Le passwordLength,
    password ++ path ++ putBytes 0x3f 5 ++ [0])

instance : Msg TreeConnect where
  CMD := .TreeConnect
  ANDX := true
  body := TreeConnect.body

structure TreeDisconnect where
  tid : UInt16

instance : Msg TreeDisconnect where
  CMD := .TreeDisconnect
  ANDX := false
  body _ _ := .ok ([], [])
  fixHeader msg info := { info with tid := msg.tid }

structure Open where
  tid : UInt16
  filename : String
  createFlags : UInt32
  directory : UInt32
  access : UInt32
  allocationSize : UInt64
  attributes : UInt32
  shareAccess : UInt32
  disposition : UInt32
  options : UInt32
  impersonation : UInt32
  security : UInt8

/-- `READ | READ_EA | SYNCHRONIZE`, shared for reading, existing files only. -/
def Open.fileRo (tid : UInt16) (filename : String) : Open where
  tid := tid
  filename := filename
  createFlags := 0
  directory := 0
  access := 0x00000001 ||| 0x00000008 ||| 0x00100000
  allocationSize := 0
  attributes := 0
  shareAccess := 0x00000001
  disposition := 0x00000001
  options := 0x00000040
  impersonation := 0x00000002
  security := 0

def Open.body (msg : Open) (_info : Info) : Except (Fault Error) (Bytes × Bytes) := do
  let filename := encodeUtf16Le0 msg.filename
  let filenameLength ← tryU16 filename.length "filename too long"
  .ok (putU8 0 ++ putU16Le filenameLength ++ putU32Le msg.createFlags ++
      putU32Le msg.directory ++ putU32Le msg.access ++ putU64Le msg.allocationSize ++
      putU32Le msg.attributes ++ putU32Le msg.shareAccess ++ putU32Le msg.disposition ++
      putU32Le msg.options ++ putU32Le msg.impersonation ++ putU8 msg.security,
    [0] ++ filename)

instance : Msg Open where
  CMD := .Create
  ANDX := true
  body := Open.body
  fixHeader msg info := { info with tid := msg.tid }

structure Close where
  tid : UInt16
  fid : UInt16

def Close.handle (file : Handle) : Close := ⟨file.tid, file.fid⟩

instance : Msg Close where
  CMD := .Close
  ANDX := false
  body msg _ := .ok (putU16Le msg.fid ++ putU32Le 0, [])
  fixHeader msg info := { info with tid := msg.tid }

structure Read where
  tid : UInt16
  fid : UInt16
  offset : UInt64
  count : UInt32

def Read.handle (file : Handle) (offset : UInt64) (count : UInt32) : Read :=
  ⟨file.tid, file.fid, offset, count⟩

def Read.body (msg : Read) (_info : Info) : Except (Fault Error) (Bytes × Bytes) :=
  let countLow := (msg.count &&& 0xffff).toUInt16
  let countHigh := ((msg.count >>> 16) &&& 0xffff).toUInt16
  .ok (putU16Le msg.fid ++ putU32Le (msg.offset &&& 0xffffffff).toUInt32 ++ putU16Le countLow ++
      putU16Le SMB_READ_MIN ++ putU16Le countHigh ++ putU16Le 0 ++ putU16Le 0 ++
      putU32Le (msg.offset >>> 32).toUInt32,
    [])

instance : Msg Read where
  CMD := .Read
  ANDX := true
  body := Read.body
  fixHeader msg info := { info with tid := msg.tid }

structure Transact2 (C : Type) where
  tid : UInt16
  subcmd : C

/-- Zero bytes up to the next multiple of 4, counted from the SMB header. -/
def Transact2.align (dataStart : ℕ) (data : Bytes) : Bytes :=
  data ++ putBytes 0 (fillUp4n (dataStart + data.length))

def Transact2.body {C : Type} [SubCmd C] (msg : Transact2 C) (_info : Info) :
    Except (Fault Error) (Bytes × Bytes) := do
  let subParameter := SubCmd.parameter msg.subcmd
  let subParameterLen ←
    tryU16 subParameter.length "parameter transaction2 sub-command is too large"
  let subData := SubCmd.data msg.subcmd
  let subDataLen ← tryU16 subData.length "data of transaction2 sub-command is too large"
  let dataStart := SMB_HEADER_LEN + 1 + 30 + 2
  let subParameterOffset := roundUp4n (dataStart + 1)
  let subDataOffset := roundUp4n (subParameterOffset + subParameter.length)
  let parameterOffset ← expectU16 subParameterOffset
  let dataOffset ← expectU16 subDataOffset
  let parameter :=
    putU16Le subParameterLen ++ putU16Le subDataLen ++
      putU16Le (SubCmd.MAX_PARAM_COUNT C) ++ putU16Le (SubCmd.MAX_DATA_COUNT C) ++
      putU8 (SubCmd.MAX_SETUP_COUNT C) ++ putU8 0 ++ putU16Le 0 ++ putU32Le 0 ++ putU16Le 0 ++
      putU16Le subParameterLen ++ putU16Le parameterOffset ++
      putU16Le subDataLen ++ putU16Le dataOffset ++
      putU8 1 ++ putU8 0 ++ putU16Le (SubCmd.SETUP C)
  let data := Transact2.align dataStart [0] ++ subParameter
  .ok (parameter, Transact2.align dataStart data ++ subData)

instance {C : Type} [SubCmd C] : Msg (Transact2 C) where
  CMD := .Transact2
  ANDX := false
  body := Transact2.body
  fixHeader msg info := { info with tid := msg.tid }

end Msg

end CifsClientStream.Smb
