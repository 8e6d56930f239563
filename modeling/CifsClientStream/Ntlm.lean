import CifsClientStream.Error
import CifsClientStream.Utils
import CifsClientStream.Smb.Msg

/-!
# NTLM authentication (src/ntlm)

The three messages of the handshake and the two responses. The hash functions,
the block cipher, the random generator, the clock and the upper-case mapping
come from other crates and are parameters (`Crypto`).
-/

namespace CifsClientStream.Ntlm
open Cursor Utils Win Smb

def NTLMSSP_MAGIC : Bytes := [0x4e, 0x54, 0x4c, 0x4d, 0x53, 0x53, 0x50, 0x00]
def NTLM_MSG_INIT : UInt32 := 1
def NTLM_MSG_CHALLENGE : UInt32 := 2
def NTLM_MSG_RESPONSE : UInt32 := 3
def NTLM_REVISION : UInt8 := 15

def Flags.UNICODE : UInt32 := 0x00000001
def Flags.OEM : UInt32 := 0x00000002
def Flags.REQUEST_TARGET : UInt32 := 0x00000004
def Flags.NTLM : UInt32 := 0x00000200
def Flags.DOMAIN_SUPPLIED : UInt32 := 0x00001000
def Flags.WORKSTATION_SUPPLIED : UInt32 := 0x00002000
def Flags.all : UInt32 :=
  0x00000001 ||| 0x00000002 ||| 0x00000004 ||| 0x00000010 ||| 0x00000020 ||| 0x00000040 |||
  0x00000080 ||| 0x00000100 ||| 0x00000200 ||| 0x00000400 ||| 0x00000800 ||| 0x00001000 |||
  0x00002000 ||| 0x00004000 ||| 0x00008000 ||| 0x00010000 ||| 0x00020000 ||| 0x00040000 |||
  0x00080000 ||| 0x00100000 ||| 0x00200000 ||| 0x00400000 ||| 0x00800000 ||| 0x02000000 |||
  0x20000000 ||| 0x40000000 ||| 0x80000000

/-- `From<TryFromIntError> for ntlm::Error`. -/
def numericConversion : Error :=
  .InputParameter "numeric conversion: out of range integral type conversion attempted"

/-! ### Buffers and packets (src/ntlm/buffer.rs, src/ntlm/packet.rs) -/

structure Buffer where
  length : ℕ
  capacity : ℕ
  position : ℕ

def Buffer.parse : Reader Error Buffer := do
  let length ← getU16Le
  let capacity ← getU16Le
  let position ← getU32Le
  pure { length := length.toNat, capacity := capacity.toNat, position := position.toNat }

def Buffer.write (buffer : Buffer) (offset : ℕ) : Except Error Bytes :=
  if buffer.length < 2 ^ 16 ∧ buffer.capacity < 2 ^ 16 ∧ offset + buffer.position < 2 ^ 32 then
    .ok (putU16Le (UInt16.ofNat buffer.length) ++ putU16Le (UInt16.ofNat buffer.capacity) ++
      putU32Le (UInt32.ofNat (offset + buffer.position)))
  else .error numericConversion

def Buffer.extract (buffer : Buffer) (msg : Bytes) : Except (Fault Error) Bytes :=
  slice msg buffer.position (buffer.position + buffer.length)

def Buffer.extractString (buffer : Buffer) (msg : Bytes) (unicode : Bool) :
    Except (Fault Error) String := do
  let raw ← buffer.extract msg
  if unicode then
    match decodeUtf16Le raw with
    | .ok cs => .ok (String.ofList cs)
    | .error (.error _) => .error (.error .InvalidPacket)
    | .error .panic => .error .panic
  else
    match fromUtf8 raw with
    | some s => .ok s
    | none => .error (.error .InvalidPacket)

inductive PacketEntry where
  | Binary (v : Bytes)
  | Buffer (b : Buffer)

def PacketEntry.len : PacketEntry → ℕ
  | .Binary v => v.length
  | .Buffer _ => 8

structure Packet where
  entries : List PacketEntry
  extra : Bytes

namespace Packet

def new : Packet := ⟨[], []⟩

def appendBinary (p : Packet) (data : Bytes) : Packet :=
  { p with entries := p.entries ++ [.Binary data] }

def appendU32 (p : Packet) (value : UInt32) : Packet :=
  { p with entries := p.entries ++ [.Binary (putU32Le value)] }

def appendBuffer (p : Packet) (data : Bytes) : Packet where
  entries := p.entries ++
    [.Buffer { length := data.length, capacity := data.length, position := p.extra.length }]
  extra := p.extra ++ data

def appendString (p : Packet) (msg : String) (unicode : Bool) : Packet :=
  if unicode then p.appendBuffer (encodeUtf16Le msg) else p.appendBuffer (asBytes msg)

def baseLen (p : Packet) : ℕ := (p.entries.map PacketEntry.len).sum

def writeEntries (offset : ℕ) : List PacketEntry → Except Error Bytes
  | [] => .ok []
  | .Binary data :: rest => do
    let out ← writeEntries offset rest
    .ok (data ++ out)
  | .Buffer b :: rest => do
    let descriptor ← b.write offset
    let out ← writeEntries offset rest
    .ok (descriptor ++ out)

def toBytes (p : Packet) : Except Error Bytes := do
  let out ← writeEntries p.baseLen p.entries
  .ok (out ++ p.extra)

end Packet

/-! ### Messages (src/ntlm/init.rs, src/ntlm/challenge.rs) -/

def defaultVersion : Bytes := putU8 5 ++ putU8 0 ++ putU16Le 2195 ++ putBytes 0 3 ++
  putU8 NTLM_REVISION

/-- `InitMsg::to_bytes` with an origin and the default version, as the client builds it. -/
def InitMsg.toBytes (flags : UInt32) (domain workstation : String) : Except Error Bytes :=
  ((((((Packet.new.appendBinary NTLMSSP_MAGIC).appendU32 NTLM_MSG_INIT).appendU32 flags)
    ).appendBuffer (asBytes domain)).appendBuffer (asBytes workstation)
    |>.appendBinary defaultVersion).toBytes

structure ChallengeMsg where
  target : String
  flags : UInt32
  challenge : Bytes
  info : Bytes

def ChallengeMsg.fields : Reader Error (Buffer × UInt32 × Bytes × Buffer) := do
  let magic ← copyToBytes NTLMSSP_MAGIC.length
  if magic ≠ NTLMSSP_MAGIC then fail .InvalidPacket
  else do
    let msgType ← getU32Le
    if msgType ≠ NTLM_MSG_CHALLENGE then fail .InvalidPacket
    else do
      let targetBuffer ← Buffer.parse
      let flags ← getU32Le
      let challenge ← copyToBytes 8
      advance 8
      let infoBuffer ← Buffer.parse
      pure (targetBuffer, flags &&& Flags.all, challenge, infoBuffer)

def ChallengeMsg.parse (msg : Bytes) : Except (Fault Error) ChallengeMsg := do
  let ((targetBuffer, flags, challenge, infoBuffer), _) ← ChallengeMsg.fields msg
  let target ← targetBuffer.extractString msg (contains flags Flags.UNICODE)
  let info ← infoBuffer.extract msg
  .ok { target, flags, challenge, info }

/-! ### Responses (src/ntlm/auth.rs) -/

/-- What comes from other crates and the environment. -/
structure Crypto where
  md4 : Bytes → Vector UInt8 16
  hmacMd5 : Bytes → Bytes → Vector UInt8 16
  /-- DES encryption of one block under an eight-byte key. -/
  desBlock : Bytes → Vector UInt8 8 → Vector UInt8 8
  random : Vector UInt8 8
  windowsTime : UInt64
  toUppercase : String → String

structure Auth where
  user : String
  workstation : String
  domain : String
  password : String

namespace Auth

variable (crypto : Crypto)

def ntlmHash (auth : Auth) : Vector UInt8 16 := crypto.md4 (encodeUtf16Le auth.password)

def ntlmv2Hash (auth : Auth) : Vector UInt8 16 :=
  crypto.hmacMd5 (auth.ntlmHash crypto).toList
    (encodeUtf16Le (crypto.toUppercase auth.user ++ auth.domain))

/-- `utils::des_oneshot`: the input must be one block. -/
def desOneshot (secret input : Bytes) : Except (Fault Unit) (Vector UInt8 8) := do
  let key ← expandDesKey secret
  if h : input.length = 8 then .ok (crypto.desBlock key ⟨input.toArray, by simpa using h⟩)
  else .error .panic

def ntlmv1Authenticate (auth : Auth) (challenge : Bytes) :
    Except (Fault Unit) (Vector UInt8 24) := do
  let hash := (auth.ntlmHash crypto).toList
  let first ← desOneshot crypto (hash.take 7) challenge
  let second ← desOneshot crypto ((hash.drop 7).take 7) challenge
  let third ← desOneshot crypto (hash.drop 14) challenge
  .ok (first ++ second ++ third)

def ntlmv2Blob (challengeMsg : ChallengeMsg) : Bytes :=
  [0x01, 0x01, 0, 0, 0, 0, 0, 0] ++ putU64Le crypto.windowsTime ++ crypto.random.toList ++
    putU32Le 0 ++ challengeMsg.info ++ putU32Le 0

/-- The response; the session key that the source returns with it is not used. -/
def ntlmv2Authenticate (auth : Auth) (challengeMsg : ChallengeMsg) : Bytes :=
  let blob := ntlmv2Blob crypto challengeMsg
  let tag := crypto.hmacMd5 (auth.ntlmv2Hash crypto).toList (challengeMsg.challenge ++ blob)
  tag.toList ++ blob

end Auth

def ChallengeMsg.response (crypto : Crypto) (msg : ChallengeMsg) (auth : Auth) :
    Except Error Bytes :=
  let unicode := contains msg.flags Flags.UNICODE
  (((((((Packet.new.appendBinary NTLMSSP_MAGIC).appendU32 NTLM_MSG_RESPONSE
    ).appendBuffer (List.replicate 24 0)).appendBuffer (auth.ntlmv2Authenticate crypto msg)
    ).appendString auth.domain unicode).appendString auth.user unicode
    ).appendString auth.workstation unicode).toBytes

end CifsClientStream.Ntlm
