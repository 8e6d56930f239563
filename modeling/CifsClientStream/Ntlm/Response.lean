import CifsClientStream.Ntlm.Packet
import CifsClientStream.Ntlm.DesKey

/-!
# The response at the server (src/ntlm/challenge.rs, src/ntlm/auth.rs)

A server reads a message of type 3 by its descriptors alone, and checks the
proof in it with the password of the user whom the message names. What the
client sends is read as what it is, and its proof holds under its own password.
-/

namespace CifsClientStream.Ntlm
open Cursor Utils Win Smb

/-! ### Descriptors of a packet -/

theorem Buffer.extractString_text {buffer : Buffer} {msg : Bytes} {unicode : Bool} {text : String}
    (h : buffer.extract msg = .ok (encodeText unicode text)) :
    buffer.extractString msg unicode = .ok text := by
  rw [Buffer.extractString, h, bind_of_ok, encodeText]
  cases unicode with
  | true => simp [decodeUtf16Le_encode]
  | false => simp [fromUtf8_asBytes]

/-- The descriptor at the place of a call leads to the payload of the call. -/
theorem ofBytes_extract {calls : List Append} (h : Declares (fixedLength calls) calls) {i : ℕ}
    {raw : Bytes} (hi : (calls[i]?).bind Append.payload = some raw) :
    (Buffer.ofBytes (fixedPart (fixedLength calls) calls ++ payloads calls) (placeOf calls i)).extract
      (fixedPart (fixedLength calls) calls ++ payloads calls) = .ok raw := by
  obtain ⟨buffer, rest, hparse, -, -, hextract⟩ := (described h hi).parsed
  generalize fixedPart (fixedLength calls) calls ++ payloads calls = out at hparse hextract
  have hlong : placeOf calls i + 8 ≤ out.length := by
    by_contra hshort
    have hpanic := Buffer.parse_short (out.drop (placeOf calls i)) (by rw [List.length_drop]; omega)
    rw [hparse] at hpanic
    cases hpanic
  have hat := Buffer.parse_at out (placeOf calls i) (fun buffer => (pure buffer : Reader Error Buffer)) hlong
  rw [bind_pure, hparse] at hat
  have hbuffer : buffer = Buffer.ofBytes out (placeOf calls i) := congrArg Prod.fst (Except.ok.inj hat)
  rw [← hbuffer]
  exact hextract

/-! ### The message -/

/-- What a server finds in a message of type 3. -/
structure Response where
  answer : Bytes
  domain : String
  user : String
  workstation : String

namespace Response

def fields : Reader Error (Buffer × Buffer × Buffer × Buffer × Buffer) := do
  let magic ← copyToBytes NTLMSSP_MAGIC.length
  if magic ≠ NTLMSSP_MAGIC then fail .InvalidPacket
  else do
    let msgType ← getU32Le
    if msgType ≠ NTLM_MSG_RESPONSE then fail .InvalidPacket
    else do
      let lanman ← Buffer.parse
      let answer ← Buffer.parse
      let domain ← Buffer.parse
      let user ← Buffer.parse
      let workstation ← Buffer.parse
      pure (lanman, answer, domain, user, workstation)

def parse (unicode : Bool) (msg : Bytes) : Except (Fault Error) Response := do
  let ((_, answer, domain, user, workstation), _) ← fields msg
  let answer ← answer.extract msg
  let domain ← domain.extractString msg unicode
  let user ← user.extractString msg unicode
  let workstation ← workstation.extractString msg unicode
  .ok { answer, domain, user, workstation }

theorem fields_whole {msg : Bytes} (hmagic : msg.take 8 = NTLMSSP_MAGIC)
    (htype : u32At msg 8 = NTLM_MSG_RESPONSE) (h52 : 52 ≤ msg.length) :
    fields msg = .ok ((Buffer.ofBytes msg 12, Buffer.ofBytes msg 20, Buffer.ofBytes msg 28,
      Buffer.ofBytes msg 36, Buffer.ofBytes msg 44), msg.drop 52) := by
  have hlength : NTLMSSP_MAGIC.length = 8 := rfl
  unfold fields
  rw [hlength, copyToBytes_first _ _ _ (by omega), hmagic, if_neg (not_not.mpr rfl),
    getU32Le_at _ _ _ (by omega), htype, if_neg (not_not.mpr rfl), Buffer.parse_at _ _ _ (by omega),
    Buffer.parse_at _ _ _ (by omega), Buffer.parse_at _ _ _ (by omega),
    Buffer.parse_at _ _ _ (by omega), Buffer.parse_at _ _ _ (by omega)]
  rfl

end Response

/-- The calls that make the response. -/
def ChallengeMsg.responseCalls (crypto : Crypto) (msg : ChallengeMsg) (auth : Auth) : List Append :=
  [.binary NTLMSSP_MAGIC, .u32 NTLM_MSG_RESPONSE, .buffer (List.replicate 24 0),
    .buffer (auth.ntlmv2Authenticate crypto msg), .string auth.domain (contains msg.flags Flags.UNICODE),
    .string auth.user (contains msg.flags Flags.UNICODE),
    .string auth.workstation (contains msg.flags Flags.UNICODE)]

/-- A server reads what the client has put in, in the charset that it has asked for. -/
theorem response_parsed {crypto : Crypto} {msg : ChallengeMsg} {auth : Auth} {out : Bytes}
    (h : msg.response crypto auth = .ok out) :
    Response.parse (contains msg.flags Flags.UNICODE) out =
      .ok ⟨auth.ntlmv2Authenticate crypto msg, auth.domain, auth.user, auth.workstation⟩ := by
  have hbuild : msg.response crypto auth = (Packet.build (msg.responseCalls crypto auth)).toBytes := rfl
  by_cases hdeclares : Declares (fixedLength (msg.responseCalls crypto auth)) (msg.responseCalls crypto auth)
  · rw [hbuild, toBytes_ok hdeclares] at h
    have hplace3 : placeOf (msg.responseCalls crypto auth) 3 = 20 := rfl
    have hplace4 : placeOf (msg.responseCalls crypto auth) 4 = 28 := rfl
    have hplace5 : placeOf (msg.responseCalls crypto auth) 5 = 36 := rfl
    have hplace6 : placeOf (msg.responseCalls crypto auth) 6 = 44 := rfl
    have hanswer := ofBytes_extract hdeclares (i := 3) rfl
    have hdomain := ofBytes_extract hdeclares (i := 4) rfl
    have huser := ofBytes_extract hdeclares (i := 5) rfl
    have hworkstation := ofBytes_extract hdeclares (i := 6) rfl
    have hlong := fixedPart_length (fixedLength (msg.responseCalls crypto auth))
      (msg.responseCalls crypto auth)
    rw [Except.ok.inj h] at hanswer hdomain huser hworkstation
    rw [hplace3] at hanswer
    rw [hplace4] at hdomain
    rw [hplace5] at huser
    rw [hplace6] at hworkstation
    have hmagic : out.take 8 = NTLMSSP_MAGIC := by
      rw [← Except.ok.inj h]
      rfl
    have htype : u32At out 8 = NTLM_MSG_RESPONSE := by
      rw [← Except.ok.inj h]
      rfl
    have h52 : 52 ≤ out.length := by
      have hfixed : fixedLength (msg.responseCalls crypto auth) = 52 := rfl
      rw [← Except.ok.inj h, List.length_append, hlong]
      omega
    rw [Response.parse, Response.fields_whole hmagic htype h52, bind_of_ok]
    change ((Buffer.ofBytes out 20).extract out >>= _) = _
    rw [hanswer, bind_of_ok, Buffer.extractString_text hdomain, bind_of_ok,
      Buffer.extractString_text huser, bind_of_ok, Buffer.extractString_text hworkstation]
    rfl
  · rw [hbuild, toBytes_error hdeclares] at h
    cases h

/-! ### The proofs -/

section

variable (crypto : Crypto)

/-- The key of the second version, from what the server knows of a user. -/
def responseKey (password user domain : String) : Vector UInt8 16 :=
  crypto.hmacMd5 (crypto.md4 (encodeUtf16Le password)).toList
    (encodeUtf16Le (crypto.toUppercase user ++ domain))

/-- The answer is a tag on the challenge and on the blob behind the tag, and the blob repeats the
info that came with the challenge. -/
structure Response.Proves (password : String) (challenge info : Bytes) (r : Response) : Prop where
  tag : r.answer.take 16 = (crypto.hmacMd5 (responseKey crypto password r.user r.domain).toList
    (challenge ++ r.answer.drop 16)).toList
  info : info <+: r.answer.drop 44

/-- The answer of the first version: the challenge under the three keys that are cut from the hash
with five zeros behind it. -/
def classicAnswer (password : String) (challenge : Bytes) : Except (Fault Unit) (Vector UInt8 24) := do
  let keys := (crypto.md4 (encodeUtf16Le password)).toList ++ List.replicate 5 0
  let first ← Auth.desOneshot crypto (keys.take 7) challenge
  let second ← Auth.desOneshot crypto ((keys.drop 7).take 7) challenge
  let third ← Auth.desOneshot crypto (keys.drop 14) challenge
  .ok (first ++ second ++ third)

theorem classicAnswer_auth (auth : Auth) (challenge : Bytes) :
    auth.ntlmv1Authenticate crypto challenge = classicAnswer crypto auth.password challenge :=
  ntlmv1Authenticate_keys crypto auth challenge

/-- The proof of a client holds under its own password. -/
theorem response_proves (msg : ChallengeMsg) (auth : Auth) (workstation : String) :
    Response.Proves crypto auth.password msg.challenge msg.info
      ⟨auth.ntlmv2Authenticate crypto msg, auth.domain, auth.user, workstation⟩ := by
  have hanswer : auth.ntlmv2Authenticate crypto msg =
      (crypto.hmacMd5 (responseKey crypto auth.password auth.user auth.domain).toList
        (msg.challenge ++ Auth.ntlmv2Blob crypto msg)).toList ++ Auth.ntlmv2Blob crypto msg := rfl
  generalize hblob : Auth.ntlmv2Blob crypto msg = blob at hanswer
  have htime : (putU64Le crypto.windowsTime).length = 8 := leBytes_length 8 _
  have hinfo : blob.drop 28 = msg.info ++ putU32Le 0 := by
    rw [← hblob, Auth.ntlmv2Blob]
    have hshort : (putU64Le crypto.windowsTime).drop 20 = [] := List.drop_of_length_le (by omega)
    have hrandom : crypto.random.toList.drop 12 = [] := List.drop_of_length_le (by simp)
    simp [List.drop_append, htime, hshort, hrandom, putU32Le]
  constructor
  case tag =>
    simp only [hanswer]
    rw [List.take_left' (by simp), List.drop_left' (by simp)]
  case info =>
    simp only [hanswer]
    rw [List.drop_append, List.drop_of_length_le (by simp)]
    simp [hinfo]

end

end CifsClientStream.Ntlm
