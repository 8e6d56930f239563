import CifsClientStream.Smb.Layout
import CifsClientStream.Smb.Msg

/-!
# The replies of the handshake (`ServerSetup::create` and `SessionSetup::create` of src/smb/reply.rs)

The reply to a negotiation has seventeen words, and the challenge in front of
its data. The reply to a session setup has a security blob only if its words go
on behind the action.
-/

namespace CifsClientStream.Smb
open Cursor Win Utils

/-- A reply as a server writes it: the dialect is the only one that was offered; behind the
challenge come a domain name or a blob, which the client does not read. -/
structure NegotiateReply where
  securityMode : UInt8
  maxMpxCount : UInt16
  maxNumberVcs : UInt16
  maxBufferSize : UInt32
  maxRawSize : UInt32
  sessionKey : UInt32
  capabilities : UInt32
  systemTime : UInt64
  timezone : UInt16
  challenge : Bytes
  more : Bytes
  challenge_length : challenge.length < 256
  data_length : challenge.length + more.length < 65536

namespace NegotiateReply

variable (r : NegotiateReply)

def words : Bytes :=
  putU16Le 0 ++ (putU8 r.securityMode ++ (putU16Le r.maxMpxCount ++ (putU16Le r.maxNumberVcs ++
    (putU32Le r.maxBufferSize ++ (putU32Le r.maxRawSize ++ (putU32Le r.sessionKey ++
      (putU32Le r.capabilities ++ (putU64Le r.systemTime ++ (putU16Le r.timezone ++
        (putU8 (UInt8.ofNat r.challenge.length) ++ []))))))))))

def body (rest : Bytes) : Bytes := framed r.words (r.challenge ++ r.more) rest

/-- What the client makes of the reply. -/
def setup : Reply.ServerSetup where
  dialect := 0
  securityMode := r.securityMode
  maxMpxCount := r.maxMpxCount
  maxNumberVcs := r.maxNumberVcs
  maxBufferSize := r.maxBufferSize
  maxRawSize := r.maxRawSize
  sessionKey := r.sessionKey
  capabilities := r.capabilities &&& Capabilities.all
  systemTime := decodeWindowsTime r.systemTime
  timezone := r.timezone
  challenge := r.challenge

theorem words_length : r.words.length = 34 := by
  simp [words, putU8, putU16Le, putU32Le, putU64Le]

theorem fields_read (dialect : ℕ) :
    Reply.ServerSetup.fields dialect (r.words.drop 2) =
      .ok (({ r.setup with dialect, challenge := [] }, r.challenge.length), []) := by
  have hdrop : r.words.drop 2 = r.words.drop (putU16Le 0).length := rfl
  have hcount : (UInt8.ofNat r.challenge.length).toNat = r.challenge.length :=
    UInt8.toNat_ofNat_of_lt' r.challenge_length
  rw [hdrop, words, List.drop_left]
  simp only [Reply.ServerSetup.fields, getU8_bind, getU16Le_bind, getU32Le_bind, getU64Le_bind]
  rw [hcount]
  rfl

theorem create_read (info : Info) (dataOffset : ℕ) :
    Reply.ServerSetup.create { info, parameter := r.words, data := r.challenge ++ r.more, dataOffset } =
      .ok r.setup := by
  have hlong : ¬r.words.length < 17 := by simp [words_length]
  have hdialect : (getU16Le : Reader Error UInt16) r.words = .ok (0, r.words.drop 2) :=
    getU16Le_put 0 _
  have hchallenge : (copyToBytes r.challenge.length : Reader Error Bytes) (r.challenge ++ r.more) =
      .ok (r.challenge, r.more) := copyToBytes_append _ _ _ rfl
  have henough : ¬(r.challenge ++ r.more).length < r.challenge.length := by simp
  simp only [Reply.ServerSetup.create, if_neg hlong, hdialect, bind_of_ok]
  rw [if_neg (by decide), if_neg (by decide)]
  simp only [fields_read, bind_of_ok, if_neg henough, hchallenge]
  rfl

theorem parse_body (info : Info) (rest : Bytes) :
    Reply.parse Reply.ServerSetup info (r.body rest) = .ok r.setup := by
  have hdata : (r.challenge ++ r.more).length < 65536 := by simpa using r.data_length
  unfold Reply.parse body
  rw [sections_framed r.words _ rest (by simp [words_length]) (by simp [words_length]) hdata]
  exact r.create_read info _

end NegotiateReply

/-- A reply as a server writes it: what follows the 0xff of the AndX block, and the names of the
server's system behind the blob. -/
structure SetupReply where
  chain : Bytes
  action : UInt16
  blob : Option Bytes
  more : Bytes
  chain_length : chain.length = 3
  data_length : (blob.getD []).length + more.length < 65536

namespace SetupReply

variable (r : SetupReply)

def parameter : Bytes :=
  putU16Le r.action ++ match r.blob with
    | none => []
    | some blob => putU16Le (UInt16.ofNat blob.length)

def words : Bytes := 0xff :: r.chain ++ r.parameter

def data : Bytes := r.blob.getD [] ++ r.more

def body (rest : Bytes) : Bytes := framed r.words r.data rest

/-- What the client makes of the reply. -/
def answer (uid : UInt16) : Reply.SessionSetup where
  guestMode := r.action &&& 0x0001 == 1
  uid := uid
  securityBlob := r.blob.getD []

theorem words_length : r.words.length = 6 ∨ r.words.length = 8 := by
  cases hblob : r.blob with
  | none => simp [words, parameter, hblob, putU16Le, r.chain_length]
  | some blob => simp [words, parameter, hblob, putU16Le, r.chain_length]

theorem parameters_read :
    ∃ rest, Reply.SessionSetup.parameters r.parameter =
      .ok ((r.action, (r.blob.getD []).length), rest) := by
  have hfits := r.data_length
  cases hblob : r.blob with
  | none =>
    refine ⟨[], ?_⟩
    simp only [Reply.SessionSetup.parameters, parameter, hblob, getU16Le_bind]
    rfl
  | some blob =>
    rw [hblob] at hfits
    have hcount : (UInt16.ofNat blob.length).toNat = blob.length := ofNat16_toNat (by simp at hfits; omega)
    have hlong : 2 ≤ (putU16Le (UInt16.ofNat blob.length)).length := by simp [putU16Le]
    refine ⟨[], ?_⟩
    simp only [Reply.SessionSetup.parameters, parameter, hblob, getU16Le_bind, remaining_bind,
      if_pos hlong]
    rw [← List.append_nil (putU16Le _), getU16Le_bind, hcount]
    rfl

theorem parse_body (info : Info) (rest : Bytes) :
    Reply.parse Reply.SessionSetup info (r.body rest) = .ok (r.answer info.uid) := by
  have hdata : r.data.length < 65536 := by simpa [data] using r.data_length
  have hlength := r.words_length
  have heven : r.words.length % 2 = 0 := by omega
  have hfew : r.words.length < 512 := by omega
  have hblob : (copyToBytes (r.blob.getD []).length : Reader Error Bytes) r.data =
      .ok (r.blob.getD [], r.more) := copyToBytes_append _ _ _ rfl
  have hstrip : Reply.stripAndX true r.words = .ok r.parameter :=
    stripAndX_none r.chain r.parameter r.chain_length
  obtain ⟨left, hparameters⟩ := r.parameters_read
  unfold Reply.parse body
  rw [sections_framed r.words r.data rest heven hfew hdata]
  change (Reply.stripAndX true r.words >>= fun parameter => Reply.SessionSetup.create
    { info, parameter, data := r.data, dataOffset := _ }) = _
  rw [hstrip]
  change Reply.SessionSetup.create { info, parameter := r.parameter, data := r.data, dataOffset := _ } = _
  simp only [Reply.SessionSetup.create, hparameters, bind_of_ok, hblob]
  rfl

end SetupReply

end CifsClientStream.Smb
