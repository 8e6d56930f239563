import CifsClientStream.Smb.Layout

/-!
# The reply to an open (`Handle::create` of src/smb/reply.rs)

Sixty-four bytes of parameters behind the AndX block, read one after the other.
Of the flag words only the bits that have a name are kept, and a directory flag
other than 0 and 1 is refused.
-/

namespace CifsClientStream.Smb
open Cursor Win Utils

/-- A reply as a server writes it: what follows the 0xff of the AndX block, the fields, the two
bytes that the parser skips, and the words behind. -/
structure OpenReply where
  chain : Bytes
  oplock : UInt8
  fid : UInt16
  disposition : UInt32
  createTime : UInt64
  accessTime : UInt64
  writeTime : UInt64
  changeTime : UInt64
  attributes : UInt32
  allocationSize : UInt64
  size : UInt64
  fileType : UInt16
  state : UInt16
  directory : Bool
  behind : Bytes
  chain_length : chain.length = 3
  behind_even : behind.length % 2 = 0
  behind_length : behind.length ≤ 442

namespace OpenReply

variable (r : OpenReply)

def parameter : Bytes :=
  putU8 r.oplock ++ (putU16Le r.fid ++ (putU32Le r.disposition ++ (putU64Le r.createTime ++
    (putU64Le r.accessTime ++ (putU64Le r.writeTime ++ (putU64Le r.changeTime ++
      (putU32Le r.attributes ++ (putU64Le r.allocationSize ++ (putU64Le r.size ++
        (putU16Le r.fileType ++ (putU16Le r.state ++
          (putU8 (if r.directory then 1 else 0) ++ r.behind))))))))))))

def words : Bytes := 0xff :: r.chain ++ r.parameter

def body (data rest : Bytes) : Bytes := framed r.words data rest

/-- What the client makes of the reply. -/
def handle (tid : UInt16) : Handle where
  tid := tid
  fid := r.fid
  oplock := r.oplock &&& OpLockLevel.all
  disposition := r.disposition &&& CreateDisposition.all
  createTime := r.createTime
  accessTime := r.accessTime
  writeTime := r.writeTime
  changeTime := r.changeTime
  attributes := r.attributes &&& ExtFileAttr.all
  allocationSize := r.allocationSize
  size := r.size
  fileType := r.fileType &&& ResourceType.all
  directory := r.directory

theorem words_length : r.words.length = 68 + r.behind.length := by
  simp [words, parameter, putU8, putU16Le, putU32Le, putU64Le, r.chain_length]
  omega

theorem andx_read : Reply.stripAndX true r.words = .ok r.parameter :=
  stripAndX_none r.chain r.parameter r.chain_length

theorem parameters_read (tid : UInt16) :
    Handle.parameters tid r.parameter =
      .ok (({ r.handle tid with directory := false }, if r.directory then 1 else 0), r.behind) := by
  have hstate : (putU16Le r.state).length = 2 := leBytes_length 2 _
  simp only [Handle.parameters, parameter, getU8_bind, getU16Le_bind, getU32Le_bind, getU64Le_bind]
  rw [advance_bind _ _ 2 _ hstate]
  rw [getU8_bind]
  rfl

theorem parse_body (info : Info) (data rest : Bytes) (hdata : data.length < 65536) :
    Reply.parse Handle info (r.body data rest) = .ok (r.handle info.tid) := by
  have hwords := r.words_length
  have heven := r.behind_even
  have hlength := r.behind_length
  unfold Reply.parse body
  rw [sections_framed r.words data rest (by omega) (by omega) hdata]
  change (Reply.stripAndX true r.words >>= fun parameter => Handle.create
    { info, parameter, data, dataOffset := _ }) = _
  rw [r.andx_read]
  change Handle.create { info, parameter := r.parameter, data, dataOffset := _ } = _
  unfold Handle.create
  simp only [r.parameters_read, handle]
  cases r.directory with
  | false => rfl
  | true => rfl

end OpenReply

end CifsClientStream.Smb
