import CifsClientStream.Smb.Info
import CifsClientStream.Utils

/-!
# Replies of the server (src/smb/reply.rs, src/smb/common.rs)

`Reply::parse` cuts a message body into parameter words and data bytes and
hands them to `create` of the reply type. Every read in it takes bytes without
asking first whether they are there.
-/

namespace CifsClientStream.Smb
open Cursor Win Utils

def SMB_SUPPORTED_DIALECTS : List String := ["NT LM 0.12"]
def SMB_READ_MIN : UInt16 := 32768
def SMB_LEGACY_READ_MAX : ℕ := 65534

def Capabilities.UNICODE : UInt32 := 0x00000004
def Capabilities.LARGE_FILES : UInt32 := 0x00000008
def Capabilities.NT_SMBS : UInt32 := 0x00000010
def Capabilities.NTSTATUS : UInt32 := 0x00000040
def Capabilities.EXTENDED_SECURITY : UInt32 := 0x80000000
def Capabilities.all : UInt32 :=
  0x00000001 ||| 0x00000002 ||| 0x00000004 ||| 0x00000008 ||| 0x00000010 ||| 0x00000020 |||
  0x00000040 ||| 0x00000080 ||| 0x00000100 ||| 0x00000200 ||| 0x00001000 ||| 0x00002000 |||
  0x00004000 ||| 0x00008000 ||| 0x00010000 ||| 0x00800000 ||| 0x02000000 ||| 0x20000000 |||
  0x40000000 ||| 0x80000000

/-- An AndX block that names a further command. -/
structure AndX where
  cmd : Cmd
  offset : UInt16

def AndX.parse : Reader Error (Option AndX) := do
  let cmd ← getU8
  advance 1
  let offset ← getU16Le
  if cmd = 0xff then pure none
  else match Cmd.tryFrom cmd with
    | none => fail (.InvalidCommand cmd)
    | some c => pure (some { cmd := c, offset })

def AndX.write (andx : AndX) : Bytes := putU8 andx.cmd.code ++ putU8 0 ++ putU16Le andx.offset

/-- What `create` of a reply type gets to see. -/
structure ReplyCtx where
  info : Info
  parameter : Bytes
  data : Bytes
  dataOffset : ℕ

class Reply (R : Type) where
  CMD : Cmd
  ANDX : Bool
  create : ReplyCtx → Except (Fault Error) R

def Reply.sections : Reader Error (Bytes × Bytes) := do
  let parameterCount ← getU8
  let parameter ← copyToBytes (2 * parameterCount.toNat)
  let dataCount ← getU16Le
  let data ← copyToBytes dataCount.toNat
  pure (parameter, data)

def Reply.stripAndX (andx : Bool) (parameter : Bytes) : Except (Fault Error) Bytes :=
  if andx then do
    let (next, parameter) ← AndX.parse parameter
    match next with
    | some _ => .error (.error (.Unsupported "AndX chaining is currently not supported"))
    | none => .ok parameter
  else .ok parameter

def Reply.parse (R : Type) [Reply R] (info : Info) (buffer : Bytes) :
    Except (Fault Error) R := do
  let ((parameter, data), _) ← Reply.sections buffer
  let parameterOffset := SMB_HEADER_LEN + 1
  let dataOffset := parameterOffset + parameter.length + 2
  let parameter ← Reply.stripAndX (Reply.ANDX R) parameter
  Reply.create { info, parameter, data, dataOffset }

/-! ### Reply types -/

structure Share where
  accessRights : Option UInt32
  guestRights : Option UInt32
  service : String
  filesystem : String
  tid : UInt16
  deriving DecidableEq, Repr

def Share.rights : Reader Error (Option UInt32) := do
  if 4 ≤ (← remaining) then
    let bits ← getU32Le
    pure (some (bits &&& DirAccessMask.all))
  else pure none

def Share.parameters : Reader Error (Option UInt32 × Option UInt32) := do
  advance 2
  let accessRights ← Share.rights
  let guestRights ← Share.rights
  pure (accessRights, guestRights)

/-- `From<ParseStrError> for smb::Error`. -/
def liftStr {α : Type} : Except ParseStrError α → Except (Fault Error) α
  | .ok a => .ok a
  | .error _ => .error (.error .InvalidData)

/-- The file system name behind the service name; one byte of padding is
skipped on the parity of the service's length. -/
def Share.filesystemName (unicode : Bool) (service : String) (data : Bytes) :
    Except (Fault Error) (String × Bytes) :=
  if unicode then
    if service.utf8ByteSize % 2 = 1 then do
      let (_, data) ← advance 1 data
      liftStr (parseUtf16Le0 data)
    else liftStr (parseUtf16Le0 data)
  else liftStr (parseStr0 data)

def Share.create (ctx : ReplyCtx) : Except (Fault Error) Share := do
  let ((accessRights, guestRights), _) ← Share.parameters ctx.parameter
  let (service, data) ← liftStr (parseStr0 ctx.data)
  let (filesystem, _) ←
    Share.filesystemName (contains ctx.info.flags2 Flags2.UNICODE) service data
  .ok { accessRights, guestRights, service, filesystem, tid := ctx.info.tid }

instance : Reply Share where
  CMD := .TreeConnect
  ANDX := true
  create := Share.create

structure Handle where
  tid : UInt16
  fid : UInt16
  oplock : UInt8
  disposition : UInt32
  createTime : UInt64
  accessTime : UInt64
  writeTime : UInt64
  changeTime : UInt64
  attributes : UInt32
  allocationSize : UInt64
  size : UInt64
  fileType : UInt16
  directory : Bool
  deriving DecidableEq, Repr

def Handle.parameters (tid : UInt16) : Reader Error (Handle × UInt8) := do
  let oplock ← getU8
  let fid ← getU16Le
  let disposition ← getU32Le
  let createTime ← getU64Le
  let accessTime ← getU64Le
  let writeTime ← getU64Le
  let changeTime ← getU64Le
  let attributes ← getU32Le
  let allocationSize ← getU64Le
  let size ← getU64Le
  let fileType ← getU16Le
  advance 2
  let directory ← getU8
  pure ({
    tid, fid, createTime, accessTime, writeTime, changeTime, allocationSize, size
    oplock := oplock &&& OpLockLevel.all
    disposition := disposition &&& CreateDisposition.all
    attributes := attributes &&& ExtFileAttr.all
    fileType := fileType &&& ResourceType.all
    directory := false }, directory)

def Handle.create (ctx : ReplyCtx) : Except (Fault Error) Handle := do
  let ((handle, directory), _) ← Handle.parameters ctx.info.tid ctx.parameter
  if directory = 0 then .ok { handle with directory := false }
  else if directory = 1 then .ok { handle with directory := true }
  else .error (.error .InvalidData)

instance : Reply Handle where
  CMD := .Create
  ANDX := true
  create := Handle.create

namespace Reply

structure ServerSetup where
  dialect : ℕ
  securityMode : UInt8
  maxMpxCount : UInt16
  maxNumberVcs : UInt16
  maxBufferSize : UInt32
  maxRawSize : UInt32
  sessionKey : UInt32
  capabilities : UInt32
  systemTime : ℕ
  timezone : UInt16
  challenge : Bytes
  deriving DecidableEq, Repr

def ServerSetup.fields (dialect : ℕ) : Reader Error (ServerSetup × ℕ) := do
  let securityMode ← getU8
  let maxMpxCount ← getU16Le
  let maxNumberVcs ← getU16Le
  let maxBufferSize ← getU32Le
  let maxRawSize ← getU32Le
  let sessionKey ← getU32Le
  let capabilities ← getU32Le
  let systemTime ← getU64Le
  let timezone ← getU16Le
  let challengeLength ← getU8
  pure ({
    dialect, securityMode, maxMpxCount, maxNumberVcs, maxBufferSize, maxRawSize, sessionKey
    capabilities := capabilities &&& Capabilities.all
    systemTime := decodeWindowsTime systemTime
    timezone, challenge := [] }, challengeLength.toNat)

def ServerSetup.create (ctx : ReplyCtx) : Except (Fault Error) ServerSetup :=
  if ctx.parameter.length < 17 then
    .error (.error (.Unsupported "negotiate header with too few parameter"))
  else do
    let (dialect, parameter) ← getU16Le ctx.parameter
    if dialect = 0xffff then .error (.error .NoDialect)
    else if SMB_SUPPORTED_DIALECTS.length ≤ dialect.toNat then .error (.error .InvalidHeader)
    else
      let ((setup, challengeLength), _) ← ServerSetup.fields dialect.toNat parameter
      if ctx.data.length < challengeLength then .error (.error .InvalidData)
      else
        let (challenge, _) ← copyToBytes challengeLength ctx.data
        .ok { setup with challenge }

instance : Reply ServerSetup where
  CMD := .Negotiate
  ANDX := false
  create := ServerSetup.create

structure SessionSetup where
  guestMode : Bool
  uid : UInt16
  securityBlob : Bytes
  deriving DecidableEq, Repr

def SessionSetup.parameters : Reader Error (UInt16 × ℕ) := do
  let action ← getU16Le
  if 2 ≤ (← remaining) then
    let blobLength ← getU16Le
    pure (action, blobLength.toNat)
  else pure (action, 0)

def SessionSetup.create (ctx : ReplyCtx) : Except (Fault Error) SessionSetup := do
  let ((action, blobLength), _) ← SessionSetup.parameters ctx.parameter
  let (blob, _) ← copyToBytes blobLength ctx.data
  .ok { guestMode := action &&& 0x0001 == 1, securityBlob := blob, uid := ctx.info.uid }

instance : Reply SessionSetup where
  CMD := .SessionSetup
  ANDX := true
  create := SessionSetup.create

structure TreeDisconnect where
  deriving DecidableEq, Repr

instance : Reply TreeDisconnect where
  CMD := .TreeDisconnect
  ANDX := false
  create _ := .ok {}

structure Close where
  deriving DecidableEq, Repr

instance : Reply Close where
  CMD := .Close
  ANDX := false
  create _ := .ok {}

structure Read where
  data : Bytes
  deriving DecidableEq, Repr

def Read.parameters : Reader Error ℕ := do
  advance 2
  advance 2
  advance 2
  let length ← getU16Le
  pure length.toNat

/-- One optional byte of padding is skipped when more data came than announced. -/
def Read.payload (length : ℕ) (data : Bytes) : Except (Fault Error) Bytes := do
  let (_, data) ← if length < data.length then advance 1 data else .ok ((), data)
  if data.length ≠ length then .error (.error .InvalidData)
  else
    let (fileData, _) ← copyToBytes length data
    .ok fileData

def Read.create (ctx : ReplyCtx) : Except (Fault Error) Read := do
  let (length, _) ← Read.parameters ctx.parameter
  let fileData ← Read.payload length ctx.data
  .ok { data := fileData }

instance : Reply Read where
  CMD := .Read
  ANDX := true
  create := Read.create

end Reply

end CifsClientStream.Smb
