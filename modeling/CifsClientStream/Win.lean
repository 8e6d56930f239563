import Mathlib.Data.List.Basic

/-!
# Status codes and flag sets of the Windows protocols (src/win.rs)

`NTStatus` lists the status codes the client knows; every other code is kept
as a number (`Status`, src/smb/info.rs). Flag sets are their bits;
`from_bits_truncate` keeps the bits in the set's `all`.
-/

namespace CifsClientStream.Win

inductive NTStatus where
  | SUCCESS | INVALID_SMB | BAD_TID | BAD_COMMAND | BAD_UID | NON_STANDARD | BUFFER_OVERFLOW
  | NO_MORE_FILES | STOPPED_ON_SYMLINK | NOT_IMPLEMENTED | INVALID_PARAMETER | NO_SUCH_DEVICE
  | NO_SUCH_FILE | INVALID_DEVICE_REQ | MORE_PROCESSING | ACCESS_DENIED | BUFFER_TOO_SMALL
  | NAME_NOT_FOUND | NAME_COLLISION | PATH_NOT_FOUND | LOGIN_FAILURE | BAD_IMPERSONATION
  | IO_TIMEOUT | FILE_IS_DIRECTORY | NOT_SUPPORTED | NETWORK_NAME_DELETED | USER_SESSION_DELETED
  | NETWORK_SESSION_EXPIRED | TOO_MANY_UIDS | MEDIA_WRITE_PROTECTED | NETWORK_NAME_NOT_FOUND
  | DIRECTORY_NOT_EMPTY
  deriving DecidableEq, Repr

namespace NTStatus

def code : NTStatus → UInt32
  | SUCCESS => 0x00000000
  | INVALID_SMB => 0x00010002
  | BAD_TID => 0x00050002
  | BAD_COMMAND => 0x00160002
  | BAD_UID => 0x005b0002
  | NON_STANDARD => 0x00fb0002
  | BUFFER_OVERFLOW => 0x80000005
  | NO_MORE_FILES => 0x80000006
  | STOPPED_ON_SYMLINK => 0x8000002d
  | NOT_IMPLEMENTED => 0xc0000002
  | INVALID_PARAMETER => 0xc000000d
  | NO_SUCH_DEVICE => 0xc000000e
  | NO_SUCH_FILE => 0xc000000f
  | INVALID_DEVICE_REQ => 0xc0000010
  | MORE_PROCESSING => 0xc0000016
  | ACCESS_DENIED => 0xc0000022
  | BUFFER_TOO_SMALL => 0xc0000023
  | NAME_NOT_FOUND => 0xc0000034
  | NAME_COLLISION => 0xc0000035
  | PATH_NOT_FOUND => 0xc000003a
  | LOGIN_FAILURE => 0xc000006d
  | BAD_IMPERSONATION => 0xc00000a5
  | IO_TIMEOUT => 0xc00000b5
  | FILE_IS_DIRECTORY => 0xc00000ba
  | NOT_SUPPORTED => 0xc00000bb
  | NETWORK_NAME_DELETED => 0xc00000c9
  | USER_SESSION_DELETED => 0xc0000203
  | NETWORK_SESSION_EXPIRED => 0xc000035c
  | TOO_MANY_UIDS => 0xc000205a
  | MEDIA_WRITE_PROTECTED => 0xc00000a2
  | NETWORK_NAME_NOT_FOUND => 0xc00000cc
  | DIRECTORY_NOT_EMPTY => 0xc0000101

def all : List NTStatus :=
  [SUCCESS, INVALID_SMB, BAD_TID, BAD_COMMAND, BAD_UID, NON_STANDARD, BUFFER_OVERFLOW,
    NO_MORE_FILES, STOPPED_ON_SYMLINK, NOT_IMPLEMENTED, INVALID_PARAMETER, NO_SUCH_DEVICE,
    NO_SUCH_FILE, INVALID_DEVICE_REQ, MORE_PROCESSING, ACCESS_DENIED, BUFFER_TOO_SMALL,
    NAME_NOT_FOUND, NAME_COLLISION, PATH_NOT_FOUND, LOGIN_FAILURE, BAD_IMPERSONATION,
    IO_TIMEOUT, FILE_IS_DIRECTORY, NOT_SUPPORTED, NETWORK_NAME_DELETED, USER_SESSION_DELETED,
    NETWORK_SESSION_EXPIRED, TOO_MANY_UIDS, MEDIA_WRITE_PROTECTED, NETWORK_NAME_NOT_FOUND,
    DIRECTORY_NOT_EMPTY]

def tryFrom (c : UInt32) : Option NTStatus := all.find? fun s => s.code == c

theorem tryFrom_code (s : NTStatus) : tryFrom s.code = some s := by
  cases s <;> rfl

end NTStatus

def contains {α : Type} [AndOp α] [BEq α] (bits flag : α) : Bool := bits &&& flag == flag

def FileAttr.HIDDEN : UInt16 := 0x0002
def FileAttr.SYSTEM : UInt16 := 0x0004
def FileAttr.DIRECTORY : UInt16 := 0x0010

def ExtFileAttr.HIDDEN : UInt32 := 0x00000002
def ExtFileAttr.SYSTEM : UInt32 := 0x00000004
def ExtFileAttr.DIRECTORY : UInt32 := 0x00000010

def ExtFileAttr.all : UInt32 :=
  0x00000001 ||| 0x00000002 ||| 0x00000004 ||| 0x00000010 ||| 0x00000020 ||| 0x00000080 |||
  0x00000100 ||| 0x00000800 ||| 0x01000000 ||| 0x02000000 ||| 0x04000000 ||| 0x08000000 |||
  0x10000000 ||| 0x20000000 ||| 0x80000000

def DirAccessMask.all : UInt32 :=
  0x00000001 ||| 0x00000002 ||| 0x00000004 ||| 0x00000008 ||| 0x00000010 ||| 0x00000020 |||
  0x00000040 ||| 0x00000080 ||| 0x00000100 ||| 0x00010000 ||| 0x00020000 ||| 0x00040000 |||
  0x00080000 ||| 0x00100000 ||| 0x01000000 ||| 0x02000000 ||| 0x10000000 ||| 0x20000000 |||
  0x40000000 ||| 0x80000000

def CreateDisposition.all : UInt32 := 0x00000001 ||| 0x00000002 ||| 0x00000004

def OpLockLevel.all : UInt8 := 0x01 ||| 0x02

def ResourceType.all : UInt16 := 0x0001 ||| 0x0002 ||| 0x0004

end CifsClientStream.Win
