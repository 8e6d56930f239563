import CifsClientStream.Error
import Mathlib.Data.List.Basic

/-!
# The texts of errors (`Display` of the error types, `Debug` of their codes)

A text is put together from literals, numbers, the strings an error carries and
what the system says about an i/o error. It has no NUL if those strings have
none (`Error.display_nulFree`).
-/

namespace CifsClientStream
open Smb Win

/-! ### Texts without NUL -/

def NulFree (s : String) : Prop := '\x00' ∉ s.toList

instance (s : String) : Decidable (NulFree s) := inferInstanceAs (Decidable (¬_))

theorem nulFree_append (s t : String) : NulFree (s ++ t) ↔ NulFree s ∧ NulFree t := by
  simp [NulFree]

theorem NulFree.append {s t : String} (hs : NulFree s) (ht : NulFree t) : NulFree (s ++ t) :=
  (nulFree_append s t).mpr ⟨hs, ht⟩

/-- `{:02x}`. -/
def hexText (n : ℕ) : String := String.ofList ((Nat.toDigits 16 n).leftpad 2 '0')

theorem digitChar_nulFree (n : ℕ) (h : n < 16) : Nat.digitChar n ≠ '\x00' := by
  have hall : ∀ k : Fin 16, Nat.digitChar k ≠ '\x00' := by decide
  exact hall ⟨n, h⟩

theorem toDigits_nulFree (n : ℕ) : '\x00' ∉ Nat.toDigits 16 n := by
  induction n using Nat.strong_induction_on with
  | _ n ih =>
    by_cases hn : n < 16
    · rw [Nat.toDigits_of_lt_base hn, List.mem_singleton]
      exact (digitChar_nulFree n hn).symm
    · rw [Nat.toDigits_of_base_le (by decide) (by omega), List.mem_append, List.mem_singleton]
      rintro (hmem | hlast)
      · exact ih (n / 16) (by omega) hmem
      · exact digitChar_nulFree (n % 16) (Nat.mod_lt _ (by decide)) hlast.symm

theorem hexText_nulFree (n : ℕ) : NulFree (hexText n) := by
  unfold NulFree hexText
  rw [String.toList_ofList, List.leftpad, List.mem_append]
  rintro (hpad | hdigits)
  · cases List.eq_of_mem_replicate hpad
  · exact toDigits_nulFree n hdigits

theorem toString_nulFree (n : ℕ) : NulFree (toString n) := by
  unfold NulFree
  rw [Nat.toString_eq_repr, Nat.toList_repr]
  intro hmem
  have hdigit := Nat.isDigit_of_mem_toDigits (by decide) (by decide) hmem
  cases hdigit

/-! ### Codes -/

def Smb.Cmd.debug : Cmd → String
  | .Close => "Close"
  | .Read => "Read"
  | .Transact2 => "Transact2"
  | .TreeDisconnect => "TreeDisconnect"
  | .Negotiate => "Negotiate"
  | .SessionSetup => "SessionSetup"
  | .TreeConnect => "TreeConnect"
  | .Create => "Create"
  | .NoCommand => "NoCommand"

theorem Smb.Cmd.debug_nulFree (cmd : Cmd) : NulFree cmd.debug := by
  cases cmd <;> decide

def Win.NTStatus.debug : NTStatus → String
  | .SUCCESS => "SUCCESS"
  | .INVALID_SMB => "INVALID_SMB"
  | .BAD_TID => "BAD_TID"
  | .BAD_COMMAND => "BAD_COMMAND"
  | .BAD_UID => "BAD_UID"
  | .NON_STANDARD => "NON_STANDARD"
  | .BUFFER_OVERFLOW => "BUFFER_OVERFLOW"
  | .NO_MORE_FILES => "NO_MORE_FILES"
  | .STOPPED_ON_SYMLINK => "STOPPED_ON_SYMLINK"
  | .NOT_IMPLEMENTED => "NOT_IMPLEMENTED"
  | .INVALID_PARAMETER => "INVALID_PARAMETER"
  | .NO_SUCH_DEVICE => "NO_SUCH_DEVICE"
  | .NO_SUCH_FILE => "NO_SUCH_FILE"
  | .INVALID_DEVICE_REQ => "INVALID_DEVICE_REQ"
  | .MORE_PROCESSING => "MORE_PROCESSING"
  | .ACCESS_DENIED => "ACCESS_DENIED"
  | .BUFFER_TOO_SMALL => "BUFFER_TOO_SMALL"
  | .NAME_NOT_FOUND => "NAME_NOT_FOUND"
  | .NAME_COLLISION => "NAME_COLLISION"
  | .PATH_NOT_FOUND => "PATH_NOT_FOUND"
  | .LOGIN_FAILURE => "LOGIN_FAILURE"
  | .BAD_IMPERSONATION => "BAD_IMPERSONATION"
  | .IO_TIMEOUT => "IO_TIMEOUT"
  | .FILE_IS_DIRECTORY => "FILE_IS_DIRECTORY"
  | .NOT_SUPPORTED => "NOT_SUPPORTED"
  | .NETWORK_NAME_DELETED => "NETWORK_NAME_DELETED"
  | .USER_SESSION_DELETED => "USER_SESSION_DELETED"
  | .NETWORK_SESSION_EXPIRED => "NETWORK_SESSION_EXPIRED"
  | .TOO_MANY_UIDS => "TOO_MANY_UIDS"
  | .MEDIA_WRITE_PROTECTED => "MEDIA_WRITE_PROTECTED"
  | .NETWORK_NAME_NOT_FOUND => "NETWORK_NAME_NOT_FOUND"
  | .DIRECTORY_NOT_EMPTY => "DIRECTORY_NOT_EMPTY"

theorem Win.NTStatus.debug_nulFree (status : NTStatus) : NulFree status.debug := by
  cases status <;> decide

def ErrorKind.debug : ErrorKind → String
  | .Network => "Network"
  | .Timeout => "Timeout"
  | .Protocol => "Protocol"
  | .Server => "Server"
  | .Auth => "Auth"
  | .Unsupported => "Unsupported"
  | .Config => "Config"
  | .InvalidInput => "InvalidInput"
  | .Internal => "Internal"

theorem ErrorKind.debug_nulFree (kind : ErrorKind) : NulFree kind.debug := by
  cases kind <;> decide

def Smb.Status.display : Status → String
  | .known status => status.debug
  | .unknown code => "Unknown (" ++ hexText code.toNat ++ ")"

theorem Smb.Status.display_nulFree (status : Status) : NulFree status.display := by
  cases status with
  | known status => exact status.debug_nulFree
  | unknown code => exact (NulFree.append (by decide) (hexText_nulFree _)).append (by decide)

/-! ### Errors -/

/-- What the system says about an i/o error, in C strings. -/
structure IoText where
  text : IoErrorKind → String
  nulFree : ∀ kind, NulFree (text kind)

def NetBios.Error.display (io : IoText) : NetBios.Error → String
  | .IoError kind => "io error: " ++ io.text kind
  | .CreateSession code => "can't create NBT session: error code 0x" ++ hexText code.toNat
  | .InvalidFrameType v => "invalid NetBIOS message type: 0x" ++ hexText v.toNat
  | .InvalidFrame => "invalid NetBIOS frame"
  | .FrameTooBig => "frame exceeds maximal size"
  | .UnexpectedFrame => "unexpected NetBIOS frame"
  | .UnexpectedEOF => "unexpected end of stream"

def Smb.Error.display : Smb.Error → String
  | .InvalidHeader => "invalid header"
  | .InvalidData => "invalid packet data"
  | .InvalidCommand cmd => "invalid command: " ++ hexText cmd.toNat
  | .NoDialect => "no supported dialect found"
  | .NeedSecurityExt => "need security extension"
  | .ReplyExpected => "header is marked as request instead of reply"
  | .CreatePacket whatnow => "error creating packet: " ++ whatnow
  | .Reassemble desc => "error reassembling transact2 reply: " ++ desc
  | .Unsupported what => "unsupported feature: " ++ what

def Ntlm.Error.display (io : IoText) : Ntlm.Error → String
  | .Io kind => "io error: " ++ io.text kind
  | .InputParameter what => "invalid input paramater: " ++ what
  | .InvalidPacket => "invalid packet data"
  | .NeedAuth => "authentication not configured"

def Error.display (io : IoText) : Error → String
  | .NetBios e => "NetBios error: " ++ e.display io
  | .SMBError e => "protocol error: " ++ e.display
  | .NTLMError e => "NTLM error: " ++ e.display io
  | .InternalError what => "internal error: " ++ what
  | .UnexpectedReply want got => "unexpected reply, want: " ++ want.debug ++ ", got: " ++ got.debug
  | .TooManyReplies num => "we expect one reply but got " ++ toString num
  | .ServerError status => "server error: " ++ status.display
  | .Unsupported what => "unsupported feature: " ++ what
  | .InvalidConfig what => "invalid configuration: " ++ what
  | .Timeout what => "timeout: " ++ what
  | .InvalidUri => "URI is invalid"

/-- The strings that an error carries. -/
def Error.carried : Error → List String
  | .SMBError (.CreatePacket what) => [what]
  | .SMBError (.Reassemble what) => [what]
  | .SMBError (.Unsupported what) => [what]
  | .NTLMError (.InputParameter what) => [what]
  | .InternalError what => [what]
  | .Unsupported what => [what]
  | .InvalidConfig what => [what]
  | .Timeout what => [what]
  | _ => []

def Error.Plain (e : Error) : Prop := ∀ what ∈ e.carried, NulFree what

theorem NetBios.Error.display_nulFree (io : IoText) (e : NetBios.Error) :
    NulFree (e.display io) := by
  cases e with
  | IoError kind => exact NulFree.append (by decide) (io.nulFree kind)
  | CreateSession code => exact NulFree.append (by decide) (hexText_nulFree _)
  | InvalidFrameType v => exact NulFree.append (by decide) (hexText_nulFree _)
  | _ =>
    dsimp only [display]
    decide

theorem Smb.Error.display_nulFree {e : Smb.Error} (h : (Error.SMBError e).Plain) :
    NulFree e.display := by
  cases e with
  | InvalidCommand cmd => exact NulFree.append (by decide) (hexText_nulFree _)
  | CreatePacket what => exact NulFree.append (by decide) (h what List.mem_cons_self)
  | Reassemble what => exact NulFree.append (by decide) (h what List.mem_cons_self)
  | Unsupported what => exact NulFree.append (by decide) (h what List.mem_cons_self)
  | _ => decide

theorem Ntlm.Error.display_nulFree (io : IoText) {e : Ntlm.Error} (h : (Error.NTLMError e).Plain) :
    NulFree (e.display io) := by
  cases e with
  | Io kind => exact NulFree.append (by decide) (io.nulFree kind)
  | InputParameter what => exact NulFree.append (by decide) (h what List.mem_cons_self)
  | _ =>
    dsimp only [display]
    decide

theorem Error.display_nulFree (io : IoText) {e : Error} (h : e.Plain) : NulFree (e.display io) := by
  cases e with
  | NetBios e => exact NulFree.append (by decide) (e.display_nulFree io)
  | SMBError e => exact NulFree.append (by decide) (Smb.Error.display_nulFree h)
  | NTLMError e => exact NulFree.append (by decide) (Ntlm.Error.display_nulFree io h)
  | UnexpectedReply want got =>
    exact ((NulFree.append (by decide) want.debug_nulFree).append (by decide)).append
      got.debug_nulFree
  | TooManyReplies num => exact NulFree.append (by decide) (toString_nulFree num)
  | ServerError status => exact NulFree.append (by decide) status.display_nulFree
  | InvalidUri =>
    dsimp only [display]
    decide
  | _ what => exact NulFree.append (by decide) (h what List.mem_cons_self)

end CifsClientStream
