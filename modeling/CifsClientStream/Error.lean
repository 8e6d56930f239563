import CifsClientStream.Smb.Info

/-!
# Errors (src/error.rs, and the error types of src/netbios.rs and src/ntlm/error.rs)

Each layer has its own error type; the client wraps them into one and sorts
that by `ErrorKind`. A timeout and a lost connection are reported as retryable.
-/

namespace CifsClientStream
open Cursor Smb

/-- `std::io::ErrorKind`, as far as the client tells kinds apart. -/
inductive IoErrorKind where
  | TimedOut | WouldBlock | BrokenPipe | ConnectionAborted | ConnectionReset | NotConnected
  | UnexpectedEof | Other
  deriving DecidableEq, Repr

namespace NetBios

inductive Error where
  | IoError (kind : IoErrorKind)
  | CreateSession (code : UInt8)
  | InvalidFrameType (v : UInt8)
  | InvalidFrame
  | FrameTooBig
  | UnexpectedFrame
  | UnexpectedEOF
  deriving DecidableEq, Repr

end NetBios

namespace Ntlm

inductive Error where
  | Io (kind : IoErrorKind)
  | InputParameter (what : String)
  | InvalidPacket
  | NeedAuth
  deriving DecidableEq, Repr

end Ntlm

inductive ErrorKind where
  | Network | Timeout | Protocol | Server | Auth | Unsupported | Config | InvalidInput | Internal
  deriving DecidableEq, Repr

inductive Error where
  | NetBios (e : NetBios.Error)
  | SMBError (e : Smb.Error)
  | NTLMError (e : Ntlm.Error)
  | InternalError (what : String)
  | UnexpectedReply (want got : Cmd)
  | TooManyReplies (num : ℕ)
  | ServerError (status : Status)
  | Unsupported (what : String)
  | InvalidConfig (what : String)
  | Timeout (what : String)
  | InvalidUri
  deriving DecidableEq, Repr

def ioErrorKind : IoErrorKind → ErrorKind
  | .TimedOut => .Timeout
  | .WouldBlock => .Timeout
  | _ => .Network

def netbiosErrorKind : NetBios.Error → ErrorKind
  | .IoError kind => ioErrorKind kind
  | .UnexpectedEOF => .Network
  | _ => .Protocol

def smbErrorKind : Smb.Error → ErrorKind
  | .Unsupported _ => .Unsupported
  | _ => .Protocol

def ntlmErrorKind : Ntlm.Error → ErrorKind
  | .Io kind => ioErrorKind kind
  | .NeedAuth => .Auth
  | .InputParameter _ => .InvalidInput
  | .InvalidPacket => .Protocol

def isConnectionLost : IoErrorKind → Bool
  | .BrokenPipe => true
  | .ConnectionAborted => true
  | .ConnectionReset => true
  | .NotConnected => true
  | .UnexpectedEof => true
  | _ => false

namespace Error

def kind : Error → ErrorKind
  | .NetBios e => netbiosErrorKind e
  | .SMBError e => smbErrorKind e
  | .NTLMError e => ntlmErrorKind e
  | .InternalError _ => .Internal
  | .UnexpectedReply _ _ => .Protocol
  | .TooManyReplies _ => .Protocol
  | .ServerError _ => .Server
  | .Unsupported _ => .Unsupported
  | .InvalidConfig _ => .Config
  | .Timeout _ => .Timeout
  | .InvalidUri => .InvalidInput

def isRetryable (e : Error) : Bool := e.kind == .Network || e.kind == .Timeout

def isTimeout (e : Error) : Bool := e.kind == .Timeout

def isConnectionLost : Error → Bool
  | .NetBios .UnexpectedEOF => true
  | .NetBios (.IoError kind) => CifsClientStream.isConnectionLost kind
  | .NTLMError (.Io kind) => CifsClientStream.isConnectionLost kind
  | _ => false

/-- `From<TryFromIntError> for Error`. -/
def numericConversion : Error :=
  .InternalError "numeric conversion failed: out of range integral type conversion attempted"

end Error

end CifsClientStream
