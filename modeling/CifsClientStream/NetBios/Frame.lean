import CifsClientStream.Error
import CifsClientStream.Lib.Async
import CifsClientStream.Utils

/-!
# NetBIOS frames on a TCP stream (src/netbios.rs)

A frame is a type byte, a length in three bytes and a payload. The client
reads the parts one after the other and keeps what it has read so far in the
future that waits for the rest; likewise a frame that is sent goes out in as
many writes as the socket takes. When such a future is dropped, the bytes it
has read are gone and those it has written are out.
-/

namespace CifsClientStream.NetBios
open Cursor Async Utils

def MAX_FRAME_LENGTH : ℕ := 0x1ffff

inductive Frame where
  | Message (msg : Bytes)
  | SessionRequest (msg : Bytes)
  | PositiveResponse
  | NegativeResponse (code : UInt8)
  | Retarget
  | Keepalive
  deriving DecidableEq, Repr

inductive FrameType where
  | Message | SessionRequest | PositiveResponse | NegativeResponse | Retarget | Keepalive
  deriving DecidableEq, Repr

namespace FrameType

def code : FrameType → UInt8
  | Message => 0x00
  | SessionRequest => 0x81
  | PositiveResponse => 0x82
  | NegativeResponse => 0x83
  | Retarget => 0x84
  | Keepalive => 0x85

def all : List FrameType :=
  [Message, SessionRequest, PositiveResponse, NegativeResponse, Retarget, Keepalive]

def tryFrom (c : UInt8) : Option FrameType := all.find? fun t => t.code == c

end FrameType

def Frame.new (rawFrameType : UInt8) (frameData : Bytes) : Except Error Frame :=
  match FrameType.tryFrom rawFrameType with
  | none => .error (.InvalidFrameType rawFrameType)
  | some .Message => .ok (.Message frameData)
  | some .SessionRequest => .ok (.SessionRequest frameData)
  | some .PositiveResponse =>
    if frameData = [] then .ok .PositiveResponse else .error .InvalidFrame
  | some .NegativeResponse =>
    match frameData with
    | [code] => .ok (.NegativeResponse code)
    | _ => .error .InvalidFrame
  | some .Retarget => if frameData.length ≠ 6 then .error .InvalidFrame else .ok .Retarget
  | some .Keepalive => if frameData = [] then .ok .Keepalive else .error .InvalidFrame

/-- `n.to_be_bytes()[1..4]`. -/
def be3 (n : ℕ) : Bytes := [UInt8.ofNat (n / 65536), UInt8.ofNat (n / 256), UInt8.ofNat n]

def Frame.encode : Frame → Except Error Bytes
  | .Message msg =>
    if MAX_FRAME_LENGTH < msg.length then .error .InvalidFrame
    else .ok (FrameType.Message.code :: be3 msg.length ++ msg)
  | .SessionRequest msg =>
    if msg.length ≠ 68 then .error .InvalidFrame
    else .ok (FrameType.SessionRequest.code :: be3 msg.length ++ msg)
  | _ => .error .InvalidFrame

/-! ### The stream -/

/-- What a read of the socket meets: bytes, the timeout of the caller while there are
none, the end of the stream or an error. -/
inductive Arrival where
  | segment (b : UInt8) (bs : Bytes)
  | timeout
  | closed
  | failed (kind : IoErrorKind)
  deriving DecidableEq, Repr

/-- The socket: what will arrive, how much the coming writes take (one byte more than the
number each), what then happens to the writer (dropped, or an error) and what has been
written. -/
structure TcpStream where
  incoming : List Arrival
  room : List ℕ
  blocked : Option IoErrorKind
  written : Bytes

/-- The read loops: up to `need` more bytes, `acc` has been read. A segment that is longer
is left with its rest. -/
def readLoop (eof : Error) :
    List Arrival → ℕ → Bytes → Except (Stop Error) Bytes × List Arrival
  | [], need, acc => if need = 0 then (.ok acc, []) else (.error .dropped, [])
  | a :: rest, need, acc =>
    if need = 0 then (.ok acc, a :: rest)
    else match a with
      | .segment b bs =>
        match (b :: bs).drop need with
        | c :: cs => (.ok (acc ++ (b :: bs).take need), .segment c cs :: rest)
        | [] => readLoop eof rest (need - (b :: bs).length) (acc ++ b :: bs)
      | .timeout => (.error .dropped, rest)
      | .closed => (.error (.error eof), .closed :: rest)
      | .failed kind => (.error (.error (.IoError kind)), rest)

def readBytes (eof : Error) (count : ℕ) : Fut Error TcpStream Bytes := fun s =>
  match readLoop eof s.incoming count [] with
  | (.ok b, incoming) => .ok b { s with incoming }
  | (.error e, incoming) => .error e { s with incoming }

def readExact (count : ℕ) : Fut Error TcpStream Bytes :=
  readBytes (.IoError .UnexpectedEof) count

def readExactly (count : ℕ) : Fut Error TcpStream Bytes := readBytes .UnexpectedEOF count

def recv : Fut Error TcpStream Frame := do
  let msgType ← readExact 1
  let rawLength ← readExact 3
  let msgLength := beVal rawLength
  if MAX_FRAME_LENGTH < msgLength then raise .FrameTooBig
  else do
    let msgData ← readExactly msgLength
    ofExcept (Frame.new (msgType.headD 0) msgData)

/-- The loop of `recv_message`, for at most `fuel` frames. -/
def recvMessageLoop : ℕ → Fut Error TcpStream Bytes
  | 0 => drop
  | fuel + 1 => do
    match ← recv with
    | .Message msg => pure msg
    | .Keepalive => recvMessageLoop fuel
    | _ => raise .UnexpectedFrame

def bytesOf : List Arrival → Bytes
  | [] => []
  | .segment b bs :: rest => b :: bs ++ bytesOf rest
  | _ :: rest => bytesOf rest

def recvMessage : Fut Error TcpStream Bytes := fun s =>
  recvMessageLoop ((bytesOf s.incoming).length + 1) s

/-- The loop of `write_exactly`: what is out, the room left, and whether the buffer is. -/
def writeLoop : List ℕ → Bytes → Bytes → Bytes × List ℕ × Bool
  | [], buffer, written => (written, [], buffer == [])
  | n :: room, buffer, written =>
    if buffer = [] then (written, n :: room, true)
    else writeLoop room (buffer.drop (n + 1)) (written ++ buffer.take (n + 1))

def writeExactly (buffer : Bytes) : Fut Error TcpStream Unit := fun s =>
  match writeLoop s.room buffer s.written with
  | (written, room, true) => .ok () { s with written, room }
  | (written, room, false) =>
    match s.blocked with
    | none => .error .dropped { s with written, room }
    | some kind => .error (.error (.IoError kind)) { s with written, room }

def send (frame : Frame) : Fut Error TcpStream Unit := do
  let encoding ← ofExcept frame.encode
  writeExactly encoding

def sendMessage (msg : Bytes) : Fut Error TcpStream Unit := send (.Message msg)

end CifsClientStream.NetBios
