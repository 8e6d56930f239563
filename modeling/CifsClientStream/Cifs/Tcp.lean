import CifsClientStream.Cifs.Session
import CifsClientStream.Lib.Simulation
import CifsClientStream.NetBios.Events
import CifsClientStream.Smb.Message

/-!
# The connection on its TCP stream (struct `Cifs` of src/lib.rs, src/netbios.rs)

The same client as in Cifs.Session, but over the bytes of the TCP stream: frames
arrive in any segments, and a frame that is sent goes out in as many writes as
the socket takes. `outbox` records what has gone out of each frame.
-/

namespace CifsClientStream
open Cursor Async Win Smb Utils Simulation
open Cifs (PendingReply IoStats StreamingWorkerReadRequest parseFrame parseReply liftSmb liftNtlm
  tryCount duplicateReply ntlmInitFlags)

/-- A frame that was given to the socket by the `number`-th send, and the bytes it has taken. -/
structure Outgoing where
  number : ℕ
  frame : Bytes
  out : Bytes
  deriving DecidableEq, Repr

structure TcpCifs where
  netbios : NetBios.TcpStream
  auth : Ntlm.Auth
  maxSmbSize : ℕ
  useUnicode : Bool
  uid : UInt16
  mid : UInt16
  ioStats : IoStats
  pendingReplies : UInt16 → Option PendingReply
  sends : ℕ
  outbox : List Outgoing

namespace TcpCifs

/-! ### The transport -/

def logOut (c : TcpCifs) (frame : Bytes) (netbios : NetBios.TcpStream) : TcpCifs :=
  { c with
    netbios
    outbox := c.outbox ++ [{
      number := c.sends - 1
      frame
      out := netbios.written.drop c.netbios.written.length }] }

/-- `NetBios::send_message`; a frame that is too long is not given to the socket. -/
def sendMessage (frame : Bytes) : Fut Error TcpCifs Unit := fun c =>
  match (NetBios.Frame.Message frame).encode with
  | .error e => .error (.error (.NetBios e)) c
  | .ok encoding =>
    match NetBios.writeExactly encoding c.netbios with
    | .ok _ netbios => .ok ⟨⟩ (c.logOut frame netbios)
    | .error e netbios => .error (e.map .NetBios) (c.logOut frame netbios)

def recvMessage : Fut Error TcpCifs Bytes := fun c =>
  match NetBios.recvMessage c.netbios with
  | .ok frame netbios => .ok frame { c with netbios }
  | .error e netbios => .error (e.map .NetBios) { c with netbios }

/-! ### Sending and receiving -/

def header (c : TcpCifs) (cmd : Cmd) : Info :=
  { Info.default cmd with
    uid := c.uid
    mid := c.mid
    flags2 := if c.useUnicode then Flags2.default ||| Flags2.UNICODE
      else Flags2.default &&& ~~~Flags2.UNICODE }

def send {M : Type} [Msg M] (msg : M) : Fut Error TcpCifs UInt16 := do
  let c ← get
  modify fun c => { c with mid := c.mid + 1, sends := c.sends + 1 }
  let info := Msg.fixHeader msg (c.header (Msg.CMD M))
  let frameOut ← lift (liftSmb (Msg.write msg info info.write))
  sendMessage frameOut
  pure c.mid

def recvFrame : Fut Error TcpCifs PendingReply := do
  let frame ← recvMessage
  lift (parseFrame frame)

def putAside (pending : PendingReply) : Fut Error TcpCifs Unit := do
  let c ← get
  modify fun c => { c with
    pendingReplies := Function.update c.pendingReplies pending.info.mid (some pending) }
  if (c.pendingReplies pending.info.mid).isSome then raise (duplicateReply pending.info.mid)
  else pure ()

/-- The loop of `recv`, for at most `fuel` frames. -/
def recvLoop (R : Type) [Reply R] (mid : UInt16) : ℕ → Fut Error TcpCifs R
  | 0 => drop
  | fuel + 1 => do
    let pending ← recvFrame
    if pending.info.mid = mid then lift (parseReply R pending)
    else do
      putAside pending
      recvLoop R mid fuel

def recv (R : Type) [Reply R] (mid : UInt16) : Fut Error TcpCifs R := do
  let c ← get
  match c.pendingReplies mid with
  | some pending => do
    modify fun c => { c with pendingReplies := Function.update c.pendingReplies mid none }
    lift (parseReply R pending)
  | none => recvLoop R mid ((NetBios.events c.netbios.incoming).length + 1)

def command {M : Type} (R : Type) [Msg M] [Reply R] (msg : M) : Fut Error TcpCifs R := do
  let mid ← send msg
  recv R mid

/-! ### Reads -/

def recordRead (bytes : ℕ) : Fut Error TcpCifs Unit :=
  modify fun c => { c with ioStats := c.ioStats.recordRead bytes }

def readAt (file : Handle) (offset : ℕ) (count : UInt32) : Fut Error TcpCifs Bytes := do
  if count = 0 then pure []
  else do
    let reply ← command Reply.Read (Msg.Read.handle file (UInt64.ofNat offset) count)
    recordRead reply.data.length
    pure reply.data

def sendReads (file : Handle) :
    List StreamingWorkerReadRequest → Fut Error TcpCifs (List UInt16)
  | [] => pure []
  | request :: rest => do
    let count ← ofExcept (tryCount request.len)
    let mid ← send (Msg.Read.handle file (UInt64.ofNat request.offset) count)
    let inFlight ← sendReads file rest
    pure (mid :: inFlight)

def recvReads : List UInt16 → Fut Error TcpCifs (List Bytes)
  | [] => pure []
  | mid :: rest => do
    let reply ← recv Reply.Read mid
    recordRead reply.data.length
    let chunks ← recvReads rest
    pure (reply.data :: chunks)

def readAtPipelined (file : Handle) :
    List StreamingWorkerReadRequest → Fut Error TcpCifs (List Bytes)
  | [] => pure []
  | [request] => do
    let count ← ofExcept (tryCount request.len)
    let chunk ← readAt file request.offset count
    pure [chunk]
  | requests => do
    let inFlight ← sendReads file requests
    recvReads inFlight

/-! ### Transactions -/

/-- The loop of `transact2`, for at most `fuel` messages. -/
def collect (mid : UInt16) : ℕ → CollectTrans2 → Fut Error TcpCifs CollectTrans2
  | 0, _ => drop
  | fuel + 1, ctx => do
    let reply ← recv Reply.Transact2 mid
    let (complete, ctx) ← lift (liftSmb (ctx.add reply))
    if complete then pure ctx else collect mid fuel ctx

def transact2 {C : Type} (R : Type) [SubCmd C] [SubReply R] (tid : UInt16) (subcmd : C) :
    Fut Error TcpCifs R := do
  let mid ← send (Msg.Transact2.mk tid subcmd)
  let c ← get
  let ctx ← collect mid ((NetBios.events c.netbios.incoming).length + 2) CollectTrans2.new
  lift (liftSmb (ctx.getSubreply R))

/-! ### Setting up a connection -/

def negotiate : Fut Error TcpCifs Reply.ServerSetup := command Reply.ServerSetup Msg.Negotiate.mk

def sessionSetup (user domain : String) (secret : Vector UInt8 24) :
    Fut Error TcpCifs Reply.SessionSetup :=
  command Reply.SessionSetup (Msg.SessionSetup.withAuth user domain secret)

def sessionSetupNtlmv2 (blob : Bytes) : Fut Error TcpCifs Reply.SessionSetup :=
  command Reply.SessionSetup (Msg.SessionSetup.withBlob blob)

variable (crypto : Ntlm.Crypto)

def authenticateNtlm (challenge : Bytes) : Fut Error TcpCifs Unit := do
  let auth := (← get).auth
  let secret ← lift (match auth.ntlmv1Authenticate crypto challenge with
    | .ok secret => .ok secret
    | .error _ => .error .panic)
  let setupReply ← sessionSetup auth.user auth.domain secret
  modify fun c => { c with uid := setupReply.uid }

def authenticateNtlmv2 : Fut Error TcpCifs Unit := do
  let auth := (← get).auth
  let ntlmInit ← lift (liftNtlm
    ((Ntlm.InitMsg.toBytes ntlmInitFlags auth.domain auth.workstation).mapError .error))
  let setupReply ← sessionSetupNtlmv2 ntlmInit
  modify fun c => { c with uid := setupReply.uid }
  let ntlmChallenge ← lift (liftNtlm (Ntlm.ChallengeMsg.parse setupReply.securityBlob))
  let ntlmResponse ← lift (liftNtlm ((ntlmChallenge.response crypto auth).mapError .error))
  let _ ← sessionSetupNtlmv2 ntlmResponse

def setupConnection : Fut Error TcpCifs Unit := do
  let serverSetup ← negotiate
  modify fun c => { c with
    maxSmbSize := serverSetup.maxBufferSize.toNat
    useUnicode := contains serverSetup.capabilities Capabilities.UNICODE }
  if contains serverSetup.capabilities Capabilities.EXTENDED_SECURITY then
    authenticateNtlmv2 crypto
  else authenticateNtlm crypto serverSetup.challenge

end TcpCifs

end CifsClientStream
