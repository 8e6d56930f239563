import CifsClientStream.Cifs.Reply
import CifsClientStream.NetBios.Frame
import CifsClientStream.Ntlm

/-!
# The client's connection (struct `Cifs` of src/lib.rs)

Requests go out one after the other, each under the next multiplex id; replies
come in any order. `recv` waits for the reply under a given id and puts every
other one aside in `pending_replies`. The transport is seen at the level of
NetBIOS frames: a call may be dropped while it waits for a frame or for the
socket to take one, never inside a frame.

Each frame carries the number of the request the server answers by it. The
client cannot see this number; it, and the record of what was sent, read and
handed out (`History`), only serve to say what should not go wrong.
-/

namespace CifsClientStream
open Cursor Async Win Smb Utils

namespace Cifs

/-- A received message and the number of the request it answers. -/
structure Delivery where
  reply : PendingReply
  answers : ℕ
  deriving DecidableEq, Repr

def Delivery.mid (d : Delivery) : UInt16 := d.reply.info.mid

/-- What the server sends. -/
inductive Arrival where
  | frame (answers : ℕ) (frame : NetBios.Frame)
  | failed (e : NetBios.Error)
  deriving DecidableEq, Repr

/-- What becomes of the next frame the client sends. -/
inductive WriteStep where
  | written
  | failed (e : NetBios.Error)
  | dropped
  deriving DecidableEq, Repr

/-- The transport; a frame is written when the script has ended. -/
structure Net where
  incoming : List Arrival
  writes : List WriteStep

/-- A request that went out; `stored` tells whether a message lay in `pending_replies`
under its id at that time. -/
structure Sent where
  mid : UInt16
  stored : Bool
  deriving DecidableEq, Repr

/-- A message read from the net; `sent` requests had gone out by then. -/
structure Received where
  mid : UInt16
  answers : ℕ
  sent : ℕ
  deriving DecidableEq, Repr

/-- A message handed to `parse_reply`, for the request with the number `request`. -/
structure Handed where
  request : ℕ
  delivery : Delivery
  deriving DecidableEq, Repr

structure History where
  sent : List Sent
  received : List Received
  handed : List Handed

/-- The multiplex id of a request, which is all the source has, and its number. -/
structure Ticket where
  mid : UInt16
  request : ℕ
  deriving DecidableEq, Repr

/-- `CifsIoStats` without the elapsed time. -/
structure IoStats where
  readAtCalls : UInt64
  readAtBytes : UInt64
  deriving DecidableEq, Repr

def IoStats.recordRead (stats : IoStats) (bytes : ℕ) : IoStats where
  readAtCalls := stats.readAtCalls + 1
  readAtBytes := stats.readAtBytes + UInt64.ofNat bytes

end Cifs

open Cifs in
structure Cifs where
  netbios : Net
  auth : Ntlm.Auth
  maxSmbSize : ℕ
  useUnicode : Bool
  uid : UInt16
  mid : UInt16
  ioStats : IoStats
  pendingReplies : UInt16 → Option Delivery
  history : History

namespace Cifs

/-! ### The transport -/

def sendMessage (frame : Bytes) (mid : UInt16) : Fut Error Cifs Ticket := fun c =>
  match (NetBios.Frame.Message frame).encode with
  | .error e => .error (.error (.NetBios e)) c
  | .ok _ =>
    match c.netbios.writes with
    | .failed e :: writes =>
      .error (.error (.NetBios e)) { c with netbios := { c.netbios with writes } }
    | .dropped :: writes => .error .dropped { c with netbios := { c.netbios with writes } }
    | _ =>
      .ok ⟨mid, c.history.sent.length⟩ { c with
        netbios := { c.netbios with writes := c.netbios.writes.tail }
        history := { c.history with
          sent := c.history.sent ++ [⟨mid, (c.pendingReplies mid).isSome⟩] } }

/-- The next message of the server, keepalives skipped. -/
def recvMessage : List Arrival → Except (Stop NetBios.Error) (ℕ × Bytes) × List Arrival
  | [] => (.error .dropped, [])
  | .frame answers (.Message msg) :: rest => (.ok (answers, msg), rest)
  | .frame _ .Keepalive :: rest => recvMessage rest
  | .frame _ _ :: rest => (.error (.error .UnexpectedFrame), rest)
  | .failed e :: rest => (.error (.error e), rest)

def withIncoming (c : Cifs) (incoming : List Arrival) : Cifs :=
  { c with netbios := { c.netbios with incoming } }

def logReceived (c : Cifs) (d : Delivery) : Cifs :=
  { c with history := { c.history with
    received := c.history.received ++ [⟨d.mid, d.answers, c.history.sent.length⟩] } }

def recvFrame : Fut Error Cifs Delivery := fun c =>
  match recvMessage c.netbios.incoming with
  | (.error e, incoming) => .error (e.map .NetBios) (c.withIncoming incoming)
  | (.ok (answers, frame), incoming) =>
    match parseFrame frame with
    | .ok reply => .ok ⟨reply, answers⟩ ((c.withIncoming incoming).logReceived ⟨reply, answers⟩)
    | .error (.error e) => .error (.error e) (c.withIncoming incoming)
    | .error .panic => .error .panic (c.withIncoming incoming)

/-! ### Sending and receiving -/

def header (c : Cifs) (cmd : Cmd) : Info :=
  { Info.default cmd with
    uid := c.uid
    mid := c.mid
    flags2 := if c.useUnicode then Flags2.default ||| Flags2.UNICODE
      else Flags2.default &&& ~~~Flags2.UNICODE }

def send {M : Type} [Msg M] (msg : M) : Fut Error Cifs Ticket := do
  let c ← get
  modify fun c => { c with mid := c.mid + 1 }
  let info := Msg.fixHeader msg (c.header (Msg.CMD M))
  let frameOut ← lift (liftSmb (Msg.write msg info info.write))
  sendMessage frameOut c.mid

def hand (R : Type) [Reply R] (ticket : Ticket) (d : Delivery) : Fut Error Cifs R := do
  modify fun c => { c with history := { c.history with
    handed := c.history.handed ++ [⟨ticket.request, d⟩] } }
  lift (parseReply R d.reply)

def duplicateReply (mid : UInt16) : Error :=
  .InternalError s!"duplicate pending SMB reply for mid {mid}"

/-- `pending_replies.insert`; a message that lay there already is an error. -/
def putAside (d : Delivery) : Fut Error Cifs Unit := do
  let c ← get
  modify fun c => { c with
    pendingReplies := Function.update c.pendingReplies d.mid (some d) }
  if (c.pendingReplies d.mid).isSome then raise (duplicateReply d.mid) else pure ()

/-- The loop of `recv`, for at most `fuel` frames. -/
def recvLoop (R : Type) [Reply R] (ticket : Ticket) : ℕ → Fut Error Cifs R
  | 0 => drop
  | fuel + 1 => do
    let d ← recvFrame
    if d.mid = ticket.mid then hand R ticket d
    else do
      putAside d
      recvLoop R ticket fuel

def recv (R : Type) [Reply R] (ticket : Ticket) : Fut Error Cifs R := do
  let c ← get
  match c.pendingReplies ticket.mid with
  | some d => do
    modify fun c => { c with
      pendingReplies := Function.update c.pendingReplies ticket.mid none }
    hand R ticket d
  | none => recvLoop R ticket (c.netbios.incoming.length + 1)

def command {M : Type} (R : Type) [Msg M] [Reply R] (msg : M) : Fut Error Cifs R := do
  let ticket ← send msg
  recv R ticket

/-! ### Reads -/

structure StreamingWorkerReadRequest where
  offset : ℕ
  len : ℕ
  deriving DecidableEq, Repr

/-- `request.len.try_into()`. -/
def tryCount (len : ℕ) : Except Error UInt32 :=
  if len < 2 ^ 32 then .ok (UInt32.ofNat len) else .error Error.numericConversion

def recordRead (bytes : ℕ) : Fut Error Cifs Unit :=
  modify fun c => { c with ioStats := c.ioStats.recordRead bytes }

def readAt (file : Handle) (offset : ℕ) (count : UInt32) : Fut Error Cifs Bytes := do
  if count = 0 then pure []
  else do
    let reply ← command Reply.Read (Msg.Read.handle file (UInt64.ofNat offset) count)
    recordRead reply.data.length
    pure reply.data

def sendReads (file : Handle) : List StreamingWorkerReadRequest → Fut Error Cifs (List Ticket)
  | [] => pure []
  | request :: rest => do
    let count ← ofExcept (tryCount request.len)
    let ticket ← send (Msg.Read.handle file (UInt64.ofNat request.offset) count)
    let inFlight ← sendReads file rest
    pure (ticket :: inFlight)

def recvReads : List Ticket → Fut Error Cifs (List Bytes)
  | [] => pure []
  | ticket :: rest => do
    let reply ← recv Reply.Read ticket
    recordRead reply.data.length
    let chunks ← recvReads rest
    pure (reply.data :: chunks)

def readAtPipelined (file : Handle) :
    List StreamingWorkerReadRequest → Fut Error Cifs (List Bytes)
  | [] => pure []
  | [request] => do
    let count ← ofExcept (tryCount request.len)
    let chunk ← readAt file request.offset count
    pure [chunk]
  | requests => do
    let inFlight ← sendReads file requests
    recvReads inFlight

/-! ### Transactions -/

/-- The loop of `transact2`, for at most `fuel` messages. -/
def collect (ticket : Ticket) : ℕ → CollectTrans2 → Fut Error Cifs CollectTrans2
  | 0, _ => drop
  | fuel + 1, ctx => do
    let reply ← recv Reply.Transact2 ticket
    let (complete, ctx) ← lift (liftSmb (ctx.add reply))
    if complete then pure ctx else collect ticket fuel ctx

def transact2 {C : Type} (R : Type) [SubCmd C] [SubReply R] (tid : UInt16) (subcmd : C) :
    Fut Error Cifs R := do
  let ticket ← send (Msg.Transact2.mk tid subcmd)
  let c ← get
  let ctx ← collect ticket (c.netbios.incoming.length + 2) CollectTrans2.new
  lift (liftSmb (ctx.getSubreply R))

/-! ### Setting up a connection -/

/-- `From<ntlm::Error> for Error` under `?`. -/
def liftNtlm {α : Type} : Except (Fault Ntlm.Error) α → Except (Fault Error) α
  | .ok a => .ok a
  | .error f => .error (f.map .NTLMError)

def negotiate : Fut Error Cifs Reply.ServerSetup := command Reply.ServerSetup Msg.Negotiate.mk

def sessionSetup (user domain : String) (secret : Vector UInt8 24) :
    Fut Error Cifs Reply.SessionSetup :=
  command Reply.SessionSetup (Msg.SessionSetup.withAuth user domain secret)

def sessionSetupNtlmv2 (blob : Bytes) : Fut Error Cifs Reply.SessionSetup :=
  command Reply.SessionSetup (Msg.SessionSetup.withBlob blob)

variable (crypto : Ntlm.Crypto)

def authenticateNtlm (challenge : Bytes) : Fut Error Cifs Unit := do
  let auth := (← get).auth
  let secret ← lift (match auth.ntlmv1Authenticate crypto challenge with
    | .ok secret => .ok secret
    | .error _ => .error .panic)
  let setupReply ← sessionSetup auth.user auth.domain secret
  modify fun c => { c with uid := setupReply.uid }

def ntlmInitFlags : UInt32 :=
  Ntlm.Flags.UNICODE ||| Ntlm.Flags.OEM ||| Ntlm.Flags.REQUEST_TARGET ||| Ntlm.Flags.NTLM |||
    Ntlm.Flags.DOMAIN_SUPPLIED ||| Ntlm.Flags.WORKSTATION_SUPPLIED

def authenticateNtlmv2 : Fut Error Cifs Unit := do
  let auth := (← get).auth
  let ntlmInit ← lift (liftNtlm
    ((Ntlm.InitMsg.toBytes ntlmInitFlags auth.domain auth.workstation).mapError .error))
  let setupReply ← sessionSetupNtlmv2 ntlmInit
  modify fun c => { c with uid := setupReply.uid }
  let ntlmChallenge ← lift (liftNtlm (Ntlm.ChallengeMsg.parse setupReply.securityBlob))
  let ntlmResponse ← lift (liftNtlm ((ntlmChallenge.response crypto auth).mapError .error))
  let _ ← sessionSetupNtlmv2 ntlmResponse

def setupConnection : Fut Error Cifs Unit := do
  let serverSetup ← negotiate
  modify fun c => { c with
    maxSmbSize := serverSetup.maxBufferSize.toNat
    useUnicode := contains serverSetup.capabilities Capabilities.UNICODE }
  if contains serverSetup.capabilities Capabilities.EXTENDED_SECURITY then
    authenticateNtlmv2 crypto
  else authenticateNtlm crypto serverSetup.challenge

end Cifs

end CifsClientStream
