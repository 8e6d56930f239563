import CifsClientStream.Ntlm.Response
import CifsClientStream.Server.Files
import CifsClientStream.Smb.LoginReply

/-!
# Logging in (`setup_connection` of src/lib.rs)

A client on its TCP stream and a server that knows passwords. The server reads
the requests that got out and answers them; with extended security it sends a
challenge and checks the proof in the response, without it checks the answer of
the older version. What the two believe at the end agrees (`login_agrees`).
-/

namespace CifsClientStream.Server
open Cursor Async Smb Mailbox TcpCifs Utils Win
open Cifs (PendingReply parseReply)
open NetBios (events)

/-- Passwords by user and domain, the greeting, the challenge that is sent with extended security,
and the id that a client gets. The challenge of the greeting is one block if it is the one that
counts. -/
structure LoginServer where
  password : String → String → Option String
  hello : NegotiateReply
  challenge : Ntlm.Challenge
  uid : UInt16
  unicode : contains (hello.capabilities &&& Capabilities.all) Capabilities.UNICODE
  block : contains (hello.capabilities &&& Capabilities.all) Capabilities.EXTENDED_SECURITY ∨
    hello.challenge.length = 8

def LoginServer.extended (server : LoginServer) : Bool :=
  contains (server.hello.capabilities &&& Capabilities.all) Capabilities.EXTENDED_SECURITY

/-- Where a server is with a client. -/
inductive Phase where
  | waiting
  | greeted
  | challenged
  | granted (user domain : String)
  | refused

def Phase.Final : Phase → Prop
  | .granted _ _ => True
  | .refused => True
  | _ => False

inductive LoginAnswer where
  | hello
  | challenge (raw : Bytes)
  | granted
  | refused (status : Status)

/-- A message of type 1. -/
def IsInit (blob : Bytes) : Prop :=
  blob.take 8 = Ntlm.NTLMSSP_MAGIC ∧ u32At blob 8 = Ntlm.NTLM_MSG_INIT

/-- A message of type 2 that says what the server wants to say. -/
structure LoginServer.Challenges (server : LoginServer) (raw : Bytes) : Prop where
  fixed : server.challenge.fixedPart <+: raw
  target : Ntlm.Placed raw server.challenge.targetPosition.toNat server.challenge.rawTarget
  info : Ntlm.Placed raw server.challenge.infoPosition.toNat server.challenge.info

/-- A response proves that its sender knows the password of the user it names. -/
structure LoginServer.Believes (crypto : Ntlm.Crypto) (server : LoginServer) (blob : Bytes)
    (r : Ntlm.Response) : Prop where
  read : Ntlm.Response.parse (contains server.challenge.flags Ntlm.Flags.UNICODE) blob = .ok r
  proof : ∃ password, server.password r.user r.domain = some password ∧
    r.Proves crypto password server.challenge.challenge.toList server.challenge.info

/-- The same for the older version. -/
def LoginServer.BelievesClassic (crypto : Ntlm.Crypto) (server : LoginServer) (user domain : String)
    (secret : Vector UInt8 24) : Prop :=
  ∃ password, server.password user domain = some password ∧
    Ntlm.classicAnswer crypto password server.hello.challenge = .ok secret

/-- What a server answers. -/
inductive Admits (crypto : Ntlm.Crypto) (server : LoginServer) :
    Phase → Message → LoginAnswer → Phase → Prop
  | greets (m : Msg.Negotiate) : Admits crypto server .waiting (.negotiate m) .hello .greeted
  | challenges (m : Msg.SessionSetup) (blob raw : Bytes) : server.extended = true →
    m.mode = .extended blob → IsInit blob → server.Challenges raw →
      Admits crypto server .greeted (.sessionSetup m) (.challenge raw) .challenged
  | misunderstands (m : Msg.SessionSetup) (blob : Bytes) (status : Status) :
    server.extended = true → m.mode = .extended blob → ¬IsInit blob → Refuses status →
      Admits crypto server .greeted (.sessionSetup m) (.refused status) .refused
  | believes (m : Msg.SessionSetup) (blob : Bytes) (r : Ntlm.Response) : m.mode = .extended blob →
    server.Believes crypto blob r →
      Admits crypto server .challenged (.sessionSetup m) .granted (.granted r.user r.domain)
  | doubts (m : Msg.SessionSetup) (blob : Bytes) (status : Status) : m.mode = .extended blob →
    (∀ r, ¬server.Believes crypto blob r) → Refuses status →
      Admits crypto server .challenged (.sessionSetup m) (.refused status) .refused
  | believesClassic (m : Msg.SessionSetup) (user domain : String) (secret : Vector UInt8 24) :
    server.extended = false → m.mode = .classic user domain secret →
      server.BelievesClassic crypto user domain secret →
      Admits crypto server .greeted (.sessionSetup m) .granted (.granted user domain)
  | doubtsClassic (m : Msg.SessionSetup) (user domain : String) (secret : Vector UInt8 24)
    (status : Status) : server.extended = false → m.mode = .classic user domain secret →
      ¬server.BelievesClassic crypto user domain secret → Refuses status →
      Admits crypto server .greeted (.sessionSetup m) (.refused status) .refused

namespace LoginAnswer

def status : LoginAnswer → Status
  | challenge _ => .known .MORE_PROCESSING
  | refused status => status
  | _ => .known .SUCCESS

/-- The header of the reply has the id of the client. -/
def Assigns : LoginAnswer → Prop
  | challenge _ => True
  | granted => True
  | _ => False

/-- What stands behind the header, up to what the client does not look at. -/
inductive Body (server : LoginServer) : LoginAnswer → Bytes → Prop
  | hello (rest : Bytes) : Body server .hello (server.hello.body rest)
  | challenge (raw rest : Bytes) (reply : SetupReply) : reply.blob = some raw →
      Body server (.challenge raw) (reply.body rest)
  | granted (reply : SetupReply) (rest : Bytes) : Body server .granted (reply.body rest)
  | refused (status : Status) (body : Bytes) : Body server (.refused status) body

/-- A message that gives the answer to a request. -/
structure Written (server : LoginServer) (a : LoginAnswer) (request info : Info) (body : Bytes) :
    Prop where
  canonical : info.Canonical
  cmd : info.cmd = request.cmd
  mid : info.mid = request.mid
  status : info.status = a.status
  uid : a.Assigns → info.uid = server.uid
  body : a.Body server body

end LoginAnswer

/-- The server reads requests and answers them. -/
inductive Admitted (crypto : Ntlm.Crypto) (server : LoginServer) :
    Phase → List Bytes → List Bytes → Phase → Prop
  | nil (phase : Phase) : Admitted crypto server phase [] [] phase
  | cons {phase phase1 phase' : Phase} {frame body : Bytes} {frames raws : List Bytes}
    {a : LoginAnswer} {request info : Info} {m : Message} :
    Message.parse frame = .ok (request, m) → Admits crypto server phase m a phase1 →
      a.Written server request info body → Admitted crypto server phase1 frames raws phase' →
      Admitted crypto server phase (frame :: frames) ((info.write ++ body) :: raws) phase'

/-- What arrives, and in which frames; how much each write takes and what becomes of the writer
then; where the server is in the end, and which of its replies have not arrived. -/
structure LoginEvent where
  arrivals : List NetBios.Arrival
  frames : List Cifs.Arrival
  room : List ℕ
  blocked : Option IoErrorKind
  phase : Phase
  transit : List Bytes

section

variable (crypto : Ntlm.Crypto) (server : LoginServer) (auth : Ntlm.Auth) (e : LoginEvent)

/-- A new client, with all that will arrive. -/
def LoginEvent.begin : TcpCifs :=
  { TcpCifs.fresh auth with
    netbios := { incoming := e.arrivals, room := e.room, blocked := e.blocked, written := [] } }

def LoginEvent.result : EStateM.Result (Stop CifsClientStream.Error) TcpCifs Unit :=
  TcpCifs.setupConnection crypto (e.begin auth)

def LoginEvent.client : TcpCifs := endState (e.result crypto auth)

/-- A client and the server. The names in a request of the older version end at a zero. -/
structure LogsIn : Prop where
  plain : server.extended = false → '\x00' ∉ auth.user.toList ∧ '\x00' ∉ auth.domain.toList
  carries : Carries false (events e.arrivals) e.frames
  served : ∃ raws, Admitted crypto server .waiting (wholeFrames (e.client crypto auth).outbox) raws e.phase ∧
    raws.Perm (messages e.frames ++ e.transit)

end

/-! ### Ids -/

/-- At most `n` requests are sent. -/
def SendsAtMost {α : Type} (n : ℕ) (x : Fut CifsClientStream.Error TcpCifs α) : Prop :=
  ∀ s, (endState (x s)).sends ≤ s.sends + n

section

variable {α β : Type} {x : Fut CifsClientStream.Error TcpCifs α}
  {f : α → Fut CifsClientStream.Error TcpCifs β} {n m : ℕ}

theorem SendsAtMost.of_still (h : Moves Still x) : SendsAtMost 0 x := by
  intro s
  have hsends := (h s).sends
  omega

theorem SendsAtMost.bind (hx : SendsAtMost n x) (hf : ∀ a, SendsAtMost m (f a)) :
    SendsAtMost (n + m) (x >>= f) := by
  intro s
  have hfirst := hx s
  rw [fut_bind]
  cases hrun : x s with
  | ok a s1 =>
    rw [hrun] at hfirst
    have hsecond := hf a s1
    simp only [endState] at hfirst hsecond ⊢
    omega
  | error e s1 =>
    rw [hrun] at hfirst
    simp only [endState] at hfirst ⊢
    omega

theorem SendsAtMost.mono (h : SendsAtMost n x) (hle : n ≤ m) : SendsAtMost m x :=
  fun s => (h s).trans (Nat.add_le_add_left hle _)

end

theorem sendMessage_sends (frame : Bytes) : SendsAtMost 0 (sendMessage frame) := by
  intro s
  rw [sendMessage]
  cases (NetBios.Frame.Message frame).encode with
  | error e => exact le_rfl
  | ok encoding =>
    dsimp only
    cases NetBios.writeExactly encoding s.netbios with
    | ok _ netbios => exact le_rfl
    | error e netbios => exact le_rfl

theorem send_sends {M : Type} [Msg M] {msg : M} {m : Message} (h : IsMessage msg m) :
    SendsAtMost 1 (send msg) := by
  intro s
  have hlift (frame : Except (Fault CifsClientStream.Error) Bytes) :
      SendsAtMost 0 (lift frame : Fut CifsClientStream.Error TcpCifs Bytes) :=
    .of_still (Moves.lift still_chain frame)
  have hpure : SendsAtMost 0 (pure s.mid : Fut CifsClientStream.Error TcpCifs UInt16) :=
    .of_still (Moves.pure still_chain s.mid)
  rw [send_eq h]
  exact ((hlift _).bind fun frame => (sendMessage_sends frame).bind fun _ => hpure) s.counted

theorem command_sends {M : Type} (R : Type) [Msg M] [Reply R] {msg : M} {m : Message}
    (h : IsMessage msg m) : SendsAtMost 1 (command R msg) :=
  (send_sends h).bind fun mid => .of_still (recv_moves still_receives R mid)

theorem setup_sends (crypto : Ntlm.Crypto) : SendsAtMost 3 (setupConnection crypto) := by
  have hsetup (msg : Msg.SessionSetup) : SendsAtMost 1 (command Reply.SessionSetup msg) :=
    command_sends _ (isMessage_fold (.sessionSetup msg))
  have hnegotiate : SendsAtMost 1 negotiate := command_sends _ (isMessage_fold (.negotiate ⟨⟩))
  have hget : SendsAtMost 0 (get : Fut CifsClientStream.Error TcpCifs TcpCifs) :=
    .of_still (Moves.get still_chain)
  have hlift {α : Type} (r : Except (Fault CifsClientStream.Error) α) :
      SendsAtMost 0 (lift r : Fut CifsClientStream.Error TcpCifs α) :=
    .of_still (Moves.lift still_chain r)
  have huid (uid : UInt16) : SendsAtMost 0
      (modify fun c => { c with uid } : Fut CifsClientStream.Error TcpCifs PUnit) :=
    .of_still (Moves.modify fun _ => ⟨rfl, rfl, rfl, rfl⟩)
  have hclassic (challenge : Bytes) :
      SendsAtMost (0 + (0 + (1 + 0))) (authenticateNtlm crypto challenge) :=
    hget.bind fun _ => (hlift _).bind fun _ => (hsetup _).bind fun reply => huid reply.uid
  have hextended : SendsAtMost (0 + (0 + (1 + (0 + (0 + (0 + (1 + 0))))))) (authenticateNtlmv2 crypto) :=
    hget.bind fun _ => (hlift _).bind fun _ => (hsetup _).bind fun reply => (huid reply.uid).bind fun _ =>
      (hlift _).bind fun _ => (hlift _).bind fun _ => (hsetup _).bind fun _ =>
        .of_still (Moves.pure still_chain _)
  have hall : SendsAtMost (1 + (0 + 2)) (setupConnection crypto) := by
    refine hnegotiate.bind fun reply => SendsAtMost.bind
      (.of_still (Moves.modify fun _ => ⟨rfl, rfl, rfl, rfl⟩)) fun _ => ?_
    split
    · exact hextended
    · exact (hclassic _).mono (by decide)
  exact hall

/-- The id in the header of a request. -/
def requestMid (frame : Bytes) : UInt16 :=
  match Request.header frame with
  | .ok (request, _) => request.mid
  | .error _ => 0

variable {crypto : Ntlm.Crypto} {server : LoginServer} {auth : Ntlm.Auth} {e : LoginEvent}
variable {phase phase' : Phase} {frames raws : List Bytes}

theorem Admitted.mids (h : Admitted crypto server phase frames raws phase') :
    (raws.filterMap understood).map replyMid = frames.map requestMid := by
  induction h with
  | nil => rfl
  | @cons _ _ _ frame body _ _ _ request info m hparse _ hwritten _ ih =>
    obtain ⟨rest, hheader⟩ := Message.parse_header hparse
    simp [understood_write hwritten.canonical body, ih, requestMid, hheader, replyMid, hwritten.mid]

theorem account_mids {c : TcpCifs} (hc : Account c) (hfew : c.sends ≤ 65536) :
    ((wholeFrames c.outbox).map requestMid).Nodup := by
  have hmid {o : Outgoing} (ho : o ∈ c.outbox) : requestMid o.frame = UInt16.ofNat o.number := by
    obtain ⟨m, info, hholds⟩ := (hc.sound o ho).request
    obtain ⟨body, hheader⟩ := Message.write_header hholds.status hholds.written
    simp [requestMid, hheader, hholds.mid]
  have hapart : c.outbox.Pairwise fun a b => requestMid a.frame ≠ requestMid b.frame := by
    refine hc.order.imp_of_mem fun ha hb hless heq => ?_
    rw [hmid ha, hmid hb] at heq
    have hbelow := hc.below _ hb
    have hval := congrArg UInt16.toNat heq
    rw [UInt16.toNat_ofNat_of_lt' (by simp [UInt16.size]; omega),
      UInt16.toNat_ofNat_of_lt' (by simp [UInt16.size]; omega)] at hval
    omega
  rw [wholeFrames, List.map_map, List.Nodup, List.pairwise_map]
  exact hapart.filter _

theorem begin_account : Account (e.begin auth) where
  written := rfl
  mid := rfl
  below := nofun
  order := .nil
  sound := nofun

theorem account_after {α : Type} {x : Fut CifsClientStream.Error TcpCifs α} (hx : Accounts x)
    {c : TcpCifs} (hc : Account c) :
    Account (endState (x c)) ∧ ∃ new, (endState (x c)).outbox = c.outbox ++ new := by
  have hends := hx.ends c hc
  unfold Ends at hends
  cases hrun : x c with
  | ok a c' =>
    rw [hrun] at hends
    obtain ⟨haccount, new, hnew, -⟩ := hends
    exact ⟨haccount, new, hnew⟩
  | error stop c' =>
    rw [hrun] at hends
    obtain ⟨haccount, new, hnew, -⟩ := hends
    exact ⟨haccount, new, hnew⟩

theorem client_account : Account (e.client crypto auth) :=
  (account_after (setupConnection_accounts crypto) begin_account).1

theorem client_sends : (e.client crypto auth).sends ≤ 3 := setup_sends crypto (e.begin auth)

/-- No two of the replies come under one id. -/
theorem replies_mids {raws : List Bytes}
    (hserved : Admitted crypto server .waiting (wholeFrames (e.client crypto auth).outbox) raws e.phase) :
    ((raws.filterMap understood).map replyMid).Nodup := by
  rw [hserved.mids]
  have hfew : (e.client crypto auth).sends ≤ 3 := client_sends
  exact account_mids client_account (by omega)

/-! ### One request -/

/-- What a request and its reply leave as they are. -/
structure Same (s s' : TcpCifs) : Prop where
  auth : s'.auth = s.auth
  uid : s'.uid = s.uid
  maxSmbSize : s'.maxSmbSize = s.maxSmbSize
  useUnicode : s'.useUnicode = s.useUnicode

theorem same_receives : Receives Same where
  chain := ⟨fun _ => ⟨rfl, rfl, rfl, rfl⟩, fun _ _ _ h h' =>
    ⟨h'.auth.trans h.auth, h'.uid.trans h.uid, h'.maxSmbSize.trans h.maxSmbSize,
      h'.useUnicode.trans h.useUnicode⟩⟩
  read _ _ _ := ⟨rfl, rfl, rfl, rfl⟩
  stored _ _ := ⟨rfl, rfl, rfl, rfl⟩
  recorded _ _ := ⟨rfl, rfl, rfl, rfl⟩

theorem sendMessage_same (frame : Bytes) : Moves Same (sendMessage frame) := by
  intro s
  rw [sendMessage]
  cases (NetBios.Frame.Message frame).encode with
  | error e => exact ⟨rfl, rfl, rfl, rfl⟩
  | ok encoding =>
    dsimp only
    cases NetBios.writeExactly encoding s.netbios with
    | ok _ netbios => exact ⟨rfl, rfl, rfl, rfl⟩
    | error e netbios => exact ⟨rfl, rfl, rfl, rfl⟩

theorem send_same {M : Type} [Msg M] {msg : M} {m : Message} (h : IsMessage msg m) :
    Moves Same (send msg) := by
  intro s
  have hchain := same_receives.chain
  have hcounted : Same s s.counted := ⟨rfl, rfl, rfl, rfl⟩
  rw [send_eq h]
  exact hchain.trans _ _ _ hcounted (((Moves.lift hchain _).bind hchain fun frame =>
    (sendMessage_same frame).bind hchain fun _ => Moves.pure hchain s.mid) s.counted)

/-- Between two requests: `left` is what the client has not read, `frames` are the requests that
will still get out, and nothing is outstanding but the replies to them. -/
structure Standing (crypto : Ntlm.Crypto) (server : LoginServer) (e : LoginEvent) (client : TcpCifs)
    (phase : Phase) (s : TcpCifs) (left : List Cifs.Arrival) (frames raws : List Bytes) : Prop where
  account : Account s
  unicode : s.useUnicode = true
  ahead : ∃ new, client.outbox = s.outbox ++ new ∧ wholeFrames new = frames
  admitted : Admitted crypto server phase frames raws e.phase
  carries : Carries false (events s.netbios.incoming) left
  quiet : Quiet e.frames → Quiet left
  owed : ∀ k, outstanding replyMid (held s left) (e.transit.filterMap understood) k =
    (raws.filterMap understood).filter fun p => replyMid p = k
  nodup : ((raws.filterMap understood).map replyMid).Nodup

/-- The client stops between its request and the reply. -/
structure Stops (crypto : Ntlm.Crypto) (server : LoginServer) (e : LoginEvent) (phase : Phase)
    (m : Message) (stop : Stop CifsClientStream.Error) : Prop where
  isLocal : Local stop
  phase : e.phase = phase ∨ (∃ a, Admits crypto server phase m a e.phase) ∧
    (Quiet e.frames → e.transit ≠ [])

variable {client s : TcpCifs} {left : List Cifs.Arrival}

theorem Standing.single (h : Standing crypto server e client phase s left frames raws) (k : UInt16) :
    (queued replyMid (held s left) k).length ≤ 1 := by
  have hone : (outstanding replyMid (held s left) (e.transit.filterMap understood) k).length ≤ 1 := by
    rw [h.owed k]
    exact filter_single replyMid _ h.nodup k
  exact queued_outstanding replyMid hone

theorem Standing.command {M R : Type} [Msg M] [Reply R] {msg : M} {m : Message}
    {f : R → Fut CifsClientStream.Error TcpCifs Unit} (hmsg : IsMessage msg m) (hplain : m.Plain)
    (hf : ∀ r, Accounts (f r)) (h : Standing crypto server e client phase s left frames raws)
    (hclient : client = endState ((TcpCifs.command R msg >>= f) s)) :
    (∃ stop, (TcpCifs.command R msg >>= f) s = .error stop client ∧
      Stops crypto server e phase m stop) ∨
    ∃ a phase1 request info body s1 left1 frames1 raws1,
      Admits crypto server phase m a phase1 ∧ m.Heads request ∧ a.Written server request info body ∧
      Same s s1 ∧ (TcpCifs.command R msg >>= f) s =
        ((lift (parseReply R ⟨info, body⟩) : Fut CifsClientStream.Error TcpCifs R) >>= f) s1 ∧
      Standing crypto server e client phase1 s1 left1 frames1 raws1 := by
  obtain ⟨s1, hsend, -⟩ := send_put hmsg s h.unicode
  have hstart : (TcpCifs.command R msg >>= f) s = (send msg >>= fun mid => recv R mid >>= f) s := by
    rw [TcpCifs.command, bind_assoc]
  obtain ⟨new, hnew, hframes⟩ := h.ahead
  rcases hsend with ⟨frame, hok, hput, hasks⟩ | ⟨stop, herror, hlocal, hput⟩
  · have hrun : (TcpCifs.command R msg >>= f) s = (recv R s.mid >>= f) s1 := by
      rw [hstart, fut_bind, hok]
    have haccount : Account s1 := by
      have hafter := (account_after (send_accounts hmsg) h.account).1
      rw [hok] at hafter
      exact hafter
    have htail : Accounts (recv R s.mid >>= f) :=
      (Accounts.of_still (recv_moves still_receives R s.mid)).bind hf
    obtain ⟨new0, hnew0, hwhole⟩ := hput.outbox
    obtain ⟨-, new1, hnew1⟩ := account_after htail haccount
    rw [← hrun, ← hclient] at hnew1
    have hcons : frames = frame :: wholeFrames new1 := by
      have hsplit : new = new0 ++ new1 := by
        rw [hnew1, hnew0, List.append_assoc] at hnew
        exact (List.append_cancel_left hnew).symm
      rw [← hframes, hsplit, wholeFrames_append, hwhole]
      rfl
    have hadmitted := h.admitted
    have howed := h.owed
    have hnodup := h.nodup
    rw [hcons] at hadmitted
    cases hadmitted with
    | @cons _ phase1 _ _ body _ raws1 a request info m' hparse hadmits hwritten hmore =>
    obtain ⟨header, hheads, hmid, hwrite⟩ := hasks
    rw [Message.parse_write hplain hheads hwrite] at hparse
    obtain ⟨rfl, rfl⟩ := Prod.mk.inj (Except.ok.inj hparse)
    have hid : replyMid ⟨info, body⟩ = s.mid := hwritten.mid.trans hmid
    have hreplies : ((info.write ++ body) :: raws1).filterMap understood =
        ⟨info, body⟩ :: raws1.filterMap understood := by
      simp [understood_write hwritten.canonical body]
    rw [hreplies] at howed hnodup
    have hheld : held s1 left = held s left := by rw [held, held, hput.kept.pendingReplies]
    have hcarries : Carries false (events s1.netbios.incoming) left := by
      rw [hput.kept.incoming]
      exact h.carries
    obtain ⟨s2, rest, hreceived⟩ := recv_held R s.mid hcarries fun k _ => by
      rw [hheld]
      exact h.single k
    have hmine := howed s.mid
    rw [← hid, filter_key replyMid _ hnodup _ List.mem_cons_self, hid, outstanding, ← hheld] at hmine
    have hothers {k : UInt16} (hk : k ≠ s.mid) :
        outstanding replyMid (held s2 rest) (e.transit.filterMap understood) k =
          (raws1.filterMap understood).filter fun p => replyMid p = k := by
      have hne : ¬replyMid ⟨info, body⟩ = k := fun heq => hk (heq.symm.trans hid)
      have hbefore := howed k
      rw [List.filter_cons_of_neg (by simpa using hne), outstanding, ← hheld,
        ← hreceived.others k hk] at hbefore
      exact hbefore
    rw [List.map_cons, List.nodup_cons] at hnodup
    have hsuffix (hquiet : Quiet e.frames) : Quiet rest := (h.quiet hquiet).suffix hreceived.suffix
    rcases hreceived.ends with ⟨p, hgot, hqueue⟩ | ⟨stop, hstop, hlocal, hsame, hempty⟩
    · rw [hqueue, List.cons_append] at hmine
      obtain ⟨rfl, hrest⟩ := List.cons.inj hmine
      have hend : endState (recv R s.mid s1) = s2 := by
        rw [hgot]
        cases parseReply R ⟨info, body⟩ with
        | ok r => rfl
        | error fault => cases fault <;> rfl
      have hstill : Still s1 s2 := hend ▸ recv_moves still_receives R s.mid s1
      have hsame : Same s s2 := by
        have hsent := send_same hmsg s
        rw [hok] at hsent
        exact same_receives.chain.trans _ _ _ hsent (hend ▸ recv_moves same_receives R s.mid s1)
      refine Or.inr ⟨a, phase1, header, info, body, s2, rest, wholeFrames new1, raws1, hadmits, hheads,
        hwritten, hsame, ?_, hstill.account haccount, ?_, ⟨new1, ?_, rfl⟩, hmore, hreceived.carries, hsuffix,
        fun k => ?_, hnodup.2⟩
      · rw [hrun, fut_bind, hgot, fut_bind]
      · rw [hreceived.waited.useUnicode, hput.kept.useUnicode, h.unicode]
      · rw [hnew1, hreceived.waited.outbox]
      · by_cases hk : k = s.mid
        · have hnone : ((raws1.filterMap understood).filter fun p => replyMid p = k) = [] := by
            simp only [List.filter_eq_nil_iff, decide_eq_true_eq]
            rintro p hp rfl
            exact hnodup.1 (hid.trans hk.symm ▸ List.mem_map_of_mem hp)
          rw [hnone, outstanding, hk, hrest]
        · exact hothers hk
    · have hend : (TcpCifs.command R msg >>= f) s = .error stop s2 := by
        rw [hrun, fut_bind, hstop]
      rw [hend] at hclient
      have hlast : new1 = [] := by
        have hbox : client.outbox = s1.outbox := by
          rw [hclient, ← hreceived.waited.outbox]
          rfl
        rw [hbox] at hnew1
        exact List.append_right_eq_self.mp hnew1.symm
      rw [hlast] at hmore
      refine Or.inl ⟨stop, ?_, hlocal, Or.inr ⟨⟨a, ?_⟩, fun hquiet htransit => ?_⟩⟩
      · rw [hend, hclient]
        rfl
      · cases hmore
        exact hadmits
      · rw [hempty (h.quiet hquiet), htransit] at hmine
        cases hmine
  · have hrun : (TcpCifs.command R msg >>= f) s = .error stop s1 := by
      rw [hstart, fut_bind, herror]
    rw [hrun] at hclient
    obtain ⟨new0, hnew0, hwhole⟩ := hput.outbox
    have hnone : frames = [] := by
      have hsplit : new0 = new := by
        have hend : client.outbox = s.outbox ++ new0 := by rw [hclient, ← hnew0]; rfl
        exact List.append_cancel_left (hend.symm.trans hnew)
      rw [← hframes, ← hsplit, hwhole]
    have hadmitted := h.admitted
    rw [hnone] at hadmitted
    refine Or.inl ⟨stop, ?_, hlocal, Or.inl ?_⟩
    · rw [hrun, hclient]
      rfl
    · cases hadmitted
      rfl

end CifsClientStream.Server
