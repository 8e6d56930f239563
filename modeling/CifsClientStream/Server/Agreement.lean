import CifsClientStream.Cifs.Setup
import CifsClientStream.Server.Link
import CifsClientStream.Server.Login

/-!
# What a login comes to (`setup_connection` of src/lib.rs)

The handshake is two or three requests, each made from the reply to the one
before. A client whose login returns was let in as the user it is, a client
that is refused was refused, and a server does not refuse a client that knows
the password (`login_agrees`).
-/

namespace CifsClientStream.Server
open Cursor Async Smb Mailbox TcpCifs Utils Win
open Cifs (PendingReply parseReply parseReply_success parseReply_taken liftNtlm ntlmInitFlags silentCrypto)
open NetBios (events)

/-! ### The requests of the client -/

theorem init_isInit {flags : UInt32} {domain workstation : String} {out : Bytes}
    (h : Ntlm.InitMsg.toBytes flags domain workstation = .ok out) : IsInit out := by
  have hbuild : Ntlm.InitMsg.toBytes flags domain workstation = (Ntlm.Packet.build
      [.binary Ntlm.NTLMSSP_MAGIC, .u32 Ntlm.NTLM_MSG_INIT, .u32 flags, .buffer (asBytes domain),
        .buffer (asBytes workstation), .binary Ntlm.defaultVersion]).toBytes := rfl
  generalize hcalls : ([.binary Ntlm.NTLMSSP_MAGIC, .u32 Ntlm.NTLM_MSG_INIT, .u32 flags,
    .buffer (asBytes domain), .buffer (asBytes workstation), .binary Ntlm.defaultVersion] :
      List Ntlm.Append) = calls at hbuild
  by_cases hdeclares : Ntlm.Declares (Ntlm.fixedLength calls) calls
  · rw [hbuild, Ntlm.toBytes_ok hdeclares] at h
    rw [← Except.ok.inj h, ← hcalls]
    exact ⟨rfl, rfl⟩
  · rw [hbuild, Ntlm.toBytes_error hdeclares] at h
    cases h

variable {crypto : Ntlm.Crypto} {server : LoginServer} {auth : Ntlm.Auth} {e : LoginEvent}
variable {phase phase1 : Phase} {a : LoginAnswer} {frames raws : List Bytes} {request info : Info}
  {body : Bytes}

/-- The challenge as the client has it. -/
def LoginServer.challengeMsg (server : LoginServer) : Ntlm.ChallengeMsg where
  target := server.challenge.target
  flags := server.challenge.flags &&& Ntlm.Flags.all
  challenge := server.challenge.challenge.toList
  info := server.challenge.info

theorem LoginServer.Challenges.parsed {raw : Bytes} (h : server.Challenges raw) :
    Ntlm.ChallengeMsg.parse raw = .ok server.challengeMsg := by
  obtain ⟨rest, hraw⟩ := h.fixed
  have hfields := server.challenge.fields_eq rest
  rw [hraw] at hfields
  rw [Ntlm.ChallengeMsg.parse, hfields]
  change (Ntlm.Buffer.extractString _ raw (contains (server.challenge.flags &&& Ntlm.Flags.all)
    Ntlm.Flags.UNICODE) >>= _) = _
  rw [Ntlm.contains_truncated, Ntlm.Buffer.extractString_placed _ _ h.target rfl]
  change (Ntlm.Buffer.extract _ raw >>= _) = _
  rw [Ntlm.Buffer.extract_placed h.info rfl]
  rfl

/-- The last answer of a server to a client: it lets the client in as who it is, or it does not
know the password of the client. -/
inductive Verdict (server : LoginServer) (auth : Ntlm.Auth) : LoginAnswer → Phase → Prop
  | granted : Verdict server auth .granted (.granted auth.user auth.domain)
  | refused (status : Status) : Refuses status →
    server.password auth.user auth.domain ≠ some auth.password →
      Verdict server auth (.refused status) .refused

theorem Admits.response {ntlmResponse : Bytes}
    (hresponse : server.challengeMsg.response crypto auth = .ok ntlmResponse)
    (h : Admits crypto server .challenged (.sessionSetup (.withBlob ntlmResponse)) a phase1) :
    Verdict server auth a phase1 := by
  have hparsed := Ntlm.response_parsed hresponse
  have hcharset : contains server.challengeMsg.flags Ntlm.Flags.UNICODE =
      contains server.challenge.flags Ntlm.Flags.UNICODE := Ntlm.contains_truncated _
  rw [hcharset] at hparsed
  cases h with
  | believes _ blob r hmode hbelieves =>
    cases hmode
    obtain rfl := Except.ok.inj (hparsed.symm.trans hbelieves.read)
    exact .granted
  | doubts _ blob status hmode hdoubts hrefuses =>
    cases hmode
    refine .refused status hrefuses fun hpassword => hdoubts _ ⟨hparsed, auth.password, hpassword, ?_⟩
    exact Ntlm.response_proves crypto server.challengeMsg auth auth.workstation

theorem Admits.classic {secret : Vector UInt8 24} (hclassic : server.extended = false)
    (hsecret : auth.ntlmv1Authenticate crypto server.hello.challenge = .ok secret)
    (h : Admits crypto server .greeted (.sessionSetup (.withAuth auth.user auth.domain secret)) a phase1) :
    Verdict server auth a phase1 := by
  rw [Ntlm.classicAnswer_auth] at hsecret
  cases h with
  | challenges _ blob raw hextended =>
    rw [hclassic] at hextended
    cases hextended
  | misunderstands _ blob status hextended =>
    rw [hclassic] at hextended
    cases hextended
  | believesClassic _ user domain secret _ hmode hbelieves =>
    cases hmode
    exact .granted
  | doubtsClassic _ user domain secret status _ hmode hdoubts hrefuses =>
    cases hmode
    exact .refused status hrefuses fun hpassword => hdoubts ⟨auth.password, hpassword, hsecret⟩

/-! ### The replies at the client -/

theorem LoginAnswer.Written.hello_parsed (h : LoginAnswer.Written server .hello request info body)
    (hcmd : request.cmd = .Negotiate) :
    parseReply Reply.ServerSetup ⟨info, body⟩ = .ok server.hello.setup := by
  cases h.body with
  | hello rest =>
    exact parseReply_success Reply.ServerSetup (h.cmd.trans hcmd) h.status (server.hello.parse_body info rest)

theorem LoginAnswer.Written.challenge_parsed {raw : Bytes}
    (h : LoginAnswer.Written server (.challenge raw) request info body)
    (hcmd : request.cmd = .SessionSetup) :
    ∃ answer, parseReply Reply.SessionSetup ⟨info, body⟩ = .ok answer ∧ answer.uid = server.uid ∧
      answer.securityBlob = raw := by
  have hinfo := h.cmd.trans hcmd
  cases h.body with
  | challenge _ rest reply hblob =>
    refine ⟨reply.answer info.uid, parseReply_taken Reply.SessionSetup hinfo (Or.inr ⟨hinfo, h.status⟩)
      (reply.parse_body info rest), h.uid trivial, ?_⟩
    rw [SetupReply.answer, hblob]
    rfl

/-- The client gets the verdict of the server. -/
theorem Verdict.parsed (hverdict : Verdict server auth a phase1)
    (h : a.Written server request info body) (hcmd : request.cmd = .SessionSetup) :
    (phase1 = .granted auth.user auth.domain ∧ ∃ answer,
      parseReply Reply.SessionSetup ⟨info, body⟩ = .ok answer ∧ answer.uid = server.uid) ∨
    (phase1 = .refused ∧ server.password auth.user auth.domain ≠ some auth.password ∧
      parseReply Reply.SessionSetup ⟨info, body⟩ = .error (.error (.ServerError info.status))) := by
  have hinfo := h.cmd.trans hcmd
  have hstatus := h.status
  cases hverdict with
  | granted =>
    cases h.body with
    | granted reply rest =>
      exact Or.inl ⟨rfl, reply.answer info.uid,
        parseReply_success Reply.SessionSetup hinfo hstatus (reply.parse_body info rest), h.uid trivial⟩
  | refused status hrefuses hpassword =>
    have hrefused : Refuses info.status := by
      rw [hstatus]
      exact hrefuses
    exact Or.inr ⟨rfl, hpassword, parseReply_refused Reply.SessionSetup hinfo hrefused⟩

/-! ### From the beginning to the end -/

variable {client s s' : TcpCifs} {left : List Cifs.Arrival}

theorem Admitted.understood {phase' : Phase} (h : Admitted crypto server phase frames raws phase') :
    ∀ raw ∈ raws, (understood raw).isSome := by
  induction h with
  | nil => exact nofun
  | @cons _ _ _ _ body _ _ _ _ info _ _ _ hwritten _ ih =>
    intro raw hraw
    rcases List.mem_cons.mp hraw with rfl | hraw
    · simp [understood_write hwritten.canonical body]
    · exact ih raw hraw

theorem perm_single {α : Type} {xs ys : List α} (h : xs.Perm ys) (hone : ys.length ≤ 1) : xs = ys := by
  match ys with
  | [] => exact h.eq_nil
  | [y] => exact List.perm_singleton.mp h
  | _ :: _ :: _ => simp at hone

theorem LogsIn.standing (h : LogsIn crypto server auth e) :
    ∃ frames raws, Standing crypto server e (e.client crypto auth) .waiting (e.begin auth) e.frames
      frames raws ∧ ∀ raw ∈ e.transit, (understood raw).isSome := by
  obtain ⟨raws, hserved, hperm⟩ := h.served
  have hnodup := replies_mids hserved
  refine ⟨_, raws, ⟨begin_account, rfl, ⟨_, (List.nil_append _).symm, rfl⟩, hserved, h.carries, id,
    fun k => ?_, hnodup⟩, fun raw hraw => hserved.understood raw ?_⟩
  · have hkeys : (outstanding replyMid (held (e.begin auth) e.frames) (e.transit.filterMap understood) k).Perm
        ((raws.filterMap understood).filter fun p => replyMid p = k) := by
      have hmapped := ((hperm.filterMap understood).filter fun p => replyMid p = k).symm
      rw [List.filterMap_append, List.filter_append] at hmapped
      exact hmapped
    exact perm_single hkeys (filter_single replyMid _ hnodup k)
  · exact (hperm.mem_iff).mpr (List.mem_append_right _ hraw)

/-- The client goes on without a request. -/
theorem Standing.same (h : Standing crypto server e client phase s left frames raws) (hstill : Still s s')
    (hunicode : s'.useUnicode = true) (hincoming : s'.netbios.incoming = s.netbios.incoming)
    (hpending : s'.pendingReplies = s.pendingReplies) :
    Standing crypto server e client phase s' left frames raws where
  account := hstill.account h.account
  unicode := hunicode
  ahead := by
    rw [hstill.outbox]
    exact h.ahead
  admitted := h.admitted
  carries := by
    rw [hincoming]
    exact h.carries
  quiet := h.quiet
  owed := by
    rw [held, hpending]
    exact h.owed
  nodup := h.nodup

theorem Standing.ended (h : Standing crypto server e client phase s left frames raws)
    (hclient : client.outbox = s.outbox) (hsane : ∀ raw ∈ e.transit, (understood raw).isSome) :
    e.phase = phase ∧ s.pendingReplies = (fun _ => none) ∧ e.transit = [] := by
  obtain ⟨new, hnew, hframes⟩ := h.ahead
  have hnone : new = [] := by
    rw [hclient] at hnew
    exact List.append_right_eq_self.mp hnew.symm
  have hadmitted := h.admitted
  rw [← hframes, hnone] at hadmitted
  have howed := h.owed
  cases hadmitted
  refine ⟨rfl, funext fun k => ?_, ?_⟩
  · have hk := howed k
    simp only [List.filterMap_nil, List.filter_nil, outstanding, queued, held, List.append_eq_nil_iff,
      Option.toList_eq_nil_iff] at hk
    exact hk.1.1
  · cases htransit : e.transit with
    | nil => rfl
    | cons raw rest =>
      have hraw : raw ∈ e.transit := by simp [htransit]
      obtain ⟨p, hp⟩ := Option.isSome_iff_exists.mp (hsane raw hraw)
      have hmem : p ∈ e.transit.filterMap understood := List.mem_filterMap.mpr ⟨raw, hraw, hp⟩
      have hway : p ∈ (e.transit.filterMap understood).filter fun q => replyMid q = replyMid p :=
        List.mem_filter.mpr ⟨hmem, by simp⟩
      have hk := howed (replyMid p)
      rw [List.filterMap_nil, List.filter_nil, outstanding, List.append_eq_nil_iff] at hk
      rw [hk.2] at hway
      cases hway

/-! ### What the two believe -/

/-- A client that takes itself for logged in. -/
structure LoggedIn (server : LoginServer) (e : LoginEvent) (c : TcpCifs) : Prop where
  uid : c.uid = server.uid
  maxSmbSize : c.maxSmbSize = server.hello.maxBufferSize.toNat
  useUnicode : c.useUnicode = true
  pendingReplies : c.pendingReplies = fun _ => none
  transit : e.transit = []

/-- Where the server is in the end, and how the client's login has ended. -/
structure Agrees (server : LoginServer) (auth : Ntlm.Auth) (e : LoginEvent)
    (result : EStateM.Result (Stop CifsClientStream.Error) TcpCifs Unit) : Prop where
  loggedIn : ∀ c, result = .ok ⟨⟩ c → e.phase = .granted auth.user auth.domain ∧ LoggedIn server e c
  denied : ∀ status c, result = .error (.error (.ServerError status)) c → e.phase = .refused
  known : server.password auth.user auth.domain = some auth.password → e.phase ≠ .refused
  settled : e.phase.Final → Quiet e.frames → e.transit = [] →
    (∃ c, result = .ok ⟨⟩ c) ∨ ∃ status c, result = .error (.error (.ServerError status)) c

/-- The client has stopped for itself before the server was done with it. -/
theorem agrees_cut {stop : Stop CifsClientStream.Error} {c : TcpCifs} (hlocal : Local stop)
    (hphase : ¬e.phase.Final) : Agrees server auth e (.error stop c) where
  loggedIn _ hok := nomatch hok
  denied status c' hdenied := by
    injection hdenied with hstop
    exact absurd hstop (hlocal status)
  known _ hrefused := by
    rw [hrefused] at hphase
    exact hphase trivial
  settled hfinal := absurd hfinal hphase

theorem Stops.agrees {m : Message} {stop : Stop CifsClientStream.Error} {c : TcpCifs}
    (h : Stops crypto server e phase m stop) (hphase : ¬phase.Final)
    (hverdict : ∀ a, Admits crypto server phase m a .refused →
      server.password auth.user auth.domain ≠ some auth.password) :
    Agrees server auth e (.error stop c) := by
  rcases h.phase with hsame | ⟨⟨a, hadmits⟩, hway⟩
  · rw [← hsame] at hphase
    exact agrees_cut h.isLocal hphase
  · constructor
    case loggedIn => exact fun _ hok => nomatch hok
    case denied =>
      intro status c' hdenied
      injection hdenied with hstop
      exact absurd hstop (h.isLocal status)
    case known =>
      intro hpassword hrefused
      rw [hrefused] at hadmits
      exact hverdict a hadmits hpassword
    case settled => exact fun _ hquiet htransit => absurd htransit (hway hquiet)

theorem agrees_granted {c : TcpCifs} (hphase : e.phase = .granted auth.user auth.domain)
    (hlogged : LoggedIn server e c) : Agrees server auth e (.ok ⟨⟩ c) where
  loggedIn c' hok := by
    cases hok
    exact ⟨hphase, hlogged⟩
  denied status c' hdenied := nomatch hdenied
  known _ hrefused := by
    rw [hphase] at hrefused
    cases hrefused
  settled _ _ _ := Or.inl ⟨c, rfl⟩

theorem agrees_refused {status : Status} {c : TcpCifs} (hphase : e.phase = .refused)
    (hpassword : server.password auth.user auth.domain ≠ some auth.password) :
    Agrees server auth e (.error (.error (.ServerError status)) c) where
  loggedIn _ hok := nomatch hok
  denied _ _ _ := hphase
  known h := absurd h hpassword
  settled _ _ _ := Or.inr ⟨status, c, rfl⟩

/-! ### The last request -/

theorem setup_plain (blob : Bytes) : (Message.sessionSetup (.withBlob blob)).Plain :=
  ⟨nofun, nofun⟩

/-- The last request, and what the client does with its reply. -/
theorem Standing.verdict {msg : Msg.SessionSetup}
    {f : Reply.SessionSetup → Fut CifsClientStream.Error TcpCifs Unit}
    (h : Standing crypto server e client phase s left frames raws)
    (hsane : ∀ raw ∈ e.transit, (understood raw).isSome) (hphase : ¬phase.Final)
    (hplain : (Message.sessionSetup msg).Plain) (haccounts : ∀ answer, Accounts (f answer))
    (hverdict : ∀ a phase1, Admits crypto server phase (.sessionSetup msg) a phase1 →
      Verdict server auth a phase1)
    (hf : ∀ answer s1, answer.uid = server.uid → Same s s1 → ∃ c, f answer s1 = .ok ⟨⟩ c ∧
      c.uid = server.uid ∧ c.maxSmbSize = server.hello.maxBufferSize.toNat ∧
      c.useUnicode = s1.useUnicode ∧ c.pendingReplies = s1.pendingReplies ∧ c.outbox = s1.outbox)
    (hclient : client = endState ((TcpCifs.command Reply.SessionSetup msg >>= f) s)) :
    Agrees server auth e ((TcpCifs.command Reply.SessionSetup msg >>= f) s) := by
  rcases h.command (isMessage_fold (.sessionSetup msg)) hplain haccounts hclient with
    ⟨stop, hstop, hstops⟩ | ⟨a, phase1, request, info, body, s1, left1, frames1, raws1, hadmits, hheads,
      hwritten, hsame, hrun, hstanding⟩
  · rw [hstop]
    refine hstops.agrees hphase fun a hadmits => ?_
    cases hverdict a _ hadmits with
    | refused status _ hpassword => exact hpassword
  · rw [hrun] at hclient ⊢
    rcases (hverdict a phase1 hadmits).parsed hwritten hheads.cmd with
      ⟨hgranted, answer, hparse, huid⟩ | ⟨hrefused, hpassword, hparse⟩
    · obtain ⟨c, hc, hcuid, hsize, hunicode, hpending, hbox⟩ := hf answer s1 huid hsame
      have hresult : ((lift (parseReply Reply.SessionSetup ⟨info, body⟩) :
          Fut CifsClientStream.Error TcpCifs Reply.SessionSetup) >>= f) s1 = .ok ⟨⟩ c := by
        rw [hparse]
        exact hc
      rw [hresult] at hclient ⊢
      obtain ⟨hend, hnone, htransit⟩ := hstanding.ended (by rw [hclient, ← hbox]; rfl) hsane
      exact agrees_granted (hend.trans hgranted) ⟨hcuid, hsize, hunicode.trans hstanding.unicode,
        hpending.trans hnone, htransit⟩
    · have hresult : ((lift (parseReply Reply.SessionSetup ⟨info, body⟩) :
          Fut CifsClientStream.Error TcpCifs Reply.SessionSetup) >>= f) s1 =
          .error (.error (.ServerError info.status)) s1 := by
        rw [hparse]
        rfl
      rw [hresult] at hclient ⊢
      obtain ⟨hend, -, -⟩ := hstanding.ended (by rw [hclient]; rfl) hsane
      exact agrees_refused (hend.trans hrefused) hpassword

/-! ### The older version -/

theorem classic_agrees (h : Standing crypto server e client .greeted s left frames raws)
    (hsane : ∀ raw ∈ e.transit, (understood raw).isSome) (hclassic : server.extended = false)
    (hplain : '\x00' ∉ auth.user.toList ∧ '\x00' ∉ auth.domain.toList) (hauth : s.auth = auth)
    (hsize : s.maxSmbSize = server.hello.maxBufferSize.toNat)
    (hclient : client = endState (authenticateNtlm crypto server.hello.challenge s)) :
    Agrees server auth e (authenticateNtlm crypto server.hello.challenge s) := by
  have hblock : server.hello.challenge.length = 8 := by
    refine server.block.resolve_left ?_
    change ¬server.extended = true
    rw [hclassic]
    exact Bool.false_ne_true
  obtain ⟨secret, hsecret⟩ := Ntlm.Auth.ntlmv1_block crypto auth hblock
  have hrun : authenticateNtlm crypto server.hello.challenge s =
      (TcpCifs.command Reply.SessionSetup (Msg.SessionSetup.withAuth auth.user auth.domain secret) >>=
        fun answer => modify fun c => { c with uid := answer.uid }) s := by
    have hget : (get : Fut CifsClientStream.Error TcpCifs TcpCifs) s = .ok s s := rfl
    rw [authenticateNtlm, fut_bind, hget]
    dsimp only
    rw [hauth, hsecret]
    rfl
  rw [hrun] at hclient ⊢
  refine h.verdict hsane id ⟨?_, nofun⟩ (fun answer => setUid_accounts answer.uid)
    (fun a phase1 => Admits.classic hclassic hsecret) (fun answer s1 huid hsame => ?_) hclient
  · intro text htext
    simp only [Message.texts, Msg.SessionSetup.withAuth, List.mem_cons, List.not_mem_nil, or_false] at htext
    rcases htext with rfl | rfl
    · exact hplain.1
    · exact hplain.2
  · exact ⟨{ s1 with uid := answer.uid }, rfl, huid, hsame.maxSmbSize.trans hsize, rfl, rfl, rfl⟩

/-! ### Extended security -/

/-- The part of `authenticate_ntlmv2` behind the first reply. -/
def respond (crypto : Ntlm.Crypto) (auth : Ntlm.Auth) (setupReply : Reply.SessionSetup) :
    Fut CifsClientStream.Error TcpCifs Unit := do
  modify fun c => { c with uid := setupReply.uid }
  let ntlmChallenge ← lift (liftNtlm (Ntlm.ChallengeMsg.parse setupReply.securityBlob))
  let ntlmResponse ← lift (liftNtlm ((ntlmChallenge.response crypto auth).mapError .error))
  let _ ← sessionSetupNtlmv2 ntlmResponse

theorem respond_accounts (setupReply : Reply.SessionSetup) : Accounts (respond crypto auth setupReply) :=
  (setUid_accounts setupReply.uid).bind fun _ => (lift_accounts _).bind fun _ =>
    (lift_accounts _).bind fun _ => (sessionSetup_accounts _).bind fun _ => .pure _

section

variable {α β : Type} {f : α → Fut CifsClientStream.Error TcpCifs β}

theorem ntlm_ok (value : α) : ((lift (liftNtlm ((.ok value : Except Ntlm.Error α).mapError .error)) :
    Fut CifsClientStream.Error TcpCifs α) >>= f) s = f value s := rfl

theorem ntlm_error (error : Ntlm.Error) :
    ((lift (liftNtlm ((.error error : Except Ntlm.Error α).mapError .error)) :
      Fut CifsClientStream.Error TcpCifs α) >>= f) s = .error (.error (.NTLMError error)) s := rfl

theorem ntlm_local (error : Ntlm.Error) : Local (.error (.NTLMError error)) := by simp [Local]

end

theorem respond_agrees {setupReply : Reply.SessionSetup}
    (h : Standing crypto server e client .challenged s left frames raws)
    (hsane : ∀ raw ∈ e.transit, (understood raw).isSome) (huid : setupReply.uid = server.uid)
    (hblob : server.Challenges setupReply.securityBlob)
    (hsize : s.maxSmbSize = server.hello.maxBufferSize.toNat)
    (hclient : client = endState (respond crypto auth setupReply s)) :
    Agrees server auth e (respond crypto auth setupReply s) := by
  have hnext : Standing crypto server e client .challenged { s with uid := setupReply.uid } left frames raws :=
    h.same ⟨rfl, rfl, rfl, rfl⟩ h.unicode rfl rfl
  have hrun : respond crypto auth setupReply s =
      ((lift (liftNtlm ((server.challengeMsg.response crypto auth).mapError .error)) :
        Fut CifsClientStream.Error TcpCifs Bytes) >>= fun ntlmResponse =>
          TcpCifs.command Reply.SessionSetup (Msg.SessionSetup.withBlob ntlmResponse) >>= fun _ =>
            (pure PUnit.unit : Fut CifsClientStream.Error TcpCifs Unit))
        { s with uid := setupReply.uid } := by
    have hmodify : (modify fun c => { c with uid := setupReply.uid } :
        Fut CifsClientStream.Error TcpCifs PUnit) s = .ok ⟨⟩ { s with uid := setupReply.uid } := rfl
    rw [respond, fut_bind, hmodify, hblob.parsed]
    rfl
  rw [hrun] at hclient ⊢
  cases hresponse : server.challengeMsg.response crypto auth with
  | error error =>
    rw [hresponse, ntlm_error] at hclient
    rw [ntlm_error]
    obtain ⟨hend, -, -⟩ := hnext.ended (by rw [hclient]; rfl) hsane
    exact agrees_cut (ntlm_local error) (by rw [hend]; exact id)
  | ok ntlmResponse =>
    rw [hresponse, ntlm_ok] at hclient
    rw [ntlm_ok]
    refine hnext.verdict hsane id (setup_plain ntlmResponse) (fun _ => .pure _)
      (fun a phase1 => Admits.response hresponse) (fun answer s1 _ hsame => ?_) hclient
    exact ⟨s1, rfl, hsame.uid.trans huid, hsame.maxSmbSize.trans hsize, rfl, rfl, rfl⟩

theorem extended_agrees (h : Standing crypto server e client .greeted s left frames raws)
    (hsane : ∀ raw ∈ e.transit, (understood raw).isSome) (hextended : server.extended = true)
    (hauth : s.auth = auth) (hsize : s.maxSmbSize = server.hello.maxBufferSize.toNat)
    (hclient : client = endState (authenticateNtlmv2 crypto s)) :
    Agrees server auth e (authenticateNtlmv2 crypto s) := by
  have hrun : authenticateNtlmv2 crypto s =
      ((lift (liftNtlm ((Ntlm.InitMsg.toBytes ntlmInitFlags auth.domain auth.workstation).mapError .error)) :
        Fut CifsClientStream.Error TcpCifs Bytes) >>= fun ntlmInit =>
          TcpCifs.command Reply.SessionSetup (Msg.SessionSetup.withBlob ntlmInit) >>=
            respond crypto auth) s := by
    rw [← hauth]
    rfl
  rw [hrun] at hclient ⊢
  cases hinit : Ntlm.InitMsg.toBytes ntlmInitFlags auth.domain auth.workstation with
  | error error =>
    rw [hinit, ntlm_error] at hclient
    rw [ntlm_error]
    obtain ⟨hend, -, -⟩ := h.ended (by rw [hclient]; rfl) hsane
    exact agrees_cut (ntlm_local error) (by rw [hend]; exact id)
  | ok ntlmInit =>
    rw [hinit, ntlm_ok] at hclient
    rw [ntlm_ok]
    rcases h.command (isMessage_fold (.sessionSetup (.withBlob ntlmInit))) (setup_plain ntlmInit)
        respond_accounts hclient with
      ⟨stop, hstop, hstops⟩ | ⟨a, phase1, request, info, body, s1, left1, frames1, raws1, hadmits, hheads,
        hwritten, hsame, hgot, hstanding⟩
    · rw [hstop]
      refine hstops.agrees id fun a hadmits => ?_
      cases hadmits with
      | misunderstands _ blob status _ hmode hnot =>
        cases hmode
        exact absurd (init_isInit hinit) hnot
      | doubtsClassic _ user domain secret status hclassic =>
        rw [hextended] at hclassic
        cases hclassic
    · rw [hgot] at hclient ⊢
      cases hadmits with
      | challenges _ blob raw _ hmode hisInit hraw =>
        obtain ⟨answer, hparse, huid, rfl⟩ := hwritten.challenge_parsed hheads.cmd
        have hresult : ((lift (parseReply Reply.SessionSetup ⟨info, body⟩) :
            Fut CifsClientStream.Error TcpCifs Reply.SessionSetup) >>= respond crypto auth) s1 =
            respond crypto auth answer s1 := by
          rw [hparse]
          rfl
        rw [hresult] at hclient ⊢
        exact respond_agrees hstanding hsane huid hraw (hsame.maxSmbSize.trans hsize) hclient
      | misunderstands _ blob status _ hmode hnot =>
        cases hmode
        exact absurd (init_isInit hinit) hnot
      | believesClassic _ user domain secret hclassic =>
        rw [hextended] at hclassic
        cases hclassic
      | doubtsClassic _ user domain secret status hclassic =>
        rw [hextended] at hclassic
        cases hclassic

/-! ### The whole handshake -/

/-- The part of `setup_connection` behind the greeting. -/
def authenticate (crypto : Ntlm.Crypto) (serverSetup : Reply.ServerSetup) :
    Fut CifsClientStream.Error TcpCifs Unit := do
  modify fun c => { c with
    maxSmbSize := serverSetup.maxBufferSize.toNat
    useUnicode := contains serverSetup.capabilities Capabilities.UNICODE }
  if contains serverSetup.capabilities Capabilities.EXTENDED_SECURITY then
    authenticateNtlmv2 crypto
  else authenticateNtlm crypto serverSetup.challenge

theorem authenticate_accounts (serverSetup : Reply.ServerSetup) :
    Accounts (authenticate crypto serverSetup) := by
  refine Accounts.bind (.of_still (Moves.modify fun _ => ⟨rfl, rfl, rfl, rfl⟩)) fun _ => ?_
  exact (authenticateNtlmv2_accounts crypto).ite (authenticateNtlm_accounts crypto _)

theorem authenticate_agrees (h : Standing crypto server e client .greeted s left frames raws)
    (hsane : ∀ raw ∈ e.transit, (understood raw).isSome)
    (hplain : server.extended = false → '\x00' ∉ auth.user.toList ∧ '\x00' ∉ auth.domain.toList)
    (hauth : s.auth = auth) (hclient : client = endState (authenticate crypto server.hello.setup s)) :
    Agrees server auth e (authenticate crypto server.hello.setup s) := by
  have hunicode : contains server.hello.setup.capabilities Capabilities.UNICODE = true := server.unicode
  have hlearned : Standing crypto server e client .greeted { s with
      maxSmbSize := server.hello.maxBufferSize.toNat
      useUnicode := contains server.hello.setup.capabilities Capabilities.UNICODE } left frames raws :=
    h.same ⟨rfl, rfl, rfl, rfl⟩ hunicode rfl rfl
  generalize hs : ({ s with
      maxSmbSize := server.hello.maxBufferSize.toNat
      useUnicode := contains server.hello.setup.capabilities Capabilities.UNICODE } : TcpCifs) = s1 at hlearned
  have hauth1 : s1.auth = auth := hs ▸ hauth
  have hsize1 : s1.maxSmbSize = server.hello.maxBufferSize.toNat := hs ▸ rfl
  have hrun : authenticate crypto server.hello.setup s =
      (if server.extended then authenticateNtlmv2 crypto
        else authenticateNtlm crypto server.hello.challenge) s1 := by
    rw [← hs]
    rfl
  rw [hrun] at hclient ⊢
  by_cases hextended : server.extended = true
  · rw [if_pos hextended] at hclient ⊢
    exact extended_agrees hlearned hsane hextended hauth1 hsize1 hclient
  · have hclassic : server.extended = false := eq_false_of_ne_true hextended
    rw [if_neg hextended] at hclient ⊢
    exact classic_agrees hlearned hsane hclassic (hplain hclassic) hauth1 hsize1 hclient

/-- However the handshake goes, with any writes that are cut, any frames that arrive and any loss:
a client whose login returns is one that the server has let in as this user, under the id it has;
a client that is refused was refused; a server that knows the password of the client does not
refuse it; and once the server is done, the client is too, if nothing else arrives and nothing
is on its way. -/
theorem login_agrees (h : LogsIn crypto server auth e) :
    Agrees server auth e (e.result crypto auth) := by
  obtain ⟨frames, raws, hstanding, hsane⟩ := h.standing
  have hrun : e.result crypto auth = (TcpCifs.command Reply.ServerSetup Msg.Negotiate.mk >>=
      authenticate crypto) (e.begin auth) := rfl
  have hclient : e.client crypto auth = endState (e.result crypto auth) := rfl
  rw [hrun] at hclient ⊢
  rcases hstanding.command (isMessage_fold (.negotiate ⟨⟩)) ⟨nofun, nofun⟩ authenticate_accounts hclient with
    ⟨stop, hstop, hstops⟩ | ⟨a, phase1, request, info, body, s1, left1, frames1, raws1, hadmits, hheads,
      hwritten, hsame, hgot, hnext⟩
  · rw [hstop]
    exact hstops.agrees id nofun
  · cases hadmits with
    | greets =>
      have hresult : ((lift (parseReply Reply.ServerSetup ⟨info, body⟩) :
          Fut CifsClientStream.Error TcpCifs Reply.ServerSetup) >>= authenticate crypto) s1 =
          authenticate crypto server.hello.setup s1 := by
        rw [hwritten.hello_parsed hheads.cmd]
        rfl
      rw [hgot, hresult] at hclient
      rw [hgot, hresult]
      exact authenticate_agrees hnext hsane h.plain hsame.auth hclient

/-! ### A server with extended security -/

def greeting : NegotiateReply where
  securityMode := 3
  maxMpxCount := 1
  maxNumberVcs := 1
  maxBufferSize := 4356
  maxRawSize := 65536
  sessionKey := 0
  capabilities := Capabilities.UNICODE ||| Capabilities.EXTENDED_SECURITY
  systemTime := 0
  timezone := 0
  challenge := [6, 6, 6]
  more := [5]
  challenge_length := by decide
  data_length := by decide

def gate : LoginServer where
  password user domain := if user = "u" ∧ domain = "h" then some "p" else none
  hello := greeting
  challenge := Ntlm.smallChallenge
  uid := 7
  unicode := by decide
  block := Or.inl (by decide)

def visitor : Ntlm.Auth := ⟨"u", "w", "h", "p"⟩

/-- The info in front of the target. -/
def riddle : Bytes := Ntlm.smallChallenge.fixedPart ++ [0xff, 7, 7, 7, 0x41, 0, 0xff]

def riddleReply : SetupReply where
  chain := [0, 0, 4]
  action := 0
  blob := some riddle
  more := []
  chain_length := rfl
  data_length := by decide

def welcome : SetupReply where
  chain := [0, 0, 5]
  action := 1
  blob := none
  more := [4]
  chain_length := rfl
  data_length := by decide

def greetingInfo : Info := { Info.default .Negotiate with flags1 := Flags1.REPLY }

def welcomed (status : NTStatus) (mid : UInt16) : Info :=
  { Info.default .SessionSetup with flags1 := Flags1.REPLY, status := .known status, mid, uid := 7 }

theorem greetingInfo_canonical : greetingInfo.Canonical := ⟨trivial, by decide, by decide⟩

theorem welcomed_canonical (status : NTStatus) (mid : UInt16) : (welcomed status mid).Canonical where
  status := trivial
  reply := by
    have hflags : contains Flags1.REPLY Flags1.REPLY := by decide
    exact hflags
  flags2 := by
    have hflags : (Info.default .SessionSetup).flags2 &&& Flags2.all = (Info.default .SessionSetup).flags2 := by
      decide
    exact hflags

/-- What the server writes. -/
def gateReplies : List Bytes :=
  [greetingInfo.write ++ greeting.body [],
    (welcomed .MORE_PROCESSING 1).write ++ riddleReply.body [],
    (welcomed .SUCCESS 2).write ++ welcome.body []]

/-- The greeting goes out in two writes, the rest in one. -/
def visit : LoginEvent where
  arrivals := gateReplies.map arriving
  frames := gateReplies.map fun raw => .frame 0 (.Message raw)
  room := [9, 200, 500, 500]
  blocked := none
  phase := .granted "u" "h"
  transit := []

theorem ok_of_isSome {ε α : Type} {x : Except ε α} (other : α) (h : x.toOption.isSome) :
    x = .ok (x.toOption.getD other) := by
  cases x with
  | error err => cases h
  | ok value => rfl

def frameOf (m : Message) (info : Info) : Bytes := (m.write info info.write).toOption.getD []

theorem frameOf_parsed {m : Message} {info : Info} (hplain : m.Plain) (hheads : m.Heads info)
    (hsome : (m.write info info.write).toOption.isSome) : Message.parse (frameOf m info) = .ok (info, m) :=
  Message.parse_write hplain hheads (ok_of_isSome [] hsome)

def initBlob : Bytes :=
  (Ntlm.InitMsg.toBytes ntlmInitFlags visitor.domain visitor.workstation).toOption.getD []

def responseBlob : Bytes := (gate.challengeMsg.response silentCrypto visitor).toOption.getD []

theorem initBlob_isInit : IsInit initBlob := init_isInit (ok_of_isSome [] (by decide +kernel))

theorem riddle_challenges : gate.Challenges riddle where
  fixed := List.prefix_append _ _
  target := ⟨Ntlm.smallChallenge.fixedPart ++ [0xff, 7, 7, 7], [0xff], rfl, rfl⟩
  info := ⟨Ntlm.smallChallenge.fixedPart ++ [0xff], [0x41, 0, 0xff], rfl, rfl⟩

theorem responseBlob_believed : gate.Believes silentCrypto responseBlob
    ⟨visitor.ntlmv2Authenticate silentCrypto gate.challengeMsg, "h", "u", "w"⟩ where
  read := by
    have hmade : gate.challengeMsg.response silentCrypto visitor = .ok responseBlob :=
      ok_of_isSome [] (by decide +kernel)
    have hcharset : contains gate.challengeMsg.flags Ntlm.Flags.UNICODE =
        contains gate.challenge.flags Ntlm.Flags.UNICODE := Ntlm.contains_truncated _
    have hparsed := Ntlm.response_parsed hmade
    rw [hcharset] at hparsed
    exact hparsed
  proof := ⟨"p", rfl, Ntlm.response_proves silentCrypto gate.challengeMsg visitor "w"⟩

def initHeader : Info := { Info.default .SessionSetup with mid := 1 }

def responseHeader : Info := { Info.default .SessionSetup with mid := 2, uid := 7 }

theorem visit_logsIn : LogsIn silentCrypto gate visitor visit where
  plain := nofun
  carries := arriving_carries (by decide)
  served := by
    have hframes : wholeFrames (visit.client silentCrypto visitor).outbox =
        [frameOf (.negotiate ⟨⟩) (Info.default .Negotiate),
          frameOf (.sessionSetup (.withBlob initBlob)) initHeader,
          frameOf (.sessionSetup (.withBlob responseBlob)) responseHeader] := by
      decide +kernel
    have hnegotiate : Message.parse (frameOf (.negotiate ⟨⟩) (Info.default .Negotiate)) =
        .ok (Info.default .Negotiate, .negotiate ⟨⟩) :=
      frameOf_parsed ⟨nofun, nofun⟩ ⟨rfl, rfl, trivial, by decide⟩ (by decide +kernel)
    have hinit : Message.parse (frameOf (.sessionSetup (.withBlob initBlob)) initHeader) =
        .ok (initHeader, .sessionSetup (.withBlob initBlob)) :=
      frameOf_parsed (setup_plain initBlob) ⟨rfl, rfl, trivial, by decide⟩ (by decide +kernel)
    have hresponse : Message.parse (frameOf (.sessionSetup (.withBlob responseBlob)) responseHeader) =
        .ok (responseHeader, .sessionSetup (.withBlob responseBlob)) :=
      frameOf_parsed (setup_plain responseBlob) ⟨rfl, rfl, trivial, by decide⟩ (by decide +kernel)
    refine ⟨gateReplies, ?_, ?_⟩
    · rw [hframes]
      refine .cons hnegotiate (.greets ⟨⟩)
        ⟨greetingInfo_canonical, rfl, rfl, rfl, nofun, .hello []⟩ ?_
      refine .cons hinit (.challenges _ initBlob riddle rfl rfl initBlob_isInit riddle_challenges)
        ⟨welcomed_canonical _ 1, rfl, rfl, rfl, fun _ => rfl, .challenge riddle [] riddleReply rfl⟩
        ?_
      exact .cons hresponse (.believes _ responseBlob _ rfl responseBlob_believed)
        ⟨welcomed_canonical _ 2, rfl, rfl, rfl, fun _ => rfl, .granted welcome []⟩ (.nil _)
    · rw [visit, messages_arriving, List.append_nil]

theorem login_agrees_visit :
    ∃ c, visit.result silentCrypto visitor = .ok ⟨⟩ c ∧ LoggedIn gate visit c := by
  have hagrees := login_agrees visit_logsIn
  have hquiet : Quiet visit.frames := by
    intro arrival harrival
    obtain ⟨raw, hraw, rfl⟩ := List.mem_map.mp harrival
    refine Or.inr ⟨0, raw, ?_⟩
    simp only [gateReplies, List.mem_cons, List.not_mem_nil, or_false] at hraw
    rcases hraw with rfl | rfl | rfl
    · exact ⟨_, rfl, understood_write greetingInfo_canonical _⟩
    · exact ⟨_, rfl, understood_write (welcomed_canonical _ 1) _⟩
    · exact ⟨_, rfl, understood_write (welcomed_canonical _ 2) _⟩
  rcases hagrees.settled trivial hquiet rfl with ⟨c, hc⟩ | ⟨status, c, hc⟩
  · exact ⟨c, hc, (hagrees.loggedIn c hc).2⟩
  · cases hagrees.denied status c hc

end CifsClientStream.Server
