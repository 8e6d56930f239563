import CifsClientStream.Cifs.Exchange
import CifsClientStream.Smb.Message

/-!
# Setting up a connection (`setup_connection` of src/lib.rs)

The handshake has one session-setup request without extended security and two
with it. The status check of `parse_reply` goes by the command, not by the leg
of the handshake: a last reply that asks for more processing is taken as a
success (`setup_authenticated_iff`).
-/

namespace CifsClientStream.Cifs
open Cursor Async Win Smb Utils Mailbox

/-! ### The messages of the handshake -/

/-- A message can be sent exactly when its data bytes fit and it does not overrun. -/
theorem message_encodes (m : Message) (info : Info) :
    (∃ frame, m.write info info.write = .ok frame ∧ frame.length ≤ NetBios.MAX_FRAME_LENGTH) ↔
      m.dataLength (contains info.flags2 Flags2.UNICODE) < 65536 ∧ ¬m.Overruns := by
  rcases m.write_cases info with ⟨hover, hw⟩ | ⟨hlong, _, what, _, hw⟩ |
    ⟨hshort, hfits, frame, hw, hlen⟩
  · refine iff_of_false (fun h => ?_) fun h => h.2 hover
    obtain ⟨frame, hframe, _⟩ := h
    cases hw.symm.trans hframe
  · refine iff_of_false (fun h => ?_) fun h => Nat.not_lt.mpr hlong h.1
    obtain ⟨frame, hframe, _⟩ := h
    cases hw.symm.trans hframe
  · have hparameter := m.parameterLength_lt
    refine iff_of_true ⟨frame, hw, ?_⟩ ⟨hshort, hfits⟩
    rw [hlen]
    unfold Message.length SMB_HEADER_LEN NetBios.MAX_FRAME_LENGTH
    omega

theorem negotiate_encodes (info : Info) : Encodes Msg.Negotiate.mk info :=
  (message_encodes (.negotiate Msg.Negotiate.mk) info).mpr
    ⟨(by decide : (12 : ℕ) < 65536), id⟩

/-- The data bytes of a session setup, names included, stay below 64 KiB. -/
def SetupFits (mode : Msg.SessionSetupMode) (unicode : Bool) : Prop :=
  (Msg.SessionSetup.modeData mode).length + (if unicode then 4 else 2) < 65536

theorem header_unicode (c : Cifs) (cmd : Cmd) :
    contains (c.header cmd).flags2 Flags2.UNICODE = c.useUnicode := by
  change contains (if c.useUnicode then Flags2.default ||| Flags2.UNICODE
    else Flags2.default &&& ~~~Flags2.UNICODE) Flags2.UNICODE = c.useUnicode
  cases c.useUnicode with
  | true => decide
  | false => decide

theorem fits_blob (blob : Bytes) (unicode : Bool) (h : blob.length < 65000) :
    SetupFits (.extended blob) unicode := by
  have hm : Msg.SessionSetup.modeData (.extended blob) =
      if blob.length % 2 = 0 then blob ++ [0] else blob := rfl
  have hd : (Msg.SessionSetup.modeData (.extended blob)).length ≤ blob.length + 1 := by
    rw [hm]
    split
    · rw [List.length_append, List.length_singleton]
    · exact Nat.le_succ _
  unfold SetupFits
  split
  · omega
  · omega

theorem sessionSetup_dataLength (msg : Msg.SessionSetup) (unicode : Bool) :
    (Message.sessionSetup msg).dataLength unicode =
      (Msg.SessionSetup.modeData msg.mode).length + if unicode then 4 else 2 := by
  obtain ⟨_, _, _, _, _, mode⟩ := msg
  cases mode with
  | classic user domain secret =>
    have hsecret : secret.toList.length = 24 := Vector.length_toList
    simp only [Message.dataLength, Msg.SessionSetup.modeData, if_true, List.length_append, hsecret,
      List.length_singleton]
  | extended blob =>
    simp only [Message.dataLength, Msg.SessionSetup.modeData]
    split
    · rw [List.length_append, List.length_singleton]
    · rfl

/-- A session setup can be sent exactly when its data bytes fit. -/
theorem sessionSetup_encodes (msg : Msg.SessionSetup) (info : Info) :
    Encodes msg info ↔ SetupFits msg.mode (contains info.flags2 Flags2.UNICODE) := by
  have hdata := sessionSetup_dataLength msg (contains info.flags2 Flags2.UNICODE)
  refine (message_encodes (.sessionSetup msg) info).trans ?_
  rw [hdata]
  exact and_iff_left id

/-! ### The handshake -/

/-- The header of the last session-setup reply that was taken. -/
def lastSetupReply (c : Cifs) : Option Info :=
  ((c.history.handed.map (·.delivery.reply.info)).filter (·.cmd = .SessionSetup)).getLast?

/-- Every message of the handshake can be sent, and what the mailbox holds under its ids is
accepted, up to `last`. -/
inductive Conversation (crypto : Ntlm.Crypto) (auth : Ntlm.Auth) (box : Box UInt16 Delivery)
    (writes : List WriteStep) : Delivery → Prop
  | classic {d0 d1 : Delivery} {box1 box2 : Box UInt16 Delivery} {server : Reply.ServerSetup}
      {secret : Vector UInt8 24} {answer : Reply.SessionSetup}
      (written : ∀ w ∈ writes.take 2, w = .written)
      (first : receive Delivery.mid 0 box = (.got d0, box1))
      (negotiated : parseReply Reply.ServerSetup d0.reply = .ok server)
      (mode : contains server.capabilities Capabilities.EXTENDED_SECURITY = false)
      (hashed : auth.ntlmv1Authenticate crypto server.challenge = .ok secret)
      (fits : SetupFits (.classic auth.user auth.domain secret)
        (contains server.capabilities Capabilities.UNICODE))
      (second : receive Delivery.mid 1 box1 = (.got d1, box2))
      (setup : parseReply Reply.SessionSetup d1.reply = .ok answer) :
      Conversation crypto auth box writes d1
  | extended {d0 d1 d2 : Delivery} {box1 box2 box3 : Box UInt16 Delivery}
      {server : Reply.ServerSetup} {ntlmInit ntlmResponse : Bytes}
      {answer1 answer2 : Reply.SessionSetup} {ntlmChallenge : Ntlm.ChallengeMsg}
      (written : ∀ w ∈ writes.take 3, w = .written)
      (first : receive Delivery.mid 0 box = (.got d0, box1))
      (negotiated : parseReply Reply.ServerSetup d0.reply = .ok server)
      (mode : contains server.capabilities Capabilities.EXTENDED_SECURITY = true)
      (init : Ntlm.InitMsg.toBytes ntlmInitFlags auth.domain auth.workstation = .ok ntlmInit)
      (fits : SetupFits (.extended ntlmInit) (contains server.capabilities Capabilities.UNICODE))
      (second : receive Delivery.mid 1 box1 = (.got d1, box2))
      (setup : parseReply Reply.SessionSetup d1.reply = .ok answer1)
      (challenge : Ntlm.ChallengeMsg.parse answer1.securityBlob = .ok ntlmChallenge)
      (response : ntlmChallenge.response crypto auth = .ok ntlmResponse)
      (fits' : SetupFits (.extended ntlmResponse)
        (contains server.capabilities Capabilities.UNICODE))
      (third : receive Delivery.mid 2 box2 = (.got d2, box3))
      (setup' : parseReply Reply.SessionSetup d2.reply = .ok answer2) :
      Conversation crypto auth box writes d2

theorem liftNtlm_ok {α : Type} (x : Except (Fault Ntlm.Error) α) (a : α) :
    liftNtlm x = .ok a ↔ x = .ok a := by
  have h : liftNtlm x = x.mapError (·.map .NTLMError) := by
    cases x with
    | ok b => rfl
    | error f => rfl
  rw [h, mapError_ok]

theorem parseReply_inv (R : Type) [Reply R] (pending : PendingReply) (answer : R)
    (h : parseReply R pending = .ok answer) :
    pending.info.cmd = Reply.CMD R ∧ (pending.info.status = .known .SUCCESS ∨
      (pending.info.cmd = .SessionSetup ∧ pending.info.status = .known .MORE_PROCESSING)) := by
  by_cases hc : pending.info.cmd = Reply.CMD R
  · refine ⟨hc, ?_⟩
    by_contra hs
    rw [parseReply_cmd R pending hc, checkStatus_eq, if_neg hs] at h
    cases h
  · rw [parseReply_otherCmd R pending hc] at h
    cases h

theorem written_succ (c : Cifs) (n : ℕ) :
    (∀ w ∈ c.netbios.writes.take (n + 1), w = .written) ↔
      c.Writable ∧ ∀ w ∈ c.netbios.writes.tail.take n, w = .written := by
  unfold Writable
  cases c.netbios.writes with
  | nil => simp
  | cons w writes => simp

theorem sessionSetup_inv (mode : Msg.SessionSetupMode) (msg : Msg.SessionSetup)
    (hmode : msg.mode = mode) (c c' : Cifs) (box : Box UInt16 Delivery) (later : List Arrival)
    (hc : Holds c box later) (hs : Silent later) (answer : Reply.SessionSetup)
    (h : command Reply.SessionSetup msg c = .ok answer c') :
    SetupFits mode c.useUnicode ∧ c.Writable ∧
      ∃ d box', receive Delivery.mid c.mid box = (.got d, box') ∧
        parseReply Reply.SessionSetup d.reply = .ok answer ∧ Exchanged c c' d box' later := by
  obtain ⟨henc, hrest⟩ := command_inv Reply.SessionSetup msg c c' box later hc hs answer h
  refine ⟨?_, hrest⟩
  have hfits := (sessionSetup_encodes msg (c.header .SessionSetup)).mp henc
  rwa [hmode, header_unicode] at hfits

theorem sessionSetup_ok (mode : Msg.SessionSetupMode) (msg : Msg.SessionSetup)
    (hmode : msg.mode = mode) (c : Cifs) (box box' : Box UInt16 Delivery) (later : List Arrival)
    (hc : Holds c box later) (answer : Reply.SessionSetup) (d : Delivery)
    (hfits : SetupFits mode c.useUnicode) (hw : c.Writable)
    (hrec : receive Delivery.mid c.mid box = (.got d, box'))
    (hp : parseReply Reply.SessionSetup d.reply = .ok answer) :
    ∃ c', command Reply.SessionSetup msg c = .ok answer c' ∧ Exchanged c c' d box' later := by
  refine command_ok Reply.SessionSetup msg c box box' later hc answer d ?_ hw hrec hp
  refine (sessionSetup_encodes msg (c.header .SessionSetup)).mpr ?_
  rw [hmode, header_unicode]
  exact hfits

theorem lastSetupReply_append (c : Cifs) (ds : List Delivery) (d : Delivery)
    (h : c.history.handed.map (·.delivery) = ds ++ [d]) (hd : d.reply.info.cmd = .SessionSetup) :
    lastSetupReply c = some d.reply.info := by
  have hmap : c.history.handed.map (·.delivery.reply.info) =
      (ds ++ [d]).map (·.reply.info) := by
    rw [← h, List.map_map]
    rfl
  unfold lastSetupReply
  rw [hmap, List.map_append, List.filter_append]
  simp [hd]

section

variable (crypto : Ntlm.Crypto)

def learn (c : Cifs) (server : Reply.ServerSetup) : Cifs :=
  { c with
    maxSmbSize := server.maxBufferSize.toNat
    useUnicode := contains server.capabilities Capabilities.UNICODE }

theorem Exchanged.learned {c c1 : Cifs} {d : Delivery} {box : Box UInt16 Delivery}
    {later : List Arrival} (h : Exchanged c c1 d box later) (hmid : c.mid = 0)
    (server : Reply.ServerSetup) :
    Holds (c1.learn server) box later ∧ (c1.learn server).mid = 1 ∧
      (c1.learn server).auth = c.auth := by
  have hmid1 : c1.mid = 1 := by
    rw [h.mid, hmid]
    rfl
  exact ⟨⟨h.holds.stored, h.holds.unread⟩, hmid1, h.auth⟩

theorem setupConnection_eq (c c1 : Cifs) (server : Reply.ServerSetup)
    (h : negotiate c = .ok server c1) :
    setupConnection crypto c =
      (if contains server.capabilities Capabilities.EXTENDED_SECURITY then
        authenticateNtlmv2 crypto else authenticateNtlm crypto server.challenge)
          (c1.learn server) := by
  unfold setupConnection
  rw [fut_bind, h]
  rfl

theorem authenticateNtlm_ok (challenge : Bytes) (c c' : Cifs) :
    authenticateNtlm crypto challenge c = .ok ⟨⟩ c' ↔ ∃ secret answer c1,
      c.auth.ntlmv1Authenticate crypto challenge = .ok secret ∧
      command Reply.SessionSetup (Msg.SessionSetup.withAuth c.auth.user c.auth.domain secret) c =
        .ok answer c1 ∧ c' = { c1 with uid := answer.uid } := by
  unfold authenticateNtlm
  rw [bind_ok]
  constructor
  · rintro ⟨_, _, hget, h⟩
    cases hget
    obtain ⟨secret, c1, hl, h⟩ := (bind_ok _ _ _ _ _).mp h
    obtain ⟨hsecret, rfl⟩ := (lift_ok _ _ _ _).mp hl
    obtain ⟨answer, c2, hcmd, h⟩ := (bind_ok _ _ _ _ _).mp h
    cases h
    refine ⟨secret, answer, c2, ?_, hcmd, rfl⟩
    cases hx : c.auth.ntlmv1Authenticate crypto challenge with
    | ok a =>
      rw [hx] at hsecret
      cases hsecret
      rfl
    | error e =>
      rw [hx] at hsecret
      cases hsecret
  · rintro ⟨secret, answer, c1, hsecret, hcmd, rfl⟩
    refine ⟨c, c, rfl, ?_⟩
    rw [bind_ok]
    refine ⟨secret, c, ?_, ?_⟩
    · rw [hsecret]
      rfl
    · rw [bind_ok]
      exact ⟨answer, c1, hcmd, rfl⟩

theorem authenticateNtlmv2_ok (c c' : Cifs) :
    authenticateNtlmv2 crypto c = .ok ⟨⟩ c' ↔
      ∃ ntlmInit ntlmResponse answer1 answer2 ntlmChallenge c1,
        Ntlm.InitMsg.toBytes ntlmInitFlags c.auth.domain c.auth.workstation = .ok ntlmInit ∧
        command Reply.SessionSetup (Msg.SessionSetup.withBlob ntlmInit) c = .ok answer1 c1 ∧
        Ntlm.ChallengeMsg.parse answer1.securityBlob = .ok ntlmChallenge ∧
        ntlmChallenge.response crypto c.auth = .ok ntlmResponse ∧
        command Reply.SessionSetup (Msg.SessionSetup.withBlob ntlmResponse)
          { c1 with uid := answer1.uid } = .ok answer2 c' := by
  unfold authenticateNtlmv2
  rw [bind_ok]
  constructor
  · rintro ⟨_, _, hget, h⟩
    cases hget
    obtain ⟨ntlmInit, c1, hl, h⟩ := (bind_ok _ _ _ _ _).mp h
    obtain ⟨hinit, rfl⟩ := (lift_ok _ _ _ _).mp hl
    obtain ⟨answer1, c2, hcmd1, h⟩ := (bind_ok _ _ _ _ _).mp h
    obtain ⟨_, c3, hmod, h⟩ := (bind_ok _ _ _ _ _).mp h
    cases hmod
    obtain ⟨ntlmChallenge, c4, hl, h⟩ := (bind_ok _ _ _ _ _).mp h
    obtain ⟨hchallenge, rfl⟩ := (lift_ok _ _ _ _).mp hl
    obtain ⟨ntlmResponse, c5, hl, h⟩ := (bind_ok _ _ _ _ _).mp h
    obtain ⟨hresponse, rfl⟩ := (lift_ok _ _ _ _).mp hl
    obtain ⟨answer2, c6, hcmd2, h⟩ := (bind_ok _ _ _ _ _).mp h
    cases h
    rw [liftNtlm_ok, mapError_ok] at hinit hresponse
    rw [liftNtlm_ok] at hchallenge
    exact ⟨ntlmInit, ntlmResponse, answer1, answer2, ntlmChallenge, c2, hinit, hcmd1, hchallenge,
      hresponse, hcmd2⟩
  · rintro ⟨ntlmInit, ntlmResponse, answer1, answer2, ntlmChallenge, c1, hinit, hcmd1, hchallenge,
      hresponse, hcmd2⟩
    have hl1 := (liftNtlm_ok _ _).mpr ((mapError_ok Fault.error _ _).mpr hinit)
    have hl2 := (liftNtlm_ok _ _).mpr hchallenge
    have hl3 := (liftNtlm_ok _ _).mpr ((mapError_ok Fault.error _ _).mpr hresponse)
    refine ⟨c, c, rfl, ?_⟩
    rw [bind_ok]
    refine ⟨ntlmInit, c, (lift_ok _ _ _ _).mpr ⟨hl1, rfl⟩, ?_⟩
    rw [bind_ok]
    refine ⟨answer1, c1, hcmd1, ?_⟩
    rw [bind_ok]
    refine ⟨⟨⟩, { c1 with uid := answer1.uid }, rfl, ?_⟩
    rw [bind_ok]
    refine ⟨ntlmChallenge, _, (lift_ok _ _ _ _).mpr ⟨hl2, rfl⟩, ?_⟩
    rw [bind_ok]
    refine ⟨ntlmResponse, _, (lift_ok _ _ _ _).mpr ⟨hl3, rfl⟩, ?_⟩
    exact (bind_ok _ _ _ _ _).mpr ⟨answer2, c', hcmd2, rfl⟩

variable (c : Cifs) (box : Box UInt16 Delivery) (later : List Arrival)

theorem setup_inv (hc : Holds c box later) (hs : Silent later) (hmid : c.mid = 0) (c' : Cifs)
    (h : setupConnection crypto c = .ok ⟨⟩ c') :
    ∃ last, Conversation crypto c.auth box c.netbios.writes last ∧
      lastSetupReply c' = some last.reply.info := by
  have h0 := h
  unfold setupConnection at h
  obtain ⟨server, c1, hneg, _⟩ := (bind_ok _ _ _ _ _).mp h
  rw [setupConnection_eq crypto c c1 server hneg] at h0
  obtain ⟨_, hw0, d0, box1, hr0, hp0, hx0⟩ :=
    command_inv Reply.ServerSetup Msg.Negotiate.mk c c1 box later hc hs server hneg
  obtain ⟨hc1, hmid1, hauth1⟩ := hx0.learned hmid server
  rw [hmid] at hr0
  by_cases hext : contains server.capabilities Capabilities.EXTENDED_SECURITY = true
  · rw [if_pos hext] at h0
    obtain ⟨ntlmInit, ntlmResponse, answer1, answer2, ntlmChallenge, c2, hinit, hcmd1, hchallenge,
      hresponse, hcmd2⟩ := (authenticateNtlmv2_ok crypto _ c').mp h0
    obtain ⟨hf1, hw1, d1, box2, hr1, hp1, hx1⟩ := sessionSetup_inv (.extended ntlmInit) _ rfl
      (c1.learn server) c2 box1 later hc1 hs answer1 hcmd1
    have hc2 : Holds { c2 with uid := answer1.uid } box2 later :=
      ⟨hx1.holds.stored, hx1.holds.unread⟩
    obtain ⟨hf2, hw2, d2, box3, hr2, hp2, hx2⟩ := sessionSetup_inv (.extended ntlmResponse) _ rfl
      _ c' box2 later hc2 hs answer2 hcmd2
    have hmid2 : c2.mid = 2 := by
      rw [hx1.mid, hmid1]
      rfl
    have huni : c2.useUnicode = contains server.capabilities Capabilities.UNICODE := hx1.useUnicode
    change receive Delivery.mid c2.mid box2 = _ at hr2
    change SetupFits (.extended ntlmResponse) c2.useUnicode at hf2
    rw [hmid1] at hr1
    rw [hmid2] at hr2
    rw [hauth1] at hinit hresponse
    rw [huni] at hf2
    refine ⟨d2, .extended ?_ hr0 hp0 hext hinit hf1 hr1 hp1 hchallenge hresponse hf2 hr2 hp2, ?_⟩
    · refine (written_succ c 2).mpr ⟨hw0, ?_⟩
      rw [← hx0.writes]
      refine (written_succ c1 1).mpr ⟨hw1, ?_⟩
      have hwrites : c2.netbios.writes = c1.netbios.writes.tail := hx1.writes
      rw [← hwrites]
      exact (written_succ c2 0).mpr ⟨hw2, fun w hw => absurd hw (by simp)⟩
    · refine lastSetupReply_append _ (c2.history.handed.map (·.delivery)) d2 hx2.handed ?_
      exact (parseReply_inv _ _ _ hp2).1
  · rw [if_neg hext] at h0
    obtain ⟨secret, answer, c2, hhash, hcmd, rfl⟩ := (authenticateNtlm_ok crypto _ _ c').mp h0
    obtain ⟨hf, hw1, d1, box2, hr1, hp1, hx1⟩ := sessionSetup_inv
      (.classic (c1.learn server).auth.user (c1.learn server).auth.domain secret) _ rfl
      (c1.learn server) c2 box1 later hc1 hs answer hcmd
    rw [hmid1] at hr1
    rw [hauth1] at hhash hf
    refine ⟨d1, .classic ?_ hr0 hp0 (by simpa using hext) hhash hf hr1 hp1, ?_⟩
    · refine (written_succ c 1).mpr ⟨hw0, ?_⟩
      rw [← hx0.writes]
      exact (written_succ c1 0).mpr ⟨hw1, fun w hw => absurd hw (by simp)⟩
    · refine lastSetupReply_append _ (c1.history.handed.map (·.delivery)) d1 hx1.handed ?_
      exact (parseReply_inv _ _ _ hp1).1

theorem setup_ok (hc : Holds c box later) (hmid : c.mid = 0) (last : Delivery)
    (h : Conversation crypto c.auth box c.netbios.writes last) :
    ∃ c', setupConnection crypto c = .ok ⟨⟩ c' ∧ lastSetupReply c' = some last.reply.info := by
  cases h with
  | @classic d0 _ box1 box2 server secret answer written first negotiated mode hashed fits second
      setup =>
    obtain ⟨hw0, htail⟩ := (written_succ c 1).mp written
    obtain ⟨c1, hneg, hx0⟩ := command_ok Reply.ServerSetup Msg.Negotiate.mk c box box1 later hc
      server d0 (negotiate_encodes _) hw0 (by rw [hmid]; exact first) negotiated
    rw [← hx0.writes] at htail
    obtain ⟨hc1, hmid1, hauth1⟩ := hx0.learned hmid server
    obtain ⟨c2, hcmd, hx1⟩ := sessionSetup_ok (.classic c.auth.user c.auth.domain secret)
      (Msg.SessionSetup.withAuth c.auth.user c.auth.domain secret) rfl (c1.learn server) box1 box2
      later hc1 answer last fits ((written_succ c1 0).mp htail).1 (by rw [hmid1]; exact second) setup
    refine ⟨{ c2 with uid := answer.uid }, ?_, ?_⟩
    · rw [setupConnection_eq crypto c c1 server hneg, if_neg (by simp [mode])]
      rw [authenticateNtlm_ok]
      rw [hauth1]
      exact ⟨secret, answer, c2, hashed, hcmd, rfl⟩
    · refine lastSetupReply_append _ (c1.history.handed.map (·.delivery)) last hx1.handed ?_
      exact (parseReply_inv _ _ _ setup).1
  | @extended d0 d1 _ box1 box2 box3 server ntlmInit ntlmResponse answer1 answer2 ntlmChallenge
      written first negotiated mode init fits second setup challenge response fits' third setup' =>
    obtain ⟨hw0, htail⟩ := (written_succ c 2).mp written
    obtain ⟨c1, hneg, hx0⟩ := command_ok Reply.ServerSetup Msg.Negotiate.mk c box box1 later hc
      server d0 (negotiate_encodes _) hw0 (by rw [hmid]; exact first) negotiated
    rw [← hx0.writes] at htail
    obtain ⟨hw1, htail⟩ := (written_succ c1 1).mp htail
    obtain ⟨hc1, hmid1, hauth1⟩ := hx0.learned hmid server
    obtain ⟨c2, hcmd1, hx1⟩ := sessionSetup_ok (.extended ntlmInit)
      (Msg.SessionSetup.withBlob ntlmInit) rfl (c1.learn server) box1 box2 later hc1 answer1 d1
      fits hw1 (by rw [hmid1]; exact second) setup
    have hmid2 : c2.mid = 2 := by
      rw [hx1.mid, hmid1]
      rfl
    have huni : c2.useUnicode = contains server.capabilities Capabilities.UNICODE := hx1.useUnicode
    have hwrites : c2.netbios.writes = c1.netbios.writes.tail := hx1.writes
    rw [← hwrites] at htail
    have hc2 : Holds { c2 with uid := answer1.uid } box2 later :=
      ⟨hx1.holds.stored, hx1.holds.unread⟩
    obtain ⟨c3, hcmd2, hx2⟩ := sessionSetup_ok (.extended ntlmResponse)
      (Msg.SessionSetup.withBlob ntlmResponse) rfl { c2 with uid := answer1.uid } box2 box3 later
      hc2 answer2 last (by rw [← huni] at fits'; exact fits') ((written_succ c2 0).mp htail).1
      (by rw [← hmid2] at third; exact third) setup'
    refine ⟨c3, ?_, ?_⟩
    · rw [setupConnection_eq crypto c c1 server hneg, if_pos mode, authenticateNtlmv2_ok, hauth1]
      exact ⟨ntlmInit, ntlmResponse, answer1, answer2, ntlmChallenge, c2, init, hcmd1, challenge,
        response, hcmd2⟩
    · refine lastSetupReply_append _ (c2.history.handed.map (·.delivery)) last hx2.handed ?_
      exact (parseReply_inv _ _ _ setup').1

end

/-- Whatever the server sends: a successful setup ends with a reply of status `SUCCESS`
exactly when there is no conversation that ends with `MORE_PROCESSING`. -/
theorem setup_authenticated_iff (crypto : Ntlm.Crypto) (auth : Ntlm.Auth)
    (arrivals : List Arrival) (writes : List WriteStep) :
    (∀ c', setupConnection crypto ((fresh auth).arrive arrivals writes) = .ok ⟨⟩ c' →
      ∃ info, lastSetupReply c' = some info ∧ info.status = .known .SUCCESS) ↔
    ¬∃ last, Conversation crypto auth ⟨fun _ => none, heard arrivals⟩ writes last ∧
      last.reply.info.status = .known .MORE_PROCESSING := by
  obtain ⟨now, later, hsplit, hread, hsilent⟩ := heard_split arrivals
  have hc : Holds ((fresh auth).arrive arrivals writes) ⟨fun _ => none, heard arrivals⟩ later :=
    ⟨rfl, now, hsplit, hread⟩
  constructor
  · rintro h ⟨last, hconv, hmore⟩
    obtain ⟨c', hok, hlast⟩ := setup_ok crypto _ _ later hc rfl last hconv
    obtain ⟨info, hinfo, hsucc⟩ := h c' hok
    rw [hlast, Option.some.injEq] at hinfo
    rw [← hinfo, hmore] at hsucc
    cases hsucc
  · intro h c' hok
    obtain ⟨last, hconv, hlast⟩ := setup_inv crypto _ _ later hc hsilent rfl c' hok
    refine ⟨_, hlast, ?_⟩
    by_contra hne
    have hstatus : last.reply.info.status = .known .SUCCESS ∨
        last.reply.info.status = .known .MORE_PROCESSING := by
      cases hconv with
      | classic _ _ _ _ _ _ _ setup => exact (parseReply_inv _ _ _ setup).2.imp id And.right
      | extended _ _ _ _ _ _ _ _ _ _ _ _ setup' => exact (parseReply_inv _ _ _ setup').2.imp id And.right
    exact h ⟨last, hconv, hstatus.resolve_left hne⟩

/-- Hashes that are all the same, and a cipher that does nothing. -/
def silentCrypto : Ntlm.Crypto where
  md4 _ := Vector.replicate 16 0
  hmacMd5 _ _ := Vector.replicate 16 0
  desBlock _ block := block
  random := Vector.replicate 8 0
  windowsTime := 0
  toUppercase text := text

/-! ### A server that never says `SUCCESS` -/

def serverReply (cmd : Cmd) (status : NTStatus) (mid : UInt16) (body : Bytes) : PendingReply where
  info := { Info.default cmd with status := .known status, flags1 := Flags1.REPLY, mid }
  body := body

def extendedSecurity : PendingReply :=
  serverReply .Negotiate .SUCCESS 0 (putU8 17 ++ putU16Le 0 ++ putU8 3 ++ putU16Le 1 ++
    putU16Le 1 ++ putU32Le 65535 ++ putU32Le 65535 ++ putU32Le 0 ++
    putU32Le (Capabilities.UNICODE ||| Capabilities.EXTENDED_SECURITY) ++ putU64Le 0 ++
    putU16Le 0 ++ putU8 0 ++ putU16Le 0)

def moreProcessing (mid : UInt16) (blob : Bytes) : PendingReply :=
  serverReply .SessionSetup .MORE_PROCESSING mid (putU8 4 ++ [0xff, 0, 0, 0] ++ putU16Le 0 ++
    putU16Le (UInt16.ofNat blob.length) ++ putU16Le (UInt16.ofNat blob.length) ++ blob)

def challengeBlob : Bytes :=
  Ntlm.NTLMSSP_MAGIC ++ putU32Le 2 ++ putBytes 0 8 ++ putU32Le 0 ++ [1, 2, 3, 4, 5, 6, 7, 8] ++
    putBytes 0 8 ++ putBytes 0 8

def challengeMsg : Ntlm.ChallengeMsg := ⟨"", 0, [1, 2, 3, 4, 5, 6, 7, 8], []⟩

theorem response_length (crypto : Ntlm.Crypto) :
    ∃ out, challengeMsg.response crypto noAuth = .ok out ∧ out.length = 124 := by
  have hu : contains (0 : UInt32) Ntlm.Flags.UNICODE = false := by decide
  have he : asBytes "" = [] := rfl
  have hb : (noAuth.ntlmv2Authenticate crypto challengeMsg).length = 48 := by
    simp [Ntlm.Auth.ntlmv2Authenticate, Ntlm.Auth.ntlmv2Blob, challengeMsg, putU64Le, putU32Le,
      leBytes_length]
  unfold Ntlm.ChallengeMsg.response
  generalize noAuth.ntlmv2Authenticate crypto challengeMsg = answer at hb ⊢
  simp only [challengeMsg, hu, Ntlm.Packet.appendString, Ntlm.Packet.appendBuffer,
    Ntlm.Packet.appendBinary, Ntlm.Packet.appendU32, Ntlm.Packet.toBytes, Ntlm.Packet.new, noAuth, he,
    hb, Ntlm.Packet.baseLen, Ntlm.Packet.writeEntries, Ntlm.Buffer.write, List.length_append,
    List.length_replicate, List.nil_append, List.cons_append, List.append_nil, List.length_nil,
    Bool.false_eq_true, if_false, List.map_cons, List.map_nil, Ntlm.PacketEntry.len]
  refine ⟨_, rfl, ?_⟩
  simp [hb, putU16Le, putU32Le, leBytes_length, Ntlm.NTLMSSP_MAGIC]

/-- The replies of a server that asks for more processing, whatever it gets. -/
def neverSuccess : List Arrival :=
  [extendedSecurity, moreProcessing 1 challengeBlob, moreProcessing 2 []].mapIdx
    fun i reply => .frame i (.Message (reply.info.write ++ reply.body))

theorem neverSuccess_authenticated :
    (∀ d ∈ heard neverSuccess, d.reply.info.cmd = .SessionSetup →
      d.reply.info.status = .known .MORE_PROCESSING) ∧
    ∀ crypto, ∃ c' info,
      setupConnection crypto ((fresh noAuth).arrive neverSuccess []) = .ok ⟨⟩ c' ∧
        lastSetupReply c' = some info ∧ info.status = .known .MORE_PROCESSING := by
  have hheard : heard neverSuccess = [⟨extendedSecurity, 0⟩,
    ⟨moreProcessing 1 challengeBlob, 1⟩, ⟨moreProcessing 2 [], 2⟩] := rfl
  refine ⟨by rw [hheard]; decide, fun crypto => ?_⟩
  obtain ⟨now, later, hsplit, hread, _⟩ := heard_split neverSuccess
  have hc : Holds ((fresh noAuth).arrive neverSuccess []) ⟨fun _ => none, heard neverSuccess⟩
    later := ⟨rfl, now, hsplit, hread⟩
  obtain ⟨first, hinit, hlen⟩ : ∃ first, Ntlm.InitMsg.toBytes ntlmInitFlags "" "" = .ok first ∧
      first.length = 40 := ⟨_, rfl, rfl⟩
  obtain ⟨second, hresponse, hlen'⟩ := response_length crypto
  obtain ⟨c', hok, hlast⟩ := setup_ok crypto _ _ later hc rfl ⟨moreProcessing 2 [], 2⟩
    (.extended (fun w hw => absurd hw List.not_mem_nil) rfl rfl rfl hinit
      (fits_blob first _ (by omega)) rfl rfl (show Ntlm.ChallengeMsg.parse _ = .ok challengeMsg from rfl)
      hresponse
      (fits_blob second _ (by omega)) rfl rfl)
  exact ⟨c', _, hok, hlast, rfl⟩

end CifsClientStream.Cifs
