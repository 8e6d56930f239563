import CifsClientStream.Cifs.Setup
import CifsClientStream.Ntlm.Challenge

/-!
# Panics in the handshake (`authenticate_ntlm` of src/lib.rs)

A request and its reply panic only where the body of the reply is parsed
(`command_safe_iff`). Before its request goes out, `authenticate_ntlm` feeds
the server's challenge to a block cipher, which aborts unless the challenge is
one block long; the parser of the other path's challenge panics on most
malformed messages (`handshake_safe_iff`).
-/

namespace CifsClientStream.Cifs
open Cursor Async Win Smb Utils Mailbox

/-! ### Sending and receiving -/

theorem sendMessage_safe (frame : Bytes) (mid : UInt16) (c : Cifs) :
    Safe (sendMessage frame mid) c := by
  intro c' h
  unfold sendMessage at h
  split at h
  · cases h
  · split at h
    · cases h
    · cases h
    · cases h

theorem send_safe {M : Type} [Msg M] (msg : M) (c : Cifs)
    (h : NoPanic (Msg.write msg (Msg.fixHeader msg (c.header (Msg.CMD M)))
      (Msg.fixHeader msg (c.header (Msg.CMD M))).write)) : Safe (send msg) c := by
  unfold Safe
  rw [send_eq]
  cases hw : Msg.write msg (Msg.fixHeader msg (c.header (Msg.CMD M)))
      (Msg.fixHeader msg (c.header (Msg.CMD M))).write with
  | ok frame => exact sendMessage_safe frame c.mid _
  | error e =>
    cases e with
    | error e => exact fun c' hpanic => nomatch hpanic
    | panic => exact absurd hw h

/-- What `command` does panics where the reply it takes is parsed, and nowhere else. -/
theorem command_safe_iff {M : Type} (R : Type) [Msg M] [Reply R] (msg : M) (c : Cifs)
    (hwrite : NoPanic (Msg.write msg (Msg.fixHeader msg (c.header (Msg.CMD M)))
      (Msg.fixHeader msg (c.header (Msg.CMD M))).write)) :
    Safe (command R msg) c ↔
      (Sends msg c → ∀ d, taken c = .got d → NoPanic (parseReply R d.reply)) := by
  cases hsend : send msg c with
  | error e c1 =>
    unfold command
    rw [safe_bind_error hsend]
    refine iff_of_true ((safe_error hsend).mp (send_safe msg c hwrite)) fun hsent => ?_
    obtain ⟨⟨frame, hframe, hlen⟩, hw⟩ := hsent
    rw [send_ok msg c frame hw hframe hlen] at hsend
    cases hsend
  | ok t c1 =>
    obtain ⟨henc, hw, _⟩ := send_inv msg c c1 t hsend
    have hsent : Sends msg c := ⟨henc, hw⟩
    cases hd : taken c with
    | got d =>
      obtain ⟨c', h⟩ := command_got R hsent d hd
      unfold Safe
      rw [h]
      refine (safe_lift _ _).trans ⟨?_, fun hsafe => hsafe hsent d rfl⟩
      intro hsafe _ d' hd'
      cases hd'
      exact hsafe
    | duplicate d =>
      obtain ⟨e, c', h⟩ := command_duplicate R hsent d hd
      refine iff_of_true ((safe_error h).mpr fun hpanic => ?_) fun _ d' hd' => ?_
      · cases hpanic
      · cases hd'
    | starved =>
      refine iff_of_true ?_ fun _ d' hd' => ?_
      · rcases command_starved R hsent hd with ⟨_, e, c', h⟩ | ⟨_, c', h⟩
        · exact (safe_error h).mpr fun hpanic => by cases hpanic
        · exact (safe_error h).mpr fun hpanic => by cases hpanic
      · cases hd'

/-- A reply is refused by its header, or its body is parsed. -/
theorem parseReply_noPanic (R : Type) [Reply R] (fits : UInt16 → Bytes → Bytes → ℕ → Prop)
    (hfits : Lays R fits) (pending : PendingReply) :
    NoPanic (parseReply R pending) ↔ (pending.info.cmd = Reply.CMD R →
      (pending.info.status = .known .SUCCESS ∨
        (pending.info.cmd = .SessionSetup ∧ pending.info.status = .known .MORE_PROCESSING)) →
      BodyFits R fits pending.info.flags2 pending.body) := by
  by_cases hcmd : pending.info.cmd = Reply.CMD R
  · rw [parseReply_cmd R pending hcmd, checkStatus_eq]
    split
    · rename_i hstatus
      change NoPanic (liftSmb (Reply.parse R pending.info pending.body)) ↔ _
      rw [liftSmb_noPanic, reply_parse_fits R fits hfits]
      exact ⟨fun h _ _ => h, fun h => h hcmd hstatus⟩
    · rename_i hstatus
      exact iff_of_true (noPanic_error _) fun _ h => absurd h hstatus
  · rw [parseReply_otherCmd R pending hcmd]
    exact iff_of_true (noPanic_error _) fun h => absurd h hcmd

/-! ### The older response -/

/-- The session setup can be encoded and written; its length does not depend on the response. -/
def SetupSent (c : Cifs) : Prop :=
  SetupFits (.classic c.auth.user c.auth.domain (Vector.replicate 24 0)) c.useUnicode ∧ c.Writable

/-- The reply that is taken for the session setup, if one arrives, is refused by its header or
its body has the layout of such a reply. -/
def SetupReplyFits (c : Cifs) : Prop :=
  ∀ d, taken c = .got d →
    d.reply.info.cmd = .SessionSetup →
    (d.reply.info.status = .known .SUCCESS ∨ d.reply.info.status = .known .MORE_PROCESSING) →
    BodyFits Reply.SessionSetup SessionSetup.fits d.reply.info.flags2 d.reply.body

theorem setupFits_secret (user domain : String) (secret secret' : Vector UInt8 24)
    (unicode : Bool) :
    SetupFits (.classic user domain secret) unicode ↔
      SetupFits (.classic user domain secret') unicode := by
  have hlen : secret.toList.length = 24 := Vector.length_toList
  have hlen' : secret'.toList.length = 24 := Vector.length_toList
  unfold SetupFits Msg.SessionSetup.modeData
  simp only [List.length_append, hlen, hlen', if_true]

theorem sessionSetup_safe_iff (c : Cifs) (secret : Vector UInt8 24) :
    Safe (sessionSetup c.auth.user c.auth.domain secret) c ↔
      (SetupSent c → SetupReplyFits c) := by
  have hwrite : NoPanic (Msg.write (Msg.SessionSetup.withAuth c.auth.user c.auth.domain secret)
      (c.header .SessionSetup) (c.header .SessionSetup).write) := by
    rcases Message.write_cases (.sessionSetup (Msg.SessionSetup.withAuth c.auth.user c.auth.domain
      secret)) (c.header .SessionSetup) with ⟨hover, _⟩ | ⟨_, _, what, _, hw⟩ | ⟨_, _, frame, hw, _⟩
    · exact absurd hover id
    · intro hpanic
      cases hw.symm.trans hpanic
    · intro hpanic
      cases hw.symm.trans hpanic
  have hencodes : Encodes (Msg.SessionSetup.withAuth c.auth.user c.auth.domain secret)
      (c.header .SessionSetup) ↔
        SetupFits (.classic c.auth.user c.auth.domain (Vector.replicate 24 0)) c.useUnicode := by
    rw [sessionSetup_encodes, header_unicode]
    exact setupFits_secret _ _ _ _ _
  have hreply : ∀ d : Delivery, NoPanic (parseReply Reply.SessionSetup d.reply) ↔
      (d.reply.info.cmd = .SessionSetup →
        (d.reply.info.status = .known .SUCCESS ∨ d.reply.info.status = .known .MORE_PROCESSING) →
        BodyFits Reply.SessionSetup SessionSetup.fits d.reply.info.flags2 d.reply.body) := by
    intro d
    rw [parseReply_noPanic _ _ sessionSetup_lays]
    refine forall_congr' fun hcmd => ?_
    have hcmd' : d.reply.info.cmd = .SessionSetup := hcmd
    simp only [hcmd', true_and]
  have hsends : Sends (Msg.SessionSetup.withAuth c.auth.user c.auth.domain secret) c ↔
      SetupSent c :=
    ⟨fun h => ⟨hencodes.mp h.encodes, h.writable⟩, fun h => ⟨hencodes.mpr h.1, h.2⟩⟩
  refine (command_safe_iff Reply.SessionSetup _ c hwrite).trans ?_
  unfold SetupReplyFits
  rw [hsends]
  simp only [hreply]

variable (crypto : Ntlm.Crypto)

theorem get_apply (c : Cifs) : (get : Fut Error Cifs Cifs) c = .ok c c := rfl

theorem authenticateNtlm_other (challenge : Bytes) (c : Cifs) (h : challenge.length ≠ 8) :
    authenticateNtlm crypto challenge c = .error .panic c := by
  have hhash := c.auth.ntlmv1_other crypto h
  unfold authenticateNtlm
  rw [fut_bind, get_apply]
  dsimp only
  rw [hhash]
  rfl

theorem authenticateNtlm_block (challenge : Bytes) (c : Cifs) (h : challenge.length = 8) :
    ∃ secret, authenticateNtlm crypto challenge c =
      (sessionSetup c.auth.user c.auth.domain secret >>= fun answer =>
        modify fun c => { c with uid := answer.uid }) c := by
  obtain ⟨secret, hhash⟩ := c.auth.ntlmv1_block crypto h
  refine ⟨secret, ?_⟩
  unfold authenticateNtlm
  rw [fut_bind, get_apply]
  dsimp only
  rw [hhash]
  rfl

theorem authenticateNtlm_safe_iff (challenge : Bytes) (c : Cifs) :
    Safe (authenticateNtlm crypto challenge) c ↔
      challenge.length = 8 ∧ (SetupSent c → SetupReplyFits c) := by
  by_cases h : challenge.length = 8
  · obtain ⟨secret, hsetup⟩ := authenticateNtlm_block crypto challenge c h
    have hmodify := safe_bind_modify (sessionSetup c.auth.user c.auth.domain secret)
      (fun answer c => { c with uid := answer.uid }) c
    unfold Safe at hmodify ⊢
    rw [hsetup, hmodify]
    refine (sessionSetup_safe_iff c secret).trans ?_
    simp only [h, true_and]
  · refine iff_of_false (fun hsafe => ?_) fun hboth => h hboth.1
    exact hsafe c (authenticateNtlm_other crypto challenge c h)

/-- The challenge message is parsed or refused exactly when its header and its buffers are there
and its target is made of whole units; the older response can be computed for a challenge of
eight bytes only, and behind it only the body of the reply can make `authenticate_ntlm` panic. -/
theorem handshake_safe_iff (blob challenge : Bytes) (c : Cifs) :
    (Ntlm.Settles (Ntlm.ChallengeMsg.parse blob) ↔ Ntlm.ChallengeMsg.BlobFits blob) ∧
    (NoPanic (c.auth.ntlmv1Authenticate crypto challenge) ↔ challenge.length = 8) ∧
    (Safe (authenticateNtlm crypto challenge) c ↔
      challenge.length = 8 ∧ (SetupSent c → SetupReplyFits c)) := by
  refine ⟨Ntlm.ChallengeMsg.settles_iff blob, ?_, authenticateNtlm_safe_iff crypto challenge c⟩
  by_cases h : challenge.length = 8
  · obtain ⟨secret, hhash⟩ := c.auth.ntlmv1_block crypto h
    rw [hhash]
    exact iff_of_true (noPanic_ok _) h
  · rw [c.auth.ntlmv1_other crypto h]
    exact iff_of_false not_noPanic_panic h

/-- An empty security blob, and a server that sends no challenge. -/
theorem empty_challenge_panics :
    (¬∀ blob, Ntlm.Settles (Ntlm.ChallengeMsg.parse blob)) ∧
    ¬∀ crypto c, Safe (authenticateNtlm crypto []) c := by
  constructor
  · intro h
    exact Ntlm.not_settles_panic (h [])
  · intro h
    have crypto : Ntlm.Crypto :=
      ⟨fun _ => .replicate 16 0, fun _ _ => .replicate 16 0, fun _ b => b, .replicate 8 0, 0, id⟩
    exact h crypto (fresh noAuth) _ (authenticateNtlm_other crypto [] _ (by decide))

end CifsClientStream.Cifs
