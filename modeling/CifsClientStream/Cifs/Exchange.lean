import CifsClientStream.Cifs.Receive

/-!
# A request and its reply (`command` of src/lib.rs)

A command sends one request and waits for one reply. It returns exactly when
the message can be encoded and written, the messages that arrive hold one under
its id, and that one is accepted (`command_inv`, `command_ok`).
-/

namespace CifsClientStream.Cifs
open Cursor Async Win Smb Utils Mailbox

/-! ### What arrives -/

/-- The messages up to the first arrival that is neither a message nor a keepalive. -/
def heard : List Arrival → List Delivery
  | [] => []
  | .frame answers (.Message msg) :: rest =>
    match parseFrame msg with
    | .ok reply => ⟨reply, answers⟩ :: heard rest
    | .error _ => []
  | .frame _ .Keepalive :: rest => heard rest
  | _ :: _ => []

def Silent (later : List Arrival) : Prop :=
  ∀ c : Cifs, c.netbios.incoming = later → ∃ e c', recvFrame c = .error e c'

/-- Reading on fails, rather than waiting for more. -/
def Fails (later : List Arrival) : Prop :=
  ∀ c : Cifs, c.netbios.incoming = later → ∃ e c', recvFrame c = .error (.error e) c'

theorem fails_of_message (later : List Arrival) (e : NetBios.Error)
    (h : (recvMessage later).1 = .error (.error e)) : Fails later := by
  intro c hc
  unfold recvFrame
  rw [hc]
  cases hr : recvMessage later with
  | mk r rest =>
    rw [hr] at h
    simp only at h
    subst h
    exact ⟨_, _, rfl⟩

theorem recvFrame_nil (c : Cifs) (hc : c.netbios.incoming = []) :
    recvFrame c = .error .dropped (c.withIncoming []) := by
  unfold recvFrame
  rw [hc]
  rfl

theorem silent_nil : Silent [] := fun c hc => ⟨_, _, recvFrame_nil c hc⟩

/-- The arrivals that can be read, and what comes of the first that cannot. -/
theorem heard_ends (arrivals : List Arrival) :
    ∃ now later, arrivals = now ++ later ∧ readable now = some (heard arrivals) ∧
      ((readable arrivals = none ∧ Fails later) ∨ (readable arrivals ≠ none ∧ later = [])) := by
  induction arrivals with
  | nil => exact ⟨[], [], rfl, rfl, Or.inr ⟨nofun, rfl⟩⟩
  | cons a rest ih =>
    obtain ⟨now, later, hsplit, hread, hend⟩ := ih
    cases a with
    | failed e => exact ⟨[], .failed e :: rest, rfl, rfl, Or.inl ⟨rfl, fails_of_message _ _ rfl⟩⟩
    | frame answers frame =>
      cases frame with
      | Keepalive =>
        exact ⟨.frame answers .Keepalive :: now, later, by rw [hsplit, List.cons_append], hread,
          hend⟩
      | Message msg =>
        cases hp : parseFrame msg with
        | ok reply =>
          refine ⟨.frame answers (.Message msg) :: now, later, by rw [hsplit, List.cons_append], ?_,
            ?_⟩
          · simp only [readable, heard, hp, hread, Option.map_some]
          · simp only [readable, hp, Option.map_eq_none_iff, ne_eq]
            exact hend
        | error f =>
          refine ⟨[], .frame answers (.Message msg) :: rest, rfl, ?_, Or.inl ⟨?_, fun c hc => ?_⟩⟩
          · simp only [readable, heard, hp]
          · simp only [readable, hp]
          · have hno := parseFrame_noPanic msg
            unfold recvFrame
            rw [hc]
            simp only [recvMessage, hp]
            rw [hp] at hno
            cases f with
            | error e => exact ⟨_, _, rfl⟩
            | panic => exact absurd rfl hno
      | SessionRequest msg => exact ⟨[], _ :: rest, rfl, rfl, Or.inl ⟨rfl, fails_of_message _ _ rfl⟩⟩
      | PositiveResponse => exact ⟨[], _ :: rest, rfl, rfl, Or.inl ⟨rfl, fails_of_message _ _ rfl⟩⟩
      | NegativeResponse code =>
        exact ⟨[], _ :: rest, rfl, rfl, Or.inl ⟨rfl, fails_of_message _ _ rfl⟩⟩
      | Retarget => exact ⟨[], _ :: rest, rfl, rfl, Or.inl ⟨rfl, fails_of_message _ _ rfl⟩⟩

theorem heard_split (arrivals : List Arrival) :
    ∃ now later, arrivals = now ++ later ∧ readable now = some (heard arrivals) ∧
      Silent later := by
  obtain ⟨now, later, hsplit, hread, hend⟩ := heard_ends arrivals
  refine ⟨now, later, hsplit, hread, fun c hc => ?_⟩
  rcases hend with ⟨_, hfails⟩ | ⟨_, rfl⟩
  · obtain ⟨e, c', h⟩ := hfails c hc
    exact ⟨_, c', h⟩
  · exact silent_nil c hc

/-! ### One exchange -/

structure Exchanged (c c' : Cifs) (d : Delivery) (box' : Box UInt16 Delivery)
    (later : List Arrival) : Prop where
  holds : Holds c' box' later
  mid : c'.mid = c.mid + 1
  auth : c'.auth = c.auth
  useUnicode : c'.useUnicode = c.useUnicode
  writes : c'.netbios.writes = c.netbios.writes.tail
  handed : c'.history.handed.map (·.delivery) = c.history.handed.map (·.delivery) ++ [d]

def Encodes {M : Type} [Msg M] (msg : M) (info : Info) : Prop :=
  ∃ frame, Msg.write msg info info.write = .ok frame ∧ frame.length ≤ NetBios.MAX_FRAME_LENGTH

theorem sendMessage_inv (frame : Bytes) (mid : UInt16) (c c1 : Cifs) (t : Ticket)
    (h : sendMessage frame mid c = .ok t c1) :
    frame.length ≤ NetBios.MAX_FRAME_LENGTH ∧ c.Writable := by
  by_cases hlen : NetBios.MAX_FRAME_LENGTH < frame.length
  · simp only [sendMessage, NetBios.Frame.encode, hlen, if_true] at h
    cases h
  · refine ⟨Nat.not_lt.mp hlen, ?_⟩
    simp only [sendMessage, NetBios.Frame.encode, hlen, if_false] at h
    cases hws : c.netbios.writes with
    | nil => exact Or.inl hws
    | cons w writes =>
      rw [hws] at h
      cases w with
      | written => exact Or.inr (by rw [hws]; rfl)
      | failed e => cases h
      | dropped => cases h

theorem send_inv {M : Type} [Msg M] (msg : M) (c c1 : Cifs) (t : Ticket)
    (h : send msg c = .ok t c1) :
    Encodes msg (Msg.fixHeader msg (c.header (Msg.CMD M))) ∧ c.Writable ∧
      t = ⟨c.mid, c.history.sent.length⟩ ∧ c1 = c.logSent := by
  have he := send_ends msg c
  unfold Ends at he
  rw [h] at he
  rw [send_eq, bind_ok] at h
  obtain ⟨frame, c2, hl, hsend⟩ := h
  obtain ⟨hw, rfl⟩ := (lift_ok _ _ _ _).mp hl
  obtain ⟨hlen, hwritable⟩ := sendMessage_inv frame c.mid _ c1 t hsend
  exact ⟨⟨frame, (liftSmb_ok _ _).mp hw, hlen⟩, hwritable, he⟩

theorem hand_inv (R : Type) [Reply R] (t : Ticket) (d : Delivery) (c c' : Cifs) (answer : R)
    (h : hand R t d c = .ok answer c') :
    parseReply R d.reply = .ok answer ∧ c' = c.logHanded t.request d := by
  have hx : hand R t d c = lift (parseReply R d.reply) (c.logHanded t.request d) := rfl
  rw [hx, lift_ok] at h
  exact ⟨h.1, h.2.symm⟩

theorem recvLoop_silent (R : Type) [Reply R] (t : Ticket) (fuel : ℕ) (c : Cifs)
    (now later : List Arrival) (hin : c.netbios.incoming = now ++ later)
    (hread : readable now = some []) (hs : Silent later) (answer : R) (c' : Cifs) :
    recvLoop R t fuel c ≠ .ok answer c' := by
  intro h
  cases fuel with
  | zero => cases h
  | succ fuel =>
    obtain ⟨e, c2, he⟩ := hs (c.withIncoming later) rfl
    rw [recvLoop, fut_bind, recvFrame_later c now later hin hread, he] at h
    cases h

theorem readFor_starved (k : UInt16) (stored : UInt16 → Option Delivery) (unread : List Delivery)
    (h : (readFor Delivery.mid k stored unread).1 = .starved) :
    (readFor Delivery.mid k stored unread).2.unread = [] := by
  induction unread generalizing stored with
  | nil => rfl
  | cons x rest ih =>
    simp only [readFor] at h ⊢
    split at h
    · cases h
    · split at h
      · cases h
      · rename_i hx hs
        rw [if_neg hx, if_neg hs]
        exact ih _ h

theorem receive_starved (k : UInt16) (box : Box UInt16 Delivery)
    (h : (receive Delivery.mid k box).1 = .starved) :
    (receive Delivery.mid k box).2.unread = [] := by
  unfold receive at h ⊢
  cases hk : box.stored k with
  | some d =>
    rw [hk] at h
    cases h
  | none =>
    rw [hk] at h
    exact readFor_starved k _ _ h

theorem recv_inv (R : Type) [Reply R] (t : Ticket) (c c' : Cifs) (box : Box UInt16 Delivery)
    (later : List Arrival) (hc : Holds c box later) (hs : Silent later) (answer : R)
    (h : recv R t c = .ok answer c') :
    ∃ d box', receive Delivery.mid t.mid box = (.got d, box') ∧
      parseReply R d.reply = .ok answer ∧ Kept c c' ∧ Holds c' box' later ∧
      c'.history.handed = c.history.handed ++ [⟨t.request, d⟩] := by
  obtain ⟨c2, fuel, hk, hh, _, hbox, hr⟩ := recv_receive R t c box later hc
  rw [hr] at h
  cases hrec : (receive Delivery.mid t.mid box).1 with
  | got d =>
    rw [hrec] at h
    obtain ⟨hp, rfl⟩ := hand_inv R t d c2 c' answer h
    refine ⟨d, (receive Delivery.mid t.mid box).2, by rw [← hrec], hp,
      hk.trans ⟨rfl, rfl, rfl, rfl, rfl, rfl, rfl⟩, ⟨hbox.stored, hbox.unread⟩, ?_⟩
    rw [← hh]
    rfl
  | duplicate d =>
    rw [hrec] at h
    cases h
  | starved =>
    rw [hrec] at h
    obtain ⟨now, hin, hread⟩ := hbox.unread
    rw [receive_starved _ _ hrec] at hread
    exact absurd h (recvLoop_silent R t fuel c2 now later hin hread hs answer c')

theorem command_inv {M : Type} (R : Type) [Msg M] [Reply R] (msg : M) (c c' : Cifs)
    (box : Box UInt16 Delivery) (later : List Arrival) (hc : Holds c box later)
    (hs : Silent later) (answer : R) (h : command R msg c = .ok answer c') :
    Encodes msg (Msg.fixHeader msg (c.header (Msg.CMD M))) ∧ c.Writable ∧
      ∃ d box', receive Delivery.mid c.mid box = (.got d, box') ∧
        parseReply R d.reply = .ok answer ∧ Exchanged c c' d box' later := by
  rw [command, bind_ok] at h
  obtain ⟨t, c1, hsend, hrecv⟩ := h
  obtain ⟨henc, hw, rfl, rfl⟩ := send_inv msg c c1 t hsend
  have hc1 : Holds c.logSent box later := ⟨hc.stored, hc.unread⟩
  obtain ⟨d, box', hrec, hp, hk, hh, hhanded⟩ := recv_inv R _ _ c' box later hc1 hs answer hrecv
  refine ⟨henc, hw, d, box', hrec, hp, hh, hk.mid, hk.auth, hk.useUnicode, hk.writes, ?_⟩
  rw [hhanded, List.map_append]
  rfl

theorem command_ok {M : Type} (R : Type) [Msg M] [Reply R] (msg : M) (c : Cifs)
    (box box' : Box UInt16 Delivery) (later : List Arrival) (hc : Holds c box later) (answer : R)
    (d : Delivery) (henc : Encodes msg (Msg.fixHeader msg (c.header (Msg.CMD M))))
    (hw : c.Writable) (hrec : receive Delivery.mid c.mid box = (.got d, box'))
    (hp : parseReply R d.reply = .ok answer) :
    ∃ c', command R msg c = .ok answer c' ∧ Exchanged c c' d box' later := by
  obtain ⟨frame, hwrite, hlen⟩ := henc
  have hsend := send_ok msg c frame hw hwrite hlen
  have hc1 : Holds c.logSent box later := ⟨hc.stored, hc.unread⟩
  obtain ⟨c2, _, hk, hh, _, hbox, hr⟩ := recv_receive R ⟨c.mid, c.history.sent.length⟩ c.logSent
    box later hc1
  dsimp only at hbox hr
  rw [hrec] at hbox hr
  refine ⟨c2.logHanded c.history.sent.length d, ?_, ⟨hbox.stored, hbox.unread⟩, hk.mid, hk.auth,
    hk.useUnicode, hk.writes, ?_⟩
  · rw [command, bind_ok]
    exact ⟨_, _, hsend, hr.trans (hand_ok R _ d c2 answer hp)⟩
  · simp only [logHanded, List.map_append, hh]
    rfl

/-! ### What comes of a request -/

/-- The messages put aside and those that can be read. -/
def held (c : Cifs) : Box UInt16 Delivery := ⟨c.pendingReplies, heard c.netbios.incoming⟩

/-- What the next request takes from the messages held. -/
def taken (c : Cifs) : Taken Delivery := (receive Delivery.mid c.mid (held c)).1

/-- The next request gets out, if it is `msg`. -/
structure Sends {M : Type} [Msg M] (msg : M) (c : Cifs) : Prop where
  encodes : Encodes msg (Msg.fixHeader msg (c.header (Msg.CMD M)))
  writable : c.Writable

section

variable {M : Type} (R : Type) [Msg M] [Reply R] {msg : M} {c : Cifs}

theorem command_sent (h : Sends msg c) :
    command R msg c = recv R ⟨c.mid, c.history.sent.length⟩ c.logSent := by
  obtain ⟨⟨frame, hwrite, hlen⟩, hw⟩ := h
  rw [command, fut_bind, send_ok msg c frame hw hwrite hlen]

/-- A request that does not get out fails. -/
theorem command_unsent (h : ¬Sends msg c) :
    ∃ e writes, command R msg c = .error e (c.skipMid writes) := by
  have he := send_ends msg c
  unfold Ends at he
  cases hsend : send msg c with
  | ok t c1 =>
    obtain ⟨henc, hw, _⟩ := send_inv msg c c1 t hsend
    exact absurd ⟨henc, hw⟩ h
  | error e c1 =>
    rw [hsend] at he
    obtain ⟨writes, rfl⟩ := he
    exact ⟨e, writes, by rw [command, fut_bind, hsend]⟩

theorem command_got (h : Sends msg c) (d : Delivery) (hd : taken c = .got d) :
    ∃ c', command R msg c = (lift (parseReply R d.reply) : Fut Error Cifs R) c' := by
  obtain ⟨now, later, hsplit, hread, _⟩ := heard_ends c.netbios.incoming
  obtain ⟨c2, _, _, _, _, _, hr⟩ := recv_receive R ⟨c.mid, c.history.sent.length⟩ c.logSent
    (held c) later ⟨rfl, now, hsplit, hread⟩
  have hgot : (receive Delivery.mid c.mid (held c)).1 = .got d := hd
  rw [hgot] at hr
  exact ⟨c2.logHanded c.history.sent.length d, (command_sent R h).trans hr⟩

theorem command_duplicate (h : Sends msg c) (d : Delivery) (hd : taken c = .duplicate d) :
    ∃ e c', command R msg c = .error (.error e) c' := by
  obtain ⟨now, later, hsplit, hread, _⟩ := heard_ends c.netbios.incoming
  obtain ⟨c2, _, _, _, _, _, hr⟩ := recv_receive R ⟨c.mid, c.history.sent.length⟩ c.logSent
    (held c) later ⟨rfl, now, hsplit, hread⟩
  have hduplicate : (receive Delivery.mid c.mid (held c)).1 = .duplicate d := hd
  rw [hduplicate] at hr
  exact ⟨_, c2, (command_sent R h).trans hr⟩

/-- Nothing to take: what arrives behind cannot be read, or the call is dropped while it waits. -/
theorem command_starved (h : Sends msg c) (hd : taken c = .starved) :
    (readable c.netbios.incoming = none ∧ ∃ e c', command R msg c = .error (.error e) c') ∨
      (readable c.netbios.incoming ≠ none ∧ ∃ c', command R msg c = .error .dropped c') := by
  obtain ⟨now, later, hsplit, hread, hend⟩ := heard_ends c.netbios.incoming
  obtain ⟨c2, fuel, _, _, hfuel, hbox, hr⟩ := recv_receive R ⟨c.mid, c.history.sent.length⟩
    c.logSent (held c) later ⟨rfl, now, hsplit, hread⟩
  have hstarved : (receive Delivery.mid c.mid (held c)).1 = .starved := hd
  rw [hstarved] at hr
  obtain ⟨now', hin, hunread⟩ := hbox.unread
  rw [receive_starved _ _ hstarved] at hunread
  obtain ⟨fuel, rfl⟩ := Nat.exists_eq_succ_of_ne_zero (show fuel ≠ 0 by omega)
  have hloop : ∀ e c', recvFrame (c2.withIncoming later) = .error e c' →
      command R msg c = .error e c' := by
    intro e c' he
    rw [command_sent R h, hr]
    dsimp only
    rw [recvLoop, fut_bind, recvFrame_later c2 now' later hin hunread, he]
  rcases hend with ⟨hnone, hfails⟩ | ⟨hsome, rfl⟩
  · obtain ⟨e, c', he⟩ := hfails (c2.withIncoming later) rfl
    exact Or.inl ⟨hnone, e, c', hloop _ c' he⟩
  · exact Or.inr ⟨hsome, _, hloop _ _ (recvFrame_nil (c2.withIncoming []) rfl)⟩

end

/-- The reply that the next request takes answers it. -/
def Brings (R : Type) [Reply R] (c : Cifs) (answer : R) : Prop :=
  ∃ d, taken c = .got d ∧ parseReply R d.reply = .ok answer

/-- The next request takes a reply that is refused, or stops at a second reply to another, or at
an arrival that cannot be read. -/
inductive Refused (R : Type) [Reply R] (c : Cifs) : Prop
  | reply (d : Delivery) (e : Error) (hd : taken c = .got d)
      (hp : parseReply R d.reply = .error (.error e))
  | duplicate (d : Delivery) (hd : taken c = .duplicate d)
  | unreadable (hd : taken c = .starved) (hr : readable c.netbios.incoming = none)

theorem command_ok_iff {M : Type} (R : Type) [Msg M] [Reply R] {msg : M} {c : Cifs}
    (hsent : Sends msg c) (answer : R) : (∃ c', command R msg c = .ok answer c') ↔ Brings R c answer := by
  unfold Brings
  cases hd : taken c with
  | got d =>
    obtain ⟨c', h⟩ := command_got R hsent d hd
    rw [h]
    constructor
    · intro ⟨c2, hlift⟩
      exact ⟨d, rfl, ((lift_ok _ _ _ _).mp hlift).1⟩
    · intro ⟨d', hd', hp⟩
      cases hd'
      exact ⟨c', (lift_ok _ _ _ _).mpr ⟨hp, rfl⟩⟩
  | duplicate d =>
    obtain ⟨e, c', h⟩ := command_duplicate R hsent d hd
    rw [h]
    refine iff_of_false (fun ⟨_, hx⟩ => ?_) fun ⟨_, hx, _⟩ => ?_
    · cases hx
    · cases hx
  | starved =>
    refine iff_of_false (fun ⟨_, hx⟩ => ?_) fun ⟨_, hx, _⟩ => ?_
    · rcases command_starved R hsent hd with ⟨_, e, c', h⟩ | ⟨_, c', h⟩
      · cases h.symm.trans hx
      · cases h.symm.trans hx
    · cases hx

theorem command_error_iff {M : Type} (R : Type) [Msg M] [Reply R] {msg : M} {c : Cifs}
    (hsent : Sends msg c) :
    (∃ e c', command R msg c = .error (.error e) c') ↔ Refused R c := by
  constructor
  · intro ⟨e, c', h⟩
    cases hd : taken c with
    | got d =>
      obtain ⟨c2, hgot⟩ := command_got R hsent d hd
      have hlift := hgot.symm.trans h
      cases hp : parseReply R d.reply with
      | ok answer =>
        rw [hp] at hlift
        cases hlift
      | error f =>
        rw [hp] at hlift
        cases f with
        | error e' => exact .reply d e' hd hp
        | panic => cases hlift
    | duplicate d => exact .duplicate d hd
    | starved =>
      rcases command_starved R hsent hd with ⟨hnone, _⟩ | ⟨_, c2, hdropped⟩
      · exact .unreadable hd hnone
      · cases hdropped.symm.trans h
  · intro h
    cases h with
    | reply d e hd hp =>
      obtain ⟨c', hgot⟩ := command_got R hsent d hd
      exact ⟨e, c', hgot.trans (by rw [hp]; rfl)⟩
    | duplicate d hd => exact command_duplicate R hsent d hd
    | unreadable hd hr =>
      rcases command_starved R hsent hd with ⟨_, h⟩ | ⟨hsome, _⟩
      · exact h
      · exact absurd hr hsome

end CifsClientStream.Cifs
