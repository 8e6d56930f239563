import CifsClientStream.Cifs.TcpRun
import CifsClientStream.Smb.ReadBack

/-!
# What a server gets to read (`send` of src/lib.rs, `write_exactly` of src/netbios.rs)

The bytes that a run puts on the TCP stream are those of its requests, one
behind the other, each up to where its write was stopped; only the last request
of a call that stopped can be cut. The id in a request is the number of the
`send` it comes from. So after calls that all returned, a reader of NetBIOS
frames finds every request, in order and whole (`requests_arrive`).
-/

namespace CifsClientStream
open Cursor Async Win Smb Utils Simulation
open NetBios (messageWire events bytesOnly TcpStream)

/-! ### Messages of the client -/

/-- A message of any type that is one of those the client has. -/
structure IsMessage {M : Type} [Msg M] (msg : M) (m : Message) : Prop where
  cmd : Msg.CMD M = m.cmd
  fixHeader : ∀ info, Msg.fixHeader msg info = m.fixHeader info
  write : ∀ info buffer, Msg.write msg info buffer = m.write info buffer

theorem isMessage_fold (m : Message) : m.fold fun msg => IsMessage msg m := by
  cases m <;> exact ⟨rfl, fun _ => rfl, fun _ _ => rfl⟩

/-- Only the tree id of a header depends on the message. -/
theorem fixHeader_keeps (m : Message) (info : Info) :
    (m.fixHeader info).mid = info.mid ∧ (m.fixHeader info).cmd = info.cmd ∧
      (m.fixHeader info).status = info.status ∧ (m.fixHeader info).flags2 = info.flags2 ∧
      m.fixHeader (m.fixHeader info) = m.fixHeader info := by
  cases m <;> exact ⟨rfl, rfl, rfl, rfl, rfl⟩

/-- The request that a frame is, and its header. -/
structure Outgoing.Holds (o : Outgoing) (m : Message) (info : Info) : Prop where
  written : m.write info info.write = .ok o.frame
  mid : info.mid = UInt16.ofNat o.number
  cmd : info.cmd = m.cmd
  fixed : m.fixHeader info = info
  status : info.status.Canonical

structure Outgoing.Sound (o : Outgoing) : Prop where
  fits : o.frame.length ≤ NetBios.MAX_FRAME_LENGTH
  out : o.out <+: messageWire o.frame
  request : ∃ m info, o.Holds m info

def Outgoing.Whole (o : Outgoing) : Prop := o.out = messageWire o.frame

namespace TcpCifs

/-- The bytes written are those of the outbox, and its numbers count the calls of `send`. -/
structure Account (c : TcpCifs) : Prop where
  written : c.netbios.written = c.outbox.flatMap Outgoing.out
  mid : c.mid = UInt16.ofNat c.sends
  below : ∀ o ∈ c.outbox, o.number < c.sends
  order : c.outbox.Pairwise fun a b => a.number < b.number
  sound : ∀ o ∈ c.outbox, o.Sound

/-! ### Calls that send nothing -/

/-- Nothing is sent between the two. -/
structure Still (c c' : TcpCifs) : Prop where
  written : c'.netbios.written = c.netbios.written
  outbox : c'.outbox = c.outbox
  sends : c'.sends = c.sends
  mid : c'.mid = c.mid

theorem still_chain : Chain Still where
  refl _ := ⟨rfl, rfl, rfl, rfl⟩
  trans _ _ _ h h' := ⟨h'.written.trans h.written, h'.outbox.trans h.outbox,
    h'.sends.trans h.sends, h'.mid.trans h.mid⟩

theorem Still.account {c c' : TcpCifs} (h : Still c c') (hc : Account c) : Account c' where
  written := by rw [h.written, h.outbox, hc.written]
  mid := by rw [h.mid, h.sends, hc.mid]
  below := by
    rw [h.outbox, h.sends]
    exact hc.below
  order := by
    rw [h.outbox]
    exact hc.order
  sound := by
    rw [h.outbox]
    exact hc.sound

theorem netbios_chain : Chain fun s s' : TcpStream => s'.written = s.written where
  refl _ := rfl
  trans _ _ _ h h' := h'.trans h

theorem readBytes_written (eof : NetBios.Error) (count : ℕ) :
    Moves (fun s s' : TcpStream => s'.written = s.written) (NetBios.readBytes eof count) := by
  intro s
  unfold NetBios.readBytes
  split
  · rfl
  · rfl

theorem netbiosRecv_written :
    Moves (fun s s' : TcpStream => s'.written = s.written) NetBios.recv := by
  refine (readBytes_written _ 1).bind netbios_chain fun msgType => ?_
  refine (readBytes_written _ 3).bind netbios_chain fun rawLength => ?_
  refine (Moves.raise netbios_chain _).ite ?_
  exact (readBytes_written _ _).bind netbios_chain fun msgData =>
    Moves.ofExcept netbios_chain _

theorem recvMessageLoop_written (fuel : ℕ) :
    Moves (fun s s' : TcpStream => s'.written = s.written) (NetBios.recvMessageLoop fuel) := by
  induction fuel with
  | zero => exact Moves.drop netbios_chain
  | succ fuel ih =>
    refine netbiosRecv_written.bind netbios_chain fun frame => ?_
    cases frame with
    | Message msg => exact Moves.pure netbios_chain msg
    | Keepalive => exact ih
    | SessionRequest msg => exact Moves.raise netbios_chain _
    | PositiveResponse => exact Moves.raise netbios_chain _
    | NegativeResponse code => exact Moves.raise netbios_chain _
    | Retarget => exact Moves.raise netbios_chain _

/-- A relation that all but sending keeps. -/
structure Receives (R : TcpCifs → TcpCifs → Prop) : Prop where
  chain : Chain R
  read : ∀ c netbios, netbios.written = c.netbios.written → R c { c with netbios }
  stored : ∀ c pendingReplies, R c { c with pendingReplies }
  recorded : ∀ c ioStats, R c { c with ioStats }

section

variable {R : TcpCifs → TcpCifs → Prop} (h : Receives R)
include h

theorem recvMessage_moves : Moves R recvMessage := by
  intro c
  have hwritten := recvMessageLoop_written ((NetBios.bytesOf c.netbios.incoming).length + 1)
    c.netbios
  unfold recvMessage NetBios.recvMessage
  cases hloop : NetBios.recvMessageLoop _ c.netbios with
  | ok frame netbios =>
    rw [hloop] at hwritten
    exact h.read c netbios hwritten
  | error e netbios =>
    rw [hloop] at hwritten
    exact h.read c netbios hwritten

theorem recvFrame_moves : Moves R recvFrame :=
  (recvMessage_moves h).bind h.chain fun _ => Moves.lift h.chain _

theorem putAside_moves (pending : Cifs.PendingReply) : Moves R (putAside pending) := by
  refine (Moves.get h.chain).bind h.chain fun c => ?_
  refine Moves.bind h.chain (Moves.modify fun _ => h.stored _ _) fun _ => ?_
  exact (Moves.raise h.chain _).ite (Moves.pure h.chain _)

theorem recvLoop_moves (Q : Type) [Reply Q] (mid : UInt16) (fuel : ℕ) :
    Moves R (recvLoop Q mid fuel) := by
  induction fuel with
  | zero => exact Moves.drop h.chain
  | succ fuel ih =>
    refine (recvFrame_moves h).bind h.chain fun pending => ?_
    exact (Moves.lift h.chain _).ite
      ((putAside_moves h pending).bind h.chain fun _ => ih)

theorem recv_moves (Q : Type) [Reply Q] (mid : UInt16) : Moves R (recv Q mid) := by
  refine (Moves.get h.chain).bind h.chain fun c => ?_
  split
  · exact Moves.bind h.chain (Moves.modify fun _ => h.stored _ _)
      fun _ => Moves.lift h.chain _
  · exact recvLoop_moves h Q mid _

theorem recordRead_moves (bytes : ℕ) : Moves R (recordRead bytes) :=
  Moves.modify fun _ => h.recorded _ _

theorem recvReads_moves (mids : List UInt16) : Moves R (recvReads mids) := by
  induction mids with
  | nil => exact Moves.pure h.chain _
  | cons mid rest ih =>
    exact (recv_moves h Reply.Read mid).bind h.chain fun reply =>
      (recordRead_moves h _).bind h.chain fun _ =>
        ih.bind h.chain fun chunks => Moves.pure h.chain _

theorem collect_moves (mid : UInt16) (fuel : ℕ) (ctx : CollectTrans2) :
    Moves R (collect mid fuel ctx) := by
  induction fuel generalizing ctx with
  | zero => exact Moves.drop h.chain
  | succ fuel ih =>
    exact (recv_moves h Reply.Transact2 mid).bind h.chain fun reply =>
      (Moves.lift h.chain _).bind h.chain fun added =>
        (Moves.pure h.chain _).ite (ih added.2)

end

theorem still_receives : Receives Still where
  chain := still_chain
  read _ _ hwritten := ⟨hwritten, rfl, rfl, rfl⟩
  stored _ _ := ⟨rfl, rfl, rfl, rfl⟩
  recorded _ _ := ⟨rfl, rfl, rfl, rfl⟩

/-! ### Calls that send -/

/-- From a state in order to another; all that was sent on the way went out whole, if the call
returned, and all but the last of it, if it stopped. -/
structure Accounts {α : Type} (x : Fut Error TcpCifs α) : Prop where
  ends : ∀ c, Account c → Ends x c
    (fun _ c' => Account c' ∧ ∃ new, c'.outbox = c.outbox ++ new ∧ ∀ o ∈ new, o.Whole)
    (fun _ c' => Account c' ∧ ∃ new, c'.outbox = c.outbox ++ new ∧ ∀ o ∈ new.dropLast, o.Whole)

section

variable {α β : Type} {x : Fut Error TcpCifs α} {f : α → Fut Error TcpCifs β}

theorem Accounts.of_still (h : Moves Still x) : Accounts x := by
  constructor
  intro c hc
  have hstill := h c
  have hsame {c' : TcpCifs} (hc' : Still c c') : c'.outbox = c.outbox ++ [] := by
    rw [hc'.outbox, List.append_nil]
  unfold Ends
  cases hx : x c with
  | ok a c' =>
    rw [hx] at hstill
    exact ⟨hstill.account hc, [], hsame hstill, nofun⟩
  | error e c' =>
    rw [hx] at hstill
    exact ⟨hstill.account hc, [], hsame hstill, nofun⟩

theorem Accounts.pure (a : α) : Accounts (pure a : Fut Error TcpCifs α) :=
  .of_still (Moves.pure still_chain a)

theorem Accounts.bind (hx : Accounts x) (hf : ∀ a, Accounts (f a)) : Accounts (x >>= f) := by
  constructor
  intro c hc
  refine ends_bind ((hx.ends c hc).mono (fun a c1 h1 => ?_) fun _ _ h => h)
  obtain ⟨hc1, first, hfirst, hwhole⟩ := h1
  refine ((hf a).ends c1 hc1).mono (fun b c2 h2 => ?_) fun e c2 h2 => ?_
  · obtain ⟨hc2, second, hsecond, hwhole'⟩ := h2
    refine ⟨hc2, first ++ second, by rw [hsecond, hfirst, List.append_assoc], fun o ho => ?_⟩
    rcases List.mem_append.mp ho with ho | ho
    · exact hwhole o ho
    · exact hwhole' o ho
  · obtain ⟨hc2, second, hsecond, hwhole'⟩ := h2
    refine ⟨hc2, first ++ second, by rw [hsecond, hfirst, List.append_assoc], fun o ho => ?_⟩
    cases second with
    | nil =>
      rw [List.append_nil] at ho
      exact hwhole o (List.dropLast_subset first ho)
    | cons s rest =>
      rw [List.dropLast_append_of_ne_nil (List.cons_ne_nil s rest)] at ho
      rcases List.mem_append.mp ho with ho | ho
      · exact hwhole o ho
      · exact hwhole' o ho

theorem Accounts.ite {p : Prop} [Decidable p] {y : Fut Error TcpCifs α} (hx : Accounts x)
    (hy : Accounts y) : Accounts (if p then x else y) := by
  split
  · exact hx
  · exact hy

end

/-! ### One send -/

theorem writeLoop_out (room : List ℕ) (buffer written : Bytes) :
    ∃ out, (NetBios.writeLoop room buffer written).1 = written ++ out ∧ out <+: buffer ∧
      ((NetBios.writeLoop room buffer written).2.2 = true → out = buffer) := by
  induction room generalizing buffer written with
  | nil =>
    refine ⟨[], (List.append_nil written).symm, List.nil_prefix, fun h => ?_⟩
    have hempty : (buffer == []) = true := h
    exact (beq_iff_eq.mp hempty).symm
  | cons n room ih =>
    by_cases hbuffer : buffer = []
    · subst hbuffer
      exact ⟨[], (List.append_nil written).symm, List.nil_prefix, fun _ => rfl⟩
    · obtain ⟨out, hout, hprefix, hall⟩ := ih (buffer.drop (n + 1)) (written ++ buffer.take (n + 1))
      have hloop : NetBios.writeLoop (n :: room) buffer written =
          NetBios.writeLoop room (buffer.drop (n + 1)) (written ++ buffer.take (n + 1)) := by
        rw [NetBios.writeLoop, if_neg hbuffer]
      rw [hloop]
      refine ⟨buffer.take (n + 1) ++ out, ?_, ?_, fun h => ?_⟩
      · rw [hout, List.append_assoc]
      · conv => rhs; rw [← List.take_append_drop (n + 1) buffer]
        exact (List.prefix_append_right_inj _).mpr hprefix
      · rw [hall h, List.take_append_drop]

/-- A write puts out a piece of the buffer, all of it if it returns. -/
theorem writeExactly_out (buffer : Bytes) (s : TcpStream) :
    ∃ out s', s'.written = s.written ++ out ∧ out <+: buffer ∧
      ((NetBios.writeExactly buffer s = .ok ⟨⟩ s' ∧ out = buffer) ∨
        ∃ e, NetBios.writeExactly buffer s = .error e s') := by
  obtain ⟨out, hout, hprefix, hall⟩ := writeLoop_out s.room buffer s.written
  unfold NetBios.writeExactly
  split
  next written room hloop =>
    rw [hloop] at hout hall
    exact ⟨out, _, hout, hprefix, Or.inl ⟨rfl, hall rfl⟩⟩
  next written room hloop =>
    rw [hloop] at hout
    cases s.blocked with
    | none => exact ⟨out, _, hout, hprefix, Or.inr ⟨_, rfl⟩⟩
    | some kind => exact ⟨out, _, hout, hprefix, Or.inr ⟨_, rfl⟩⟩

theorem encode_message {frame encoding : Bytes}
    (h : (NetBios.Frame.Message frame).encode = .ok encoding) :
    frame.length ≤ NetBios.MAX_FRAME_LENGTH ∧ encoding = messageWire frame := by
  unfold NetBios.Frame.encode at h
  simp only at h
  split at h
  · cases h
  · rename_i hlen
    cases h
    exact ⟨Nat.not_lt.mp hlen, rfl⟩

/-- The state in which the next request is written. -/
def counted (c : TcpCifs) : TcpCifs := { c with mid := c.mid + 1, sends := c.sends + 1 }

theorem counted_account {c : TcpCifs} (hc : Account c) : Account c.counted where
  written := hc.written
  mid := by
    have hnext : UInt16.ofNat (c.sends + 1) = UInt16.ofNat c.sends + 1 := by simp
    rw [counted, hc.mid, hnext]
  below o ho := Nat.lt_succ_of_lt (hc.below o ho)
  order := hc.order
  sound := hc.sound

theorem logOut_account {c : TcpCifs} (hc : Account c) {frame out : Bytes} {netbios : TcpStream}
    (hwritten : netbios.written = c.netbios.written ++ out)
    (hsound : Outgoing.Sound ⟨c.sends, frame, out⟩) :
    Account (c.counted.logOut frame netbios) ∧
      (c.counted.logOut frame netbios).outbox = c.outbox ++ [⟨c.sends, frame, out⟩] := by
  have hout : netbios.written.drop c.counted.netbios.written.length = out := by
    rw [hwritten]
    exact List.drop_left
  have houtbox : (c.counted.logOut frame netbios).outbox = c.outbox ++ [⟨c.sends, frame, out⟩] := by
    rw [logOut, hout]
    rfl
  refine ⟨⟨?_, (counted_account hc).mid, ?_, ?_, ?_⟩, houtbox⟩
  · rw [houtbox, List.flatMap_append, ← hc.written, List.flatMap_singleton]
    exact hwritten
  · intro o ho
    rw [houtbox] at ho
    rcases List.mem_append.mp ho with ho | ho
    · exact Nat.lt_succ_of_lt (hc.below o ho)
    · rw [List.mem_singleton.mp ho]
      exact Nat.lt_succ_self _
  · rw [houtbox, List.pairwise_append]
    refine ⟨hc.order, List.pairwise_singleton .., fun o ho o' ho' => ?_⟩
    rw [List.mem_singleton.mp ho']
    exact hc.below o ho
  · intro o ho
    rw [houtbox] at ho
    rcases List.mem_append.mp ho with ho | ho
    · exact hc.sound o ho
    · rw [List.mem_singleton.mp ho]
      exact hsound

theorem sendMessage_accounts {c : TcpCifs} (hc : Account c) (frame : Bytes)
    (hrequest : ∃ m info, Outgoing.Holds ⟨c.sends, frame, []⟩ m info) :
    Ends (sendMessage frame) c.counted
      (fun _ c' => Account c' ∧ ∃ new, c'.outbox = c.outbox ++ new ∧ ∀ o ∈ new, o.Whole)
      (fun _ c' => Account c' ∧ ∃ new, c'.outbox = c.outbox ++ new ∧
        ∀ o ∈ new.dropLast, o.Whole) := by
  unfold Ends sendMessage
  cases hencode : (NetBios.Frame.Message frame).encode with
  | error e => exact ⟨counted_account hc, [], (List.append_nil _).symm, nofun⟩
  | ok encoding =>
    obtain ⟨hlen, rfl⟩ := encode_message hencode
    obtain ⟨out, netbios, hwritten, hprefix, hends⟩ :=
      writeExactly_out (messageWire frame) c.counted.netbios
    obtain ⟨m, info, hholds⟩ := hrequest
    have hsound : Outgoing.Sound ⟨c.sends, frame, out⟩ :=
      ⟨hlen, hprefix, m, info, hholds.written, hholds.mid, hholds.cmd, hholds.fixed,
        hholds.status⟩
    obtain ⟨haccount, houtbox⟩ := logOut_account hc hwritten hsound
    dsimp only
    rcases hends with ⟨hok, rfl⟩ | ⟨e, herror⟩
    · rw [hok]
      refine ⟨haccount, _, houtbox, fun o ho => ?_⟩
      rw [List.mem_singleton.mp ho]
      rfl
    · rw [herror]
      exact ⟨haccount, _, houtbox, nofun⟩

theorem send_accounts {M : Type} [Msg M] {msg : M} {m : Message} (h : IsMessage msg m) :
    Accounts (send msg) := by
  constructor
  intro c hc
  unfold send
  refine ends_bind (ends_get (ends_bind (ends_modify ?_)))
  have hstopped : Account c.counted ∧ ∃ new, c.counted.outbox = c.outbox ++ new ∧
      ∀ o ∈ new.dropLast, o.Whole :=
    ⟨counted_account hc, [], (List.append_nil _).symm, nofun⟩
  refine ends_bind (ends_lift _ (fun frame hframe => ?_) fun _ => hstopped)
  have hkept := fixHeader_keeps m (c.header (Msg.CMD M))
  have hholds : Outgoing.Holds ⟨c.sends, frame, []⟩ m (m.fixHeader (c.header (Msg.CMD M))) := by
    refine ⟨?_, ?_, ?_, hkept.2.2.2.2, ?_⟩
    · rw [h.fixHeader, h.write] at hframe
      exact (Cifs.liftSmb_ok _ _).mp hframe
    · exact hkept.1.trans hc.mid
    · exact hkept.2.1.trans h.cmd
    · rw [hkept.2.2.1]
      exact trivial
  refine ends_bind ((sendMessage_accounts hc frame ⟨m, _, hholds⟩).mono (fun _ c' h' => ?_)
    fun _ _ h' => h')
  exact h'

/-! ### Every operation -/

theorem command_accounts {M : Type} [Msg M] (R : Type) [Reply R] {msg : M} {m : Message}
    (h : IsMessage msg m) : Accounts (command R msg) :=
  (send_accounts h).bind fun mid => .of_still (recv_moves still_receives R mid)

theorem readAt_accounts (file : Handle) (offset : ℕ) (count : UInt32) :
    Accounts (readAt file offset count) := by
  unfold readAt
  refine .ite (.pure _) ?_
  exact (command_accounts Reply.Read (isMessage_fold (.read _))).bind fun reply =>
    (Accounts.of_still (recordRead_moves still_receives _)).bind fun _ => .pure _

theorem ofExcept_accounts {α : Type} (r : Except Error α) :
    Accounts (ofExcept r : Fut Error TcpCifs α) :=
  .of_still (Moves.ofExcept still_chain r)

theorem lift_accounts {α : Type} (r : Except (Fault Error) α) :
    Accounts (lift r : Fut Error TcpCifs α) :=
  .of_still (Moves.lift still_chain r)

theorem sendReads_accounts (file : Handle) (requests : List Cifs.StreamingWorkerReadRequest) :
    Accounts (sendReads file requests) := by
  induction requests with
  | nil => exact .pure _
  | cons request rest ih =>
    exact (ofExcept_accounts _).bind fun count =>
      (send_accounts (isMessage_fold (.read _))).bind fun mid => ih.bind fun _ => .pure _

theorem readAtPipelined_accounts (file : Handle)
    (requests : List Cifs.StreamingWorkerReadRequest) :
    Accounts (readAtPipelined file requests) := by
  unfold readAtPipelined
  split
  · exact .pure _
  · exact (ofExcept_accounts _).bind fun count =>
      (readAt_accounts file _ count).bind fun _ => .pure _
  · exact (sendReads_accounts file _).bind fun mids => .of_still (recvReads_moves still_receives mids)

theorem transact2_accounts {C : Type} (R : Type) [SubCmd C] [SubReply R] {tid : UInt16}
    {subcmd : C} {m : Message} (h : IsMessage (Msg.Transact2.mk tid subcmd) m) :
    Accounts (transact2 R tid subcmd) :=
  (send_accounts h).bind fun mid => (Accounts.of_still (Moves.get still_chain)).bind fun _ =>
    (Accounts.of_still (collect_moves still_receives mid _ _)).bind fun _ => lift_accounts _

theorem setUid_accounts (uid : UInt16) :
    Accounts (modify fun c => { c with uid } : Fut Error TcpCifs PUnit) :=
  .of_still (Moves.modify fun _ => ⟨rfl, rfl, rfl, rfl⟩)

theorem sessionSetup_accounts (msg : Msg.SessionSetup) :
    Accounts (command Reply.SessionSetup msg) :=
  command_accounts Reply.SessionSetup (isMessage_fold (.sessionSetup msg))

theorem authenticateNtlm_accounts (crypto : Ntlm.Crypto) (challenge : Bytes) :
    Accounts (authenticateNtlm crypto challenge) :=
  (Accounts.of_still (Moves.get still_chain)).bind fun _ => (lift_accounts _).bind fun _ =>
    (sessionSetup_accounts _).bind fun reply => setUid_accounts reply.uid

theorem authenticateNtlmv2_accounts (crypto : Ntlm.Crypto) :
    Accounts (authenticateNtlmv2 crypto) :=
  (Accounts.of_still (Moves.get still_chain)).bind fun _ => (lift_accounts _).bind fun _ =>
    (sessionSetup_accounts _).bind fun reply => (setUid_accounts reply.uid).bind fun _ =>
      (lift_accounts _).bind fun _ => (lift_accounts _).bind fun _ =>
        (sessionSetup_accounts _).bind fun _ => .pure _

theorem setupConnection_accounts (crypto : Ntlm.Crypto) : Accounts (setupConnection crypto) := by
  have hnegotiate : Accounts negotiate :=
    command_accounts Reply.ServerSetup (isMessage_fold (.negotiate ⟨⟩))
  unfold setupConnection
  refine hnegotiate.bind fun serverSetup => ?_
  refine Accounts.bind (.of_still (Moves.modify fun _ => ⟨rfl, rfl, rfl, rfl⟩)) fun _ => ?_
  exact (authenticateNtlmv2_accounts crypto).ite (authenticateNtlm_accounts crypto _)

end TcpCifs

/-- The messages of the operation are those that the client has. -/
def TcpOp.Known : TcpOp → Prop
  | setupConnection _ => True
  | call (@Cifs.Op.command _ _ _ _ msg) => ∃ m, IsMessage msg m
  | call (.readAtPipelined _ _ _) => True
  | call (@Cifs.Op.transact2 _ _ _ _ tid subcmd) => ∃ m, IsMessage (Msg.Transact2.mk tid subcmd) m

namespace TcpCifs

/-- What a step sends goes out whole, apart from the end of it if the call stops. -/
theorem step_accounts {c : TcpCifs} (hc : Account c) (i : TcpInput) (hknown : i.op.Known) :
    Account (step c i).2 ∧ ∃ new, (step c i).2.outbox = c.outbox ++ new ∧
      (∀ o ∈ new.dropLast, o.Whole) ∧ ((step c i).1.stop = none → ∀ o ∈ new, o.Whole) := by
  have harrived : Account (c.arrive i) := ⟨hc.written, hc.mid, hc.below, hc.order, hc.sound⟩
  have hends {α : Type} {x : Fut Error TcpCifs α} (hx : Accounts x) :
      Account (outcome (x (c.arrive i))).2 ∧
        ∃ new, (outcome (x (c.arrive i))).2.outbox = c.outbox ++ new ∧
          (∀ o ∈ new.dropLast, o.Whole) ∧
          ((outcome (x (c.arrive i))).1.stop = none → ∀ o ∈ new, o.Whole) := by
    have h := hx.ends (c.arrive i) harrived
    unfold Ends at h
    cases hrun : x (c.arrive i) with
    | ok a c' =>
      rw [hrun] at h
      obtain ⟨haccount, new, houtbox, hwhole⟩ := h
      exact ⟨haccount, new, houtbox, fun o ho => hwhole o (List.dropLast_subset new ho),
        fun _ => hwhole⟩
    | error e c' =>
      rw [hrun] at h
      obtain ⟨haccount, new, houtbox, hwhole⟩ := h
      exact ⟨haccount, new, houtbox, hwhole, nofun⟩
  obtain ⟨op, arrivals, room, blocked⟩ := i
  cases op with
  | setupConnection crypto =>
    simp only [step, TcpOp.onBytes]
    exact hends (setupConnection_accounts crypto)
  | call op =>
    cases op with
    | @command M R _ _ msg =>
      obtain ⟨m, hm⟩ := hknown
      simp only [step, TcpOp.onBytes]
      exact hends (command_accounts R hm)
    | readAtPipelined file requests depth =>
      simp only [step, TcpOp.onBytes]
      exact hends (readAtPipelined_accounts file requests)
    | @transact2 C R _ _ tid subcmd =>
      obtain ⟨m, hm⟩ := hknown
      simp only [step, TcpOp.onBytes]
      exact hends (transact2_accounts R hm)

theorem fresh_account (auth : Ntlm.Auth) : Account (fresh auth) where
  written := rfl
  mid := rfl
  below := nofun
  order := .nil
  sound := nofun

theorem run_accounts {c : TcpCifs} (hc : Account c) (inputs : List TcpInput)
    (hknown : ∀ i ∈ inputs, i.op.Known) :
    Account (Runs.run step c inputs).2 ∧
      ∃ new, (Runs.run step c inputs).2.outbox = c.outbox ++ new ∧
        ((∀ outcome ∈ (Runs.run step c inputs).1, outcome.stop = none) → ∀ o ∈ new, o.Whole) := by
  induction inputs generalizing c with
  | nil => exact ⟨hc, [], (List.append_nil _).symm, fun _ => nofun⟩
  | cons i rest ih =>
    obtain ⟨hc1, first, hfirst, -, hwhole⟩ := step_accounts hc i (hknown i List.mem_cons_self)
    obtain ⟨hc2, second, hsecond, hwhole'⟩ := ih hc1 fun j hj =>
      hknown j (List.mem_cons_of_mem _ hj)
    rw [Runs.run_cons]
    refine ⟨hc2, first ++ second, ?_, fun hreturned o ho => ?_⟩
    · rw [hsecond, hfirst, List.append_assoc]
    · rcases List.mem_append.mp ho with ho | ho
      · exact hwhole (hreturned _ List.mem_cons_self) o ho
      · exact hwhole' (fun outcome h => hreturned outcome (List.mem_cons_of_mem _ h)) o ho

/-! ### At the other end -/

/-- A server takes `n` messages from its stream. -/
def receiveAll : ℕ → Fut NetBios.Error TcpStream (List Bytes)
  | 0 => pure []
  | n + 1 => do
    let msg ← NetBios.recvMessage
    let rest ← receiveAll n
    pure (msg :: rest)

theorem recvMessage_wire (s : TcpStream) (msg : Bytes) (hfits : msg.length ≤ NetBios.MAX_FRAME_LENGTH)
    {more : List NetBios.Event} (h : events s.incoming = bytesOnly (messageWire msg) ++ more) :
    ∃ incoming, NetBios.recvMessage s = .ok msg { s with incoming } ∧ events incoming = more := by
  obtain ⟨incoming, hrecv, hmore⟩ := NetBios.recv_frame s
    ⟨NetBios.FrameType.Message.code, msg, hfits⟩ h
  refine ⟨incoming, ?_, hmore⟩
  rw [NetBios.recvMessage, NetBios.recvMessageLoop, fut_bind, hrecv]
  rfl

theorem receiveAll_wires (frames : List Bytes)
    (hfits : ∀ frame ∈ frames, frame.length ≤ NetBios.MAX_FRAME_LENGTH) (s : TcpStream)
    {more : List NetBios.Event}
    (h : events s.incoming = bytesOnly (frames.flatMap messageWire) ++ more) :
    ∃ incoming, receiveAll frames.length s = .ok frames { s with incoming } ∧
      events incoming = more := by
  induction frames generalizing s with
  | nil => exact ⟨s.incoming, rfl, h⟩
  | cons frame rest ih =>
    rw [List.flatMap_cons, NetBios.bytesOnly_append, List.append_assoc] at h
    obtain ⟨in1, hfirst, hmore⟩ := recvMessage_wire s frame (hfits frame List.mem_cons_self) h
    obtain ⟨in2, hrest, hlast⟩ := ih (fun f hf => hfits f (List.mem_cons_of_mem _ hf))
      { s with incoming := in1 } hmore
    refine ⟨in2, ?_, hlast⟩
    rw [List.length_cons, receiveAll, fut_bind, hfirst]
    dsimp only
    rw [fut_bind, hrest]
    rfl

theorem Account.take {c : TcpCifs} (hc : Account c) (k : ℕ)
    (hwhole : ∀ o ∈ c.outbox.take k, o.Whole) :
    ∃ more, c.netbios.written = ((c.outbox.take k).map Outgoing.frame).flatMap messageWire ++ more := by
  refine ⟨(c.outbox.drop k).flatMap Outgoing.out, ?_⟩
  have hwires : (c.outbox.take k).flatMap Outgoing.out =
      ((c.outbox.take k).map Outgoing.frame).flatMap messageWire := by
    rw [List.flatMap_map]
    exact List.flatMap_congr fun o ho => hwhole o ho
  conv => lhs; rw [hc.written, ← List.take_append_drop k c.outbox]
  rw [List.flatMap_append, hwires]

/-- What a run has written is its requests, in order and numbered; a server that reads the bytes
in any segments gets all of them in front of the first that was cut, and understands each. After
calls that all returned, none was cut. -/
theorem requests_arrive (auth : Ntlm.Auth) (inputs : List TcpInput)
    (hknown : ∀ i ∈ inputs, i.op.Known) :
    Account (Runs.run step (fresh auth) inputs).2 ∧
    ((∀ outcome ∈ (Runs.run step (fresh auth) inputs).1, outcome.stop = none) →
      ∀ o ∈ (Runs.run step (fresh auth) inputs).2.outbox, o.Whole) ∧
    (∀ k, (∀ o ∈ (Runs.run step (fresh auth) inputs).2.outbox.take k, o.Whole) →
      ∀ server : TcpStream,
        events server.incoming =
          bytesOnly (Runs.run step (fresh auth) inputs).2.netbios.written →
        ∃ incoming,
          receiveAll ((Runs.run step (fresh auth) inputs).2.outbox.take k).length server =
            .ok (((Runs.run step (fresh auth) inputs).2.outbox.take k).map Outgoing.frame)
              { server with incoming }) ∧
    ∀ o ∈ (Runs.run step (fresh auth) inputs).2.outbox, ∃ m info, o.Holds m info ∧
      (contains info.flags2 Flags2.UNICODE → m.Plain → Message.parse o.frame = .ok (info, m)) := by
  obtain ⟨haccount, new, houtbox, hwhole⟩ := run_accounts (fresh_account auth) inputs hknown
  refine ⟨haccount, ?_, fun k hk server hserver => ?_, fun o ho => ?_⟩
  · have hnew : (Runs.run step (fresh auth) inputs).2.outbox = new := houtbox
    rw [hnew]
    exact hwhole
  · obtain ⟨more, hwritten⟩ := haccount.take k hk
    rw [hwritten, NetBios.bytesOnly_append] at hserver
    have hfits : ∀ frame ∈ ((Runs.run step (fresh auth) inputs).2.outbox.take k).map Outgoing.frame,
        frame.length ≤ NetBios.MAX_FRAME_LENGTH := by
      intro frame hframe
      obtain ⟨o, ho, rfl⟩ := List.mem_map.mp hframe
      exact (haccount.sound o (List.mem_of_mem_take ho)).fits
    obtain ⟨incoming, hreceived, -⟩ := receiveAll_wires _ hfits server hserver
    rw [List.length_map] at hreceived
    exact ⟨incoming, hreceived⟩
  · obtain ⟨m, info, hholds⟩ := (haccount.sound o ho).request
    exact ⟨m, info, hholds, fun hunicode hplain => Message.parse_write hplain
      ⟨hholds.cmd, hholds.fixed, hholds.status, hunicode⟩ hholds.written⟩

/-! ### A share that is left twice, and the second time not to the end -/

def disconnectHeader : Info := { Info.default .TreeDisconnect with tid := 7 }

def disconnectFrame : Bytes := disconnectHeader.write ++ [0, 0, 0]

def disconnectTwice : List TcpInput := [answeredDisconnect.toTcpInput, stuckDisconnect.toTcpInput]

/-- The first request, in two segments, and what got out of the second. -/
def atServer : TcpStream where
  incoming := [.segment 0 [0, 0], .segment 35 disconnectFrame, .segment 0 [0, 0, 35, 0xff, 83, 77, 66, 113, 0]]
  room := []
  blocked := none
  written := []

theorem requests_arrive_disconnect :
    (Runs.run step (fresh Cifs.noAuth) disconnectTwice).2.outbox.map Outgoing.number = [0, 1] ∧
    (∃ o ∈ (Runs.run step (fresh Cifs.noAuth) disconnectTwice).2.outbox, ¬o.Whole) ∧
    (∃ incoming, receiveAll 1 atServer = .ok [disconnectFrame] { atServer with incoming }) ∧
    ∃ m info, Outgoing.Holds ⟨0, disconnectFrame, messageWire disconnectFrame⟩ m info ∧
      (contains info.flags2 Flags2.UNICODE → m.Plain →
        Message.parse disconnectFrame = .ok (info, m)) := by
  have hknown : ∀ i ∈ disconnectTwice, i.op.Known := by
    intro i hi
    simp only [disconnectTwice, List.mem_cons, List.not_mem_nil, or_false] at hi
    rcases hi with rfl | rfl
    · exact ⟨_, isMessage_fold (.treeDisconnect ⟨7⟩)⟩
    · exact ⟨_, isMessage_fold (.treeDisconnect ⟨7⟩)⟩
  obtain ⟨-, -, harrive, hheld⟩ := requests_arrive Cifs.noAuth disconnectTwice hknown
  have hbox : ∃ cut, (Runs.run step (fresh Cifs.noAuth) disconnectTwice).2.outbox =
      [⟨0, disconnectFrame, messageWire disconnectFrame⟩, cut] ∧ cut.number = 1 ∧ ¬cut.Whole :=
    ⟨_, rfl, rfl, by simp only [Outgoing.Whole]; decide⟩
  obtain ⟨cut, hbox, hnumber, hcut⟩ := hbox
  rw [hbox] at harrive hheld ⊢
  refine ⟨by simp [hnumber], ⟨cut, by simp, hcut⟩, ?_, hheld _ List.mem_cons_self⟩
  have hwhole : ∀ o ∈ [(⟨0, disconnectFrame, messageWire disconnectFrame⟩ : Outgoing), cut].take 1,
      o.Whole := by
    intro o ho
    rw [List.mem_singleton.mp ho]
    rfl
  exact harrive 1 hwhole atServer rfl

end TcpCifs

end CifsClientStream
