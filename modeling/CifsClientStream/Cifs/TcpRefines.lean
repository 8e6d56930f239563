import CifsClientStream.Cifs.Tcp
import CifsClientStream.Cifs.Run

/-!
# Frames for bytes (struct `Cifs` of src/lib.rs on the stream of src/netbios.rs)

A run over the TCP stream is a run over whole frames: where the server's frames
arrive whole while an operation runs, in any segments, the operation ends as it
does on the frames themselves. So what is shown of runs over frames holds of
runs over bytes.
-/

namespace CifsClientStream.TcpCifs
open Cursor Async Win Smb Utils Simulation
open Cifs (PendingReply Delivery WriteStep Ticket parseFrame parseReply liftSmb duplicateReply)
open NetBios (Event RawFrame TcpStream events bytesOnly eventBytes)

/-! ### Arrivals of the two levels -/

/-- A frame as the level of frames has it. -/
def arrivalOf (answers : ℕ) (f : RawFrame) : Cifs.Arrival :=
  match f.read with
  | .ok frame => .frame answers frame
  | .error e => .failed e

/-- The events are those of whole frames and of errors between them. If the stream is over, it
ends behind the last one and stays so. -/
inductive Carries : Bool → List Event → List Cifs.Arrival → Prop
  | done : Carries false [] []
  | closed (junk : List Event) :
    Carries true (.closed :: junk) [.failed (.IoError .UnexpectedEof)]
  | frame {shut : Bool} {evs : List Event} {arrivals : List Cifs.Arrival} (answers : ℕ)
    (f : RawFrame) :
    Carries shut evs arrivals →
      Carries shut (bytesOnly f.wire ++ evs) (arrivalOf answers f :: arrivals)
  | failed {shut : Bool} {evs : List Event} {arrivals : List Cifs.Arrival} (kind : IoErrorKind) :
    Carries shut evs arrivals →
      Carries shut (.failed kind :: evs) (.failed (.IoError kind) :: arrivals)

/-- After a call that has stopped, the end of the stream may have been met. -/
def Stopped (shut : Bool) (evs : List Event) (arrivals : List Cifs.Arrival) : Prop :=
  Carries shut evs arrivals ∨ shut = true ∧ (∃ junk, evs = .closed :: junk) ∧ arrivals = []

variable {shut : Bool} {evs : List Event} {arrivals : List Cifs.Arrival}

theorem Carries.length_le (h : Carries shut evs arrivals) : arrivals.length ≤ evs.length := by
  induction h with
  | done => exact le_rfl
  | closed junk => simp
  | frame answers f _ ih =>
    rw [List.length_cons, List.length_append, NetBios.bytesOnly_length, f.wire_length]
    omega
  | failed kind _ ih =>
    rw [List.length_cons, List.length_cons]
    omega

theorem Carries.append {more : List Event} {brought : List Cifs.Arrival} {shut' : Bool}
    (h : Carries false evs arrivals) (hmore : Carries shut' more brought) :
    Carries shut' (evs ++ more) (arrivals ++ brought) := by
  generalize hopen : false = o at h
  induction h with
  | done => exact hmore
  | closed junk => cases hopen
  | frame answers f _ ih =>
    rw [List.append_assoc]
    exact .frame answers f (ih hopen)
  | failed kind _ ih => exact .failed kind (ih hopen)

theorem Carries.append_junk (h : Carries true evs arrivals) (junk : List Event) :
    Carries true (evs ++ junk) arrivals := by
  generalize hover : true = o at h
  induction h with
  | done => cases hover
  | closed more => exact .closed (more ++ junk)
  | frame answers f _ ih =>
    rw [List.append_assoc]
    exact .frame answers f (ih hover)
  | failed kind _ ih => exact .failed kind (ih hover)

/-- What arrives during the next call continues what was left, unless the stream is over. -/
theorem Stopped.next {more : List Event} {frames : List Cifs.Arrival} {shut' : Bool}
    (h : Stopped shut evs arrivals) (hmore : Carries shut' more frames) :
    ∃ brought, (shut = false → brought = frames) ∧
      Carries (shut || shut') (evs ++ more) (arrivals ++ brought) := by
  rcases h with h | ⟨rfl, ⟨junk, rfl⟩, rfl⟩
  · cases shut with
    | false => exact ⟨frames, fun _ => rfl, h.append hmore⟩
    | true =>
      refine ⟨[], nofun, ?_⟩
      rw [List.append_nil]
      exact h.append_junk more
  · exact ⟨[.failed (.IoError .UnexpectedEof)], nofun, .closed (junk ++ more)⟩

/-! ### The next message -/

/-- The loop of `recv_message` takes the next message, or stops, as it does on frames. -/
theorem recvMessageLoop_carries (h : Carries shut evs arrivals) (fuel : ℕ) (s : TcpStream)
    (hs : events s.incoming = evs) (hfuel : (eventBytes evs).length < fuel) :
    ∃ incoming, match Cifs.recvMessage arrivals with
      | (.ok (_, msg), rest) =>
        NetBios.recvMessageLoop fuel s = .ok msg { s with incoming } ∧
          Carries shut (events incoming) rest ∧ rest.length < arrivals.length
      | (.error e, rest) =>
        NetBios.recvMessageLoop fuel s = .error e { s with incoming } ∧
          Stopped shut (events incoming) rest := by
  induction h generalizing fuel s with
  | done =>
    obtain ⟨fuel, rfl⟩ : ∃ n, fuel = n + 1 := ⟨fuel - 1, by omega⟩
    have hread : NetBios.readEvents (.IoError .UnexpectedEof) (events s.incoming) 1 [] =
        (.error .dropped, []) := by
      rw [hs]
      rfl
    obtain ⟨incoming, hrecv, hmore⟩ := NetBios.recv_stop s hread
    refine ⟨incoming, ?_, ?_⟩
    · rw [NetBios.recvMessageLoop, fut_bind, hrecv]
    · rw [hmore]
      exact Or.inl .done
  | closed junk =>
    obtain ⟨fuel, rfl⟩ : ∃ n, fuel = n + 1 := ⟨fuel - 1, by omega⟩
    have hread : NetBios.readEvents (.IoError .UnexpectedEof) (events s.incoming) 1 [] =
        (.error (.error (.IoError .UnexpectedEof)), .closed :: junk) := by
      rw [hs]
      rfl
    obtain ⟨incoming, hrecv, hmore⟩ := NetBios.recv_stop s hread
    refine ⟨incoming, ?_, ?_⟩
    · rw [NetBios.recvMessageLoop, fut_bind, hrecv]
    · rw [hmore]
      exact Or.inr ⟨rfl, ⟨junk, rfl⟩, rfl⟩
  | @failed shut evs arrivals kind hrest ih =>
    obtain ⟨fuel, rfl⟩ : ∃ n, fuel = n + 1 := ⟨fuel - 1, by omega⟩
    have hread : NetBios.readEvents (.IoError .UnexpectedEof) (events s.incoming) 1 [] =
        (.error (.error (.IoError kind)), evs) := by
      rw [hs]
      rfl
    obtain ⟨incoming, hrecv, hmore⟩ := NetBios.recv_stop s hread
    refine ⟨incoming, ?_, ?_⟩
    · rw [NetBios.recvMessageLoop, fut_bind, hrecv]
    · rw [hmore]
      exact Or.inl hrest
  | @frame shut evs arrivals answers f hrest ih =>
    obtain ⟨fuel, rfl⟩ : ∃ n, fuel = n + 1 := ⟨fuel - 1, by omega⟩
    rw [NetBios.eventBytes_append, List.length_append, f.wire_length] at hfuel
    obtain ⟨incoming, hrecv, hmore⟩ := NetBios.recv_frame s f hs
    rw [NetBios.recvMessageLoop]
    simp only [fut_bind, hrecv]
    cases hread : f.read with
    | error e =>
      have harrival : arrivalOf answers f = .failed e := by rw [arrivalOf, hread]
      rw [harrival]
      refine ⟨incoming, rfl, ?_⟩
      rw [hmore]
      exact Or.inl hrest
    | ok frame =>
      have harrival : arrivalOf answers f = .frame answers frame := by rw [arrivalOf, hread]
      have hstopped : Stopped shut (events incoming) arrivals := by
        rw [hmore]
        exact Or.inl hrest
      rw [harrival]
      cases frame with
      | Message msg =>
        refine ⟨incoming, rfl, ?_, ?_⟩
        · rw [hmore]
          exact hrest
        · rw [List.length_cons]
          exact Nat.lt_succ_self _
      | Keepalive =>
        obtain ⟨later, hlater⟩ := ih fuel { s with incoming } hmore (by omega)
        refine ⟨later, ?_⟩
        simp only [Cifs.recvMessage]
        cases hnext : Cifs.recvMessage arrivals with
        | mk result rest =>
          rw [hnext] at hlater
          cases result with
          | ok found =>
            obtain ⟨hloop, hcarries, hless⟩ := hlater
            refine ⟨hloop, hcarries, ?_⟩
            rw [List.length_cons]
            exact Nat.lt_succ_of_lt hless
          | error e => exact hlater
      | SessionRequest msg => exact ⟨incoming, rfl, hstopped⟩
      | PositiveResponse => exact ⟨incoming, rfl, hstopped⟩
      | NegativeResponse code => exact ⟨incoming, rfl, hstopped⟩
      | Retarget => exact ⟨incoming, rfl, hstopped⟩

/-! ### Related states -/

/-- What both levels have but what is on its way. -/
structure Session where
  auth : Ntlm.Auth
  maxSmbSize : ℕ
  useUnicode : Bool
  uid : UInt16
  mid : UInt16
  ioStats : Cifs.IoStats
  pendingReplies : UInt16 → Option PendingReply

def session (s : TcpCifs) : Session where
  auth := s.auth
  maxSmbSize := s.maxSmbSize
  useUnicode := s.useUnicode
  uid := s.uid
  mid := s.mid
  ioStats := s.ioStats
  pendingReplies := s.pendingReplies

def sessionOf (t : Cifs) : Session where
  auth := t.auth
  maxSmbSize := t.maxSmbSize
  useUnicode := t.useUnicode
  uid := t.uid
  mid := t.mid
  ioStats := t.ioStats
  pendingReplies := fun mid => (t.pendingReplies mid).map Delivery.reply

/-- While an operation runs. -/
structure Running (shut : Bool) (s : TcpCifs) (t : Cifs) : Prop where
  same : s.session = sessionOf t
  carries : Carries shut (events s.netbios.incoming) t.netbios.incoming

structure Ended (shut : Bool) (s : TcpCifs) (t : Cifs) : Prop where
  same : s.session = sessionOf t
  stopped : Stopped shut (events s.netbios.incoming) t.netbios.incoming

variable {s : TcpCifs} {t : Cifs}

theorem Running.ended (h : Running shut s t) : Ended shut s t := ⟨h.same, Or.inl h.carries⟩

/-- The script of the level of frames: what becomes of the frames that are sent. -/
def writing (script : List WriteStep) (c : Cifs) : Cifs :=
  { c with netbios := { c.netbios with writes := script } }

theorem Running.pending (h : Running shut s t) (mid : UInt16) :
    s.pendingReplies mid = (t.pendingReplies mid).map Delivery.reply :=
  congrFun (congrArg Session.pendingReplies h.same) mid

theorem Running.header (h : Running shut s t) (cmd : Cmd) : s.header cmd = t.header cmd := by
  have huid : s.uid = t.uid := congrArg Session.uid h.same
  have hmid : s.mid = t.mid := congrArg Session.mid h.same
  have hunicode : s.useUnicode = t.useUnicode := congrArg Session.useUnicode h.same
  rw [TcpCifs.header, Cifs.header, huid, hmid, hunicode]

/-! ### Sending -/

theorem sendMessage_matches (h : Running shut s t) (frame : Bytes) (mid : UInt16) :
    Matches writing (fun _ ticket s' t' => ticket.mid = mid ∧ Running shut s' t') (Ended shut)
      (TcpCifs.sendMessage frame) s (Cifs.sendMessage frame mid) t := by
  have hlogged (n : TcpStream) (hin : n.incoming = s.netbios.incoming) :
      Running shut (s.logOut frame n) t := by
    refine ⟨h.same, ?_⟩
    change Carries shut (events n.incoming) _
    rw [hin]
    exact h.carries
  cases hencode : (NetBios.Frame.Message frame).encode with
  | error e =>
    refine .stops [] (.error (.NetBios e)) s t ?_ (fun rest => ?_) h.ended
    · rw [TcpCifs.sendMessage, hencode]
    · rw [Cifs.sendMessage, hencode]
      rfl
  | ok encoding =>
    rcases NetBios.writeExactly_cases encoding s.netbios with
      ⟨n, hwrite, hin⟩ | ⟨n, hwrite, hin⟩ | ⟨kind, n, hwrite, hin⟩
    · refine .returns [.written] ⟨⟩ ⟨mid, t.history.sent.length⟩ (s.logOut frame n)
        { t with history := { t.history with
            sent := t.history.sent ++ [⟨mid, (t.pendingReplies mid).isSome⟩] } }
        ?_ (fun rest => ?_) ⟨rfl, (hlogged n hin).same, (hlogged n hin).carries⟩
      · rw [TcpCifs.sendMessage, hencode]
        simp only [hwrite]
      · rw [Cifs.sendMessage, hencode]
        rfl
    · refine .stops [.dropped] .dropped (s.logOut frame n) t ?_ (fun rest => ?_)
        (hlogged n hin).ended
      · rw [TcpCifs.sendMessage, hencode]
        simp only [hwrite]
        rfl
      · rw [Cifs.sendMessage, hencode]
        rfl
    · refine .stops [.failed (.IoError kind)] (.error (.NetBios (.IoError kind)))
        (s.logOut frame n) t ?_ (fun rest => ?_) (hlogged n hin).ended
      · rw [TcpCifs.sendMessage, hencode]
        simp only [hwrite]
        rfl
      · rw [Cifs.sendMessage, hencode]
        rfl

theorem send_matches {M : Type} [Msg M] (h : Running shut s t) (msg : M) :
    Matches writing (fun mid ticket s' t' => ticket.mid = mid ∧ Running shut s' t') (Ended shut)
      (TcpCifs.send msg) s (Cifs.send msg) t := by
  have hmid : s.mid = t.mid := congrArg Session.mid h.same
  have hnext : Running shut { s with mid := s.mid + 1, sends := s.sends + 1 }
      { t with mid := t.mid + 1 } :=
    ⟨congrArg (fun x => { x with mid := x.mid + 1 }) h.same, h.carries⟩
  unfold TcpCifs.send Cifs.send
  refine matches_get (fun _ => rfl) ?_
  rw [h.header, hmid]
  refine matches_bind (Q := fun _ _ => Running shut) (matches_modify (fun _ => rfl) hnext)
    fun _ _ s1 t1 h1 => ?_
  refine matches_bind (Q := fun a b s' t' => a = b ∧ Running shut s' t')
    (matches_lift _ (fun _ _ => ⟨rfl, h1⟩) h1.ended) fun frame _ s2 t2 h2 => ?_
  rw [← h2.1]
  exact matches_bind_pure (sendMessage_matches h2.2 frame t.mid) fun _ _ _ _ h3 => h3

/-! ### Receiving -/

theorem recvFrame_matches (h : Running shut s t) :
    Matches writing (fun pending d s' t' => d.reply = pending ∧ Running shut s' t' ∧
        t'.netbios.incoming.length < t.netbios.incoming.length ∧
        t'.pendingReplies = t.pendingReplies) (Ended shut)
      TcpCifs.recvFrame s Cifs.recvFrame t := by
  have hbytes := NetBios.bytesOf_events s.netbios.incoming
  obtain ⟨incoming, hloop⟩ := recvMessageLoop_carries h.carries
    ((NetBios.bytesOf s.netbios.incoming).length + 1) s.netbios rfl (by
      rw [hbytes]
      exact Nat.lt_succ_self _)
  have hright (script : List WriteStep) : (writing script t).netbios.incoming =
      t.netbios.incoming := rfl
  unfold TcpCifs.recvFrame
  cases hnext : Cifs.recvMessage t.netbios.incoming with
  | mk result rest =>
    rw [hnext] at hloop
    cases result with
    | error e =>
      obtain ⟨hrecv, hstopped⟩ := hloop
      refine .stops [] (e.map .NetBios) { s with netbios := { s.netbios with incoming } }
        (t.withIncoming rest) ?_ (fun script => ?_) ⟨h.same, hstopped⟩
      · rw [fut_bind, TcpCifs.recvMessage, NetBios.recvMessage, hrecv]
      · rw [List.nil_append, Cifs.recvFrame, hright, hnext]
        rfl
    | ok found =>
      obtain ⟨answers, frame⟩ := found
      obtain ⟨hrecv, hcarries, hless⟩ := hloop
      have hleft : (TcpCifs.recvMessage >>= fun frame => lift (parseFrame frame)) s =
          (lift (parseFrame frame) : Fut Error TcpCifs PendingReply)
            { s with netbios := { s.netbios with incoming } } := by
        rw [fut_bind, TcpCifs.recvMessage, NetBios.recvMessage, hrecv]
      rcases hparse : parseFrame frame with (e | _) | reply
      · rw [hparse] at hleft
        refine .stops [] (.error e) _ (t.withIncoming rest) hleft (fun script => ?_)
          ⟨h.same, Or.inl hcarries⟩
        rw [List.nil_append, Cifs.recvFrame, hright, hnext]
        simp only [hparse]
        rfl
      · rw [hparse] at hleft
        refine .stops [] .panic _ (t.withIncoming rest) hleft (fun script => ?_)
          ⟨h.same, Or.inl hcarries⟩
        rw [List.nil_append, Cifs.recvFrame, hright, hnext]
        simp only [hparse]
        rfl
      · rw [hparse] at hleft
        refine .returns [] reply ⟨reply, answers⟩ _
          ((t.withIncoming rest).logReceived ⟨reply, answers⟩) hleft (fun script => ?_)
          ⟨rfl, ⟨h.same, hcarries⟩, hless, rfl⟩
        rw [List.nil_append, Cifs.recvFrame_ok (writing script t) answers frame rest reply hnext
          hparse]
        rfl

theorem hand_matches (R : Type) [Reply R] (h : Running shut s t) (ticket : Ticket) (d : Delivery) :
    Matches writing (fun a b s' t' => a = b ∧ Running shut s' t' ∧
        t'.netbios = t.netbios ∧ t'.pendingReplies = t.pendingReplies) (Ended shut)
      (lift (parseReply R d.reply) : Fut Error TcpCifs R) s (Cifs.hand R ticket d) t := by
  rcases hparse : parseReply R d.reply with (e | _) | reply
  · refine .stops [] (.error e) s (t.logHanded ticket.request d) rfl (fun script => ?_) ?_
    · rw [Cifs.hand, hparse]
      rfl
    · exact ⟨h.same, Or.inl h.carries⟩
  · refine .stops [] .panic s (t.logHanded ticket.request d) rfl (fun script => ?_) ?_
    · rw [Cifs.hand, hparse]
      rfl
    · exact ⟨h.same, Or.inl h.carries⟩
  · refine .returns [] reply reply s (t.logHanded ticket.request d) rfl (fun script => ?_) ?_
    · rw [Cifs.hand, hparse]
      rfl
    · exact ⟨rfl, ⟨h.same, h.carries⟩, rfl, rfl⟩

theorem store_same (h : s.session = sessionOf t) (mid : UInt16) (d : Option Delivery) :
    session { s with
        pendingReplies := Function.update s.pendingReplies mid (d.map Delivery.reply) } =
      sessionOf (t.store mid d) := by
  have hpending : s.pendingReplies = fun mid => (t.pendingReplies mid).map Delivery.reply :=
    congrArg Session.pendingReplies h
  have hupdate : Function.update s.pendingReplies mid (d.map Delivery.reply) =
      fun m => ((t.store mid d).pendingReplies m).map Delivery.reply := by
    funext m
    by_cases hm : m = mid
    · rw [hm, Function.update_self, Cifs.store_self]
    · rw [Function.update_of_ne hm, Cifs.store_of_ne _ _ _ hm, hpending]
  have hsession := congrArg (fun x : Session => { x with
    pendingReplies := Function.update s.pendingReplies mid (d.map Delivery.reply) }) h
  refine hsession.trans ?_
  rw [hupdate]
  rfl

theorem putAside_matches (h : Running shut s t) (d : Delivery) :
    Matches writing (fun _ _ s' t' => Running shut s' t' ∧ t'.netbios = t.netbios ∧
        t'.pendingReplies = Function.update t.pendingReplies d.mid (some d)) (Ended shut)
      (TcpCifs.putAside d.reply) s (Cifs.putAside d) t := by
  have hstored : Running shut
      { s with pendingReplies := Function.update s.pendingReplies d.mid (some d.reply) }
      (t.store d.mid (some d)) := ⟨store_same h.same d.mid (some d), h.carries⟩
  unfold TcpCifs.putAside Cifs.putAside
  refine matches_get (fun _ => rfl) ?_
  refine matches_bind (Q := fun _ _ s' t' => Running shut s' t' ∧ t' = t.store d.mid (some d))
    (matches_modify (fun _ => rfl) ⟨hstored, rfl⟩) fun _ _ s1 t1 h1 => ?_
  obtain ⟨h1, rfl⟩ := h1
  have hfound : (s.pendingReplies d.reply.info.mid).isSome = (t.pendingReplies d.mid).isSome := by
    rw [h.pending, Option.isSome_map]
    rfl
  rw [hfound]
  by_cases hstays : (t.pendingReplies d.mid).isSome
  · rw [if_pos hstays, if_pos hstays]
    exact matches_raise _ h1.ended
  · rw [if_neg hstays, if_neg hstays]
    exact matches_pure ⟨h1, rfl, rfl⟩

/-- The frames of a call are in both queues, so neither loop runs out of fuel. -/
theorem recvLoop_matches (R : Type) [Reply R] (ticket : Ticket) (n m : ℕ)
    (h : Running shut s t) (hn : t.netbios.incoming.length < n)
    (hm : t.netbios.incoming.length < m) :
    Matches writing (fun a b s' t' => a = b ∧ Running shut s' t' ∧
        t'.netbios.incoming.length < t.netbios.incoming.length ∧
        t'.pendingReplies ticket.mid = t.pendingReplies ticket.mid) (Ended shut)
      (TcpCifs.recvLoop R ticket.mid n) s (Cifs.recvLoop R ticket m) t := by
  induction n generalizing m s t with
  | zero => omega
  | succ n ih =>
    obtain ⟨m, rfl⟩ : ∃ k, m = k + 1 := ⟨m - 1, by omega⟩
    unfold TcpCifs.recvLoop Cifs.recvLoop
    refine matches_bind (recvFrame_matches h) fun pending d s1 t1 h1 => ?_
    obtain ⟨rfl, h1, hless, hsame⟩ := h1
    have hreply : d.reply.info.mid = d.mid := rfl
    rw [hreply]
    by_cases hmid : d.mid = ticket.mid
    · rw [if_pos hmid, if_pos hmid]
      refine (hand_matches R h1 ticket d).mono (fun a b s' t' h2 => ?_) fun _ _ h2 => h2
      obtain ⟨hab, hrun, hnet, hpending⟩ := h2
      refine ⟨hab, hrun, ?_, ?_⟩
      · rw [hnet]
        exact hless
      · rw [hpending, hsame]
    · rw [if_neg hmid, if_neg hmid]
      refine matches_bind (putAside_matches h1 d) fun _ _ s2 t2 h2 => ?_
      obtain ⟨h2, hnet, hpending⟩ := h2
      have hshorter : t2.netbios.incoming.length < t.netbios.incoming.length := by
        rw [hnet]
        exact hless
      refine (ih m h2 (by omega) (by omega)).mono (fun a b s' t' h3 => ?_) fun _ _ h3 => h3
      obtain ⟨hab, hrun, hless', hpending'⟩ := h3
      refine ⟨hab, hrun, hless'.trans hshorter, ?_⟩
      rw [hpending', hpending, Function.update_of_ne (Ne.symm hmid), hsame]

/-- What a receive takes: a stored message, or frames. -/
def left (mid : UInt16) (t : Cifs) : ℕ :=
  t.netbios.incoming.length + if (t.pendingReplies mid).isSome then 1 else 0

theorem recv_matches (R : Type) [Reply R] (ticket : Ticket) (h : Running shut s t) :
    Matches writing (fun a b s' t' => a = b ∧ Running shut s' t' ∧
        left ticket.mid t' < left ticket.mid t) (Ended shut)
      (TcpCifs.recv R ticket.mid) s (Cifs.recv R ticket) t := by
  unfold TcpCifs.recv Cifs.recv
  refine matches_get (fun _ => rfl) ?_
  have hpending := h.pending ticket.mid
  cases hstored : t.pendingReplies ticket.mid with
  | some d =>
    rw [hstored] at hpending
    simp only [hpending, Option.map_some]
    refine matches_bind (Q := fun _ _ s' t' => Running shut s' t' ∧ t' = t.store ticket.mid none)
      (matches_modify (fun _ => rfl) ⟨⟨store_same h.same ticket.mid none, h.carries⟩, rfl⟩)
      fun _ _ s1 t1 h1 => ?_
    obtain ⟨h1, rfl⟩ := h1
    refine (hand_matches R h1 ticket d).mono (fun a b s' t' h2 => ?_) fun _ _ h2 => h2
    obtain ⟨hab, hrun, hnet, hpending'⟩ := h2
    refine ⟨hab, hrun, ?_⟩
    unfold left
    rw [hnet, hpending', Cifs.store_self, hstored]
    exact Nat.lt_succ_self _
  | none =>
    rw [hstored] at hpending
    simp only [hpending, Option.map_none]
    refine (recvLoop_matches R ticket _ _ h (Nat.lt_succ_of_le h.carries.length_le)
      (Nat.lt_succ_self _)).mono (fun a b s' t' h2 => ?_) fun _ _ h2 => h2
    obtain ⟨hab, hrun, hless, hpending'⟩ := h2
    refine ⟨hab, hrun, ?_⟩
    unfold left
    rw [hpending', hstored]
    exact hless

theorem command_matches {M : Type} (R : Type) [Msg M] [Reply R] (msg : M)
    (h : Running shut s t) :
    Matches writing (fun a b s' t' => a = b ∧ Running shut s' t') (Ended shut)
      (TcpCifs.command R msg) s (Cifs.command R msg) t := by
  unfold TcpCifs.command Cifs.command
  refine matches_bind (send_matches h msg) fun mid ticket s1 t1 h1 => ?_
  obtain ⟨rfl, h1⟩ := h1
  exact (recv_matches R ticket h1).mono (fun _ _ _ _ h2 => ⟨h2.1, h2.2.1⟩) fun _ _ h2 => h2

/-! ### Reads -/

theorem recordRead_matches (h : Running shut s t) (bytes : ℕ) :
    Matches writing (fun _ _ => Running shut) (Ended shut)
      (TcpCifs.recordRead bytes) s (Cifs.recordRead bytes) t := by
  refine matches_modify (fun _ => rfl) ⟨?_, h.carries⟩
  exact congrArg (fun x : Session => { x with ioStats := x.ioStats.recordRead bytes }) h.same

theorem readAt_matches (h : Running shut s t) (file : Handle) (offset : ℕ) (count : UInt32) :
    Matches writing (fun a b s' t' => a = b ∧ Running shut s' t') (Ended shut)
      (TcpCifs.readAt file offset count) s (Cifs.readAt file offset count) t := by
  unfold TcpCifs.readAt Cifs.readAt
  by_cases h0 : count = 0
  · rw [if_pos h0, if_pos h0]
    exact matches_pure ⟨rfl, h⟩
  · rw [if_neg h0, if_neg h0]
    refine matches_bind (command_matches Reply.Read _ h) fun reply _ s1 t1 h1 => ?_
    obtain ⟨rfl, h1⟩ := h1
    exact matches_bind (recordRead_matches h1 _) fun _ _ s2 t2 h2 => matches_pure ⟨rfl, h2⟩

theorem sendReads_matches (h : Running shut s t) (file : Handle)
    (requests : List Cifs.StreamingWorkerReadRequest) :
    Matches writing (fun mids tickets s' t' => mids = tickets.map Ticket.mid ∧
        Running shut s' t') (Ended shut)
      (TcpCifs.sendReads file requests) s (Cifs.sendReads file requests) t := by
  induction requests generalizing s t with
  | nil => exact matches_pure ⟨rfl, h⟩
  | cons request rest ih =>
    unfold TcpCifs.sendReads Cifs.sendReads
    refine matches_bind (Q := fun a b s' t' => a = b ∧ Running shut s' t')
      (matches_ofExcept _ (fun _ _ => ⟨rfl, h⟩) h.ended) fun count _ s1 t1 h1 => ?_
    obtain ⟨rfl, h1⟩ := h1
    refine matches_bind (send_matches h1 _) fun mid ticket s2 t2 h2 => ?_
    obtain ⟨rfl, h2⟩ := h2
    refine matches_bind (ih h2) fun mids tickets s3 t3 h3 => ?_
    obtain ⟨rfl, h3⟩ := h3
    exact matches_pure ⟨rfl, h3⟩

theorem recvReads_matches (h : Running shut s t) (tickets : List Ticket) :
    Matches writing (fun a b s' t' => a = b ∧ Running shut s' t') (Ended shut)
      (TcpCifs.recvReads (tickets.map Ticket.mid)) s (Cifs.recvReads tickets) t := by
  induction tickets generalizing s t with
  | nil => exact matches_pure ⟨rfl, h⟩
  | cons ticket rest ih =>
    rw [List.map_cons]
    unfold TcpCifs.recvReads Cifs.recvReads
    refine matches_bind (recv_matches Reply.Read ticket h) fun reply _ s1 t1 h1 => ?_
    obtain ⟨rfl, h1, -⟩ := h1
    refine matches_bind (recordRead_matches h1 _) fun _ _ s2 t2 h2 => ?_
    refine matches_bind (ih h2) fun chunks _ s3 t3 h3 => ?_
    obtain ⟨rfl, h3⟩ := h3
    exact matches_pure ⟨rfl, h3⟩

theorem readAtPipelined_matches (h : Running shut s t) (file : Handle)
    (requests : List Cifs.StreamingWorkerReadRequest) :
    Matches writing (fun a b s' t' => a = b ∧ Running shut s' t') (Ended shut)
      (TcpCifs.readAtPipelined file requests) s (Cifs.readAtPipelined file requests) t := by
  match requests with
  | [] => exact matches_pure ⟨rfl, h⟩
  | [request] =>
    unfold TcpCifs.readAtPipelined Cifs.readAtPipelined
    refine matches_bind (Q := fun a b s' t' => a = b ∧ Running shut s' t')
      (matches_ofExcept _ (fun _ _ => ⟨rfl, h⟩) h.ended) fun count _ s1 t1 h1 => ?_
    obtain ⟨rfl, h1⟩ := h1
    refine matches_bind (readAt_matches h1 file _ count) fun chunk _ s2 t2 h2 => ?_
    obtain ⟨rfl, h2⟩ := h2
    exact matches_pure ⟨rfl, h2⟩
  | first :: second :: rest =>
    unfold TcpCifs.readAtPipelined Cifs.readAtPipelined
    refine matches_bind (sendReads_matches h file _) fun mids tickets s1 t1 h1 => ?_
    obtain ⟨rfl, h1⟩ := h1
    exact recvReads_matches h1 tickets

/-! ### Transactions -/

theorem collect_matches (ticket : Ticket) (n m : ℕ) (ctx : CollectTrans2) (h : Running shut s t)
    (hn : left ticket.mid t < n) (hm : left ticket.mid t < m) :
    Matches writing (fun a b s' t' => a = b ∧ Running shut s' t') (Ended shut)
      (TcpCifs.collect ticket.mid n ctx) s (Cifs.collect ticket m ctx) t := by
  induction n generalizing m ctx s t with
  | zero => omega
  | succ n ih =>
    obtain ⟨m, rfl⟩ : ∃ k, m = k + 1 := ⟨m - 1, by omega⟩
    unfold TcpCifs.collect Cifs.collect
    refine matches_bind (recv_matches Reply.Transact2 ticket h) fun reply _ s1 t1 h1 => ?_
    obtain ⟨rfl, h1, hless⟩ := h1
    refine matches_bind (Q := fun a b s' t' => a = b ∧ Running shut s' t' ∧ t' = t1)
      (matches_lift _ (fun _ _ => ⟨rfl, h1, rfl⟩) h1.ended) fun added _ s2 t2 h2 => ?_
    obtain ⟨rfl, h2, rfl⟩ := h2
    obtain ⟨complete, ctx⟩ := added
    dsimp only
    cases complete with
    | true => exact matches_pure ⟨rfl, h2⟩
    | false => exact ih m ctx h2 (by omega) (by omega)

theorem transact2_matches {C : Type} (R : Type) [SubCmd C] [SubReply R] (tid : UInt16)
    (subcmd : C) (h : Running shut s t) :
    Matches writing (fun a b s' t' => a = b ∧ Running shut s' t') (Ended shut)
      (TcpCifs.transact2 R tid subcmd) s (Cifs.transact2 R tid subcmd) t := by
  unfold TcpCifs.transact2 Cifs.transact2
  refine matches_bind (send_matches h _) fun mid ticket s1 t1 h1 => ?_
  obtain ⟨rfl, h1⟩ := h1
  refine matches_get (fun _ => rfl) ?_
  have hleft : left ticket.mid t1 ≤ t1.netbios.incoming.length + 1 := by
    unfold left
    split
    · exact le_rfl
    · exact Nat.le_succ _
  have hlength := h1.carries.length_le
  refine matches_bind (collect_matches ticket _ _ CollectTrans2.new h1 (by omega) (by omega))
    fun ctx _ s2 t2 h2 => ?_
  obtain ⟨rfl, h2⟩ := h2
  exact matches_lift _ (fun _ _ => ⟨rfl, h2⟩) h2.ended

/-! ### Setting up a connection -/

variable (crypto : Ntlm.Crypto)

theorem setUid_running (h : Running shut s t) (uid : UInt16) :
    Running shut { s with uid } { t with uid } :=
  ⟨congrArg (fun x : Session => { x with uid }) h.same, h.carries⟩

theorem authenticateNtlm_matches (h : Running shut s t) (challenge : Bytes) :
    Matches writing (fun a b s' t' => a = b ∧ Running shut s' t') (Ended shut)
      (TcpCifs.authenticateNtlm crypto challenge) s (Cifs.authenticateNtlm crypto challenge) t := by
  have hauth : s.auth = t.auth := congrArg Session.auth h.same
  unfold TcpCifs.authenticateNtlm Cifs.authenticateNtlm
  refine matches_get (fun _ => rfl) ?_
  rw [hauth]
  refine matches_bind (Q := fun a b s' t' => a = b ∧ Running shut s' t')
    (matches_lift _ (fun _ _ => ⟨rfl, h⟩) h.ended) fun secret _ s1 t1 h1 => ?_
  obtain ⟨rfl, h1⟩ := h1
  refine matches_bind (command_matches Reply.SessionSetup _ h1) fun setupReply _ s2 t2 h2 => ?_
  obtain ⟨rfl, h2⟩ := h2
  exact matches_modify (fun _ => rfl) ⟨rfl, setUid_running h2 setupReply.uid⟩

theorem authenticateNtlmv2_matches (h : Running shut s t) :
    Matches writing (fun a b s' t' => a = b ∧ Running shut s' t') (Ended shut)
      (TcpCifs.authenticateNtlmv2 crypto) s (Cifs.authenticateNtlmv2 crypto) t := by
  have hauth : s.auth = t.auth := congrArg Session.auth h.same
  unfold TcpCifs.authenticateNtlmv2 Cifs.authenticateNtlmv2
  refine matches_get (fun _ => rfl) ?_
  rw [hauth]
  refine matches_bind (Q := fun a b s' t' => a = b ∧ Running shut s' t')
    (matches_lift _ (fun _ _ => ⟨rfl, h⟩) h.ended) fun ntlmInit _ s1 t1 h1 => ?_
  obtain ⟨rfl, h1⟩ := h1
  refine matches_bind (command_matches Reply.SessionSetup _ h1) fun setupReply _ s2 t2 h2 => ?_
  obtain ⟨rfl, h2⟩ := h2
  refine matches_bind (Q := fun _ _ => Running shut)
    (matches_modify (fun _ => rfl) (setUid_running h2 setupReply.uid)) fun _ _ s3 t3 h3 => ?_
  refine matches_bind (Q := fun a b s' t' => a = b ∧ Running shut s' t')
    (matches_lift _ (fun _ _ => ⟨rfl, h3⟩) h3.ended) fun ntlmChallenge _ s4 t4 h4 => ?_
  obtain ⟨rfl, h4⟩ := h4
  refine matches_bind (Q := fun a b s' t' => a = b ∧ Running shut s' t')
    (matches_lift _ (fun _ _ => ⟨rfl, h4⟩) h4.ended) fun ntlmResponse _ s5 t5 h5 => ?_
  obtain ⟨rfl, h5⟩ := h5
  exact matches_bind (command_matches Reply.SessionSetup _ h5) fun _ _ s6 t6 h6 =>
    matches_pure ⟨rfl, h6.2⟩

theorem setupConnection_matches (h : Running shut s t) :
    Matches writing (fun a b s' t' => a = b ∧ Running shut s' t') (Ended shut)
      (TcpCifs.setupConnection crypto) s (Cifs.setupConnection crypto) t := by
  unfold TcpCifs.setupConnection Cifs.setupConnection
  refine matches_bind (command_matches Reply.ServerSetup _ h) fun serverSetup _ s1 t1 h1 => ?_
  obtain ⟨rfl, h1⟩ := h1
  have hsetup : Running shut
      { s1 with
        maxSmbSize := serverSetup.maxBufferSize.toNat
        useUnicode := contains serverSetup.capabilities Capabilities.UNICODE }
      { t1 with
        maxSmbSize := serverSetup.maxBufferSize.toNat
        useUnicode := contains serverSetup.capabilities Capabilities.UNICODE } :=
    ⟨congrArg (fun x : Session => { x with
      maxSmbSize := serverSetup.maxBufferSize.toNat
      useUnicode := contains serverSetup.capabilities Capabilities.UNICODE }) h1.same, h1.carries⟩
  refine matches_bind (Q := fun _ _ => Running shut) (matches_modify (fun _ => rfl) hsetup)
    fun _ _ s2 t2 h2 => ?_
  by_cases hextended : contains serverSetup.capabilities Capabilities.EXTENDED_SECURITY
  · rw [if_pos hextended, if_pos hextended]
    exact authenticateNtlmv2_matches crypto h2
  · rw [if_neg hextended, if_neg hextended]
    exact authenticateNtlm_matches crypto h2 _

end CifsClientStream.TcpCifs
