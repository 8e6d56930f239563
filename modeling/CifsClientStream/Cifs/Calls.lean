import CifsClientStream.Cifs.Awaited
import CifsClientStream.Cifs.Pipeline

/-!
# The calls of the client (src/lib.rs)

Shares are mounted, files opened, read and closed. A call sends its requests
first and waits for the replies then, so what it comes to is a matter of which
requests got out (`Asked`) and which replies are held (`Received`).
-/

namespace CifsClientStream
open Cursor Async Win Smb Utils Mailbox
open Cifs (PendingReply StreamingWorkerReadRequest parseReply liftSmb tickets tickets_nodup)
open NetBios (messageWire)

namespace TcpCifs

def mountPassword (path password : String) : Fut Error TcpCifs Share :=
  command Share (Msg.TreeConnect.new (sanitizePath path) password)

def umountRef (share : Share) : Fut Error TcpCifs Unit := do
  let _ ← command Reply.TreeDisconnect (Msg.TreeDisconnect.mk share.tid)

def openfile (share : Share) (path : String) : Fut Error TcpCifs Handle :=
  command Handle (Msg.Open.fileRo share.tid (sanitizePath path))

def closeRef (file : Handle) : Fut Error TcpCifs Unit := do
  let _ ← command Reply.Close (Msg.Close.handle file)

end TcpCifs

/-- What a call returns. -/
inductive Value where
  | share (share : Share)
  | handle (file : Handle)
  | done
  | bytes (data : Bytes)
  | chunks (chunks : List Bytes)
  deriving DecidableEq

def Value.data : Value → Bytes
  | .bytes data => data
  | _ => []

/-- A call of the client. The worker plans at most 16 reads for a batch, none of them empty. -/
inductive Call where
  | mountPassword (path password : String)
  | umountRef (share : Share)
  | openfile (share : Share) (path : String)
  | closeRef (file : Handle)
  | readAt (file : Handle) (offset : UInt64) (count : UInt32)
  | readAtPipelined (file : Handle) (requests : List StreamingWorkerReadRequest)
      (depth : requests.length ≤ 16) (counts : ∀ r ∈ requests, 0 < r.len ∧ r.len < 2 ^ 32)

/-- The request for a read of a batch. -/
def readMessage (file : Handle) (r : StreamingWorkerReadRequest) : Message :=
  .read (Msg.Read.handle file (UInt64.ofNat r.offset) (UInt32.ofNat r.len))

namespace Call

def run : Call → Fut Error TcpCifs Value
  | mountPassword path password => do
    let share ← TcpCifs.mountPassword path password
    pure (.share share)
  | umountRef share => do
    TcpCifs.umountRef share
    pure .done
  | openfile share path => do
    let file ← TcpCifs.openfile share path
    pure (.handle file)
  | closeRef file => do
    TcpCifs.closeRef file
    pure .done
  | readAt file offset count => do
    let data ← TcpCifs.readAt file offset.toNat count
    pure (.bytes data)
  | readAtPipelined file requests _ _ => do
    let chunks ← TcpCifs.readAtPipelined file requests
    pure (.chunks chunks)

/-- The requests of a call, in the order in which they are sent. -/
def messages : Call → List Message
  | mountPassword path password => [.treeConnect (.new (sanitizePath path) password)]
  | umountRef share => [.treeDisconnect ⟨share.tid⟩]
  | openfile share path => [.openFile (.fileRo share.tid (sanitizePath path))]
  | closeRef file => [.close (.handle file)]
  | readAt file offset count => if count = 0 then [] else [.read (.handle file offset count)]
  | readAtPipelined file requests _ _ => requests.map (readMessage file)

end Call

/-- What the client makes of a reply to a request. -/
def Cifs.PendingReply.answer (p : PendingReply) : Message → Except (Fault Error) Value
  | .treeConnect _ => (parseReply Share p).map .share
  | .treeDisconnect _ => (parseReply Reply.TreeDisconnect p).map fun _ => .done
  | .openFile _ => (parseReply Handle p).map .handle
  | .close _ => (parseReply Reply.Close p).map fun _ => .done
  | .read _ => (parseReply Reply.Read p).map fun reply => .bytes reply.data
  | _ => .error .panic

/-- What a call returns when its requests have been answered. -/
def Call.value : Call → List (Except Error Value) → Except Error Value
  | .readAtPipelined _ _ _ _, vs => (vs.mapM id).map fun xs => .chunks (xs.map Value.data)
  | .readAt _ _ _, [] => .ok (.bytes [])
  | _, v :: _ => v
  | _, [] => .ok .done

/-! ### Requests that get out -/

/-- The frame of a request under an id. -/
def Asks (m : Message) (mid : UInt16) (frame : Bytes) : Prop :=
  ∃ info, m.Heads info ∧ info.mid = mid ∧ m.write info info.write = .ok frame

/-- The frames of the first of some requests, under ids that follow each other. -/
inductive Asked : UInt16 → List Message → List Bytes → Prop
  | stopped (mid : UInt16) (ms : List Message) : Asked mid ms []
  | sent {mid : UInt16} {m : Message} {frame : Bytes} {ms : List Message} {frames : List Bytes} :
    Asks m mid frame → Asked (mid + 1) ms frames → Asked mid (m :: ms) (frame :: frames)

/-- The frames that went out to the end. -/
def wholeFrames (os : List Outgoing) : List Bytes :=
  (os.filter fun o => o.out = messageWire o.frame).map Outgoing.frame

@[simp] theorem wholeFrames_nil : wholeFrames [] = [] := rfl

@[simp] theorem wholeFrames_append (os os' : List Outgoing) :
    wholeFrames (os ++ os') = wholeFrames os ++ wholeFrames os' := by
  simp [wholeFrames]

theorem local_netbios (e : Stop NetBios.Error) : Local (e.map .NetBios) := by
  intro status
  cases e <;> simp [Stop.map]

theorem lift_smb_local {α : Type} {r : Except (Fault Smb.Error) α} {f : Fault Smb.Error}
    (h : r = .error f) : ∃ e, Local e ∧ ∀ s : TcpCifs,
      (lift (liftSmb r) : Fut Error TcpCifs α) s = .error e s := by
  subst h
  cases f with
  | panic => exact ⟨.panic, by simp [Local], fun _ => rfl⟩
  | error e => exact ⟨.error (.SMBError e), by simp [Local], fun _ => rfl⟩

/-- A write that does not return leaves bytes behind. -/
theorem writeLoop_cut (room : List ℕ) (buffer written : Bytes)
    (h : (NetBios.writeLoop room buffer written).2.2 = false) :
    (NetBios.writeLoop room buffer written).1.length < written.length + buffer.length := by
  induction room generalizing buffer written with
  | nil =>
    cases buffer with
    | nil => cases h
    | cons b rest => simp [NetBios.writeLoop]
  | cons n room ih =>
    by_cases hbuffer : buffer = []
    · subst hbuffer
      cases h
    · rw [NetBios.writeLoop, if_neg hbuffer] at h ⊢
      have hrest := ih (buffer.drop (n + 1)) (written ++ buffer.take (n + 1)) h
      simp only [List.length_append, List.length_take, List.length_drop] at hrest
      omega

theorem writeExactly_cut {buffer : Bytes} {s s' : NetBios.TcpStream} {e : Stop NetBios.Error}
    (h : NetBios.writeExactly buffer s = .error e s') :
    s'.written.length < s.written.length + buffer.length := by
  have hcut := writeLoop_cut s.room buffer s.written
  unfold NetBios.writeExactly at h
  split at h
  next => cases h
  next written room hloop =>
    rw [hloop] at hcut
    cases hblocked : s.blocked with
    | none =>
      rw [hblocked] at h
      cases h
      exact hcut rfl
    | some kind =>
      rw [hblocked] at h
      cases h
      exact hcut rfl

namespace TcpCifs

/-- What sending leaves as it is. -/
structure Kept (s s' : TcpCifs) : Prop where
  pendingReplies : s'.pendingReplies = s.pendingReplies
  incoming : s'.netbios.incoming = s.netbios.incoming
  useUnicode : s'.useUnicode = s.useUnicode

theorem Kept.trans {a b c : TcpCifs} (h : Kept a b) (h' : Kept b c) : Kept a c :=
  ⟨h'.pendingReplies.trans h.pendingReplies, h'.incoming.trans h.incoming,
    h'.useUnicode.trans h.useUnicode⟩

/-- The frames that went out from one state to the next. -/
structure Put (s s' : TcpCifs) (frames : List Bytes) : Prop where
  kept : Kept s s'
  outbox : ∃ new, s'.outbox = s.outbox ++ new ∧ wholeFrames new = frames

theorem Put.trans {a b c : TcpCifs} {frames frames' : List Bytes} (h : Put a b frames)
    (h' : Put b c frames') : Put a c (frames ++ frames') := by
  obtain ⟨new, hnew, hframes⟩ := h.outbox
  obtain ⟨new', hnew', hframes'⟩ := h'.outbox
  refine ⟨h.kept.trans h'.kept, new ++ new', ?_, ?_⟩
  · rw [hnew', hnew, List.append_assoc]
  · rw [wholeFrames_append, hframes, hframes']

theorem header_unicode (s : TcpCifs) (cmd : Cmd) (h : s.useUnicode = true) :
    contains (s.header cmd).flags2 Flags2.UNICODE := by
  simp only [header, h, if_true]
  decide

theorem writeExactly_incoming (buffer : Bytes) (s : NetBios.TcpStream) :
    (endState (NetBios.writeExactly buffer s)).incoming = s.incoming := by
  rcases NetBios.writeExactly_cases buffer s with
    ⟨n, hwrite, hin⟩ | ⟨n, hwrite, hin⟩ | ⟨kind, n, hwrite, hin⟩
  all_goals
    rw [hwrite]
    exact hin

theorem sendMessage_put (s : TcpCifs) (frame : Bytes) :
    ∃ s', (sendMessage frame s = .ok ⟨⟩ s' ∧ Put s s' [frame] ∨
      ∃ e, sendMessage frame s = .error e s' ∧ Local e ∧ Put s s' []) ∧
      s'.mid = s.mid := by
  cases hencode : (NetBios.Frame.Message frame).encode with
  | error e =>
    refine ⟨s, Or.inr ⟨.error (.NetBios e), ?_, local_netbios (.error e), ⟨rfl, rfl, rfl⟩, [], ?_, rfl⟩, rfl⟩
    · rw [sendMessage, hencode]
    · rw [List.append_nil]
  | ok encoding =>
    obtain ⟨-, rfl⟩ := encode_message hencode
    obtain ⟨out, netbios, hwritten, hprefix, hends⟩ := writeExactly_out (messageWire frame) s.netbios
    have hout : netbios.written.drop s.netbios.written.length = out := by
      rw [hwritten, List.drop_left]
    have hbox : (s.logOut frame netbios).outbox = s.outbox ++ [⟨s.sends - 1, frame, out⟩] := by
      rw [logOut, hout]
    have hincoming : netbios.incoming = s.netbios.incoming := by
      have hend := writeExactly_incoming (messageWire frame) s.netbios
      rcases hends with ⟨hok, -⟩ | ⟨e, herror⟩
      · rw [hok] at hend
        exact hend
      · rw [herror] at hend
        exact hend
    have hkept : Kept s (s.logOut frame netbios) := ⟨rfl, hincoming, rfl⟩
    refine ⟨s.logOut frame netbios, ?_, rfl⟩
    rcases hends with ⟨hok, rfl⟩ | ⟨e, herror⟩
    · refine Or.inl ⟨?_, hkept, _, hbox, by simp [wholeFrames]⟩
      rw [sendMessage, hencode]
      simp only [hok]
    · have hcut := writeExactly_cut herror
      rw [hwritten, List.length_append] at hcut
      have hnot : out ≠ messageWire frame := by
        rintro rfl
        omega
      refine Or.inr ⟨e.map .NetBios, ?_, local_netbios e, hkept, _, hbox, by simp [wholeFrames, hnot]⟩
      rw [sendMessage, hencode]
      simp only [herror]

theorem send_eq {M : Type} [Msg M] {msg : M} {m : Message} (h : IsMessage msg m) (s : TcpCifs) :
    send msg s = (lift (liftSmb (m.write (m.fixHeader (s.header m.cmd))
      (m.fixHeader (s.header m.cmd)).write)) >>= fun frame => sendMessage frame >>= fun _ =>
        pure s.mid) s.counted := by
  rw [← h.fixHeader, ← h.write, ← h.cmd]
  rfl

/-- A request gets out under the next id, or the client stops for a reason of its own. -/
theorem send_put {M : Type} [Msg M] {msg : M} {m : Message} (h : IsMessage msg m) (s : TcpCifs)
    (hunicode : s.useUnicode = true) :
    ∃ s', ((∃ frame, send msg s = .ok s.mid s' ∧ Put s s' [frame] ∧ Asks m s.mid frame) ∨
      ∃ e, send msg s = .error e s' ∧ Local e ∧ Put s s' []) ∧ s'.mid = s.mid + 1 := by
  have hcounted : Put s s.counted [] := ⟨⟨rfl, rfl, rfl⟩, [], (List.append_nil _).symm, rfl⟩
  have hkeeps := fixHeader_keeps m (s.header m.cmd)
  have hheads : m.Heads (m.fixHeader (s.header m.cmd)) := by
    refine ⟨hkeeps.2.1, hkeeps.2.2.2.2, ?_, ?_⟩
    · rw [hkeeps.2.2.1]
      exact trivial
    · rw [hkeeps.2.2.2.1]
      exact header_unicode s m.cmd hunicode
  have hmid : (m.fixHeader (s.header m.cmd)).mid = s.mid := hkeeps.1
  rw [send_eq h]
  generalize m.fixHeader (s.header m.cmd) = info at hheads hmid
  cases hwrite : m.write info info.write with
  | error f =>
    obtain ⟨e, hlocal, hstop⟩ := lift_smb_local (α := Bytes) (r := .error f) rfl
    refine ⟨s.counted, Or.inr ⟨e, ?_, hlocal, hcounted⟩, rfl⟩
    rw [fut_bind, hstop]
  | ok frame =>
    have hlift : (lift (liftSmb (.ok frame : Except (Fault Smb.Error) Bytes)) :
        Fut Error TcpCifs Bytes) s.counted = .ok frame s.counted := rfl
    obtain ⟨s', hsend, hsame⟩ := sendMessage_put s.counted frame
    refine ⟨s', ?_, hsame⟩
    rw [fut_bind, hlift]
    rcases hsend with ⟨hok, hput⟩ | ⟨e, herror, hlocal, hput⟩
    · refine Or.inl ⟨frame, ?_, hcounted.trans hput, info, hheads, hmid, hwrite⟩
      simp only [fut_bind, hok]
      rfl
    · refine Or.inr ⟨e, ?_, hlocal, hcounted.trans hput⟩
      simp only [fut_bind, herror]

/-- The ids of `n` requests in a row. -/
def ids : ℕ → UInt16 → List UInt16
  | 0, _ => []
  | n + 1, mid => mid :: ids n (mid + 1)

theorem ids_tickets (n : ℕ) (mid : UInt16) (request : ℕ) :
    (tickets n mid request).map Cifs.Ticket.mid = ids n mid := by
  induction n generalizing mid request with
  | zero => rfl
  | succ n ih => simp [tickets, ids, ih]

theorem ids_nodup {n : ℕ} (mid : UInt16) (h : n ≤ 65536) : (ids n mid).Nodup := by
  rw [← ids_tickets n mid 0]
  exact tickets_nodup n mid 0 h

@[simp] theorem ids_length (n : ℕ) (mid : UInt16) : (ids n mid).length = n := by
  induction n generalizing mid with
  | zero => rfl
  | succ n ih => simp [ids, ih]

theorem mem_ids {n : ℕ} {mid k : UInt16} (h : k ∈ ids n mid) :
    ∃ j < n, k = mid + UInt16.ofNat j := by
  induction n generalizing mid with
  | zero => cases h
  | succ n ih =>
    rcases List.mem_cons.mp h with rfl | hmore
    · exact ⟨0, by omega, by simp⟩
    · obtain ⟨j, hj, rfl⟩ := ih hmore
      refine ⟨j + 1, by omega, ?_⟩
      rw [UInt16.add_assoc, UInt16.ofNat_add, UInt16.add_comm (UInt16.ofNat j)]
      rfl

theorem ids_mono {m n : ℕ} {mid k : UInt16} (h : m ≤ n) (hk : k ∈ ids m mid) : k ∈ ids n mid := by
  induction n generalizing m mid with
  | zero =>
    rw [Nat.le_zero.mp h] at hk
    exact hk
  | succ n ih =>
    cases m with
    | zero => cases hk
    | succ m =>
      rcases List.mem_cons.mp hk with rfl | hmore
      · exact List.mem_cons_self
      · exact List.mem_cons_of_mem _ (ih (by omega) hmore)

/-- The next id after a call of `n` requests of which the first `out` got out. -/
def Issued (s s' : TcpCifs) (out n : ℕ) : Prop :=
  ∃ j ≤ n, out ≤ j ∧ s'.mid = s.mid + UInt16.ofNat j

theorem Issued.none (s : TcpCifs) : Issued s s 0 0 := ⟨0, le_rfl, le_rfl, by simp⟩

theorem Issued.one {s s' : TcpCifs} {out n : ℕ} (h : s'.mid = s.mid + 1) (hout : out ≤ 1)
    (hn : 1 ≤ n) : Issued s s' out n :=
  ⟨1, hn, hout, h⟩

theorem Issued.next {s s1 s' : TcpCifs} {out n : ℕ} (h : Issued s1 s' out n)
    (hmid : s1.mid = s.mid + 1) : Issued s s' (out + 1) (n + 1) := by
  obtain ⟨j, hj, hout, hsame⟩ := h
  refine ⟨j + 1, by omega, by omega, ?_⟩
  rw [hsame, hmid, UInt16.add_assoc, UInt16.ofNat_add, UInt16.add_comm (UInt16.ofNat j)]
  rfl

theorem sendReads_put (file : Handle) (requests : List StreamingWorkerReadRequest)
    (hcounts : ∀ r ∈ requests, 0 < r.len ∧ r.len < 2 ^ 32) (s : TcpCifs)
    (hunicode : s.useUnicode = true) :
    ∃ s' frames, Put s s' frames ∧ Asked s.mid (requests.map (readMessage file)) frames ∧
      Issued s s' frames.length requests.length ∧
      ((sendReads file requests s = .ok (ids requests.length s.mid) s' ∧
          frames.length = requests.length) ∨
        ∃ e, sendReads file requests s = .error e s' ∧ Local e ∧
          frames.length < requests.length) := by
  induction requests generalizing s with
  | nil =>
    exact ⟨s, [], ⟨⟨rfl, rfl, rfl⟩, [], (List.append_nil _).symm, rfl⟩, .stopped _ _,
      Issued.none s, Or.inl ⟨rfl, rfl⟩⟩
  | cons r rest ih =>
    have hcount : Cifs.tryCount r.len = .ok (UInt32.ofNat r.len) := by
      rw [Cifs.tryCount, if_pos (hcounts r List.mem_cons_self).2]
    have hstart : sendReads file (r :: rest) s =
        (send (Msg.Read.handle file (UInt64.ofNat r.offset) (UInt32.ofNat r.len)) >>= fun mid =>
          sendReads file rest >>= fun inFlight => pure (mid :: inFlight)) s := by
      rw [sendReads, hcount]
      rfl
    obtain ⟨s1, hsend, hmid⟩ := send_put (isMessage_fold (readMessage file r)) s hunicode
    rw [hstart, fut_bind]
    rcases hsend with ⟨frame, hok, hput, hasks⟩ | ⟨e, herror, hlocal, hput⟩
    · have hunicode1 : s1.useUnicode = true := hput.kept.useUnicode.trans hunicode
      obtain ⟨s', frames, hput', hasked, hissued, hmore⟩ :=
        ih (fun r hr => hcounts r (List.mem_cons_of_mem _ hr)) s1 hunicode1
      rw [hmid] at hasked
      refine ⟨s', frame :: frames, hput.trans hput', .sent hasks hasked, hissued.next hmid, ?_⟩
      rw [show send (Msg.Read.handle file (UInt64.ofNat r.offset) (UInt32.ofNat r.len)) s =
        .ok s.mid s1 from hok]
      rcases hmore with ⟨hrest, hlength⟩ | ⟨e, hstop, hlocal, hless⟩
      · refine Or.inl ⟨?_, by simp [hlength]⟩
        simp only [fut_bind, hrest, hmid]
        rfl
      · refine Or.inr ⟨e, ?_, hlocal, by simpa using hless⟩
        simp only [fut_bind, hstop]
    · refine ⟨s1, [], hput, .stopped _ _, Issued.one hmid (by simp) (by simp),
        Or.inr ⟨e, ?_, hlocal, by simp⟩⟩
      rw [show send (Msg.Read.handle file (UInt64.ofNat r.offset) (UInt32.ofNat r.len)) s =
        .error e s1 from herror]

end TcpCifs

/-! ### Replies that are held -/

/-- The replies to the first of some requests, and what the client makes of them. -/
inductive Replied : UInt16 → List Message → List (Except Error Value) → List PendingReply → Prop
  | stopped (mid : UInt16) (ms : List Message) : Replied mid ms [] []
  | next {mid : UInt16} {m : Message} {v : Except Error Value} {p : PendingReply}
    {ms : List Message} {vs : List (Except Error Value)} {ps : List PendingReply} :
    replyMid p = mid → p.answer m = v.mapError Fault.error → Replied (mid + 1) ms vs ps →
      Replied mid (m :: ms) (v :: vs) (p :: ps)

theorem Replied.mids {mid : UInt16} {ms : List Message} {vs : List (Except Error Value)}
    {ps : List PendingReply} (h : Replied mid ms vs ps) :
    ps.map replyMid = TcpCifs.ids ps.length mid := by
  induction h with
  | stopped mid ms => rfl
  | next hmid _ _ ih => simp [TcpCifs.ids, hmid, ih]

theorem Replied.length {mid : UInt16} {ms : List Message} {vs : List (Except Error Value)}
    {ps : List PendingReply} (h : Replied mid ms vs ps) :
    vs.length = ps.length ∧ ps.length ≤ ms.length := by
  induction h with
  | stopped mid ms => simp
  | next _ _ _ ih => simp [ih.1, ih.2]

namespace TcpCifs

/-- No id has two replies, and of the replies `ps` each is held or nothing under its id. -/
structure Expecting (s : TcpCifs) (arrivals : List Cifs.Arrival) (ps : List PendingReply) : Prop where
  one : ∀ k, (queued replyMid (held s arrivals) k).length ≤ 1
  own : ∀ p ∈ ps, queued replyMid (held s arrivals) (replyMid p) = [p] ∨
    queued replyMid (held s arrivals) (replyMid p) = []

/-- Something that was not sent, not heard clearly, or did not arrive. -/
def Missing (s : TcpCifs) (arrivals : List Cifs.Arrival) (ps : List PendingReply) : Prop :=
  Quiet arrivals → ∃ p ∈ ps, queued replyMid (held s arrivals) (replyMid p) = []

variable {s s' : TcpCifs} {arrivals rest : List Cifs.Arrival} {p : PendingReply}
  {ps : List PendingReply}

theorem Expecting.received {R : Type} [Reply R] {x : Fut Error TcpCifs R}
    (h : Expecting s arrivals (p :: ps)) (hnodup : ((p :: ps).map replyMid).Nodup)
    (hr : Received R x (replyMid p) s arrivals s' rest) :
    Expecting s' rest ps ∧ (x s = (lift (parseReply R p) : Fut Error TcpCifs R) s' ∨
      ∃ e, x s = .error e s' ∧ Local e ∧
        (Quiet arrivals → queued replyMid (held s arrivals) (replyMid p) = [])) := by
  have hless : (queued replyMid (held s' rest) (replyMid p)).length ≤ 1 := by
    have hone := h.one (replyMid p)
    rcases hr.ends with ⟨q, -, hqueue⟩ | ⟨e, -, -, hsame, -⟩
    · rw [hqueue] at hone
      simp at hone
      simp [hone]
    · rw [hsame]
      exact hone
  have hothers : Expecting s' rest ps := by
    constructor
    · intro k
      by_cases hk : k = replyMid p
      · rw [hk]
        exact hless
      · rw [hr.others k hk]
        exact h.one k
    · intro q hq
      have hne : replyMid q ≠ replyMid p := by
        intro heq
        rw [List.map_cons, List.nodup_cons] at hnodup
        exact hnodup.1 (heq ▸ List.mem_map_of_mem hq)
      rw [hr.others _ hne]
      exact h.own q (List.mem_cons_of_mem _ hq)
  refine ⟨hothers, ?_⟩
  rcases hr.ends with ⟨q, hx, hqueue⟩ | ⟨e, hx, hlocal, -, hempty⟩
  · rcases h.own p List.mem_cons_self with hown | hown
    · rw [hown] at hqueue
      injection hqueue with hsame
      subst hsame
      exact Or.inl hx
    · rw [hown] at hqueue
      simp at hqueue
  · exact Or.inr ⟨e, hx, hlocal, hempty⟩

/-- What a stop of the client's own says: the call heard something else, or a reply is missing. -/
theorem Missing.cons (hnodup : ((p :: ps).map replyMid).Nodup)
    (hmore : Missing s' rest ps) (hsuffix : rest <:+ arrivals)
    (hsame : ∀ k, k ≠ replyMid p → queued replyMid (held s' rest) k = queued replyMid (held s arrivals) k) :
    Missing s arrivals (p :: ps) := by
  intro hquiet
  obtain ⟨q, hq, hempty⟩ := hmore (hquiet.suffix hsuffix)
  refine ⟨q, List.mem_cons_of_mem _ hq, ?_⟩
  rw [← hsame, hempty]
  intro heq
  rw [List.map_cons, List.nodup_cons] at hnodup
  exact hnodup.1 (heq ▸ List.mem_map_of_mem hq)

/-- How the replies to a batch of reads come to chunks. -/
theorem recvReads_replied {mid : UInt16} {ms : List Message} {vs : List (Except Error Value)}
    (h : Replied mid ms vs ps) (hreads : ∀ m ∈ ms, ∃ read, m = .read read)
    (hcarries : Carries false (NetBios.events s.netbios.incoming) arrivals)
    (hexpect : Expecting s arrivals ps) (hnodup : (ps.map replyMid).Nodup) :
    ∃ s' rest, Waited s s' ∧ Carries false (NetBios.events s'.netbios.incoming) rest ∧
      (∀ k, queued replyMid (held s' rest) k <:+ queued replyMid (held s arrivals) k) ∧
      ((∃ xs, vs.mapM id = .ok xs ∧
          recvReads (ids ps.length mid) s = .ok (xs.map Value.data) s') ∨
        (∃ e, vs.mapM id = .error e ∧ recvReads (ids ps.length mid) s = .error (.error e) s') ∨
        ∃ e, recvReads (ids ps.length mid) s = .error e s' ∧ Local e ∧ Missing s arrivals ps) := by
  induction h generalizing s arrivals with
  | stopped mid ms =>
    exact ⟨s, arrivals, Waited.refl s, hcarries, fun k => List.suffix_rfl, Or.inl ⟨[], rfl, rfl⟩⟩
  | @next mid m v p ms vs ps hmid hanswer hmore ih =>
    subst hmid
    obtain ⟨read, rfl⟩ := hreads m List.mem_cons_self
    obtain ⟨s1, rest1, hreceived⟩ := recv_held Reply.Read (replyMid p) hcarries
      (fun k _ => hexpect.one k)
    obtain ⟨hexpect1, hends⟩ := hexpect.received hnodup hreceived
    have hstart : recvReads (ids (p :: ps).length (replyMid p)) s =
        (recv Reply.Read (replyMid p) >>= fun reply => recordRead reply.data.length >>= fun _ =>
          recvReads (ids ps.length (replyMid p + 1)) >>= fun chunks =>
            pure (reply.data :: chunks)) s := rfl
    rw [hstart, fut_bind]
    rcases hends with hgot | ⟨e, hstop, hlocal, hempty⟩
    · rw [hgot]
      cases hparse : parseReply Reply.Read p with
      | error f =>
        rw [Cifs.PendingReply.answer, hparse] at hanswer
        cases v with
        | ok value => cases hanswer
        | error e =>
          cases hanswer
          exact ⟨s1, rest1, hreceived.waited, hreceived.carries, hreceived.fewer,
            Or.inr (Or.inl ⟨e, by simp [List.mapM_cons]; rfl, rfl⟩)⟩
      | ok reply =>
        rw [Cifs.PendingReply.answer, hparse] at hanswer
        cases v with
        | error e => cases hanswer
        | ok value =>
          cases hanswer
          have htail := (List.nodup_cons.mp (List.map_cons ▸ hnodup)).2
          obtain ⟨s', rest', hwaited, hcarries', hfewer, hcases⟩ :=
            ih (fun m hm => hreads m (List.mem_cons_of_mem _ hm))
              (s := { s1 with ioStats := s1.ioStats.recordRead reply.data.length })
              hreceived.carries ⟨hexpect1.one, hexpect1.own⟩ htail
          have hfrom : Waited s s' := hreceived.waited.trans
            ⟨hwaited.outbox, hwaited.sends, hwaited.mid, hwaited.useUnicode⟩
          have hrecord : (recordRead reply.data.length : Fut Error TcpCifs Unit) s1 =
              .ok ⟨⟩ { s1 with ioStats := s1.ioStats.recordRead reply.data.length } := rfl
          refine ⟨s', rest', hfrom, hcarries', fun k => (hfewer k).trans (hreceived.fewer k), ?_⟩
          change (∃ xs, _ ∧ (recordRead reply.data.length >>= _) s1 = _) ∨ (∃ e, _ ∧
            (recordRead reply.data.length >>= _) s1 = _) ∨ ∃ e, (recordRead reply.data.length >>= _) s1 = _ ∧ _
          rw [fut_bind, hrecord]
          simp only [fut_bind]
          rcases hcases with ⟨xs, hvs, hok⟩ | ⟨e, hvs, herror⟩ | ⟨e, hstop, hlocal, hmissing⟩
          · refine Or.inl ⟨.bytes reply.data :: xs, ?_, ?_⟩
            · simp [List.mapM_cons, hvs]
              rfl
            · rw [hok]
              rfl
          · refine Or.inr (Or.inl ⟨e, ?_, ?_⟩)
            · simp [List.mapM_cons, hvs]
              rfl
            · rw [herror]
          · refine Or.inr (Or.inr ⟨e, ?_, hlocal, ?_⟩)
            · rw [hstop]
            · exact Missing.cons hnodup hmissing hreceived.suffix hreceived.others
    · refine ⟨s1, rest1, hreceived.waited, hreceived.carries, hreceived.fewer, Or.inr (Or.inr ⟨e, ?_, hlocal, ?_⟩)⟩
      · rw [hstop]
      · exact fun hquiet => ⟨p, List.mem_cons_self, hempty hquiet⟩

/-! ### What a call comes to -/

def finish (r : EStateM.Result (Stop Error) TcpCifs Value) : Except (Stop Error) Value × TcpCifs :=
  match r with
  | .ok a s => (.ok a, s)
  | .error e s => (.error e, s)

/-- A call whose requests are `ms`: those that get out, and what it returns for the replies. -/
structure Comes (x : Fut Error TcpCifs Value) (ms : List Message)
    (value : List (Except Error Value) → Except Error Value) (s : TcpCifs)
    (result : Except (Stop Error) Value) (s' : TcpCifs) (frames : List Bytes) : Prop where
  ran : finish (x s) = (result, s')
  outbox : ∃ new, s'.outbox = s.outbox ++ new ∧ wholeFrames new = frames
  useUnicode : s'.useUnicode = s.useUnicode
  issued : Issued s s' frames.length ms.length
  asked : Asked s.mid ms frames
  unsent : frames.length < ms.length →
    (∃ e, result = .error e ∧ Local e) ∧ s'.netbios.incoming = s.netbios.incoming ∧
      s'.pendingReplies = s.pendingReplies
  sent : frames.length = ms.length → ∀ vs ps arrivals, Replied s.mid ms vs ps →
    ps.length = ms.length → Carries false (NetBios.events s.netbios.incoming) arrivals →
    Expecting s arrivals ps →
    (∃ rest, Carries false (NetBios.events s'.netbios.incoming) rest ∧
      ∀ k, queued replyMid (held s' rest) k <:+ queued replyMid (held s arrivals) k) ∧
      (result = (value vs).mapError .error ∨
        ∃ e, result = .error e ∧ Local e ∧ Missing s arrivals ps)

theorem Kept.expecting (h : Kept s s') (he : Expecting s arrivals ps) : Expecting s' arrivals ps := by
  constructor
  · intro k
    rw [held, h.pendingReplies]
    exact he.one k
  · intro p hp
    rw [held, h.pendingReplies]
    exact he.own p hp

theorem Kept.fewer {s2 : TcpCifs} (h : Kept s s') (hfewer : ∀ k,
    queued replyMid (held s2 rest) k <:+ queued replyMid (held s' arrivals) k) (k : UInt16) :
    queued replyMid (held s2 rest) k <:+ queued replyMid (held s arrivals) k := by
  have hk := hfewer k
  rw [held, held, h.pendingReplies] at hk
  exact hk

theorem Kept.missing (h : Kept s s') (hm : Missing s' arrivals ps) : Missing s arrivals ps := by
  intro hquiet
  obtain ⟨p, hp, hempty⟩ := hm hquiet
  rw [held, h.pendingReplies] at hempty
  exact ⟨p, hp, hempty⟩

theorem Put.waited {frames : List Bytes} {a b c : TcpCifs} (h : Put a b frames) (h' : Waited b c) :
    (∃ new, c.outbox = a.outbox ++ new ∧ wholeFrames new = frames) ∧ c.useUnicode = a.useUnicode := by
  obtain ⟨new, hnew, hframes⟩ := h.outbox
  exact ⟨⟨new, h'.outbox.trans hnew, hframes⟩, h'.useUnicode.trans h.kept.useUnicode⟩

theorem finish_waited {x : Fut Error TcpCifs Value} (h : Moves Waited x) (s : TcpCifs) :
    Waited s (finish (x s)).2 := by
  have hx := h s
  cases hrun : x s with
  | ok a s' =>
    rw [hrun] at hx
    exact hx
  | error e s' =>
    rw [hrun] at hx
    exact hx

/-- A request did not get out. -/
theorem comes_unsent {x : Fut Error TcpCifs Value} {ms : List Message}
    {value : List (Except Error Value) → Except Error Value} {frames : List Bytes} {e : Stop Error}
    (hrun : x s = .error e s') (hlocal : Local e) (hput : Put s s' frames)
    (hissued : Issued s s' frames.length ms.length) (hasked : Asked s.mid ms frames)
    (hless : frames.length < ms.length) : Comes x ms value s (.error e) s' frames where
  ran := by
    rw [hrun]
    rfl
  outbox := hput.outbox
  useUnicode := hput.kept.useUnicode
  issued := hissued
  asked := hasked
  unsent _ := ⟨⟨e, rfl, hlocal⟩, hput.kept.incoming, hput.kept.pendingReplies⟩
  sent h := by omega

/-- A call that is one command. -/
theorem command_comes {M R : Type} [Msg M] [Reply R] {msg : M} {m : Message}
    (hmsg : IsMessage msg m) (f : R → Value)
    (hanswer : ∀ p : PendingReply, p.answer m = (parseReply R p).map f)
    {value : List (Except Error Value) → Except Error Value} (hvalue : ∀ v, value [v] = v)
    {g : R → Fut Error TcpCifs Value}
    (hg : ∀ r s, ∃ s', g r s = .ok (f r) s' ∧ Waited s s' ∧
      s'.netbios.incoming = s.netbios.incoming ∧ s'.pendingReplies = s.pendingReplies)
    (s : TcpCifs) (hunicode : s.useUnicode = true) :
    ∃ result s' frames, Comes (command R msg >>= g) [m] value s result s' frames := by
  obtain ⟨s1, hsend, hmid⟩ := send_put hmsg s hunicode
  have hstart : (command R msg >>= g) s = (send msg >>= fun mid => recv R mid >>= g) s := by
    rw [command, bind_assoc]
  rcases hsend with ⟨frame, hok, hput, hasks⟩ | ⟨e, herror, hlocal, hput⟩
  · have hrun : (command R msg >>= g) s = (recv R s.mid >>= g) s1 := by
      rw [hstart, fut_bind, hok]
    have hmoves : Moves Waited (recv R s.mid >>= g) := by
      refine (recv_moves waited_receives R _).bind waited_receives.chain fun r s => ?_
      obtain ⟨s', hs', hwaited, -, -⟩ := hg r s
      rw [hs']
      exact hwaited
    have hwaited := finish_waited hmoves s1
    obtain ⟨houtbox, hsame⟩ := hput.waited hwaited
    refine ⟨(finish ((recv R s.mid >>= g) s1)).1, _, [frame], ?_, houtbox, hsame,
      .one (hwaited.mid.trans hmid) (by simp) (by simp), .sent hasks (.stopped _ _), fun h => ?_,
      fun _ vs ps arrivals hreplied hlength hcarries hexpect => ?_⟩
    · rw [hrun]
    · simp at h
    · cases hreplied with
      | stopped => cases hlength
      | @next _ _ v p _ vs ps hid hread hmore =>
        cases hmore
        rw [← hput.kept.incoming] at hcarries
        rw [← hid]
        have hexpect1 := hput.kept.expecting hexpect
        obtain ⟨s2, rest, hreceived⟩ := recv_held R (replyMid p) hcarries fun k _ => hexpect1.one k
        have hfewer := hput.kept.fewer hreceived.fewer
        have hends := (hexpect1.received (by simp) hreceived).2
        rcases hends with hgot | ⟨e, hstop, hlocal, hempty⟩
        · rw [fut_bind, hgot, hvalue]
          rw [hanswer] at hread
          cases hparse : parseReply R p with
          | error f =>
            rw [hparse] at hread
            cases v with
            | ok value => cases hread
            | error e =>
              cases hread
              exact ⟨⟨rest, hreceived.carries, hfewer⟩, Or.inl rfl⟩
          | ok r =>
            rw [hparse] at hread
            cases v with
            | error e => cases hread
            | ok value =>
              cases hread
              obtain ⟨s3, hs3, -, hincoming, hpending⟩ := hg r s2
              have hlift : (lift (.ok r : Except (Fault Error) R) : Fut Error TcpCifs R) s2 =
                  .ok r s2 := rfl
              simp only [hlift, hs3]
              refine ⟨⟨rest, ?_, fun k => ?_⟩, Or.inl rfl⟩
              · change Carries false (NetBios.events s3.netbios.incoming) rest
                rw [hincoming]
                exact hreceived.carries
              · change queued replyMid ⟨s3.pendingReplies, replies rest⟩ k <:+ _
                rw [hpending]
                exact hfewer k
        · rw [fut_bind, hstop]
          refine ⟨⟨rest, hreceived.carries, hfewer⟩, Or.inr ⟨e, rfl, hlocal, ?_⟩⟩
          exact hput.kept.missing fun hquiet => ⟨p, List.mem_singleton_self p, hempty hquiet⟩
  · refine ⟨.error e, s1, [], comes_unsent ?_ hlocal hput (.one hmid (by simp) (by simp))
      (.stopped _ _) (by simp)⟩
    rw [hstart, fut_bind, herror]

/-- A batch sends all its reads and takes the replies then. -/
theorem readAtPipelined_eq (file : Handle) (requests : List StreamingWorkerReadRequest)
    (hcounts : ∀ r ∈ requests, 0 < r.len ∧ r.len < 2 ^ 32) :
    readAtPipelined file requests = (sendReads file requests >>= fun mids => recvReads mids) := by
  match requests, hcounts with
  | [], _ => rfl
  | [r], hcounts =>
    obtain ⟨hpos, hlt⟩ := hcounts r List.mem_cons_self
    have hcount : Cifs.tryCount r.len = .ok (UInt32.ofNat r.len) := by
      rw [Cifs.tryCount, if_pos hlt]
    have hne : UInt32.ofNat r.len ≠ 0 := by
      intro h
      have hval := congrArg UInt32.toNat h
      rw [UInt32.toNat_ofNat_of_lt' hlt] at hval
      simp at hval
      omega
    simp only [readAtPipelined, sendReads, recvReads, hcount, readAt, command, Async.ofExcept, pure_bind,
      if_neg hne, bind_assoc]
  | _ :: _ :: _, _ => rfl

theorem batch_comes (file : Handle) (requests : List StreamingWorkerReadRequest)
    (depth : requests.length ≤ 16) (counts : ∀ r ∈ requests, 0 < r.len ∧ r.len < 2 ^ 32)
    (s : TcpCifs) (hunicode : s.useUnicode = true) :
    ∃ result s' frames, Comes (Call.run (.readAtPipelined file requests depth counts))
      (requests.map (readMessage file)) (Call.value (.readAtPipelined file requests depth counts))
      s result s' frames := by
  obtain ⟨s1, frames, hput, hasked, hissued, hends⟩ :=
    sendReads_put file requests counts s hunicode
  have hstart : Call.run (.readAtPipelined file requests depth counts) =
      (sendReads file requests >>= fun mids => recvReads mids >>= fun chunks =>
        pure (.chunks chunks)) := by
    rw [Call.run, readAtPipelined_eq file requests counts, bind_assoc]
  rcases hends with ⟨hok, hlength⟩ | ⟨e, hstop, hlocal, hless⟩
  · have hrun : Call.run (.readAtPipelined file requests depth counts) s =
        (recvReads (ids requests.length s.mid) >>= fun chunks => pure (.chunks chunks)) s1 := by
      rw [hstart, fut_bind, hok]
    have hmoves : Moves Waited (recvReads (ids requests.length s.mid) >>= fun chunks =>
        (pure (.chunks chunks) : Fut Error TcpCifs Value)) :=
      (recvReads_moves waited_receives _).bind waited_receives.chain fun _ =>
        Moves.pure waited_receives.chain _
    have hwaited := finish_waited hmoves s1
    obtain ⟨houtbox, hsame⟩ := hput.waited hwaited
    obtain ⟨j, hj, hout, hmid⟩ := hissued
    refine ⟨(finish ((recvReads (ids requests.length s.mid) >>= fun chunks =>
      (pure (.chunks chunks) : Fut Error TcpCifs Value)) s1)).1, _, frames, ?_, houtbox, hsame,
      ⟨j, by simpa using hj, hout, hwaited.mid.trans hmid⟩, hasked, fun h => ?_, fun _ vs ps arrivals hreplied hall hcarries hexpect => ?_⟩
    · rw [hrun]
    · rw [List.length_map] at h
      omega
    · rw [List.length_map] at hall
      have hnodup : (ps.map replyMid).Nodup := by
        rw [hreplied.mids]
        exact ids_nodup s.mid (by omega)
      rw [← hput.kept.incoming] at hcarries
      obtain ⟨s2, rest, -, hcarries2, hfewer, hcases⟩ := recvReads_replied hreplied
        (fun m hm => by
          obtain ⟨r, -, rfl⟩ := List.mem_map.mp hm
          exact ⟨_, rfl⟩) hcarries (hput.kept.expecting hexpect) hnodup
      rw [hall] at hcases
      rw [fut_bind, Call.value]
      rcases hcases with ⟨xs, hvs, hchunks⟩ | ⟨e, hvs, hrefused⟩ | ⟨e, hcut, hlocal, hmissing⟩
      · rw [hvs, hchunks]
        exact ⟨⟨rest, hcarries2, hput.kept.fewer hfewer⟩, Or.inl rfl⟩
      · rw [hvs, hrefused]
        exact ⟨⟨rest, hcarries2, hput.kept.fewer hfewer⟩, Or.inl rfl⟩
      · rw [hcut]
        exact ⟨⟨rest, hcarries2, hput.kept.fewer hfewer⟩, Or.inr ⟨e, rfl, hlocal, hput.kept.missing hmissing⟩⟩
  · refine ⟨.error e, s1, frames, comes_unsent ?_ hlocal hput (by simpa using hissued) hasked ?_⟩
    · rw [hstart, fut_bind, hstop]
    · rw [List.length_map]
      exact hless

end TcpCifs

open TcpCifs in
/-- What every call comes to. -/
theorem Call.comes (call : Call) (s : TcpCifs) (hunicode : s.useUnicode = true) :
    ∃ result s' frames, Comes call.run call.messages call.value s result s' frames := by
  have hpure {R : Type} (f : R → Value) (r : R) (s : TcpCifs) :
      ∃ s', (pure (f r) : Fut Error TcpCifs Value) s = .ok (f r) s' ∧ Waited s s' ∧
        s'.netbios.incoming = s.netbios.incoming ∧ s'.pendingReplies = s.pendingReplies :=
    ⟨s, rfl, Waited.refl s, rfl, rfl⟩
  cases call with
  | mountPassword path password =>
    exact command_comes (isMessage_fold (.treeConnect (.new (sanitizePath path) password)))
      Value.share (fun _ => rfl) (fun _ => rfl) (hpure _) s hunicode
  | umountRef share =>
    have hrun : Call.run (.umountRef share) =
        (command Reply.TreeDisconnect (Msg.TreeDisconnect.mk share.tid) >>= fun _ => pure .done) := by
      rw [Call.run, TcpCifs.umountRef, bind_assoc]
      rfl
    rw [hrun]
    exact command_comes (isMessage_fold (.treeDisconnect ⟨share.tid⟩)) (fun _ => Value.done)
      (fun _ => rfl) (fun _ => rfl) (hpure _) s hunicode
  | openfile share path =>
    exact command_comes (isMessage_fold (.openFile (.fileRo share.tid (sanitizePath path))))
      Value.handle (fun _ => rfl) (fun _ => rfl) (hpure _) s hunicode
  | closeRef file =>
    have hrun : Call.run (.closeRef file) =
        (command Reply.Close (Msg.Close.handle file) >>= fun _ => pure .done) := by
      rw [Call.run, TcpCifs.closeRef, bind_assoc]
      rfl
    rw [hrun]
    exact command_comes (isMessage_fold (.close (.handle file))) (fun _ => Value.done)
      (fun _ => rfl) (fun _ => rfl) (hpure _) s hunicode
  | readAt file offset count =>
    by_cases hcount : count = 0
    · subst hcount
      refine ⟨.ok (.bytes []), s, [], rfl, ⟨[], (List.append_nil _).symm, rfl⟩, rfl, .none s, .stopped _ _,
        fun h => absurd h (by simp [Call.messages]), fun _ vs ps arrivals hreplied hlength hcarries _ => ?_⟩
      refine ⟨⟨arrivals, hcarries, fun k => List.suffix_rfl⟩, Or.inl ?_⟩
      have hvs := hreplied.length.1
      have hnone : vs = [] := List.length_eq_zero_iff.mp (hvs.trans hlength)
      rw [hnone]
      rfl
    · have hrun : Call.run (.readAt file offset count) =
          (command Reply.Read (Msg.Read.handle file offset count) >>= fun reply =>
            recordRead reply.data.length >>= fun _ => pure (.bytes reply.data)) := by
        simp only [Call.run, TcpCifs.readAt, if_neg hcount, UInt64.ofNat_toNat, bind_assoc,
          pure_bind]
      have hmessages : Call.messages (.readAt file offset count) =
          [.read (.handle file offset count)] := by
        rw [Call.messages, if_neg hcount]
      rw [hrun, hmessages]
      exact command_comes (isMessage_fold (.read (.handle file offset count)))
        (fun reply : Reply.Read => Value.bytes reply.data) (fun _ => rfl) (fun _ => rfl)
        (fun reply s => ⟨{ s with ioStats := s.ioStats.recordRead reply.data.length }, rfl,
          ⟨rfl, rfl, rfl, rfl⟩, rfl, rfl⟩) s hunicode
  | readAtPipelined file requests depth counts =>
    exact batch_comes file requests depth counts s hunicode

end CifsClientStream
