import CifsClientStream.Cifs.Session
import CifsClientStream.Lib.Runs

/-!
# Runs of operations on a connection

An operation runs with what the server sends while it runs; frames it does not
read are there for the next one. What an operation can do to the connection is
said once, function by function (`send_ends`, `recvFrame_ends`), and the record
of a run only grows (`step_grown`).
-/

namespace CifsClientStream.Cifs
open Cursor Async Win Smb Utils

inductive Op : Type 1 where
  | command {M : Type} (R : Type) [Msg M] [Reply R] (msg : M)
  | readAtPipelined (file : Handle) (requests : List StreamingWorkerReadRequest)
      (depth : requests.length ≤ 16)
  | transact2 {C : Type} (R : Type) [SubCmd C] [SubReply R] (tid : UInt16) (subcmd : C)

/-- An operation, what arrives while it runs, and what becomes of the frames it sends. -/
structure Input : Type 1 where
  op : Op
  arrivals : List Arrival
  writes : List WriteStep

def arrive (c : Cifs) (arrivals : List Arrival) (writes : List WriteStep) : Cifs :=
  { c with netbios := { incoming := c.netbios.incoming ++ arrivals, writes } }

def ended {α : Type} : EStateM.Result (Stop Error) Cifs α → Option (Stop Error) × Cifs
  | .ok _ c => (none, c)
  | .error e c => (some e, c)

def Op.run : Op → Cifs → Option (Stop Error) × Cifs
  | @Op.command _ R _ _ msg, c => ended (Cifs.command R msg c)
  | .readAtPipelined file requests _, c => ended (Cifs.readAtPipelined file requests c)
  | @Op.transact2 _ R _ _ tid subcmd, c => ended (Cifs.transact2 R tid subcmd c)

def step (c : Cifs) (i : Input) : Option (Stop Error) × Cifs :=
  i.op.run (c.arrive i.arrivals i.writes)

def fresh (auth : Ntlm.Auth) : Cifs where
  netbios := { incoming := [], writes := [] }
  auth := auth
  maxSmbSize := 1024
  useUnicode := true
  uid := 0
  mid := 0
  ioStats := { readAtCalls := 0, readAtBytes := 0 }
  pendingReplies := fun _ => none
  history := { sent := [], received := [], handed := [] }

def noAuth : Ntlm.Auth := ⟨"", "", "", ""⟩

/-! ### What a call can do -/

def logSent (c : Cifs) : Cifs :=
  { c with
    mid := c.mid + 1
    netbios := { c.netbios with writes := c.netbios.writes.tail }
    history := { c.history with
      sent := c.history.sent ++ [⟨c.mid, (c.pendingReplies c.mid).isSome⟩] } }

def skipMid (c : Cifs) (writes : List WriteStep) : Cifs :=
  { c with mid := c.mid + 1, netbios := { c.netbios with writes } }

def logHanded (c : Cifs) (request : ℕ) (d : Delivery) : Cifs :=
  { c with history := { c.history with handed := c.history.handed ++ [⟨request, d⟩] } }

def store (c : Cifs) (mid : UInt16) (d : Option Delivery) : Cifs :=
  { c with pendingReplies := Function.update c.pendingReplies mid d }

@[simp] theorem store_self (c : Cifs) (mid : UInt16) (d : Option Delivery) :
    (c.store mid d).pendingReplies mid = d := Function.update_self ..

theorem store_of_ne (c : Cifs) (mid : UInt16) (d : Option Delivery) {m : UInt16} (h : m ≠ mid) :
    (c.store mid d).pendingReplies m = c.pendingReplies m := Function.update_of_ne h ..

theorem sendMessage_ends (frame : Bytes) (mid : UInt16) (c : Cifs) :
    Ends (sendMessage frame mid) c
      (fun t c' => t = ⟨mid, c.history.sent.length⟩ ∧ c' = { c with
        netbios := { c.netbios with writes := c.netbios.writes.tail }
        history := { c.history with
          sent := c.history.sent ++ [⟨mid, (c.pendingReplies mid).isSome⟩] } })
      (fun _ c' => ∃ writes, c' = { c with netbios := { c.netbios with writes } }) := by
  unfold Ends sendMessage
  cases (NetBios.Frame.Message frame).encode with
  | error e => exact ⟨c.netbios.writes, rfl⟩
  | ok _ =>
    cases hw : c.netbios.writes with
    | nil => exact ⟨rfl, rfl⟩
    | cons w writes =>
      cases w with
      | written => exact ⟨rfl, rfl⟩
      | failed e => exact ⟨writes, rfl⟩
      | dropped => exact ⟨writes, rfl⟩

theorem send_ends {M : Type} [Msg M] (msg : M) (c : Cifs) :
    Ends (send msg) c (fun t c' => t = ⟨c.mid, c.history.sent.length⟩ ∧ c' = c.logSent)
      (fun _ c' => ∃ writes, c' = c.skipMid writes) := by
  unfold send
  refine ends_bind (ends_get (ends_bind (ends_modify ?_)))
  refine ends_bind (ends_lift _ (fun frameOut _ => ?_) fun _ => ⟨c.netbios.writes, rfl⟩)
  exact (sendMessage_ends frameOut c.mid _).mono (fun t c' h => h) fun _ c' h => h

def Writable (c : Cifs) : Prop := c.netbios.writes = [] ∨ c.netbios.writes.head? = some .written

theorem sendMessage_ok (frame : Bytes) (mid : UInt16) (c : Cifs) (hw : c.Writable)
    (hlen : frame.length ≤ NetBios.MAX_FRAME_LENGTH) :
    sendMessage frame mid c = .ok ⟨mid, c.history.sent.length⟩ { c with
        netbios := { c.netbios with writes := c.netbios.writes.tail }
        history := { c.history with
          sent := c.history.sent ++ [⟨mid, (c.pendingReplies mid).isSome⟩] } } := by
  unfold sendMessage
  simp only [NetBios.Frame.encode, Nat.not_lt.mpr hlen, if_false]
  rcases hw with hw | hw
  · rw [hw]
  · cases hws : c.netbios.writes with
    | nil => rfl
    | cons w writes =>
      rw [hws, List.head?_cons, Option.some.injEq] at hw
      subst hw
      rfl

theorem send_eq {M : Type} [Msg M] (msg : M) (c : Cifs) :
    send msg c = (lift (liftSmb (Msg.write msg (Msg.fixHeader msg (c.header (Msg.CMD M)))
      (Msg.fixHeader msg (c.header (Msg.CMD M))).write)) >>= fun frameOut =>
        sendMessage frameOut c.mid) { c with mid := c.mid + 1 } := rfl

theorem send_ok {M : Type} [Msg M] (msg : M) (c : Cifs) (frameOut : Bytes) (hw : c.Writable)
    (hmsg : Msg.write msg (Msg.fixHeader msg (c.header (Msg.CMD M)))
      (Msg.fixHeader msg (c.header (Msg.CMD M))).write = .ok frameOut)
    (hlen : frameOut.length ≤ NetBios.MAX_FRAME_LENGTH) :
    send msg c = .ok ⟨c.mid, c.history.sent.length⟩ c.logSent := by
  rw [send_eq, hmsg]
  exact sendMessage_ok frameOut c.mid { c with mid := c.mid + 1 } hw hlen

theorem recvFrame_ends (c : Cifs) :
    Ends recvFrame c (fun d c' => ∃ rest, c' = (c.withIncoming rest).logReceived d)
      (fun _ c' => ∃ rest, c' = c.withIncoming rest) := by
  unfold Ends recvFrame
  obtain ⟨r, incoming⟩ := recvMessage c.netbios.incoming
  cases r with
  | error e => exact ⟨incoming, rfl⟩
  | ok p =>
    obtain ⟨answers, frame⟩ := p
    dsimp only
    rcases parseFrame frame with (e | _) | reply
    · exact ⟨incoming, rfl⟩
    · exact ⟨incoming, rfl⟩
    · exact ⟨incoming, rfl⟩

theorem hand_ends (R : Type) [Reply R] (ticket : Ticket) (d : Delivery) (c : Cifs) :
    Ends (hand R ticket d) c (fun _ c' => c' = c.logHanded ticket.request d)
      (fun _ c' => c' = c.logHanded ticket.request d) := by
  unfold hand
  exact ends_bind (ends_modify (ends_lift _ (fun _ _ => rfl) fun _ => rfl))

theorem putAside_ends (d : Delivery) (c : Cifs) :
    Ends (putAside d) c
      (fun _ c' => c' = c.store d.mid (some d) ∧ c.pendingReplies d.mid = none)
      (fun e c' => c' = c.store d.mid (some d) ∧ e = .error (duplicateReply d.mid)) := by
  unfold putAside
  refine ends_bind (ends_get (ends_bind (ends_modify ?_)))
  cases hp : c.pendingReplies d.mid with
  | none => exact ⟨rfl, rfl⟩
  | some _ => exact ⟨rfl, rfl⟩

/-! ### Receiving, case by case -/

theorem recv_none (R : Type) [Reply R] (t : Ticket) (c : Cifs)
    (h : c.pendingReplies t.mid = none) :
    recv R t c = recvLoop R t (c.netbios.incoming.length + 1) c := by
  have hget : (get : Fut Error Cifs Cifs) c = .ok c c := rfl
  unfold recv
  rw [fut_bind, hget]
  dsimp only
  rw [h]

theorem recv_some (R : Type) [Reply R] (t : Ticket) (c : Cifs) (d : Delivery)
    (h : c.pendingReplies t.mid = some d) :
    recv R t c = hand R t d (c.store t.mid none) := by
  have hget : (get : Fut Error Cifs Cifs) c = .ok c c := rfl
  unfold recv
  rw [fut_bind, hget]
  dsimp only
  rw [h]
  rfl

theorem recvFrame_ok (c : Cifs) (answers : ℕ) (frame : Bytes) (rest : List Arrival)
    (reply : PendingReply) (hm : recvMessage c.netbios.incoming = (.ok (answers, frame), rest))
    (hp : parseFrame frame = .ok reply) :
    recvFrame c = .ok ⟨reply, answers⟩ ((c.withIncoming rest).logReceived ⟨reply, answers⟩) := by
  unfold recvFrame
  rw [hm]
  dsimp only
  rw [hp]

theorem recvLoop_succ (R : Type) [Reply R] (t : Ticket) (fuel : ℕ) (c c' : Cifs) (d : Delivery)
    (h : recvFrame c = .ok d c') :
    recvLoop R t (fuel + 1) c = if d.mid = t.mid then hand R t d c'
      else (putAside d >>= fun _ => recvLoop R t fuel) c' := by
  rw [recvLoop, fut_bind, h]
  dsimp only
  split
  · rfl
  · rfl

theorem hand_state (R : Type) [Reply R] (t : Ticket) (d : Delivery) (c : Cifs) :
    (ended (hand R t d c)).2 = c.logHanded t.request d := by
  have h := hand_ends R t d c
  unfold Ends at h
  cases hx : hand R t d c with
  | ok a c' =>
    rw [hx] at h
    exact h
  | error e c' =>
    rw [hx] at h
    exact h

/-! ### Ids of a batch -/

theorem mid_later (m : UInt16) (i : ℕ) (h : i + 1 < 65536) : m ≠ m + 1 + UInt16.ofNat i := by
  intro e
  have h1 := congrArg UInt16.toNat e
  have h2 := m.toNat_lt
  simp only [UInt16.toNat_add, UInt16.toNat_ofNat', UInt16.reduceToNat] at h1
  omega

/-! ### Relations that calls keep -/

theorem moves_of_ends {α : Type} {R : Cifs → Cifs → Prop} {x : Fut Error Cifs α}
    (h : ∀ c, Ends x c (fun _ c' => R c c') (fun _ c' => R c c')) : Moves R x := by
  intro c
  have hc := h c
  unfold Ends at hc
  cases hx : x c with
  | ok a c' =>
    rw [hx] at hc
    exact hc
  | error e c' =>
    rw [hx] at hc
    exact hc

/-- A relation that all but sending keeps. -/
structure Receives (R : Cifs → Cifs → Prop) : Prop where
  chain : Chain R
  incoming : ∀ c rest, R c (c.withIncoming rest)
  received : ∀ c d, R c (c.logReceived d)
  stored : ∀ c mid d, R c (c.store mid d)
  handed : ∀ c request d, R c (c.logHanded request d)
  recorded : ∀ c stats, R c { c with ioStats := stats }

section

variable {R : Cifs → Cifs → Prop} (h : Receives R)

include h

theorem recvFrame_moves : Moves R recvFrame :=
  moves_of_ends fun c => (recvFrame_ends c).mono
    (fun _ _ ⟨_, hc⟩ => hc ▸ h.chain.trans _ _ _ (h.incoming c _) (h.received _ _))
    (fun _ _ ⟨_, hc⟩ => hc ▸ h.incoming c _)

theorem hand_moves (Q : Type) [Reply Q] (ticket : Ticket) (d : Delivery) :
    Moves R (hand Q ticket d) :=
  moves_of_ends fun c => (hand_ends Q ticket d c).mono
    (fun _ _ hc => hc ▸ h.handed c _ d) (fun _ _ hc => hc ▸ h.handed c _ d)

theorem putAside_moves (d : Delivery) : Moves R (putAside d) :=
  moves_of_ends fun c => (putAside_ends d c).mono
    (fun _ _ hc => hc.1 ▸ h.stored c _ _) (fun _ _ hc => hc.1 ▸ h.stored c _ _)

theorem recvLoop_moves (Q : Type) [Reply Q] (ticket : Ticket) (fuel : ℕ) :
    Moves R (recvLoop Q ticket fuel) := by
  induction fuel with
  | zero => exact Moves.drop h.chain
  | succ fuel ih =>
    exact (recvFrame_moves h).bind h.chain fun d =>
      (hand_moves h Q ticket d).ite ((putAside_moves h d).bind h.chain fun _ => ih)

theorem recv_moves (Q : Type) [Reply Q] (ticket : Ticket) : Moves R (recv Q ticket) := by
  refine (Moves.get h.chain).bind h.chain fun c => ?_
  split
  · rename_i d _
    refine Moves.bind h.chain ?_ fun _ => hand_moves h Q ticket d
    exact Moves.modify fun c => h.stored c ticket.mid none
  · exact recvLoop_moves h Q ticket _

theorem recordRead_moves (bytes : ℕ) : Moves R (recordRead bytes) :=
  Moves.modify fun c => h.recorded c _

theorem recvReads_moves (tickets : List Ticket) : Moves R (recvReads tickets) := by
  induction tickets with
  | nil => exact Moves.pure h.chain _
  | cons ticket rest ih =>
    exact (recv_moves h Reply.Read ticket).bind h.chain fun reply =>
      (recordRead_moves h _).bind h.chain fun _ =>
        ih.bind h.chain fun chunks => Moves.pure h.chain _

theorem collect_moves (ticket : Ticket) (fuel : ℕ) (ctx : CollectTrans2) :
    Moves R (collect ticket fuel ctx) := by
  induction fuel generalizing ctx with
  | zero => exact Moves.drop h.chain
  | succ fuel ih =>
    exact (recv_moves h Reply.Transact2 ticket).bind h.chain fun reply =>
      (Moves.lift h.chain _).bind h.chain fun added =>
        (Moves.pure h.chain _).ite (ih added.2)

end

/-! ### The record only grows -/

structure Grown (c c' : Cifs) : Prop where
  sent : c.history.sent <+: c'.history.sent
  received : c.history.received <+: c'.history.received
  handed : c.history.handed <+: c'.history.handed

theorem grown_chain : Chain Grown where
  refl _ := ⟨List.prefix_rfl, List.prefix_rfl, List.prefix_rfl⟩
  trans _ _ _ h h' := ⟨h.sent.trans h'.sent, h.received.trans h'.received,
    h.handed.trans h'.handed⟩

theorem Grown.of_eq {c c' : Cifs} (h : c'.history = c.history) : Grown c c' :=
  ⟨h ▸ List.prefix_rfl, h ▸ List.prefix_rfl, h ▸ List.prefix_rfl⟩

theorem grown_logSent (c : Cifs) : Grown c c.logSent :=
  ⟨List.prefix_append _ _, List.prefix_rfl, List.prefix_rfl⟩

theorem grown_receives : Receives Grown where
  chain := grown_chain
  incoming _ _ := Grown.of_eq rfl
  received _ _ := ⟨List.prefix_rfl, List.prefix_append _ _, List.prefix_rfl⟩
  stored _ _ _ := Grown.of_eq rfl
  handed _ _ _ := ⟨List.prefix_rfl, List.prefix_rfl, List.prefix_append _ _⟩
  recorded _ _ := Grown.of_eq rfl

theorem send_grown {M : Type} [Msg M] (msg : M) : Moves Grown (send msg) :=
  moves_of_ends fun c => (send_ends msg c).mono
    (fun _ _ h => h.2 ▸ grown_logSent c)
    (fun _ _ ⟨_, h⟩ => h ▸ Grown.of_eq rfl)

theorem command_grown {M : Type} (R : Type) [Msg M] [Reply R] (msg : M) :
    Moves Grown (command R msg) :=
  (send_grown msg).bind grown_chain fun ticket => recv_moves grown_receives R ticket

theorem readAt_grown (file : Handle) (offset : ℕ) (count : UInt32) :
    Moves Grown (readAt file offset count) :=
  (Moves.pure grown_chain _).ite <| (command_grown Reply.Read _).bind grown_chain fun _ =>
    (recordRead_moves grown_receives _).bind grown_chain fun _ => Moves.pure grown_chain _

theorem sendReads_grown (file : Handle) (requests : List StreamingWorkerReadRequest) :
    Moves Grown (sendReads file requests) := by
  induction requests with
  | nil => exact Moves.pure grown_chain _
  | cons request rest ih =>
    exact (Moves.ofExcept grown_chain _).bind grown_chain fun count =>
      (send_grown _).bind grown_chain fun ticket =>
        ih.bind grown_chain fun inFlight => Moves.pure grown_chain _

theorem readAtPipelined_grown (file : Handle) (requests : List StreamingWorkerReadRequest) :
    Moves Grown (readAtPipelined file requests) := by
  unfold readAtPipelined
  split
  · exact Moves.pure grown_chain _
  · exact (Moves.ofExcept grown_chain _).bind grown_chain fun count =>
      (readAt_grown file _ count).bind grown_chain fun chunk => Moves.pure grown_chain _
  · exact (sendReads_grown file _).bind grown_chain fun inFlight =>
      recvReads_moves grown_receives inFlight

theorem transact2_grown {C : Type} (R : Type) [SubCmd C] [SubReply R] (tid : UInt16)
    (subcmd : C) : Moves Grown (transact2 R tid subcmd) :=
  (send_grown _).bind grown_chain fun ticket =>
    (Moves.get grown_chain).bind grown_chain fun _ =>
      (collect_moves grown_receives ticket _ _).bind grown_chain fun _ => Moves.lift grown_chain _

theorem ended_grown {α : Type} {x : Fut Error Cifs α} (h : Moves Grown x) (c : Cifs) :
    Grown c (ended (x c)).2 := by
  have hc := h c
  cases hx : x c with
  | ok a c' =>
    rw [hx] at hc
    exact hc
  | error e c' =>
    rw [hx] at hc
    exact hc

theorem step_grown (c : Cifs) (i : Input) : Grown c (step c i).2 := by
  refine grown_chain.trans _ (c.arrive i.arrivals i.writes) _ (Grown.of_eq rfl) ?_
  unfold step Op.run
  split
  · exact ended_grown (command_grown _ _) _
  · exact ended_grown (readAtPipelined_grown _ _) _
  · exact ended_grown (transact2_grown _ _ _) _

end CifsClientStream.Cifs
