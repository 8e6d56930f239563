import CifsClientStream.Cifs.Run

/-!
# A reply reaches the request it answers

Multiplex ids are 16 bits wide and come round. A message for an abandoned
request stays in `pending_replies`, or in flight, as long as nobody asks for
its id; when the id is used again, `recv` takes it for the new reply. The run
theorem `handed_own` says that this is all that can go wrong: as long as no
request reuses an id for which an older message is still around, every message
that is handed out answers the request it is handed out for.
-/

namespace CifsClientStream.Cifs
open Cursor Async Win Smb Utils

/-- Every message the server sends answers an earlier request and carries its id. -/
def Honest (h : History) : Prop :=
  ∀ r ∈ h.received, ∃ s, h.sent[r.answers]? = some s ∧ s.mid = r.mid ∧ r.answers < r.sent

/-- No request goes out under an id while a message for an older request of that id is
still put aside, or has still to arrive. -/
structure Unreused (h : History) : Prop where
  stored : ∀ s ∈ h.sent, s.stored = false
  late : ∀ r ∈ h.received, ∀ j s, r.answers < j → j < r.sent → h.sent[j]? = some s →
    s.mid ≠ r.mid

/-- Every message that is handed out answers the request it is handed out for. -/
def OwnReplies (h : History) : Prop := ∀ x ∈ h.handed, x.request = x.delivery.answers

structure Latest (sent : List Sent) (i : ℕ) (mid : UInt16) : Prop where
  entry : ∃ s, sent[i]? = some s ∧ s.mid = mid
  last : ∀ j s, i < j → sent[j]? = some s → s.mid ≠ mid

theorem Latest.unique {sent : List Sent} {i j : ℕ} {mid : UInt16} (hi : Latest sent i mid)
    (hj : Latest sent j mid) : i = j := by
  obtain ⟨s, hs, hsm⟩ := hi.entry
  obtain ⟨t, ht, htm⟩ := hj.entry
  rcases Nat.lt_trichotomy i j with h | h | h
  · exact absurd htm (hi.last j t h ht)
  · exact h
  · exact absurd hsm (hj.last i s h hs)

theorem latest_append (sent : List Sent) (s : Sent) :
    Latest (sent ++ [s]) sent.length s.mid := by
  refine ⟨⟨s, by simp, rfl⟩, fun j t hj ht => ?_⟩
  have hlen := (List.getElem?_eq_some_iff.mp ht).1
  rw [List.length_append, List.length_singleton] at hlen
  omega

theorem Latest.append {sent : List Sent} {i : ℕ} {mid : UInt16} (h : Latest sent i mid) (s : Sent)
    (hs : s.mid ≠ mid) : Latest (sent ++ [s]) i mid := by
  obtain ⟨t, ht, htm⟩ := h.entry
  have hlt := (List.getElem?_eq_some_iff.mp ht).1
  refine ⟨⟨t, by rw [List.getElem?_append_left hlt]; exact ht, htm⟩, fun j u hj hu => ?_⟩
  by_cases hjl : j < sent.length
  · rw [List.getElem?_append_left hjl] at hu
    exact h.last j u hj hu
  · have hlen := (List.getElem?_eq_some_iff.mp hu).1
    rw [List.length_append, List.length_singleton] at hlen
    have hj' : j = sent.length := by omega
    subst hj'
    rw [List.getElem?_concat_length] at hu
    cases hu
    exact hs

/-- What holds between operations: a message put aside answers the last request of its id,
and what has been handed out answers the request it went to. -/
structure InOrder (c : Cifs) : Prop where
  pending : ∀ mid d, c.pendingReplies mid = some d →
    d.mid = mid ∧ Latest c.history.sent d.answers mid
  own : OwnReplies c.history

/-! ### What one call preserves -/

variable {cf : Cifs}

theorem latest_of_received (hh : Honest cf.history) (hu : Unreused cf.history) (c : Cifs)
    (d : Delivery) (hg : Grown (c.logReceived d) cf) :
    Latest c.history.sent d.answers d.mid := by
  have hr : (⟨d.mid, d.answers, c.history.sent.length⟩ : Received) ∈ cf.history.received :=
    hg.received.subset (by simp [logReceived])
  obtain ⟨s, hs, hm, hlt⟩ := hh _ hr
  have hsub : ∀ j, j < c.history.sent.length → c.history.sent[j]? = cf.history.sent[j]? := by
    obtain ⟨tail, ht⟩ := hg.sent
    intro j hj
    rw [← ht]
    exact (List.getElem?_append_left hj).symm
  refine ⟨⟨s, by rw [hsub _ hlt]; exact hs, hm⟩, fun j t hj ht => ?_⟩
  have hjl := (List.getElem?_eq_some_iff.mp ht).1
  exact hu.late _ hr j t hj hjl (by rw [← hsub _ hjl]; exact ht)

theorem InOrder.logHanded {c : Cifs} (h : InOrder c) (request : ℕ) (d : Delivery)
    (he : request = d.answers) : InOrder (c.logHanded request d) := by
  refine ⟨h.pending, fun x hx => ?_⟩
  rcases List.mem_append.mp hx with hx | hx
  · exact h.own x hx
  · rw [List.mem_singleton.mp hx]
    exact he

theorem InOrder.store {c : Cifs} (h : InOrder c) (d : Delivery)
    (hd : Latest c.history.sent d.answers d.mid) : InOrder (c.store d.mid (some d)) := by
  refine ⟨fun mid e he => ?_, h.own⟩
  by_cases hm : mid = d.mid
  · subst hm
    rw [store_self] at he
    cases he
    exact ⟨rfl, hd⟩
  · rw [store_of_ne c _ _ hm] at he
    exact h.pending mid e he

theorem InOrder.remove {c : Cifs} (h : InOrder c) (mid : UInt16) : InOrder (c.store mid none) := by
  refine ⟨fun m e he => ?_, h.own⟩
  by_cases hm : m = mid
  · subst hm
    rw [store_self] at he
    cases he
  · rw [store_of_ne c _ _ hm] at he
    exact h.pending m e he

theorem InOrder.logSent {c : Cifs} (h : InOrder c) (hs : c.pendingReplies c.mid = none) :
    InOrder c.logSent := by
  refine ⟨fun mid d hd => ?_, h.own⟩
  obtain ⟨hm, hl⟩ := h.pending mid d hd
  refine ⟨hm, hl.append _ fun e => ?_⟩
  have he : c.mid = mid := e
  rw [he] at hs
  exact absurd (hs.symm.trans hd) (by simp)

def Sending (S : List Sent) (c : Cifs) : Prop := InOrder c ∧ c.history.sent = S

theorem back (c c' : Cifs) (h : Grown c c') (hf : Grown c' cf) : Grown c cf :=
  grown_chain.trans _ _ _ h hf

theorem hand_under (R : Type) [Reply R] (S : List Sent) (t : Ticket) (d : Delivery)
    (ht : Latest S t.request t.mid) (hd : Latest S d.answers t.mid) :
    Under (Grown · cf) (Sending S) (hand R t d) (fun _ => Sending S) InOrder := by
  rintro c ⟨hI, rfl⟩
  have hI' := hI.logHanded t.request d (ht.unique hd)
  refine (hand_ends R t d c).mono ?_ ?_
  · rintro _ _ rfl _
    exact ⟨hI', rfl⟩
  · rintro _ _ rfl _
    exact hI'

theorem putAside_under (S : List Sent) (d : Delivery) (hd : Latest S d.answers d.mid) :
    Under (Grown · cf) (Sending S) (putAside d) (fun _ => Sending S) InOrder := by
  rintro c ⟨hI, rfl⟩
  refine (putAside_ends d c).mono ?_ ?_
  · rintro _ _ ⟨rfl, _⟩ _
    exact ⟨hI.store d hd, rfl⟩
  · rintro _ _ ⟨rfl, _⟩ _
    exact hI.store d hd

section
variable (hh : Honest cf.history) (hu : Unreused cf.history)
include hh hu

theorem recvFrame_under (S : List Sent) :
    Under (Grown · cf) (Sending S) recvFrame
      (fun d c => Sending S c ∧ Latest S d.answers d.mid) InOrder := by
  rintro c ⟨hI, rfl⟩
  refine (recvFrame_ends c).mono ?_ ?_
  · rintro d _ ⟨rest, rfl⟩ hg
    exact ⟨⟨⟨hI.pending, hI.own⟩, rfl⟩, latest_of_received hh hu (c.withIncoming rest) d hg⟩
  · rintro e _ ⟨rest, rfl⟩ _
    exact ⟨hI.pending, hI.own⟩

theorem recvLoop_under (R : Type) [Reply R] (S : List Sent) (t : Ticket)
    (ht : Latest S t.request t.mid) (fuel : ℕ) :
    Under (Grown · cf) (Sending S) (recvLoop R t fuel) (fun _ => Sending S) InOrder := by
  induction fuel with
  | zero => exact fun c hc _ => hc.1
  | succ fuel ih =>
    refine (recvFrame_under hh hu S).bind back
      (fun d => (hand_moves grown_receives R t d).ite ((putAside_moves grown_receives d).bind grown_chain fun _ =>
        recvLoop_moves grown_receives R t fuel)) fun d => ?_
    rintro c ⟨hS, hd⟩
    by_cases hm : d.mid = t.mid
    · simp only [hm, if_true]
      exact hand_under R S t d ht (hm ▸ hd) c hS
    · simp only [hm, if_false]
      exact (putAside_under S d hd).bind back (fun _ => recvLoop_moves grown_receives R t fuel)
        (fun _ => ih) c hS

theorem recv_under (R : Type) [Reply R] (S : List Sent) (t : Ticket)
    (ht : Latest S t.request t.mid) :
    Under (Grown · cf) (Sending S) (recv R t) (fun _ => Sending S) InOrder := by
  intro c hS
  unfold recv
  refine ends_bind (ends_get ?_)
  cases hp : c.pendingReplies t.mid with
  | some d =>
    obtain ⟨hm, hl⟩ := hS.1.pending t.mid d hp
    refine ends_bind (ends_modify ?_)
    exact hand_under R S t d ht (hS.2 ▸ hl) (c.store t.mid none)
      ⟨hS.1.remove t.mid, hS.2⟩
  | none => exact recvLoop_under hh hu R S t ht _ c hS

theorem recvReads_under (S : List Sent) (tickets : List Ticket)
    (ht : ∀ t ∈ tickets, Latest S t.request t.mid) :
    Under (Grown · cf) (Sending S) (recvReads tickets) (fun _ => Sending S) InOrder := by
  induction tickets with
  | nil => exact Under.pure _ fun _ hS => hS
  | cons t rest ih =>
    refine (recv_under hh hu Reply.Read S t (ht t List.mem_cons_self)).bind back
      (fun reply => (recordRead_moves grown_receives _).bind grown_chain fun _ =>
        (recvReads_moves grown_receives rest).bind grown_chain fun _ => Moves.pure grown_chain _) fun reply => ?_
    refine Under.bind back (Q := fun _ => Sending S) ?_
      (fun _ => (recvReads_moves grown_receives rest).bind grown_chain fun _ => Moves.pure grown_chain _)
      fun _ => ?_
    · exact fun c hS _ => ⟨⟨hS.1.pending, hS.1.own⟩, hS.2⟩
    · exact (ih fun t h => ht t (List.mem_cons_of_mem _ h)).bind back
        (fun _ => Moves.pure grown_chain _) fun _ => Under.pure _ fun _ hS => hS

theorem collect_under (S : List Sent) (t : Ticket) (ht : Latest S t.request t.mid) (fuel : ℕ)
    (ctx : CollectTrans2) :
    Under (Grown · cf) (Sending S) (collect t fuel ctx) (fun _ => Sending S) InOrder := by
  induction fuel generalizing ctx with
  | zero => exact fun c hc _ => hc.1
  | succ fuel ih =>
    refine (recv_under hh hu Reply.Transact2 S t ht).bind back
      (fun reply => (Moves.lift grown_chain _).bind grown_chain fun added =>
        (Moves.pure grown_chain _).ite (collect_moves grown_receives t fuel added.2)) fun reply => ?_
    refine Under.bind back (Under.lift _ (fun _ _ _ hS => hS) fun _ hS => hS.1)
      (fun added => (Moves.pure grown_chain _).ite (collect_moves grown_receives t fuel added.2)) fun added => ?_
    intro c hS
    dsimp only
    split
    · exact fun _ => hS
    · exact ih added.2 c hS

/-! ### Sending -/

omit hh in
theorem send_under {M : Type} [Msg M] (msg : M) (S : List Sent) (m : UInt16) :
    Under (Grown · cf) (fun c => Sending S c ∧ c.mid = m) (send msg)
      (fun t c => t = ⟨m, S.length⟩ ∧ Sending (S ++ [⟨m, false⟩]) c ∧ c.mid = m + 1) InOrder := by
  rintro c ⟨⟨hI, rfl⟩, rfl⟩
  refine (send_ends msg c).mono ?_ ?_
  · rintro t _ ⟨rfl, rfl⟩ hg
    have hmem : (⟨c.mid, (c.pendingReplies c.mid).isSome⟩ : Sent) ∈ cf.history.sent :=
      hg.sent.subset (by simp [logSent])
    have hfree := hu.stored _ hmem
    have hnone : c.pendingReplies c.mid = none := by simpa using hfree
    refine ⟨rfl, ⟨hI.logSent hnone, ?_⟩, rfl⟩
    simp only [logSent, hnone, Option.isSome_none]
  · rintro e _ ⟨writes, rfl⟩ _
    exact ⟨hI.pending, hI.own⟩

/-- The requests of a batch keep their ids apart as long as the batch is not longer than
the ids are. -/
structure Batch (olds : List Ticket) (m : UInt16) (n : ℕ) (c : Cifs) : Prop where
  inOrder : InOrder c
  next : c.mid = m
  latest : ∀ t ∈ olds, Latest c.history.sent t.request t.mid
  apart : ∀ t ∈ olds, ∀ i < n, t.mid ≠ m + UInt16.ofNat i

omit hh in
theorem sendReads_under (file : Handle) (requests : List StreamingWorkerReadRequest)
    (hlen : requests.length ≤ 65536) (olds : List Ticket) (m : UInt16) :
    Under (Grown · cf) (Batch olds m requests.length) (sendReads file requests)
      (fun tickets c => InOrder c ∧ ∀ t ∈ olds ++ tickets, Latest c.history.sent t.request t.mid)
      InOrder := by
  induction requests generalizing olds m with
  | nil =>
    refine Under.pure _ fun c hb => ⟨hb.inOrder, fun t ht => hb.latest t ?_⟩
    rwa [List.append_nil] at ht
  | cons request rest ih =>
    rw [List.length_cons] at hlen
    have hmoves : ∀ ticket : Ticket, Moves Grown (sendReads file rest >>= fun inFlight =>
        (pure (ticket :: inFlight) : Fut Error Cifs (List Ticket))) := fun ticket =>
      (sendReads_grown file rest).bind grown_chain fun _ => Moves.pure grown_chain _
    refine Under.bind back (Q := fun _ => Batch olds m (rest.length + 1))
      (Under.ofExcept _ (fun _ _ _ hb => hb) fun _ hb => hb.inOrder)
      (fun count => (send_grown _).bind grown_chain hmoves) fun count => ?_
    intro c hb
    refine Under.bind back (send_under hu _ c.history.sent m) hmoves (fun ticket => ?_) c
      ⟨⟨hb.inOrder, rfl⟩, hb.next⟩
    rintro c1 ⟨rfl, ⟨hI, hS⟩, hm⟩
    have hb1 : Batch (olds ++ [⟨m, c.history.sent.length⟩]) (m + 1) rest.length c1 := by
      refine ⟨hI, hm, fun t ht => ?_, fun t ht i hi => ?_⟩
      · rw [hS]
        rcases List.mem_append.mp ht with ht | ht
        · refine (hb.latest t ht).append _ fun e => ?_
          have := hb.apart t ht 0 (by omega)
          exact this (e.symm.trans (by simp))
        · rw [List.mem_singleton.mp ht]
          exact latest_append _ _
      · rcases List.mem_append.mp ht with ht | ht
        · have := hb.apart t ht (i + 1) (by omega)
          rwa [UInt16.ofNat_add, UInt16.add_comm (UInt16.ofNat i), ← UInt16.add_assoc] at this
        · rw [List.mem_singleton.mp ht]
          exact mid_later m i (by omega)
    refine (ih (by omega) _ _).bind back (fun _ => Moves.pure grown_chain _)
      (fun inFlight => Under.pure _ fun c2 h2 => ?_) c1 hb1
    rwa [List.append_assoc, List.singleton_append] at h2

/-! ### Operations and runs -/

theorem command_under {M : Type} (R : Type) [Msg M] [Reply R] (msg : M) :
    Under (Grown · cf) InOrder (command R msg) (fun _ => InOrder) InOrder := by
  intro c hI
  refine Under.bind back (send_under hu msg c.history.sent c.mid) (fun t => recv_moves grown_receives R t)
    (fun t => ?_) c ⟨⟨hI, rfl⟩, rfl⟩
  rintro c1 ⟨rfl, hS, _⟩
  exact ((recv_under hh hu R _ _ (latest_append _ ⟨c.mid, false⟩)) c1 hS).mono
    (fun _ _ h hg => (h hg).1) fun _ _ h => h

theorem readAt_under (file : Handle) (offset : ℕ) (count : UInt32) :
    Under (Grown · cf) InOrder (readAt file offset count) (fun _ => InOrder) InOrder := by
  intro c hI
  unfold readAt
  split
  · exact fun _ => hI
  · refine Under.bind back (command_under hh hu Reply.Read _) (fun reply =>
      (recordRead_moves grown_receives _).bind grown_chain fun _ => Moves.pure grown_chain _)
      (fun reply => ?_) c hI
    exact fun c1 hI1 => ends_bind (ends_modify fun _ => ⟨hI1.pending, hI1.own⟩)

theorem readAtPipelined_under (file : Handle) (requests : List StreamingWorkerReadRequest)
    (hlen : requests.length ≤ 65536) :
    Under (Grown · cf) InOrder (readAtPipelined file requests) (fun _ => InOrder) InOrder := by
  intro c hI
  unfold readAtPipelined
  split
  · exact fun _ => hI
  · refine Under.bind back (Q := fun _ => InOrder)
      (Under.ofExcept _ (fun _ _ _ h => h) fun _ h => h)
      (fun count => (readAt_grown file _ count).bind grown_chain fun _ => Moves.pure grown_chain _)
      (fun count => ?_) c hI
    exact (readAt_under hh hu file _ count).bind back (fun _ => Moves.pure grown_chain _)
      fun _ => Under.pure _ fun _ h => h
  · refine Under.bind back (sendReads_under hu file requests hlen [] c.mid)
      (fun tickets => recvReads_moves grown_receives tickets) (fun tickets => ?_) c
      ⟨hI, rfl, fun t ht => absurd ht List.not_mem_nil, fun t ht => absurd ht List.not_mem_nil⟩
    rintro c1 ⟨hI1, ht⟩
    exact (recvReads_under hh hu c1.history.sent tickets ht c1 ⟨hI1, rfl⟩).mono
      (fun _ _ h hg => (h hg).1) fun _ _ h => h

theorem transact2_under {C : Type} (R : Type) [SubCmd C] [SubReply R] (tid : UInt16)
    (subcmd : C) :
    Under (Grown · cf) InOrder (transact2 R tid subcmd) (fun _ => InOrder) InOrder := by
  intro c hI
  refine Under.bind back (send_under hu _ c.history.sent c.mid) (fun t =>
    (Moves.get grown_chain).bind grown_chain fun _ => (collect_moves grown_receives t _ _).bind grown_chain
      fun _ => Moves.lift grown_chain _) (fun t => ?_) c ⟨⟨hI, rfl⟩, rfl⟩
  rintro c1 ⟨rfl, hS, _⟩
  refine ends_bind (ends_get ?_)
  refine Under.bind back (collect_under hh hu _ _ (latest_append _ ⟨c.mid, false⟩) _ _)
    (fun _ => Moves.lift grown_chain _) (fun ctx => ?_) c1 hS
  exact Under.lift _ (fun _ _ _ h => h.1) fun _ h => h.1

theorem step_inOrder (c : Cifs) (i : Input) (hI : InOrder c) (hg : Grown (step c i).2 cf) :
    InOrder (step c i).2 := by
  have key : ∀ {α : Type} (x : Fut Error Cifs α),
      Under (Grown · cf) InOrder x (fun _ => InOrder) InOrder →
      Grown (ended (x (c.arrive i.arrivals i.writes))).2 cf →
      InOrder (ended (x (c.arrive i.arrivals i.writes))).2 := by
    intro α x hx hg
    have h := hx (c.arrive i.arrivals i.writes) ⟨hI.pending, hI.own⟩
    unfold Ends at h
    cases hr : x (c.arrive i.arrivals i.writes) with
    | ok a c' =>
      rw [hr] at h hg
      exact h hg
    | error e c' =>
      rw [hr] at h hg
      exact h hg
  unfold step Op.run at hg ⊢
  split at hg
  · exact key _ (command_under hh hu _ _) hg
  · rename_i depth _
    exact key _ (readAtPipelined_under hh hu _ _ (by omega)) hg
  · exact key _ (transact2_under hh hu _ _ _) hg

end

/-- Over a whole run with an honest server: as long as no id is reused while an older
message for it is still around, every message goes to the request it answers. -/
theorem handed_own (auth : Ntlm.Auth) (inputs : List Input)
    (hh : Honest (Runs.run step (fresh auth) inputs).2.history)
    (hu : Unreused (Runs.run step (fresh auth) inputs).2.history) :
    OwnReplies (Runs.run step (fresh auth) inputs).2.history := by
  have g : Runs.Grows step Grown (Grown · (Runs.run step (fresh auth) inputs).2) :=
    ⟨grown_chain.refl, grown_chain.trans, step_grown, back⟩
  have h0 : InOrder (fresh auth) := by
    constructor
    · intro mid d h
      cases h
    · intro x h
      cases h
  have hrun := Runs.run_under (Q := fun _ => True) g
    (fun c i hg hI => ⟨trivial, step_inOrder hh hu c i hI hg⟩) (fresh auth) inputs
    (grown_chain.refl _) h0
  exact hrun.2.own

/-! ### The ids come round -/

/-- A request that is dropped before anything arrives. -/
def abandoned : Input where
  op := .command Reply.TreeDisconnect (Msg.TreeDisconnect.mk 0)
  arrivals := []
  writes := []

def disconnectReply (mid : UInt16) : Bytes :=
  { Info.default .TreeDisconnect with flags1 := Flags1.REPLY, mid }.write ++ [0, 0, 0]

def afterAbandoned (n : ℕ) : Cifs :=
  { fresh noAuth with
    mid := UInt16.ofNat n
    history := {
      sent := (List.range n).map fun i => ⟨UInt16.ofNat i, false⟩
      received := []
      handed := [] } }

theorem disconnect_written (info : Info) :
    Msg.write (Msg.TreeDisconnect.mk 0) info info.write = .ok (info.write ++ [0, 0, 0]) := by
  have hl := info.write_length
  unfold Msg.write
  simp [Msg.body, remainingMut, tryU16, putU8, putU16Le, leBytes]
  rfl

theorem disconnect_sent (c : Cifs) (hw : c.Writable) :
    send (Msg.TreeDisconnect.mk 0) c = .ok ⟨c.mid, c.history.sent.length⟩ c.logSent := by
  refine send_ok _ c _ hw (disconnect_written _) ?_
  rw [List.length_append, Info.write_length]
  decide

theorem step_abandoned (n : ℕ) :
    step (afterAbandoned n) abandoned = (some .dropped, afterAbandoned (n + 1)) := by
  have hsend := disconnect_sent (afterAbandoned n) (Or.inl rfl)
  have hstep : step (afterAbandoned n) abandoned =
      (some .dropped, (afterAbandoned n).logSent.withIncoming []) := by
    change ended ((send (Msg.TreeDisconnect.mk 0) >>= fun ticket =>
      recv Reply.TreeDisconnect ticket) (afterAbandoned n)) = _
    rw [fut_bind, hsend]
    rfl
  rw [hstep]
  simp only [afterAbandoned, logSent, withIncoming, fresh, List.range_succ, List.map_append,
    UInt16.ofNat_add, List.map_cons, List.map_nil, Option.isSome_none, List.tail_nil]
  rfl

theorem run_abandoned (k n : ℕ) :
    (Runs.run step (afterAbandoned n) (List.replicate k abandoned)).2 = afterAbandoned (n + k) := by
  induction k generalizing n with
  | zero => rfl
  | succ k ih =>
    rw [List.replicate_succ, Runs.run_cons, step_abandoned, ih, Nat.add_assoc, Nat.add_comm 1 k]

/-- A request during which the reply to request 0 arrives. -/
def late : Input := { abandoned with arrivals := [.frame 0 (.Message (disconnectReply 0))] }

theorem step_late (c : Cifs) (hm : c.mid = 0) (hi : c.netbios.incoming = [])
    (hp : c.pendingReplies 0 = none) :
    ∃ reply, (step c late).2.history = {
      sent := c.history.sent ++ [⟨0, false⟩]
      received := c.history.received ++ [⟨0, 0, c.history.sent.length + 1⟩]
      handed := c.history.handed ++ [⟨c.history.sent.length, ⟨reply, 0⟩⟩] } := by
  have hparse : parseFrame (disconnectReply 0) =
      .ok ⟨Info.ofBytes .TreeDisconnect (disconnectReply 0), [0, 0, 0]⟩ := rfl
  have hsend := disconnect_sent (c.arrive late.arrivals late.writes) (Or.inl rfl)
  have hin : ((c.arrive late.arrivals late.writes).logSent).netbios.incoming =
      [.frame 0 (.Message (disconnectReply 0))] := by
    change c.netbios.incoming ++ late.arrivals = _
    rw [hi]
    rfl
  have hmid : (c.arrive late.arrivals late.writes).mid = 0 := hm
  rw [hmid] at hsend
  have hframe := recvFrame_ok _ 0 (disconnectReply 0) [] _ (by rw [hin]; rfl) hparse
  refine ⟨⟨Info.ofBytes .TreeDisconnect (disconnectReply 0), [0, 0, 0]⟩, ?_⟩
  have hstep : (step c late).2 = (ended ((send (Msg.TreeDisconnect.mk 0) >>= fun ticket =>
    recv Reply.TreeDisconnect ticket) (c.arrive late.arrivals late.writes))).2 := rfl
  rw [hstep, fut_bind, hsend]
  dsimp only
  have hown : Delivery.mid ⟨⟨Info.ofBytes .TreeDisconnect (disconnectReply 0), [0, 0, 0]⟩, 0⟩ = 0 := rfl
  rw [recv_none _ _ _ hp, recvLoop_succ _ _ _ _ _ _ hframe]
  simp only [hown, if_true, hand_state]
  simp only [logHanded, logReceived, withIncoming, logSent, arrive, hown, hm, hp,
    Option.isSome_none, List.length_append, List.length_singleton]

theorem handed_own_late : OwnReplies (Runs.run step (fresh noAuth) [late]).2.history := by
  obtain ⟨reply, hlast⟩ := step_late (fresh noAuth) rfl rfl rfl
  refine handed_own noAuth [late] ?_ ?_
  · rw [Runs.run_cons, Runs.run_nil, hlast]
    intro r hr
    rw [List.mem_singleton.mp hr]
    exact ⟨⟨0, false⟩, rfl, rfl, by decide⟩
  · rw [Runs.run_cons, Runs.run_nil, hlast]
    constructor
    · intro s hs
      rw [List.mem_singleton.mp hs]
    · intro r hr j s hj hlt
      rw [List.mem_singleton.mp hr] at hj hlt
      exact absurd hlt (Nat.not_lt.mpr hj)

theorem run_late (n : ℕ) :
    (Runs.run step (fresh noAuth) (List.replicate n abandoned ++ [late])).2 =
      (step (afterAbandoned n) late).2 := by
  have h0 : fresh noAuth = afterAbandoned 0 := rfl
  rw [Runs.run_append, h0, run_abandoned n 0, Nat.zero_add, Runs.run_cons, Runs.run_nil]

/-- 65536 requests that are abandoned, and one more. -/
def idsComeRound : List Input := List.replicate 65536 abandoned ++ [late]

/-- The late reply to request 0 is handed out for request 65536. -/
theorem idsComeRound_stale :
    Honest (Runs.run step (fresh noAuth) idsComeRound).2.history ∧
      ¬OwnReplies (Runs.run step (fresh noAuth) idsComeRound).2.history := by
  have hmid : (afterAbandoned 65536).mid = 0 := by simp only [afterAbandoned]; decide
  have hlen : (afterAbandoned 65536).history.sent.length = 65536 := by
    simp only [afterAbandoned, List.length_map, List.length_range]
  have hfirst : (afterAbandoned 65536).history.sent[0]? = some ⟨0, false⟩ := by
    simp only [afterAbandoned, List.getElem?_map, List.getElem?_range (Nat.zero_lt_succ 65535)]
    rfl
  obtain ⟨reply, hlast⟩ := step_late (afterAbandoned 65536) hmid rfl rfl
  rw [idsComeRound, run_late, hlast]
  refine ⟨fun r hr => ?_, ?_⟩
  · have hr : r = ⟨0, 0, (afterAbandoned 65536).history.sent.length + 1⟩ := List.mem_singleton.mp hr
    subst hr
    refine ⟨⟨0, false⟩, ?_, rfl, by rw [hlen]; decide⟩
    rw [List.getElem?_append_left (by rw [hlen]; decide)]
    exact hfirst
  · intro hown
    have h := hown ⟨65536, ⟨reply, 0⟩⟩ (by rw [hlen]; exact List.mem_singleton_self _)
    cases h

end CifsClientStream.Cifs
