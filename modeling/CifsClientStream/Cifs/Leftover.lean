import CifsClientStream.Cifs.Correlation
import CifsClientStream.Cifs.Pipeline

/-!
# Replies to abandoned requests (`recv` and `transact2` of src/lib.rs)

An operation that is dropped leaves replies behind, which later operations meet
and put aside. `leftovers_harmless`: they do no harm as long as no two of them
carry the same id. A search leaves as many messages under one id as its answer
has fragments, and the second one fails whatever operation comes next
(`fragmentsLeft_fail`).
-/

namespace CifsClientStream.Cifs
open Cursor Async Win Smb Utils Mailbox

/-! ### The answer to an operation -/

/-- Added in this order the messages complete the collection `ctx`, with the last one. -/
inductive Assembles : CollectTrans2 → List Reply.Transact2 → CollectTrans2 → Prop
  | last {ctx ctx' msg} (h : ctx.add msg = .ok (true, ctx')) : Assembles ctx [msg] ctx'
  | more {ctx ctx1 ctx' msg rest} (h : ctx.add msg = .ok (false, ctx1))
      (hrest : Assembles ctx1 rest ctx') : Assembles ctx (msg :: rest) ctx'

/-- The requests of an operation go out under the ids `mids`, and among the messages `ds`
are well-formed and successful replies to them, which give it the answer. -/
inductive Served (c : Cifs) (ds : List Delivery) :
    List UInt16 → {α : Type} → Fut Error Cifs α → α → Prop
  | command {M R : Type} [Msg M] [Reply R] {msg : M} {t : Ticket} {c1 : Cifs} {d : Delivery}
      {answer : R} (sent : send msg c = .ok t c1) (own : ownReplies [c.mid] ds = [d])
      (reply : parseReply R d.reply = .ok answer) :
      Served c ds [c.mid] (Cifs.command R msg) answer
  | readAtPipelined {file : Handle} {requests : List StreamingWorkerReadRequest}
      {inFlight : List Ticket} {c1 : Cifs} {replies : List Delivery} {chunks : List Bytes}
      (nonempty : requests ≠ []) (depth : requests.length ≤ 16)
      (positive : ∀ request ∈ requests, 0 < request.len)
      (sent : sendReads file requests c = .ok inFlight c1)
      (own : (ownReplies (inFlight.map Ticket.mid) ds).Perm replies)
      (each : replies.length = requests.length) (reply : Answered c.mid replies chunks) :
      Served c ds (inFlight.map Ticket.mid) (Cifs.readAtPipelined file requests) chunks
  | transact2 {C R : Type} [SubCmd C] [SubReply R] {tid : UInt16} {subcmd : C} {t : Ticket}
      {c1 : Cifs} {msgs : List Reply.Transact2} {ctx : CollectTrans2} {answer : R}
      (sent : send (Msg.Transact2.mk tid subcmd) c = .ok t c1)
      (own : List.Forall₂ (fun d msg => parseReply Reply.Transact2 d.reply = .ok msg)
        (ownReplies [c.mid] ds) msgs)
      (assembles : Assembles CollectTrans2.new msgs ctx)
      (reply : ctx.getSubreply R = .ok answer) :
      Served c ds [c.mid] (Cifs.transact2 R tid subcmd) answer

/-! ### One request -/

theorem send_sent {M : Type} [Msg M] {msg : M} {c c1 : Cifs} {t : Ticket}
    (h : send msg c = .ok t c1) : t.mid = c.mid ∧ c1 = c.logSent := by
  have he := send_ends msg c
  unfold Ends at he
  rw [h] at he
  exact ⟨by rw [he.1], he.2⟩

theorem ownReplies_single (mid : UInt16) (ds : List Delivery) :
    ownReplies [mid] ds = ds.filter fun d => d.mid = mid := by
  simp only [ownReplies, List.mem_singleton]

variable {c : Cifs} {ds : List Delivery} {later : List Arrival}

theorem Undisturbed.queued_single {mid : UInt16} (h : Undisturbed c [mid] ds later)
    (hne : ownReplies [mid] ds ≠ []) :
    queued Delivery.mid ⟨c.pendingReplies, ds⟩ mid = ownReplies [mid] ds := by
  obtain ⟨d, hd⟩ := List.exists_mem_of_ne_nil _ hne
  rw [ownReplies_single] at hd
  obtain ⟨hds, hm⟩ := List.mem_filter.mp hd
  have hm : d.mid = mid := of_decide_eq_true hm
  subst hm
  rw [h.queued_own d hds (List.mem_singleton_self _), ownReplies_single, List.filter_filter]
  simp only [Bool.and_self]

theorem command_undisturbed {M R : Type} [Msg M] [Reply R] (msg : M) (t : Ticket) (c1 : Cifs)
    (d : Delivery) (answer : R) (hs : send msg c = .ok t c1) (hown : ownReplies [c.mid] ds = [d])
    (hr : parseReply R d.reply = .ok answer) (hu : Undisturbed c [c.mid] ds later) :
    ∃ c', command R msg c = .ok answer c' := by
  obtain ⟨htm, rfl⟩ := send_sent hs
  have hu1 : Undisturbed c.logSent [c.mid] ds later := hu.of_eq rfl rfl
  have hq := hu1.queued_single (by rw [hown]; exact List.cons_ne_nil _ _)
  rw [hown, ← htm] at hq
  obtain ⟨c', _, hrecv, _⟩ := recv_queued R t c.logSent _ later hu1.holds d [] answer hq
    (fun k hk => hu1.queued_other k (by rw [← htm]; simpa using hk)) hr
  refine ⟨c', ?_⟩
  rw [command, fut_bind, hs]
  exact hrecv

/-! ### A transaction -/

theorem collect_queued (t : Ticket) (fuel : ℕ) (ctx ctx' : CollectTrans2)
    (msgs : List Reply.Transact2) (ha : Assembles ctx msgs ctx') (c : Cifs)
    (box : Box UInt16 Delivery) (hc : Holds c box later)
    (hq : List.Forall₂ (fun d msg => parseReply Reply.Transact2 d.reply = .ok msg)
      (queued Delivery.mid box t.mid) msgs)
    (hu : ∀ k, k ≠ t.mid → (queued Delivery.mid box k).length ≤ 1) (hf : msgs.length ≤ fuel) :
    ∃ c', collect t fuel ctx c = .ok ctx' c' := by
  induction ha generalizing c box fuel with
  | @last ctx ctx' msg hadd =>
    cases fuel with
    | zero => exact absurd hf (by simp)
    | succ fuel =>
      cases hbox : queued Delivery.mid box t.mid with
      | nil =>
        rw [hbox] at hq
        cases hq
      | cons d rest =>
        rw [hbox] at hq
        obtain ⟨hd, hrest⟩ := List.forall₂_cons.mp hq
        obtain ⟨c', _, hr, _⟩ := recv_queued Reply.Transact2 t c box later hc d rest msg hbox hu hd
        refine ⟨c', ?_⟩
        rw [collect, fut_bind, hr]
        dsimp only
        rw [hadd]
        rfl
  | @more ctx ctx1 ctx' msg rest hadd _ ih =>
    cases fuel with
    | zero => exact absurd hf (by simp)
    | succ fuel =>
      cases hbox : queued Delivery.mid box t.mid with
      | nil =>
        rw [hbox] at hq
        cases hq
      | cons d others =>
        rw [hbox] at hq
        obtain ⟨hd, hothers⟩ := List.forall₂_cons.mp hq
        obtain ⟨c1, box1, hr, _, hh, hown, hsame, _⟩ :=
          recv_queued Reply.Transact2 t c box later hc d others msg hbox hu hd
        obtain ⟨c', hcol⟩ := ih fuel c1 box1 hh (by rw [hown]; exact hothers)
          (fun k hk => by rw [hsame k hk]; exact hu k hk)
          (by rw [List.length_cons] at hf; omega)
        refine ⟨c', ?_⟩
        rw [collect, fut_bind, hr]
        dsimp only
        rw [hadd]
        exact hcol

theorem readable_length (now : List Arrival) (h : readable now = some ds) :
    ds.length ≤ now.length := by
  induction now generalizing ds with
  | nil =>
    cases h
    exact le_rfl
  | cons a rest ih =>
    rcases readable_cons h with ⟨answers, rfl, hrest⟩ | ⟨answers, msg, reply, ds', rfl, _, rfl, hr⟩
    · exact (ih hrest).trans (Nat.le_succ _)
    · exact Nat.succ_le_succ (ih hr)

theorem transact2_undisturbed {C R : Type} [SubCmd C] [SubReply R] (tid : UInt16) (subcmd : C)
    (t : Ticket) (c1 : Cifs) (msgs : List Reply.Transact2) (ctx : CollectTrans2) (answer : R)
    (hs : send (Msg.Transact2.mk tid subcmd) c = .ok t c1)
    (hown : List.Forall₂ (fun d msg => parseReply Reply.Transact2 d.reply = .ok msg)
      (ownReplies [c.mid] ds) msgs)
    (ha : Assembles CollectTrans2.new msgs ctx) (hr : ctx.getSubreply R = .ok answer)
    (hu : Undisturbed c [c.mid] ds later) : ∃ c', transact2 R tid subcmd c = .ok answer c' := by
  obtain ⟨htm, rfl⟩ := send_sent hs
  have hu1 : Undisturbed c.logSent [c.mid] ds later := hu.of_eq rfl rfl
  have hne : ownReplies [c.mid] ds ≠ [] := by
    intro h0
    rw [h0] at hown
    cases hown
    cases ha
  have hq := hu1.queued_single hne
  rw [← hq, ← htm] at hown
  -- each message is a frame of its own, so there is fuel for all of them
  have hfuel : msgs.length ≤ c.logSent.netbios.incoming.length + 2 := by
    obtain ⟨now, hin, hread⟩ := hu1.arrived
    have h1 := readable_length now hread
    have h2 := hown.length_eq
    rw [htm, hq, ownReplies_single] at h2
    have h3 := List.length_filter_le (fun d => decide (Delivery.mid d = c.mid)) ds
    rw [hin, List.length_append]
    omega
  obtain ⟨c', hcol⟩ := collect_queued t _ _ ctx msgs ha c.logSent _ hu1.holds hown
    (fun k hk => hu1.queued_other k (by rw [← htm]; simpa using hk)) hfuel
  refine ⟨c', ?_⟩
  rw [transact2, fut_bind, hs]
  dsimp only
  rw [fut_bind]
  change (collect t (c.logSent.netbios.incoming.length + 2) CollectTrans2.new >>= fun ctx =>
    lift (liftSmb (ctx.getSubreply R))) c.logSent = _
  rw [fut_bind, hcol]
  dsimp only
  rw [hr]
  rfl

/-! ### A batch of reads -/

theorem sendReads_sent (file : Handle) (requests : List StreamingWorkerReadRequest) (c c1 : Cifs)
    (inFlight : List Ticket) (h : sendReads file requests c = .ok inFlight c1) :
    inFlight = tickets requests.length c.mid c.history.sent.length ∧
      c1.pendingReplies = c.pendingReplies ∧ c1.netbios.incoming = c.netbios.incoming ∧
      ∀ request ∈ requests, request.len < 2 ^ 32 := by
  induction requests generalizing c inFlight with
  | nil =>
    cases h
    exact ⟨rfl, rfl, rfl, fun r hr => absurd hr List.not_mem_nil⟩
  | cons request rest ih =>
    by_cases hlen : request.len < 2 ^ 32
    · have hx : sendReads file (request :: rest) c = (send (Msg.Read.handle file
          (UInt64.ofNat request.offset) (UInt32.ofNat request.len)) >>= fun ticket =>
            sendReads file rest >>= fun inFlight => pure (ticket :: inFlight)) c := by
        rw [sendReads, tryCount, if_pos hlen]
        rfl
      rw [hx, fut_bind] at h
      have he := send_ends (Msg.Read.handle file (UInt64.ofNat request.offset)
        (UInt32.ofNat request.len)) c
      unfold Ends at he
      cases hs : send (Msg.Read.handle file (UInt64.ofNat request.offset)
          (UInt32.ofNat request.len)) c with
      | error e c2 =>
        rw [hs] at h
        cases h
      | ok ticket c2 =>
        rw [hs] at h he
        obtain ⟨ht, hc2⟩ := he
        dsimp only at h
        rw [fut_bind] at h
        cases hrs : sendReads file rest c2 with
        | error e c3 =>
          rw [hrs] at h
          cases h
        | ok others c3 =>
          rw [hrs] at h
          cases h
          obtain ⟨hothers, hp, hi, hlens⟩ := ih c2 others hrs
          refine ⟨?_, by rw [hp, hc2]; rfl, by rw [hi, hc2]; rfl, fun r hr => ?_⟩
          · rw [hothers, ht, hc2]
            simp only [logSent, List.length_append, List.length_singleton]
            rfl
          · rcases List.mem_cons.mp hr with rfl | hr
            · exact hlen
            · exact hlens r hr
    · rw [sendReads, tryCount, if_neg hlen] at h
      cases h

theorem readAtPipelined_undisturbed (file : Handle) (requests : List StreamingWorkerReadRequest)
    (inFlight : List Ticket) (c1 : Cifs) (replies : List Delivery) (chunks : List Bytes)
    (hne : requests ≠ []) (hdepth : requests.length ≤ 16)
    (hpos : ∀ request ∈ requests, 0 < request.len)
    (hs : sendReads file requests c = .ok inFlight c1)
    (hown : (ownReplies (inFlight.map Ticket.mid) ds).Perm replies)
    (hn : replies.length = requests.length) (ha : Answered c.mid replies chunks)
    (hu : Undisturbed c (inFlight.map Ticket.mid) ds later) :
    ∃ c', readAtPipelined file requests c = .ok chunks c' := by
  obtain ⟨hts, hp, hi, hlen⟩ := sendReads_sent file requests c c1 inFlight hs
  have hu1 := hu.of_eq hp hi
  obtain ⟨answers, ht, hr, hpl, hall⟩ := answers_exist c.mid c.history.sent.length replies chunks ha
  rw [hn, ← hts] at ht
  have hmids : (answers.map fun a => a.1.mid) = inFlight.map Ticket.mid := by
    rw [← ht, List.map_map]
    rfl
  have hnodup : (inFlight.map Ticket.mid).Nodup := by
    rw [hts]
    exact tickets_nodup _ _ _ (by omega)
  obtain ⟨hq, hq1⟩ := hu1.queued_batch answers hmids hr (fun a h => (hall a h).1) hnodup hown
  obtain ⟨c', _, hrecv, _⟩ := recvReads_queued answers c1 _ later hu1.holds hq1
    (by rw [hmids]; exact hnodup) fun a h => ⟨hq a h, (hall a h).2⟩
  refine ⟨c', ?_⟩
  rw [readAtPipelined_eq file requests hne fun r hr => ⟨hpos r hr, hlen r hr⟩, fut_bind, hs]
  dsimp only
  rw [← ht, hrecv, hpl]

/-! ### Every operation -/

/-- After any run: an operation whose requests are answered returns that answer, whatever
other messages arrive, provided they carry distinct ids, none of its own and none under which
a message is put aside already. -/
theorem leftovers_harmless (auth : Ntlm.Auth) (before : List Input) (arrivals : List Arrival)
    (writes : List WriteStep) (ds : List Delivery) (later : List Arrival) (mids : List UInt16)
    {α : Type} (op : Fut Error Cifs α) (answer : α)
    (hs : Served ((Runs.run step (fresh auth) before).2.arrive arrivals writes) ds mids op answer)
    (hu : Undisturbed ((Runs.run step (fresh auth) before).2.arrive arrivals writes) mids ds later) :
    ∃ c', op ((Runs.run step (fresh auth) before).2.arrive arrivals writes) = .ok answer c' := by
  cases hs with
  | command sent own reply => exact command_undisturbed _ _ _ _ _ sent own reply hu
  | readAtPipelined nonempty depth positive sent own each reply =>
    exact readAtPipelined_undisturbed _ _ _ _ _ _ nonempty depth positive sent own each reply hu
  | transact2 sent own assembles reply =>
    exact transact2_undisturbed _ _ _ _ _ _ _ sent own assembles reply hu

/-! ### What a search leaves behind -/

def search : SubCmd.FindNext2 := SubCmd.FindNext2.new 0 ""

/-- Four of the eight parameter bytes of the answer to a search, from `displacement` on. -/
def searchReply (mid displacement : UInt16) (bytes : Bytes) : PendingReply where
  info := { Info.default .Transact2 with flags1 := Flags1.REPLY, mid }
  body := putU8 10 ++ putU16Le 8 ++ putU16Le 0 ++ putBytes 0 2 ++ putU16Le 4 ++ putU16Le 56 ++
    putU16Le displacement ++ putU16Le 0 ++ putU16Le 56 ++ putU16Le 0 ++ putBytes 0 2 ++
    putU16Le 5 ++ ([0] ++ bytes)

/-- The two messages of the answer that the search found nothing more. -/
def searchAnswer (request : ℕ) (mid : UInt16) : List Arrival :=
  [[0, 0, 1, 0], [0, 0, 0, 0]].mapIdx fun i bytes =>
    let reply := searchReply mid (UInt16.ofNat (4 * i)) bytes
    .frame request (.Message (reply.info.write ++ reply.body))

def disconnected (request : ℕ) (mid : UInt16) : Delivery :=
  ⟨⟨{ Info.default .TreeDisconnect with flags1 := Flags1.REPLY, mid }, [0, 0, 0]⟩, request⟩

/-- The reply to an abandoned request comes between the two messages for a search. -/
theorem leftovers_harmless_search :
    ∃ c', transact2 SubReply.FindNext2 0 search
      ((Runs.run step (fresh noAuth) [abandoned]).2.arrive
        ((searchAnswer 1 1).insertIdx 1 (.frame 0 (.Message (disconnectReply 0)))) []) =
      .ok ⟨true, []⟩ c' := by
  have hown : List.Forall₂ (fun (d : Delivery) msg => parseReply Reply.Transact2 d.reply = .ok msg)
      [⟨searchReply 1 0 [0, 0, 1, 0], 1⟩, ⟨searchReply 1 4 [0, 0, 0, 0], 1⟩]
      [⟨[0, 0, 1, 0], 8, 0, [], 0, 0⟩, ⟨[0, 0, 0, 0], 8, 4, [], 0, 0⟩] :=
    .cons rfl (.cons rfl .nil)
  exact leftovers_harmless noAuth [abandoned] _ _
    [⟨searchReply 1 0 [0, 0, 1, 0], 1⟩, disconnected 0 0, ⟨searchReply 1 4 [0, 0, 0, 0], 1⟩] []
    [1] _ _ (.transact2 (t := ⟨1, 1⟩) rfl hown (.more rfl (.last rfl)) rfl)
    ⟨⟨_, (List.append_nil _).symm, rfl⟩, by decide, fun d _ => rfl⟩

def searchDropped : Input where
  op := .transact2 SubReply.FindNext2 0 search
  arrivals := []
  writes := []

/-- Both messages for the dropped search arrive before the reply to a disconnect. -/
def fragmentsLeft : Cifs :=
  (Runs.run step (fresh noAuth) [searchDropped]).2.arrive
    (searchAnswer 0 0 ++ [.frame 1 (.Message (disconnectReply 1))]) []

/-- The disconnect is answered, and fails with the id of the search. -/
theorem fragmentsLeft_fail :
    Served fragmentsLeft
      [⟨searchReply 0 0 [0, 0, 1, 0], 0⟩, ⟨searchReply 0 4 [0, 0, 0, 0], 0⟩, disconnected 1 1]
      [1] (command Reply.TreeDisconnect (Msg.TreeDisconnect.mk 0)) ⟨⟩ ∧
    readable fragmentsLeft.netbios.incoming = some
      [⟨searchReply 0 0 [0, 0, 1, 0], 0⟩, ⟨searchReply 0 4 [0, 0, 0, 0], 0⟩, disconnected 1 1] ∧
    ∃ c', command Reply.TreeDisconnect (Msg.TreeDisconnect.mk 0) fragmentsLeft =
      .error (.error (duplicateReply 0)) c' := by
  refine ⟨?_, rfl, ⟨_, rfl⟩⟩
  exact .command (t := ⟨1, 1⟩) (d := disconnected 1 1) rfl rfl rfl

end CifsClientStream.Cifs
