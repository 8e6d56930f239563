import CifsClientStream.Cifs.Receive
import CifsClientStream.Smb.ReadReply
import Mathlib.Tactic.IntervalCases

/-!
# Pipelined reads are matched (`read_at_pipelined` of src/lib.rs)

A batch of reads goes out under consecutive ids and the replies come in any
order. `readAtPipelined_matched`: each chunk is the payload of the reply to its
request, nothing is lost, and what was put aside before is what is put aside
afterwards.
-/

namespace CifsClientStream.Cifs
open Cursor Async Win Smb Utils Mailbox

/-! ### Sending the batch -/

theorem read_written (msg : Msg.Read) (info : Info) :
    ∃ frame, Msg.write msg info info.write = .ok frame ∧
      frame.length ≤ NetBios.MAX_FRAME_LENGTH := by
  have hl := info.write_length
  unfold SMB_HEADER_LEN at hl
  refine ⟨_, Msg.write_ok msg info info.write _ [] rfl ?_ (by decide) (by omega), ?_⟩
  · simp only [Msg.andx, Msg.ANDX, AndX.write, if_true, List.length_append, putU8, putU16Le, putU32Le,
      leBytes_length, List.length_singleton]
    decide
  · simp only [Msg.andx, Msg.ANDX, AndX.write, if_true, List.length_append, putU8, putU16Le, putU32Le,
      leBytes_length, List.length_singleton, hl]
    decide

def AllWritten (c : Cifs) : Prop := ∀ w ∈ c.netbios.writes, w = .written

theorem AllWritten.writable {c : Cifs} (h : AllWritten c) : c.Writable := by
  cases hw : c.netbios.writes with
  | nil => exact Or.inl hw
  | cons w writes =>
    right
    rw [hw, List.head?_cons, h w (by rw [hw]; exact List.mem_cons_self)]

def tickets : ℕ → UInt16 → ℕ → List Ticket
  | 0, _, _ => []
  | n + 1, mid, request => ⟨mid, request⟩ :: tickets n (mid + 1) (request + 1)

theorem mem_tickets (n : ℕ) (mid : UInt16) (request : ℕ) (t : Ticket)
    (h : t ∈ tickets n mid request) : ∃ i < n, t.mid = mid + UInt16.ofNat i := by
  induction n generalizing mid request with
  | zero => exact absurd h List.not_mem_nil
  | succ n ih =>
    rcases List.mem_cons.mp h with rfl | h
    · exact ⟨0, by omega, by simp⟩
    · obtain ⟨i, hi, ht⟩ := ih _ _ h
      refine ⟨i + 1, by omega, ?_⟩
      rw [ht, UInt16.ofNat_add, UInt16.add_comm (UInt16.ofNat i), ← UInt16.add_assoc]
      rfl

theorem tickets_nodup (n : ℕ) (mid : UInt16) (request : ℕ) (h : n ≤ 65536) :
    ((tickets n mid request).map Ticket.mid).Nodup := by
  induction n generalizing mid request with
  | zero => exact List.nodup_nil
  | succ n ih =>
    rw [tickets, List.map_cons, List.nodup_cons]
    refine ⟨fun hm => ?_, ih _ _ (by omega)⟩
    obtain ⟨t, ht, he⟩ := List.mem_map.mp hm
    obtain ⟨i, hi, hti⟩ := mem_tickets n _ _ t ht
    exact mid_later mid i (by omega) (he.symm.trans hti)

theorem sendReads_ok (file : Handle) (requests : List StreamingWorkerReadRequest) (c : Cifs)
    (hw : AllWritten c) (hlen : ∀ r ∈ requests, r.len < 2 ^ 32) :
    ∃ c', sendReads file requests c =
        .ok (tickets requests.length c.mid c.history.sent.length) c' ∧
      c'.pendingReplies = c.pendingReplies ∧ c'.netbios.incoming = c.netbios.incoming ∧
      c'.ioStats = c.ioStats ∧ AllWritten c' := by
  induction requests generalizing c with
  | nil => exact ⟨c, rfl, rfl, rfl, rfl, hw⟩
  | cons request rest ih =>
    have hcount : tryCount request.len = .ok (UInt32.ofNat request.len) := by
      rw [tryCount, if_pos (hlen request List.mem_cons_self)]
    obtain ⟨frame, hf, hfl⟩ := read_written
      (Msg.Read.handle file (UInt64.ofNat request.offset) (UInt32.ofNat request.len))
      (Msg.fixHeader (Msg.Read.handle file (UInt64.ofNat request.offset)
        (UInt32.ofNat request.len)) (c.header (Msg.CMD Msg.Read)))
    have hsend := send_ok _ c frame hw.writable hf hfl
    have hw1 : AllWritten c.logSent := fun w h => hw w (List.mem_of_mem_tail h)
    obtain ⟨c', hs, hp, hi, hio, hw'⟩ := ih c.logSent hw1
      fun r hr => hlen r (List.mem_cons_of_mem _ hr)
    refine ⟨c', ?_, hp, hi, hio, hw'⟩
    have hx : sendReads file (request :: rest) c = (send (Msg.Read.handle file
        (UInt64.ofNat request.offset) (UInt32.ofNat request.len)) >>= fun ticket =>
          sendReads file rest >>= fun inFlight => pure (ticket :: inFlight)) c := by
      rw [sendReads, hcount]
      rfl
    rw [hx, fut_bind, hsend]
    dsimp only
    rw [fut_bind, hs]
    have hlen1 : c.logSent.history.sent.length = c.history.sent.length + 1 := by
      simp only [logSent, List.length_append, List.length_singleton]
    rw [hlen1]
    rfl

/-! ### Receiving the batch -/

def recordAll (stats : IoStats) (payloads : List Bytes) : IoStats :=
  payloads.foldl (fun stats p => stats.recordRead p.length) stats

theorem recvReads_queued (answers : List (Ticket × Delivery × Bytes)) (c : Cifs)
    (box : Box UInt16 Delivery) (later : List Arrival) (hc : Holds c box later)
    (hu : ∀ k, (queued Delivery.mid box k).length ≤ 1)
    (hn : (answers.map fun a => a.1.mid).Nodup)
    (ha : ∀ a ∈ answers, queued Delivery.mid box a.1.mid = [a.2.1] ∧
      parseReply Reply.Read a.2.1.reply = .ok ⟨a.2.2⟩) :
    ∃ c' box', recvReads (answers.map fun a => a.1) c = .ok (answers.map fun a => a.2.2) c' ∧
      Kept { c with ioStats := recordAll c.ioStats (answers.map fun a => a.2.2) } c' ∧
      Holds c' box' later ∧
      (∀ a ∈ answers, queued Delivery.mid box' a.1.mid = []) ∧
      (∀ k, k ∉ (answers.map fun a => a.1.mid) →
        queued Delivery.mid box' k = queued Delivery.mid box k) ∧
      box'.unread <:+ box.unread := by
  induction answers generalizing c box with
  | nil =>
    exact ⟨c, box, rfl, Kept.refl c, hc, fun a h => absurd h List.not_mem_nil, fun _ _ => rfl,
      List.suffix_refl _⟩
  | cons a rest ih =>
    obtain ⟨hq, hparse⟩ := ha a List.mem_cons_self
    rw [List.map_cons, List.nodup_cons] at hn
    obtain ⟨c1, box1, hr, hk1, hh1, hown, hother, hsuf1⟩ := recv_queued Reply.Read a.1 c box
      later hc a.2.1 [] ⟨a.2.2⟩ hq (fun k _ => hu k) hparse
    have hne : ∀ b ∈ rest, b.1.mid ≠ a.1.mid := fun b hb e =>
      hn.1 (e ▸ List.mem_map_of_mem hb)
    obtain ⟨c', box', hrs, hk, hh, hempty, hsame, hsuf⟩ := ih
      { c1 with ioStats := c1.ioStats.recordRead a.2.2.length } box1 ⟨hh1.stored, hh1.unread⟩
      (fun k => by
        by_cases hk : k = a.1.mid
        · rw [hk, hown]
          exact Nat.zero_le _
        · rw [hother k hk]
          exact hu k)
      hn.2 (fun b hb => by
        rw [hother _ (hne b hb)]
        exact ha b (List.mem_cons_of_mem a hb))
    refine ⟨c', box', ?_, ?_, hh, ?_, ?_, hsuf.trans hsuf1⟩
    · rw [List.map_cons, recvReads, fut_bind, hr]
      dsimp only
      have hrec : recordRead a.2.2.length c1 =
          .ok ⟨⟩ { c1 with ioStats := c1.ioStats.recordRead a.2.2.length } := rfl
      rw [fut_bind, hrec]
      dsimp only
      rw [fut_bind, hrs]
      rfl
    · have hio : c1.ioStats = c.ioStats := hk1.ioStats
      refine Kept.trans ?_ hk
      exact ⟨hk1.mid, hk1.uid, hk1.auth, hk1.useUnicode, by
        simp only [List.map_cons, recordAll, List.foldl_cons, hio], hk1.writes, hk1.sent⟩
    · intro b hb
      rcases List.mem_cons.mp hb with rfl | hb
      · rw [hsame _ hn.1, hown]
      · exact hempty b hb
    · intro k hk
      rw [List.map_cons, List.mem_cons, not_or] at hk
      rw [hsame k hk.2, hother k hk.1]

/-! ### The whole batch -/

theorem readAtPipelined_eq (file : Handle) (requests : List StreamingWorkerReadRequest)
    (hne : requests ≠ []) (hlen : ∀ r ∈ requests, 0 < r.len ∧ r.len < 2 ^ 32) :
    readAtPipelined file requests = (sendReads file requests >>= fun ts => recvReads ts) := by
  match requests with
  | [] => exact absurd rfl hne
  | [request] =>
    obtain ⟨h0, h32⟩ := hlen request List.mem_cons_self
    have hcount : UInt32.ofNat request.len ≠ 0 := by
      intro e
      have := congrArg UInt32.toNat e
      rw [UInt32.toNat_ofNat'] at this
      simp at this
      omega
    have ht : tryCount request.len = .ok (UInt32.ofNat request.len) := by
      rw [tryCount, if_pos h32]
    simp only [readAtPipelined, sendReads, readAt, command, ht, Async.ofExcept, hcount, if_false,
      bind_assoc, pure_bind, recvReads]
  | _ :: _ :: _ => rfl

theorem sendReads_length (file : Handle) (requests : List StreamingWorkerReadRequest)
    (inFlight : List Ticket) (c c' : Cifs) (h : sendReads file requests c = .ok inFlight c') :
    inFlight.length = requests.length := by
  induction requests generalizing inFlight c c' with
  | nil =>
    cases h
    rfl
  | cons request rest ih =>
    rw [sendReads, bind_ok] at h
    obtain ⟨count, c1, -, h⟩ := h
    obtain ⟨ticket, c2, -, h⟩ := (bind_ok _ _ _ _ _).mp h
    obtain ⟨tail, c3, htail, h⟩ := (bind_ok _ _ _ _ _).mp h
    cases h
    rw [List.length_cons, List.length_cons, ih tail c2 _ htail]

theorem recvReads_length (inFlight : List Ticket) (chunks : List Bytes) (c c' : Cifs)
    (h : recvReads inFlight c = .ok chunks c') : chunks.length = inFlight.length := by
  induction inFlight generalizing chunks c c' with
  | nil =>
    cases h
    rfl
  | cons ticket rest ih =>
    rw [recvReads, bind_ok] at h
    obtain ⟨reply, c1, -, h⟩ := h
    obtain ⟨_, c2, -, h⟩ := (bind_ok _ _ _ _ _).mp h
    obtain ⟨tail, c3, htail, h⟩ := (bind_ok _ _ _ _ _).mp h
    cases h
    rw [List.length_cons, List.length_cons, ih tail c2 _ htail]

/-- A batch brings as many chunks as it asks for reads, whatever the replies carry. -/
theorem readAtPipelined_length (file : Handle) (requests : List StreamingWorkerReadRequest)
    (chunks : List Bytes) (c c' : Cifs) (h : readAtPipelined file requests c = .ok chunks c') :
    chunks.length = requests.length := by
  unfold readAtPipelined at h
  split at h
  · cases h
    rfl
  · obtain ⟨count, c1, -, h⟩ := (bind_ok _ _ _ _ _).mp h
    obtain ⟨chunk, c2, -, h⟩ := (bind_ok _ _ _ _ _).mp h
    cases h
    rfl
  · obtain ⟨inFlight, c1, hs, h⟩ := (bind_ok _ _ _ _ _).mp h
    rw [recvReads_length inFlight chunks c1 c' h, sendReads_length file _ inFlight c c1 hs]

/-- The replies to a batch: the `i`-th carries the `i`-th id and is a successful read
reply with the `i`-th payload. -/
structure Answered (mid : UInt16) (replies : List Delivery) (payloads : List Bytes) : Prop where
  length : replies.length = payloads.length
  each : ∀ i d p, replies[i]? = some d → payloads[i]? = some p →
    d.mid = mid + UInt16.ofNat i ∧ parseReply Reply.Read d.reply = .ok ⟨p⟩

theorem Answered.cons {mid : UInt16} {d : Delivery} {p : Bytes} {replies : List Delivery}
    {payloads : List Bytes} (h : Answered mid (d :: replies) (p :: payloads)) :
    d.mid = mid ∧ parseReply Reply.Read d.reply = .ok ⟨p⟩ ∧ Answered (mid + 1) replies payloads := by
  obtain ⟨hm, hp⟩ := h.each 0 d p rfl rfl
  refine ⟨by simpa using hm, hp, ⟨by simpa using h.length, fun i e q he hq => ?_⟩⟩
  obtain ⟨hm', hp'⟩ := h.each (i + 1) e q (by simpa using he) (by simpa using hq)
  refine ⟨?_, hp'⟩
  rw [hm', UInt16.ofNat_add, UInt16.add_comm (UInt16.ofNat i), ← UInt16.add_assoc]
  rfl

theorem Answered.push {mid : UInt16} {d : Delivery} {p : Bytes} {replies : List Delivery}
    {payloads : List Bytes} (hm : d.mid = mid) (hp : parseReply Reply.Read d.reply = .ok ⟨p⟩)
    (h : Answered (mid + 1) replies payloads) : Answered mid (d :: replies) (p :: payloads) := by
  refine ⟨by rw [List.length_cons, List.length_cons, h.length], fun i e q he hq => ?_⟩
  cases i with
  | zero =>
    cases he
    cases hq
    exact ⟨by rw [hm]; simp, hp⟩
  | succ i =>
    obtain ⟨hm', hp'⟩ := h.each i e q (by simpa using he) (by simpa using hq)
    refine ⟨?_, hp'⟩
    rw [hm', UInt16.ofNat_add, UInt16.add_comm (UInt16.ofNat i), ← UInt16.add_assoc]
    rfl

theorem answers_exist (mid : UInt16) (request : ℕ) (replies : List Delivery)
    (payloads : List Bytes) (h : Answered mid replies payloads) :
    ∃ answers : List (Ticket × Delivery × Bytes),
      (answers.map fun a => a.1) = tickets replies.length mid request ∧
      (answers.map fun a => a.2.1) = replies ∧ (answers.map fun a => a.2.2) = payloads ∧
      ∀ a ∈ answers, a.2.1.mid = a.1.mid ∧ parseReply Reply.Read a.2.1.reply = .ok ⟨a.2.2⟩ := by
  induction replies generalizing mid request payloads with
  | nil =>
    have h0 : payloads = [] := List.length_eq_zero_iff.mp h.length.symm
    subst h0
    exact ⟨[], rfl, rfl, rfl, fun a ha => absurd ha List.not_mem_nil⟩
  | cons d replies ih =>
    cases payloads with
    | nil => exact absurd h.length (by simp)
    | cons p payloads =>
      obtain ⟨hm, hp, hrest⟩ := h.cons
      obtain ⟨answers, ht, hr, hpl, hall⟩ := ih (mid + 1) (request + 1) payloads hrest
      refine ⟨(⟨mid, request⟩, d, p) :: answers, ?_, ?_, ?_, fun a ha => ?_⟩
      · rw [List.map_cons, ht]
        rfl
      · rw [List.map_cons, hr]
      · rw [List.map_cons, hpl]
      · rcases List.mem_cons.mp ha with rfl | ha
        · exact ⟨hm, hp⟩
        · exact hall a ha

theorem Undisturbed.queued_batch {c : Cifs} {mids : List UInt16} {ds replies : List Delivery}
    {later : List Arrival} (hu : Undisturbed c mids ds later)
    (answers : List (Ticket × Delivery × Bytes))
    (hm : (answers.map fun a => a.1.mid) = mids) (hr : (answers.map fun a => a.2.1) = replies)
    (hall : ∀ a ∈ answers, a.2.1.mid = a.1.mid) (hn : mids.Nodup)
    (hown : (ownReplies mids ds).Perm replies) :
    (∀ a ∈ answers, queued Delivery.mid ⟨c.pendingReplies, ds⟩ a.1.mid = [a.2.1]) ∧
      ∀ k, (queued Delivery.mid ⟨c.pendingReplies, ds⟩ k).length ≤ 1 := by
  have hrmids : replies.map Delivery.mid = mids := by
    rw [← hr, ← hm, List.map_map]
    exact List.map_congr_left hall
  have hq : ∀ a ∈ answers, queued Delivery.mid ⟨c.pendingReplies, ds⟩ a.1.mid = [a.2.1] := by
    intro a h
    have hd : a.2.1 ∈ replies := by
      rw [← hr]
      exact List.mem_map_of_mem h
    have hmem : a.2.1 ∈ ownReplies mids ds := hown.mem_iff.mpr hd
    have hmid : a.2.1.mid ∈ mids := by
      rw [← hrmids]
      exact List.mem_map_of_mem hd
    rw [← hall a h, hu.queued_own _ (List.mem_filter.mp hmem).1 hmid]
    have hf := hown.filter fun x => x.mid = a.2.1.mid
    rw [filter_key Delivery.mid replies (by rw [hrmids]; exact hn) _ hd] at hf
    exact List.perm_singleton.mp hf
  refine ⟨hq, fun k => ?_⟩
  by_cases hk : k ∈ mids
  · rw [← hm] at hk
    obtain ⟨a, h, rfl⟩ := List.mem_map.mp hk
    rw [hq a h]
    exact le_rfl
  · exact hu.queued_other k hk

theorem stored_restored (stored : UInt16 → Option Delivery) (unread : List Delivery)
    (box : Box UInt16 Delivery) (mids : List UInt16) (hun : ∀ d ∈ unread, d.mid ∈ mids)
    (hfree : ∀ k ∈ mids, stored k = none) (hsuf : box.unread <:+ unread)
    (hempty : ∀ k ∈ mids, queued Delivery.mid box k = [])
    (hsame : ∀ k, k ∉ mids → queued Delivery.mid box k =
      queued Delivery.mid ⟨stored, unread⟩ k) : box.stored = stored ∧ box.unread = [] := by
  have hnil : box.unread = [] := by
    refine List.eq_nil_iff_forall_not_mem.mpr fun d hd => ?_
    have hq := hempty d.mid (hun d (hsuf.subset hd))
    rw [queued, List.append_eq_nil_iff] at hq
    exact absurd (hq.2 ▸ List.mem_filter.mpr ⟨hd, by simp⟩ : d ∈ ([] : List Delivery))
      List.not_mem_nil
  refine ⟨funext fun k => ?_, hnil⟩
  by_cases hk : k ∈ mids
  · have hq := hempty k hk
    rw [queued, List.append_eq_nil_iff] at hq
    rw [hfree k hk]
    exact Option.toList_eq_nil_iff.mp hq.1
  · have hq := hsame k hk
    have hforeign : k ∉ unread.map Delivery.mid := by
      intro hm
      obtain ⟨d, hd, rfl⟩ := List.mem_map.mp hm
      exact hk (hun d hd)
    rw [queued_foreign _ _ _ _ hforeign, queued, hnil, List.filter_nil, List.append_nil] at hq
    exact toList_injective hq

/-- Whatever the order in which the replies arrive: one chunk for each request, the
payload of its reply, and `pending_replies` is as it was. -/
theorem batch_ok (file : Handle) (requests : List StreamingWorkerReadRequest) (c : Cifs)
    (replies : List Delivery) (payloads : List Bytes) (hne : requests ≠ [])
    (hdepth : requests.length ≤ 65536) (hlen : ∀ r ∈ requests, 0 < r.len ∧ r.len < 2 ^ 32)
    (hw : AllWritten c)
    (hfree : ∀ i < requests.length, c.pendingReplies (c.mid + UInt16.ofNat i) = none)
    (hn : replies.length = requests.length) (ha : Answered c.mid replies payloads)
    (hin : ∃ ds, readable c.netbios.incoming = some ds ∧ ds.Perm replies) :
    ∃ c', readAtPipelined file requests c = .ok payloads c' ∧
      c'.pendingReplies = c.pendingReplies ∧ c'.ioStats = recordAll c.ioStats payloads ∧
      readable c'.netbios.incoming = some [] ∧ AllWritten c' := by
  obtain ⟨ds, hds, hperm⟩ := hin
  obtain ⟨c1, hs, hp1, hi1, hio1, hw1⟩ := sendReads_ok file requests c hw fun r hr => (hlen r hr).2
  obtain ⟨answers, hts, hrs, hps, hall⟩ := answers_exist c.mid c.history.sent.length replies
    payloads ha
  have hmids : (answers.map fun a => a.1.mid) =
      (tickets requests.length c.mid c.history.sent.length).map Ticket.mid := by
    rw [← hn, ← hts, List.map_map]
    rfl
  have hnodup : (answers.map fun a => a.1.mid).Nodup := by
    rw [hmids]
    exact tickets_nodup _ _ _ hdepth
  have hrmids : replies.map Delivery.mid = answers.map fun a => a.1.mid := by
    rw [← hrs, List.map_map]
    exact List.map_congr_left fun a h => (hall a h).1
  have hfree' : ∀ k ∈ (answers.map fun a => a.1.mid), c1.pendingReplies k = none := by
    intro k hk
    rw [hmids] at hk
    obtain ⟨t, ht, rfl⟩ := List.mem_map.mp hk
    obtain ⟨i, hi, he⟩ := mem_tickets _ _ _ t ht
    rw [he, hp1]
    exact hfree i hi
  have hmem : ∀ d ∈ ds, d.mid ∈ (answers.map fun a => a.1.mid) := fun d hd => by
    rw [← hrmids]
    exact List.mem_map_of_mem (hperm.subset hd)
  have hu : Undisturbed c1 (answers.map fun a => a.1.mid) ds [] := by
    refine ⟨⟨c1.netbios.incoming, (List.append_nil _).symm, by rw [hi1]; exact hds⟩, ?_,
      fun d hd => hfree' _ (hmem d hd)⟩
    rw [List.filter_eq_nil_iff.mpr fun d hd => by simpa using hmem d hd]
    exact List.nodup_nil
  have hown : (ownReplies (answers.map fun a => a.1.mid) ds).Perm replies := by
    rw [ownReplies, List.filter_eq_self.mpr fun d hd => by simpa using hmem d hd]
    exact hperm
  obtain ⟨hqa, hq1⟩ := hu.queued_batch answers rfl hrs (fun a h => (hall a h).1) hnodup hown
  obtain ⟨c', box', hr, hk, hh, hempty, hsame, hsuf⟩ := recvReads_queued answers c1
    ⟨c1.pendingReplies, ds⟩ [] hu.holds hq1 hnodup fun a h => ⟨hqa a h, (hall a h).2⟩
  obtain ⟨hst, hnil⟩ := stored_restored c1.pendingReplies ds box' _ hmem hfree' hsuf
    (fun k hk => by
      obtain ⟨a, h, rfl⟩ := List.mem_map.mp hk
      exact hempty a h) hsame
  refine ⟨c', ?_, ?_, ?_, ?_, ?_⟩
  · rw [readAtPipelined_eq file requests hne hlen, fut_bind, hs]
    dsimp only
    rw [← hn, ← hts, hr, hps]
  · rw [hh.stored, hst, hp1]
  · rw [hk.ioStats, hps]
    simp only [hio1]
  · obtain ⟨now, hnow, hread⟩ := hh.unread
    rw [hnow, List.append_nil, hread, hnil]
  · intro w hw'
    rw [hk.writes] at hw'
    exact hw1 w hw'

theorem recordAll_calls (stats : IoStats) (payloads : List Bytes) :
    (recordAll stats payloads).readAtCalls = stats.readAtCalls + UInt64.ofNat payloads.length := by
  induction payloads generalizing stats with
  | nil => simp [recordAll]
  | cons p payloads ih =>
    have h := ih (stats.recordRead p.length)
    simp only [recordAll, List.foldl_cons] at h ⊢
    rw [h, List.length_cons, UInt64.ofNat_add, UInt64.add_comm (UInt64.ofNat payloads.length),
      ← UInt64.add_assoc]
    rfl

theorem recordAll_bytes (stats : IoStats) (payloads : List Bytes) :
    (recordAll stats payloads).readAtBytes =
      stats.readAtBytes + UInt64.ofNat (payloads.map List.length).sum := by
  induction payloads generalizing stats with
  | nil => simp [recordAll]
  | cons p payloads ih =>
    have h := ih (stats.recordRead p.length)
    simp only [recordAll, List.foldl_cons] at h ⊢
    rw [h, List.map_cons, List.sum_cons, UInt64.ofNat_add, ← UInt64.add_assoc]
    rfl

/-! ### A read reply as servers send it -/

def readReplyInfo (mid : UInt16) : Info :=
  { Info.default .Read with flags1 := Flags1.REPLY, mid }

def readReplyWords (length : ℕ) : Bytes :=
  [0xff, 0, 0, 0] ++ (putBytes 0 2 ++ (putBytes 0 2 ++ (putBytes 0 2 ++
    (putU16Le (UInt16.ofNat length) ++ putBytes 0 12))))

def readReplyBody (payload : Bytes) : Bytes :=
  putU8 12 ++ (readReplyWords payload.length ++
    (putU16Le (UInt16.ofNat payload.length) ++ (payload ++ [])))

def readReply (mid : UInt16) (payload : Bytes) : Bytes :=
  (readReplyInfo mid).write ++ readReplyBody payload

theorem readReply_frame (mid : UInt16) (payload : Bytes) :
    parseFrame (readReply mid payload) = .ok ⟨readReplyInfo mid, readReplyBody payload⟩ := by
  have hreply : contains Flags1.REPLY Flags1.REPLY = true := by decide
  have hflags : Flags2.default &&& Flags2.all = Flags2.default := by decide
  have hc : (readReplyInfo mid).Canonical := ⟨trivial, hreply, hflags⟩
  unfold parseFrame readReply
  rw [Info.parse_write _ hc]
  rfl

theorem readReply_parse (mid : UInt16) (payload : Bytes) (h : payload.length < 65536) :
    parseReply Reply.Read ⟨readReplyInfo mid, readReplyBody payload⟩ = .ok ⟨payload⟩ := by
  have hcount : (readReplyWords payload.length).length = 24 := rfl
  have hbody : readReplyBody payload = framed (readReplyWords payload.length) payload [] := by
    rw [framed, hcount]
    rfl
  obtain ⟨hfit, hwords, hdata⟩ := framed_fits (readReplyWords payload.length) payload []
    (by omega) (by omega) h
  rw [← hbody] at hfit hwords hdata
  have hlen : wordBytes (readReplyBody payload) = 24 := by
    rw [← wordsOf_length _ hfit, hwords, hcount]
  have hlast : u8At (wordsOf (readReplyBody payload)) 0 = 0xff := by
    rw [hwords]
    rfl
  have hannounced : readLength (readReplyBody payload) = payload.length := by
    have hat : u16At (readReplyWords payload.length) 10 = UInt16.ofNat payload.length :=
      u16At_put ([0xff, 0, 0, 0] ++ putBytes 0 6) _ _
    rw [readLength, hwords, hat, ofNat16_toNat h]
  rw [parseReply_cmd _ _ rfl]
  change liftSmb (Reply.parse Reply.Read (readReplyInfo mid) (readReplyBody payload)) = _
  rw [read_parse_eq _ _ hfit (by omega) hlast, hannounced, hdata, read_payload_eq,
    if_pos (Or.inl rfl), Nat.sub_self]
  rfl

/-! ### Matching -/

/-- Pipelined reads are matched: with one successful reply for each request, arriving in any
order and with keepalives in between, the `i`-th chunk is the payload of the `i`-th reply. -/
theorem readAtPipelined_matched (file : Handle) (requests : List StreamingWorkerReadRequest)
    (c : Cifs) (replies : List Delivery) (payloads : List Bytes) (hdepth : requests.length ≤ 16)
    (hlen : ∀ r ∈ requests, 0 < r.len ∧ r.len < 2 ^ 32) (hw : AllWritten c)
    (hfree : ∀ i < requests.length, c.pendingReplies (c.mid + UInt16.ofNat i) = none)
    (hn : replies.length = requests.length) (ha : Answered c.mid replies payloads)
    (hin : ∃ ds, readable c.netbios.incoming = some ds ∧ ds.Perm replies) :
    ∃ c', readAtPipelined file requests c = .ok payloads c' ∧
      payloads.length = requests.length ∧ c'.pendingReplies = c.pendingReplies ∧
      c'.ioStats.readAtCalls = c.ioStats.readAtCalls + UInt64.ofNat requests.length ∧
      c'.ioStats.readAtBytes =
        c.ioStats.readAtBytes + UInt64.ofNat (payloads.map List.length).sum := by
  have hpn : payloads.length = requests.length := ha.length.symm.trans hn
  by_cases hne : requests = []
  · subst hne
    have h0 : payloads = [] := List.length_eq_zero_iff.mp hpn
    subst h0
    exact ⟨c, rfl, rfl, rfl, by simp, by simp⟩
  · obtain ⟨c', hr, hp, hio, _, _⟩ := batch_ok file requests c replies payloads hne (by omega) hlen hw
      hfree hn ha hin
    refine ⟨c', hr, hpn, hp, ?_, ?_⟩
    · rw [hio, recordAll_calls, hpn]
    · rw [hio, recordAll_bytes]

def delivery (answers : ℕ) (mid : UInt16) (payload : Bytes) : Delivery :=
  ⟨⟨readReplyInfo mid, readReplyBody payload⟩, answers⟩

/-- A connection at the last id, with an old message put aside under id 7. The replies to
two reads arrive in the other order. -/
def atLastId : Cifs :=
  { fresh ⟨"", "", "", ""⟩ with
    mid := 65535
    pendingReplies := Function.update (fun _ => none) 7 (some (delivery 7 7 []))
    netbios := {
      incoming := [.frame 0 .Keepalive, .frame 1 (.Message (readReply 0 [3, 4, 5])),
        .frame 0 .Keepalive, .frame 0 (.Message (readReply 65535 [1, 2]))]
      writes := [] } }

def fileOfSize (size : UInt64) : Handle where
  tid := 1
  fid := 1
  oplock := 0
  disposition := 0
  createTime := 0
  accessTime := 0
  writeTime := 0
  changeTime := 0
  attributes := 0
  allocationSize := 0
  size := size
  fileType := 0
  directory := false

theorem atLastId_matched :
    ∃ c', readAtPipelined (fileOfSize 5) [⟨0, 2⟩, ⟨2, 3⟩] atLastId = .ok [[1, 2], [3, 4, 5]] c' ∧
      [[1, 2], [3, 4, 5]].length = 2 ∧ c'.pendingReplies = atLastId.pendingReplies ∧
      c'.ioStats.readAtCalls = atLastId.ioStats.readAtCalls + UInt64.ofNat 2 ∧
      c'.ioStats.readAtBytes = atLastId.ioStats.readAtBytes +
        UInt64.ofNat (([[1, 2], [3, 4, 5]] : List Bytes).map List.length).sum := by
  have hread : readable atLastId.netbios.incoming =
      some [delivery 1 0 [3, 4, 5], delivery 0 65535 [1, 2]] := by
    simp only [atLastId, readable, readReply_frame, Option.map_some, delivery]
  refine readAtPipelined_matched (fileOfSize 5) [⟨0, 2⟩, ⟨2, 3⟩] atLastId
    [delivery 0 65535 [1, 2], delivery 1 0 [3, 4, 5]] [[1, 2], [3, 4, 5]] (by decide) (by decide)
    (fun w hw => absurd hw List.not_mem_nil) (fun i hi => ?_) rfl ⟨rfl, fun i d p hd hp => ?_⟩
    ⟨_, hread, List.Perm.swap _ _ _⟩
  · rw [List.length_cons, List.length_singleton] at hi
    interval_cases i
    · rfl
    · rfl
  · rcases i with _ | _ | i
    · cases hd
      cases hp
      exact ⟨rfl, readReply_parse 65535 [1, 2] (by decide)⟩
    · cases hd
      cases hp
      exact ⟨rfl, readReply_parse 0 [3, 4, 5] (by decide)⟩
    · cases hd

end CifsClientStream.Cifs
