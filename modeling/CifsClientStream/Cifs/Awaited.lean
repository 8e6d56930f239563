import CifsClientStream.Cifs.Outgoing
import CifsClientStream.Lib.Mailbox

/-!
# Waiting for a reply on the TCP stream (`recv` of src/lib.rs)

Replies that were put aside and frames that have not been read are one mailbox,
keyed by multiplex id. As long as no other id has two messages in it, `recv`
takes the first message under its own id, and nothing else gets lost on the
way, whatever comes between the replies (`recv_held`).
-/

namespace CifsClientStream
open Cursor Async Win Smb Utils Mailbox
open Cifs (PendingReply parseFrame parseReply liftSmb duplicateReply)
open NetBios (events)

/-! ### Replies among the frames -/

/-- The reply that a message is, if its header can be read. -/
def understood (raw : Bytes) : Option PendingReply := (parseFrame raw).toOption

theorem understood_write {info : Info} (h : info.Canonical) (body : Bytes) :
    understood (info.write ++ body) = some ⟨info, body⟩ := by
  rw [understood, Cifs.parseFrame_write h]
  rfl

def Cifs.Arrival.message : Cifs.Arrival → Option Bytes
  | .frame _ (.Message raw) => some raw
  | _ => none

def messages (arrivals : List Cifs.Arrival) : List Bytes :=
  arrivals.filterMap Cifs.Arrival.message

def replies (arrivals : List Cifs.Arrival) : List PendingReply :=
  (messages arrivals).filterMap understood

/-- Keepalives and replies only. -/
def Quiet (arrivals : List Cifs.Arrival) : Prop :=
  ∀ a ∈ arrivals, (∃ answers, a = .frame answers .Keepalive) ∨
    ∃ answers raw p, a = .frame answers (.Message raw) ∧ understood raw = some p

def replyMid (p : PendingReply) : UInt16 := p.info.mid

/-- A reason to stop that is not the answer of the server. -/
def Local (e : Stop Error) : Prop := ∀ status, e ≠ .error (.ServerError status)

theorem Quiet.suffix {arrivals rest : List Cifs.Arrival} (h : Quiet arrivals)
    (hrest : rest <:+ arrivals) : Quiet rest := fun a ha => h a (hrest.subset ha)

theorem messages_cons (a : Cifs.Arrival) (rest : List Cifs.Arrival) :
    messages (a :: rest) = a.message.toList ++ messages rest := by
  cases h : a.message <;> simp [messages, h]

theorem messages_append (now later : List Cifs.Arrival) :
    messages (now ++ later) = messages now ++ messages later := List.filterMap_append

theorem replies_append (now later : List Cifs.Arrival) :
    replies (now ++ later) = replies now ++ replies later := by
  rw [replies, messages_append, List.filterMap_append]
  rfl

/-- The next message is taken, or reading stops at something else; no message is lost. -/
theorem recvMessage_messages (arrivals : List Cifs.Arrival) :
    (∃ answers raw rest, Cifs.recvMessage arrivals = (.ok (answers, raw), rest) ∧
      rest <:+ arrivals ∧ messages arrivals = raw :: messages rest ∧
      (Quiet arrivals → (understood raw).isSome)) ∨
    ∃ e rest, Cifs.recvMessage arrivals = (.error e, rest) ∧ rest <:+ arrivals ∧
      messages arrivals = messages rest ∧ (Quiet arrivals → messages arrivals = []) := by
  induction arrivals with
  | nil => exact Or.inr ⟨_, _, rfl, List.suffix_rfl, rfl, fun _ => rfl⟩
  | cons a rest ih =>
    have hnoise {e : Stop NetBios.Error} (hmessage : a.message = none)
        (hrecv : Cifs.recvMessage (a :: rest) = (.error e, rest))
        (hnot : ¬Quiet (a :: rest)) :
        ∃ e rest', Cifs.recvMessage (a :: rest) = (.error e, rest') ∧ rest' <:+ a :: rest ∧
          messages (a :: rest) = messages rest' ∧
          (Quiet (a :: rest) → messages (a :: rest) = []) := by
      refine ⟨_, _, hrecv, List.suffix_cons a rest, ?_, fun h => absurd h hnot⟩
      rw [messages_cons, hmessage]
      rfl
    cases a with
    | failed e =>
      refine Or.inr (hnoise rfl rfl fun h => ?_)
      have hfirst := h _ List.mem_cons_self
      simp at hfirst
    | frame answers f =>
      cases f with
      | Message raw =>
        refine Or.inl ⟨_, _, _, rfl, List.suffix_cons _ rest, messages_cons _ rest, fun h => ?_⟩
        have hfirst := h _ List.mem_cons_self
        simp at hfirst
        obtain ⟨p, hp⟩ := hfirst
        simp [hp]
      | Keepalive =>
        have hsuffix {later : List Cifs.Arrival} (h : later <:+ rest) :
            later <:+ .frame answers .Keepalive :: rest := h.trans (List.suffix_cons _ rest)
        have hquiet (h : Quiet (.frame answers .Keepalive :: rest)) : Quiet rest :=
          h.suffix (List.suffix_cons _ rest)
        rcases ih with ⟨n, raw, later, hrecv, hlater, hmore, hread⟩ | ⟨e, later, hrecv, hlater, hmore, hnone⟩
        · exact Or.inl ⟨n, raw, later, hrecv, hsuffix hlater, (messages_cons _ rest).trans hmore,
            fun h => hread (hquiet h)⟩
        · exact Or.inr ⟨e, later, hrecv, hsuffix hlater, (messages_cons _ rest).trans hmore,
            fun h => (messages_cons _ rest).trans (hnone (hquiet h))⟩
      | SessionRequest msg =>
        exact Or.inr (hnoise rfl rfl fun h => by simpa using h _ List.mem_cons_self)
      | PositiveResponse =>
        exact Or.inr (hnoise rfl rfl fun h => by simpa using h _ List.mem_cons_self)
      | NegativeResponse code =>
        exact Or.inr (hnoise rfl rfl fun h => by simpa using h _ List.mem_cons_self)
      | Retarget =>
        exact Or.inr (hnoise rfl rfl fun h => by simpa using h _ List.mem_cons_self)

namespace TcpCifs

/-! ### The next frame -/

/-- What waiting leaves as it is. -/
structure Waited (s s' : TcpCifs) : Prop where
  outbox : s'.outbox = s.outbox
  sends : s'.sends = s.sends
  mid : s'.mid = s.mid
  useUnicode : s'.useUnicode = s.useUnicode

theorem waited_receives : Receives Waited where
  chain := ⟨fun _ => ⟨rfl, rfl, rfl, rfl⟩, fun _ _ _ h h' =>
    ⟨h'.outbox.trans h.outbox, h'.sends.trans h.sends, h'.mid.trans h.mid,
      h'.useUnicode.trans h.useUnicode⟩⟩
  read _ _ _ := ⟨rfl, rfl, rfl, rfl⟩
  stored _ _ := ⟨rfl, rfl, rfl, rfl⟩
  recorded _ _ := ⟨rfl, rfl, rfl, rfl⟩

theorem Waited.refl (s : TcpCifs) : Waited s s := waited_receives.chain.refl s

theorem Waited.trans {a b c : TcpCifs} (h : Waited a b) (h' : Waited b c) : Waited a c :=
  waited_receives.chain.trans a b c h h'

def withIncoming (s : TcpCifs) (incoming : List NetBios.Arrival) : TcpCifs :=
  { s with netbios := { s.netbios with incoming } }

theorem parseFrame_local {raw : Bytes} {f : Fault Error} (h : parseFrame raw = .error f) :
    ∃ e, (∀ s : TcpCifs, (lift (parseFrame raw) : Fut Error TcpCifs PendingReply) s = .error e s) ∧
      Local e := by
  rw [h]
  cases f with
  | panic => exact ⟨.panic, fun _ => rfl, fun _ => by simp⟩
  | error e =>
    refine ⟨.error e, fun _ => rfl, fun status hstatus => ?_⟩
    injection hstatus with hstatus
    subst hstatus
    unfold parseFrame at h
    cases hparse : liftSmb (Info.parse raw) with
    | ok parsed =>
      rw [hparse] at h
      cases h
    | error f =>
      rw [hparse] at h
      cases hinfo : Info.parse raw with
      | ok parsed =>
        rw [hinfo] at hparse
        cases hparse
      | error g =>
        rw [hinfo] at hparse
        cases g <;> (cases hparse; cases h)

variable {s : TcpCifs} {arrivals : List Cifs.Arrival}

theorem recvFrame_next (h : Carries false (events s.netbios.incoming) arrivals) :
    ∃ incoming rest, Carries false (events incoming) rest ∧ rest <:+ arrivals ∧
      ((∃ p, recvFrame s = .ok p (s.withIncoming incoming) ∧ replies arrivals = p :: replies rest ∧
        rest.length < arrivals.length) ∨
      ∃ e, recvFrame s = .error e (s.withIncoming incoming) ∧ Local e ∧
        replies arrivals = replies rest ∧ (Quiet arrivals → replies arrivals = [])) := by
  obtain ⟨incoming, hloop⟩ := recvMessageLoop_carries h
    ((NetBios.bytesOf s.netbios.incoming).length + 1) s.netbios rfl (by
      rw [NetBios.bytesOf_events]
      exact Nat.lt_succ_self _)
  rcases recvMessage_messages arrivals with
    ⟨answers, raw, rest, hrecv, hsuffix, hmessages, hread⟩ | ⟨e, rest, hrecv, hsuffix, hmessages, hnone⟩
  · rw [hrecv] at hloop
    obtain ⟨hmessage, hcarries, hless⟩ := hloop
    refine ⟨incoming, rest, hcarries, hsuffix, ?_⟩
    have hframe : recvFrame s = (lift (parseFrame raw) : Fut Error TcpCifs PendingReply)
        (s.withIncoming incoming) := by
      rw [recvFrame, fut_bind, recvMessage, NetBios.recvMessage, hmessage]
      rfl
    cases hparse : parseFrame raw with
    | ok p =>
      refine Or.inl ⟨p, ?_, ?_, hless⟩
      · rw [hframe, hparse]
        rfl
      · simp [replies, hmessages, understood, hparse, Except.toOption]
    | error f =>
      obtain ⟨e, hstop, hlocal⟩ := parseFrame_local hparse
      have hunread : understood raw = none := by simp [understood, hparse, Except.toOption]
      refine Or.inr ⟨e, hframe.trans (hstop _), hlocal, ?_, fun hquiet => ?_⟩
      · simp [replies, hmessages, hunread]
      · have hread := hread hquiet
        rw [hunread] at hread
        cases hread
  · rw [hrecv] at hloop
    obtain ⟨hmessage, hstopped⟩ := hloop
    have hcarries : Carries false (events incoming) rest := by
      rcases hstopped with hstopped | ⟨hshut, -⟩
      · exact hstopped
      · cases hshut
    refine ⟨incoming, rest, hcarries, hsuffix, Or.inr ⟨e.map .NetBios, ?_, ?_, ?_, fun hquiet => ?_⟩⟩
    · rw [recvFrame, fut_bind, recvMessage, NetBios.recvMessage, hmessage]
      rfl
    · intro status
      cases e <;> simp [Stop.map]
    · rw [replies, hmessages]
      rfl
    · rw [replies, hnone hquiet]
      rfl

/-! ### The reply under an id -/

/-- What the client has, if `arrivals` are the frames that it has not read. -/
def held (s : TcpCifs) (arrivals : List Cifs.Arrival) : Box UInt16 PendingReply :=
  ⟨s.pendingReplies, replies arrivals⟩

/-- How waiting under an id ends: with the first reply held under it, or for a reason of the
client's own. -/
structure Received (R : Type) [Reply R] (x : Fut Error TcpCifs R) (mid : UInt16) (s : TcpCifs)
    (arrivals : List Cifs.Arrival) (s' : TcpCifs) (rest : List Cifs.Arrival) : Prop where
  waited : Waited s s'
  carries : Carries false (events s'.netbios.incoming) rest
  suffix : rest <:+ arrivals
  others : ∀ k, k ≠ mid → queued replyMid (held s' rest) k = queued replyMid (held s arrivals) k
  ends : (∃ p, x s = (lift (parseReply R p) : Fut Error TcpCifs R) s' ∧
      queued replyMid (held s arrivals) mid = p :: queued replyMid (held s' rest) mid) ∨
    ∃ e, x s = .error e s' ∧ Local e ∧
      queued replyMid (held s' rest) mid = queued replyMid (held s arrivals) mid ∧
      (Quiet arrivals → queued replyMid (held s arrivals) mid = [])

/-- No id gets a reply by waiting. -/
theorem Received.fewer {R : Type} [Reply R] {x : Fut Error TcpCifs R} {mid : UInt16} {s' : TcpCifs}
    {rest : List Cifs.Arrival} (h : Received R x mid s arrivals s' rest) (k : UInt16) :
    queued replyMid (held s' rest) k <:+ queued replyMid (held s arrivals) k := by
  by_cases hk : k = mid
  · subst hk
    rcases h.ends with ⟨p, -, hqueue⟩ | ⟨e, -, -, hsame, -⟩
    · rw [hqueue]
      exact List.suffix_cons p _
    · simp [hsame]
  · simp [h.others k hk]

theorem putAside_free {p : PendingReply} (h : s.pendingReplies p.info.mid = none) :
    putAside p s = .ok ⟨⟩ { s with
      pendingReplies := put replyMid s.pendingReplies p } := by
  rw [putAside, fut_bind]
  change (if (s.pendingReplies p.info.mid).isSome then raise _ else pure ()) _ = _
  rw [h]
  rfl

theorem recvLoop_held (R : Type) [Reply R] (mid : UInt16) (fuel : ℕ)
    (h : Carries false (events s.netbios.incoming) arrivals) (hfuel : arrivals.length < fuel)
    (hnone : s.pendingReplies mid = none)
    (hone : ∀ k, k ≠ mid → (queued replyMid (held s arrivals) k).length ≤ 1) :
    ∃ s' rest, Received R (recvLoop R mid fuel) mid s arrivals s' rest := by
  induction fuel generalizing s arrivals with
  | zero => omega
  | succ fuel ih =>
    obtain ⟨incoming, rest, hcarries, hsuffix, hnext⟩ := recvFrame_next h
    rcases hnext with ⟨p, hframe, hreplies, hless⟩ | ⟨e, hframe, hlocal, hreplies, hquiet⟩
    · by_cases hmid : p.info.mid = mid
      · subst hmid
        refine ⟨s.withIncoming incoming, rest, ⟨rfl, rfl, rfl, rfl⟩, hcarries, hsuffix,
          fun k hk => ?_, Or.inl ⟨p, ?_, ?_⟩⟩
        · rw [held, held, hreplies]
          exact (queued_cons_ne replyMid _ _ _ hk.symm).symm
        · rw [recvLoop, fut_bind, hframe]
          simp
        · rw [held, held, hreplies]
          have hself := queued_cons_self replyMid s.pendingReplies p (replies rest)
          rw [replyMid, hnone] at hself
          rw [hself, queued_mk]
          change _ = p :: ((s.pendingReplies p.info.mid).toList ++ _)
          rw [hnone]
          rfl
      · have hother := hone p.info.mid hmid
        rw [held, hreplies] at hother
        have hfree := queued_stored_none replyMid s.pendingReplies p (replies rest) hother
        have hqueue (k : UInt16) :
            queued replyMid ⟨put replyMid s.pendingReplies p, replies rest⟩ k =
              queued replyMid (held s arrivals) k := by
          rw [held, hreplies]
          exact queued_put replyMid s.pendingReplies p (replies rest) hother k
        let s1 : TcpCifs := { s.withIncoming incoming with
          pendingReplies := put replyMid s.pendingReplies p }
        have hstored : s1.pendingReplies mid = none := by
          have hput := put_of_ne replyMid s.pendingReplies p (Ne.symm hmid)
          exact hput.trans hnone
        have hloop : recvLoop R mid (fuel + 1) s = recvLoop R mid fuel s1 := by
          rw [recvLoop, fut_bind, hframe]
          simp only [hmid, if_false, fut_bind]
          rw [putAside_free (s := s.withIncoming incoming) hfree]
          rfl
        obtain ⟨s', rest', hreceived⟩ := ih (s := s1) hcarries (by omega) hstored fun k hk => by
          have hsame := hqueue k
          rw [held, hsame]
          exact hone k hk
        have hfrom (k : UInt16) : queued replyMid (held s1 rest) k =
            queued replyMid (held s arrivals) k := hqueue k
        refine ⟨s', rest', Waited.trans (b := s1) ⟨rfl, rfl, rfl, rfl⟩ hreceived.waited, hreceived.carries,
          hreceived.suffix.trans hsuffix, fun k hk => (hreceived.others k hk).trans (hfrom k), ?_⟩
        rw [hloop, ← hfrom mid]
        rcases hreceived.ends with hgot | ⟨e, hstop, hlocal, hsame, hempty⟩
        · exact Or.inl hgot
        · exact Or.inr ⟨e, hstop, hlocal, hsame, fun hquiet => hempty (hquiet.suffix hsuffix)⟩
    · refine ⟨s.withIncoming incoming, rest, ⟨rfl, rfl, rfl, rfl⟩, hcarries, hsuffix,
        fun k _ => ?_, Or.inr ⟨e, ?_, hlocal, ?_, fun hall => ?_⟩⟩
      · rw [held, held, hreplies]
        rfl
      · rw [recvLoop, fut_bind, hframe]
      · rw [held, held, hreplies]
        rfl
      · rw [held, hquiet hall, queued_mk, hnone]
        rfl

/-- `recv` takes the first reply held under its id, or stops with all of them still there; a call
that hears only keepalives and replies stops only where there is none. -/
theorem recv_held (R : Type) [Reply R] (mid : UInt16)
    (h : Carries false (events s.netbios.incoming) arrivals)
    (hone : ∀ k, k ≠ mid → (queued replyMid (held s arrivals) k).length ≤ 1) :
    ∃ s' rest, Received R (recv R mid) mid s arrivals s' rest := by
  have hget : (get : Fut Error TcpCifs TcpCifs) s = .ok s s := rfl
  cases hstored : s.pendingReplies mid with
  | none =>
    have hlength : arrivals.length < (events s.netbios.incoming).length + 1 :=
      Nat.lt_succ_of_le h.length_le
    obtain ⟨s', rest, hreceived⟩ := recvLoop_held R mid _ h hlength hstored hone
    have hrecv : recv R mid s = recvLoop R mid ((events s.netbios.incoming).length + 1) s := by
      rw [recv, fut_bind, hget]
      simp only [hstored]
    refine ⟨s', rest, hreceived.waited, hreceived.carries, hreceived.suffix, hreceived.others, ?_⟩
    rw [hrecv]
    exact hreceived.ends
  | some p =>
    refine ⟨{ s with pendingReplies := Function.update s.pendingReplies mid none }, arrivals,
      ⟨rfl, rfl, rfl, rfl⟩, h, List.suffix_rfl, fun k hk => ?_, Or.inl ⟨p, ?_, ?_⟩⟩
    · simp [held, queued_mk, Function.update_of_ne hk]
    · rw [recv, fut_bind, hget]
      simp only [hstored]
      rfl
    · simp [held, queued_mk, hstored]

end TcpCifs

end CifsClientStream
