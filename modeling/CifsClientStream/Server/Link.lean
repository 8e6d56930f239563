import CifsClientStream.Server.Files

/-!
# A client and a file server

The client on its TCP stream and a server at the other end. The server reads
the requests that got out, in their order, and answers each; its replies arrive
in any order and any segments, among keepalives, errors of the transport and
frames of other types, during this call or a later one. A call may be dropped
while it waits. A call that returns returns what the server has answered, and
what was left behind by calls that were cut does no harm (`calls_answered`).
-/

namespace CifsClientStream.Server
open Cursor Async Smb Mailbox TcpCifs Utils
open Cifs (PendingReply)
open NetBios (events messageWire bytesOnly RawFrame)

/-- The two ends, and the replies that have not arrived. -/
structure Link where
  client : TcpCifs
  server : State
  transit : List Bytes

/-- A call, what arrives while it runs, how much each write takes and what becomes of the writer
then; what the server answers, and how the call ends. -/
structure Event where
  call : Call
  arrivals : List NetBios.Arrival
  room : List ℕ
  blocked : Option IoErrorKind
  answers : List Answer
  result : Except (Stop CifsClientStream.Error) Value

/-- The server reads requests and answers them. -/
inductive Handled (files : Files) : State → List Bytes → List Answer → List Bytes → State → Prop
  | nil (s : State) : Handled files s [] [] [] s
  | cons {s s1 s' : State} {frame body : Bytes} {frames raws : List Bytes} {a : Answer}
    {answers : List Answer} {request info : Info} {m : Message} :
    Message.parse frame = .ok (request, m) → Serves files s m a s1 → a.Written request info body →
      Handled files s1 frames answers raws s' →
      Handled files s (frame :: frames) (a :: answers) ((info.write ++ body) :: raws) s'

/-- The same, of the messages. -/
inductive Served (files : Files) : State → List Message → List Answer → State → Prop
  | nil (s : State) : Served files s [] [] s
  | cons {s s1 s' : State} {m : Message} {a : Answer} {ms : List Message} {answers : List Answer} :
    Serves files s m a s1 → Served files s1 ms answers s' →
      Served files s (m :: ms) (a :: answers) s'

namespace Link

/-- The client when the call begins, with all that will arrive. -/
def begin (l : Link) (e : Event) : TcpCifs :=
  { l.client with netbios := { l.client.netbios with
    incoming := l.client.netbios.incoming ++ e.arrivals
    room := e.room
    blocked := e.blocked } }

/-- The replies under an id that the client has or will get, if `arrivals` are the frames it has
not read. -/
def owed (l : Link) (arrivals : List Cifs.Arrival) (k : UInt16) : List PendingReply :=
  outstanding replyMid (held l.client arrivals) (l.transit.filterMap understood) k

/-- What went out during a call. -/
def sent (l l' : Link) : List Outgoing := l'.client.outbox.drop l.client.outbox.length

end Link

/-- One call on the link. No text of its requests holds its terminator, and no request is cut in
the middle. -/
structure Step (files : Files) (l : Link) (e : Event) (l' : Link) : Prop where
  plain : ∀ m ∈ e.call.messages, m.Plain
  ran : finish (e.call.run (l.begin e)) = (e.result, l'.client)
  uncut : ∀ o ∈ l.sent l', o.Whole ∨ o.out = []
  served : ∃ raws frames, Handled files l.server (wholeFrames (l.sent l')) e.answers raws l'.server ∧
    Carries false (events e.arrivals) frames ∧
    (l.transit ++ raws).Perm (messages frames ++ l'.transit)

inductive Run (files : Files) (start : Link) : List Event → Link → Prop
  | nil : Run files start [] start
  | snoc {es : List Event} {e : Event} {l l' : Link} :
    Run files start es l → Step files l e l' → Run files start (es ++ [e]) l'

/-- How many ids the calls take. -/
def requests (es : List Event) : ℕ := (es.map fun e => e.call.messages.length).sum

/-- A client that has set up its connection with UTF-16, and has nothing to wait for. -/
structure Ready (l : Link) : Prop where
  unicode : l.client.useUnicode = true
  stored : l.client.pendingReplies = fun _ => none
  unread : events l.client.netbios.incoming = []
  transit : l.transit = []

/-- The call ends with what the answers to its requests come to. -/
structure Event.Answered (e : Event) : Prop where
  all : e.answers.length = e.call.messages.length
  result : e.result = (e.call.value (e.answers.map Answer.value)).mapError .error

/-- The call stops for a reason of the client's own: a request did not get out, something else than
keepalives and replies arrived, or a reply is still on its way. -/
structure Event.Cut (e : Event) (l l' : Link) : Prop where
  stopped : ∃ stop, e.result = .error stop ∧ Local stop
  reason : e.answers.length < e.call.messages.length ∨
    (∃ arrivals, Carries false (events (l.begin e).netbios.incoming) arrivals ∧ ¬Quiet arrivals) ∨
    ∃ raw ∈ l'.transit, ∃ p, understood raw = some p ∧
      replyMid p ∈ ids e.call.messages.length l.client.mid

/-! ### One call -/

variable {files : Files} {l l' : Link} {e : Event}

/-- Requests that are read are the ones that were sent, and every answer reaches the client as
what it is. -/
theorem Handled.replied {mid : UInt16} {ms : List Message} {frames raws : List Bytes}
    {answers : List Answer} {s s' : State} (hasked : Asked mid ms frames)
    (hplain : ∀ m ∈ ms, m.Plain) (hfiling : ∀ m ∈ ms, Filing m)
    (h : Handled files s frames answers raws s') :
    Served files s (ms.take frames.length) answers s' ∧
      ∃ ps, Replied mid ms (answers.map Answer.value) ps ∧ raws.filterMap understood = ps ∧
        ps.length = frames.length := by
  induction hasked generalizing s answers raws with
  | stopped mid ms =>
    cases h
    exact ⟨.nil _, [], .stopped mid ms, rfl, rfl⟩
  | @sent mid m frame ms frames hasks hmore ih =>
    cases h with
    | @cons _ s1 _ _ body _ raws a answers request info m' hparse hserves hwritten hrest =>
      obtain ⟨header, hheads, hmid, hwrite⟩ := hasks
      have hread := Message.parse_write (hplain m List.mem_cons_self) hheads hwrite
      rw [hread] at hparse
      obtain ⟨rfl, rfl⟩ := Prod.mk.inj (Except.ok.inj hparse)
      obtain ⟨hserved, ps, hreplied, hraws, hlength⟩ :=
        ih (fun m hm => hplain m (List.mem_cons_of_mem _ hm))
          (fun m hm => hfiling m (List.mem_cons_of_mem _ hm)) hrest
      have hanswer := hserves.answered (hfiling m List.mem_cons_self) hheads.cmd hwritten
      have hid : replyMid ⟨info, body⟩ = mid := hwritten.mid.trans hmid
      refine ⟨.cons hserves hserved, ⟨info, body⟩ :: ps, .next hid hanswer hreplied, ?_, ?_⟩
      · simp only [List.filterMap_cons, hwritten.understood, hraws]
      · simp [hlength]

/-- After at most `limit` ids from `first` on: what the client has not read are whole frames, no id
has two replies under way, and only ids that were given out have one. -/
structure Link.Sound (l : Link) (first : UInt16) (limit : ℕ) : Prop where
  unicode : l.client.useUnicode = true
  given : ∃ issued ≤ limit, l.client.mid = first + UInt16.ofNat issued ∧
    ∃ arrivals, Carries false (events l.client.netbios.incoming) arrivals ∧
      ∀ k, (l.owed arrivals k).length ≤ 1 ∧
        (l.owed arrivals k ≠ [] → ∃ i < issued, k = first + UInt16.ofNat i)

/-- What a step says about its call. -/
structure Told (files : Files) (l : Link) (e : Event) (l' : Link) : Prop where
  served : Served files l.server (e.call.messages.take e.answers.length) e.answers l'.server
  ends : e.Answered ∨ e.Cut l l'

theorem id_add (first : UInt16) (i j : ℕ) :
    first + UInt16.ofNat i + UInt16.ofNat j = first + UInt16.ofNat (i + j) := by
  rw [UInt16.add_assoc, ← UInt16.ofNat_add]

/-- Ids are not given out again before all the others were. -/
theorem ids_fresh {first k : UInt16} {issued n : ℕ} (hfew : issued + n ≤ 65536)
    (hnew : k ∈ ids n (first + UInt16.ofNat issued)) : ¬∃ i < issued, k = first + UInt16.ofNat i := by
  rintro ⟨i, hi, rfl⟩
  obtain ⟨j, hj, heq⟩ := mem_ids hnew
  rw [id_add, UInt16.add_right_inj] at heq
  have hval := congrArg UInt16.toNat heq
  rw [UInt16.toNat_ofNat_of_lt' (by simp [UInt16.size]; omega), UInt16.toNat_ofNat_of_lt' (by simp [UInt16.size]; omega)] at hval
  omega

/-- Nothing but what was outstanding, or is new, is outstanding later. -/
theorem Link.Sound.after {first : UInt16} {issued limit n out j : ℕ} {ps : List PendingReply}
    {left rest : List Cifs.Arrival} {stored : UInt16 → Option PendingReply}
    {unread : List PendingReply} (hmid : l.client.mid = first + UInt16.ofNat issued)
    (howed : ∀ k, l.owed left k ≠ [] → ∃ i < issued, k = first + UInt16.ofNat i)
    (hlimit : issued ≤ limit) (hj : j ≤ n) (hout : out ≤ j)
    (hmid' : l'.client.mid = l.client.mid + UInt16.ofNat j) (hunicode : l'.client.useUnicode = true)
    (hps : ps.map replyMid = ids out l.client.mid)
    (hrest : Carries false (events l'.client.netbios.incoming) rest)
    (hfewer : ∀ k, queued replyMid (held l'.client rest) k <:+ queued replyMid ⟨stored, unread⟩ k)
    (hone : ∀ k, (outstanding replyMid ⟨stored, unread⟩ (l'.transit.filterMap understood) k).length ≤ 1)
    (hsome : ∀ k, outstanding replyMid ⟨stored, unread⟩ (l'.transit.filterMap understood) k ≠ [] →
      l.owed left k ≠ [] ∨ k ∈ ps.map replyMid) : l'.Sound first (limit + n) := by
  refine ⟨hunicode, issued + j, by omega, ?_, rest, hrest, fun k => ?_⟩
  · rw [hmid', hmid, id_add]
  · have hsuffix : l'.owed rest k <:+
        outstanding replyMid ⟨stored, unread⟩ (l'.transit.filterMap understood) k := by
      obtain ⟨x, hx⟩ := hfewer k
      refine ⟨x, ?_⟩
      rw [Link.owed, outstanding, ← List.append_assoc, hx]
      rfl
    refine ⟨hsuffix.length_le.trans (hone k), fun hnonempty => ?_⟩
    have hbefore : outstanding replyMid ⟨stored, unread⟩ (l'.transit.filterMap understood) k ≠ [] :=
      fun hnil => hnonempty (List.suffix_nil.mp (hnil ▸ hsuffix))
    rcases hsome k hbefore with hold | hnew
    · obtain ⟨i, hi, hk⟩ := howed k hold
      exact ⟨i, by omega, hk⟩
    · rw [hps] at hnew
      obtain ⟨i, hi, hk⟩ := mem_ids hnew
      refine ⟨issued + i, by omega, ?_⟩
      rw [hk, hmid, id_add]

theorem Step.told {first : UInt16} {limit : ℕ} (hsound : l.Sound first limit)
    (hfew : limit + e.call.messages.length ≤ 65536) (h : Step files l e l') :
    l'.Sound first (limit + e.call.messages.length) ∧ Told files l e l' := by
  obtain ⟨issued, hissued, hmid, left, hleft, howed⟩ := hsound.given
  obtain ⟨raws, frames, hhandled, hcarries, hperm⟩ := h.served
  have hfree : ∀ k ∈ ids e.call.messages.length l.client.mid, l.owed left k = [] := by
    intro k hk
    by_contra hsome
    rw [hmid] at hk
    exact ids_fresh (by omega) hk ((howed k).2 hsome)
  have hbegin : Carries false (events (l.begin e).netbios.incoming) (left ++ frames) := by
    change Carries false (events (l.client.netbios.incoming ++ e.arrivals)) _
    rw [NetBios.events_append]
    exact hleft.append hcarries
  obtain ⟨result, s', out, hcomes⟩ := e.call.comes (l.begin e) hsound.unicode
  obtain ⟨rfl, rfl⟩ := Prod.mk.inj (hcomes.ran.symm.trans h.ran)
  obtain ⟨new, hnew, hout⟩ := hcomes.outbox
  have hsent : l.sent l' = new := by
    rw [Link.sent, hnew]
    exact List.drop_left
  rw [hsent, hout] at hhandled
  obtain ⟨hserved, ps, hreplied, hraws, hlength⟩ :=
    hhandled.replied hcomes.asked h.plain (messages_filing e.call)
  have hanswers : e.answers.length = out.length := by
    have hvs := hreplied.length.1
    rw [List.length_map, hlength] at hvs
    exact hvs
  rw [← hanswers] at hserved
  have hids : ps.map replyMid = ids out.length l.client.mid := by
    rw [hreplied.mids, hlength]
    rfl
  obtain ⟨j, hj, houtj, hmid'⟩ := hcomes.issued
  have hmids : ∀ p ∈ ps, replyMid p ∈ ids e.call.messages.length l.client.mid := by
    intro p hp
    have hmem : replyMid p ∈ ids out.length l.client.mid := hids ▸ List.mem_map_of_mem hp
    exact ids_mono (houtj.trans hj) hmem
  have hreplies : (l.transit.filterMap understood ++ ps).Perm
      (replies frames ++ l'.transit.filterMap understood) := by
    have hmapped := hperm.filterMap understood
    rw [List.filterMap_append, List.filterMap_append, hraws] at hmapped
    exact hmapped
  have hnodup : (ps.map replyMid).Nodup := by
    rw [hids]
    exact ids_nodup _ (by omega)
  obtain ⟨hone, hsome, hown⟩ := outstanding_new replyMid hreplies (fun k => (howed k).1)
    (fun p hp => hfree _ (hmids p hp)) hnodup
  have hheld : held (l.begin e) (left ++ frames) =
      ⟨l.client.pendingReplies, replies left ++ replies frames⟩ := by
    rw [held, replies_append]
    rfl
  have hunicode : l'.client.useUnicode = true := hcomes.useUnicode.trans hsound.unicode
  have hafter {rest : List Cifs.Arrival}
      (hrest : Carries false (events l'.client.netbios.incoming) rest)
      (hfewer : ∀ k, queued replyMid (held l'.client rest) k <:+
        queued replyMid (held (l.begin e) (left ++ frames)) k) :
      l'.Sound first (limit + e.call.messages.length) := by
    rw [hheld] at hfewer
    exact Link.Sound.after hmid (fun k => (howed k).2) hissued hj houtj hmid' hunicode hids hrest
      hfewer hone hsome
  rcases Nat.lt_or_ge out.length e.call.messages.length with hless | hmore
  · obtain ⟨hstopped, hincoming, hpending⟩ := hcomes.unsent hless
    refine ⟨hafter (hincoming ▸ hbegin) fun k => ?_, hserved, Or.inr ⟨hstopped, Or.inl ?_⟩⟩
    · rw [held, hpending]
      exact List.suffix_rfl
    · rw [hanswers]
      exact hless
  · have hall : out.length = e.call.messages.length := Nat.le_antisymm (houtj.trans hj) hmore
    have hexpect : Expecting (l.begin e) (left ++ frames) ps := by
      constructor
      · intro k
        rw [hheld]
        exact queued_outstanding replyMid (hone k)
      · intro p hp
        rw [hheld]
        exact (hown p hp).imp id And.left
    obtain ⟨⟨rest, hrest, hfewer⟩, hends⟩ :=
      hcomes.sent hall _ ps _ hreplied (hlength.trans hall) hbegin hexpect
    refine ⟨hafter hrest hfewer, hserved, ?_⟩
    rcases hends with hresult | ⟨stop, hresult, hlocal, hmissing⟩
    · exact Or.inl ⟨hanswers.trans hall, hresult⟩
    · refine Or.inr ⟨⟨stop, hresult, hlocal⟩, Or.inr ?_⟩
      by_cases hquiet : Quiet (left ++ frames)
      · obtain ⟨p, hp, hempty⟩ := hmissing hquiet
        rw [hheld] at hempty
        rcases hown p hp with hheld' | ⟨-, hway⟩
        · rw [hempty] at hheld'
          cases hheld'
        · obtain ⟨raw, hraw, hread⟩ := List.mem_filterMap.mp hway
          exact Or.inr ⟨raw, hraw, p, hread, hmids p hp⟩
      · exact Or.inl ⟨left ++ frames, hbegin, hquiet⟩

/-! ### Whole runs -/

variable {start : Link} {es : List Event}

theorem Ready.sound (h : Ready start) : start.Sound start.client.mid 0 where
  unicode := h.unicode
  given := by
    refine ⟨0, le_rfl, by simp, [], ?_, fun k => ?_⟩
    · rw [h.unread]
      exact .done
    · simp [Link.owed, outstanding, held, queued, h.stored, h.transit, replies, messages]

@[simp] theorem requests_snoc : requests (es ++ [e]) = requests es + e.call.messages.length := by
  simp [requests]

theorem Run.sound {first : UInt16} {limit : ℕ} (hsound : start.Sound first limit)
    (h : Run files start es l) (hfew : limit + requests es ≤ 65536) :
    l.Sound first (limit + requests es) := by
  induction h with
  | nil => exact hsound
  | snoc _ hstep ih =>
    rw [requests_snoc] at hfew ⊢
    rw [← Nat.add_assoc]
    exact (hstep.told (ih (by omega)) (by omega)).1

/-- Whatever was called before, and however those calls ended, as long as the ids have not all been
used: the server has done what the requests of a call say that got out, and the call returns what
its answers come to, or stops because a request did not get out, something else arrived, or a
reply is still on its way. -/
theorem calls_answered (hready : Ready start) (hrun : Run files start es l)
    (hstep : Step files l e l') (hfew : requests (es ++ [e]) ≤ 65536) :
    Served files l.server (e.call.messages.take e.answers.length) e.answers l'.server ∧
      (e.Answered ∨ e.Cut l l') := by
  rw [requests_snoc] at hfew
  have htold := (hstep.told (hrun.sound hready.sound (by omega)) (by omega)).2
  exact ⟨htold.served, htold.ends⟩

/-! ### A client that gives up once -/

/-- A message in one segment. -/
def arriving (raw : Bytes) : NetBios.Arrival :=
  .segment NetBios.FrameType.Message.code (NetBios.be3 raw.length ++ raw)

theorem arriving_carries {raws : List Bytes} (h : ∀ raw ∈ raws, raw.length ≤ NetBios.MAX_FRAME_LENGTH) :
    Carries false (events (raws.map arriving)) (raws.map fun raw => .frame 0 (.Message raw)) := by
  induction raws with
  | nil => exact .done
  | cons raw rest ih =>
    have hfirst := h raw List.mem_cons_self
    have hone := @Carries.frame false _ _ 0 ⟨NetBios.FrameType.Message.code, raw, hfirst⟩
      (ih fun raw hraw => h raw (List.mem_cons_of_mem _ hraw))
    have hevents : events ((raw :: rest).map arriving) =
        bytesOnly (RawFrame.wire ⟨NetBios.FrameType.Message.code, raw, hfirst⟩) ++
          events (rest.map arriving) := by
      simp only [List.map_cons, events, List.flatMap_cons]
      rfl
    rw [hevents]
    exact hone

theorem messages_arriving (raws : List Bytes) :
    messages (raws.map fun raw => Cifs.Arrival.frame 0 (.Message raw)) = raws := by
  rw [messages, List.filterMap_map]
  exact List.filterMap_some

/-- A call of one request that gets out in two writes, and the replies that arrive meanwhile. -/
def event (call : Call) (a : Answer) (raws : List Bytes)
    (result : Except (Stop CifsClientStream.Error) Value) : Event where
  call
  arrivals := raws.map arriving
  room := [9, 200]
  blocked := none
  answers := [a]
  result

theorem event_step {call : Call} {m : Message} {a : Answer} {raws : List Bytes}
    {result : Except (Stop CifsClientStream.Error) Value} {request : Info} {frame : Bytes}
    {n : ℕ} (info : Info) (body : Bytes) (hmessages : call.messages = [m]) (hplain : m.Plain)
    (hran : finish (call.run (l.begin (event call a raws result))) = (result, l'.client))
    (hsent : l.sent l' = [⟨n, frame, messageWire frame⟩])
    (hread : Message.parse frame = .ok (request, m)) (hserves : Serves files l.server m a l'.server)
    (hwritten : a.Written request info body)
    (hfits : ∀ raw ∈ raws, raw.length ≤ NetBios.MAX_FRAME_LENGTH)
    (hperm : (l.transit ++ [info.write ++ body]).Perm (raws ++ l'.transit)) :
    Step files l (event call a raws result) l' where
  plain m' hm' := by
    have hm : m' ∈ call.messages := hm'
    rw [hmessages] at hm
    rw [List.mem_singleton.mp hm]
    exact hplain
  ran := hran
  uncut o ho := by
    rw [hsent] at ho
    rw [List.mem_singleton.mp ho]
    exact Or.inl rfl
  served := by
    have hframes : wholeFrames (l.sent l') = [frame] := by simp [hsent, wholeFrames]
    refine ⟨[info.write ++ body], _, ?_, arriving_carries hfits, ?_⟩
    · rw [hframes]
      exact .cons hread hserves hwritten (.nil _)
    · rw [messages_arriving]
      exact hperm

def replied (cmd : Cmd) (mid tid : UInt16) : Info :=
  { Info.default cmd with flags1 := Flags1.REPLY, mid, tid }

def shareReply : TreeConnectReply where
  chain := [0, 0, 1]
  parameter := [1, 0]
  service := "A:"
  filesystem := "FAT"
  pad := 0
  more := []
  chain_length := rfl
  support := by decide
  whole_words := by decide
  word_count := by decide
  service_nulFree := by decide
  filesystem_nulFree := by decide

def films : Files := fun path name => if path = "m" ∧ name = "a" then some [1, 2, 3] else none

def mountCall : Call := .mountPassword "m" ""

/-- The call, as it is with this path. -/
def mountRun : Fut CifsClientStream.Error TcpCifs Value :=
  command Share (Msg.TreeConnect.new "m" "") >>= fun share => pure (.share share)

def mountMessage : Message := .treeConnect (.new "m" "")

/-- The replies to the first and to the second mount. -/
def lateReply : Bytes := (replied .TreeConnect 0 5).write ++ shareReply.body true []

def mountReply : Bytes := (replied .TreeConnect 1 6).write ++ shareReply.body true []

def givenUp : Event := event mountCall (.connected 5 shareReply) [] (.error .dropped)

def mountEvent : Event :=
  event mountCall (.connected 6 shareReply) [lateReply, mountReply]
    ((Answer.connected 6 shareReply).value.mapError .error)

def unused : Link where
  client := TcpCifs.fresh Cifs.noAuth
  server := ⟨fun _ => none, fun _ => none⟩
  transit := []

def afterGivenUp : Link where
  client := (finish (mountRun (unused.begin givenUp))).2
  server := unused.server.connect 5 "m"
  transit := [lateReply]

def afterMount : Link where
  client := (finish (mountRun (afterGivenUp.begin mountEvent))).2
  server := afterGivenUp.server.connect 6 "m"
  transit := []

theorem mount_path : sanitizePath "m" = "m" := by decide +kernel

theorem mountCall_run : mountCall.run = mountRun := by
  rw [mountCall, Call.run, TcpCifs.mountPassword, mount_path, mountRun]

theorem mountCall_messages : mountCall.messages = [mountMessage] := by
  rw [mountCall, Call.messages, mount_path, mountMessage]

theorem mountMessage_plain : mountMessage.Plain := ⟨by decide, by decide⟩

/-- The call is dropped while it waits for its reply. -/
theorem givenUp_step : Step films unused givenUp afterGivenUp := by
  have hheads : mountMessage.Heads (Info.default .TreeConnect) := ⟨rfl, rfl, trivial, by decide⟩
  refine event_step (n := 0) (replied .TreeConnect 0 5) (shareReply.body true []) mountCall_messages mountMessage_plain ?_ rfl
    (Message.parse_write mountMessage_plain hheads rfl) (.connected (.new "m" "") 5 shareReply rfl)
    ⟨⟨trivial, by decide, by decide⟩, rfl, rfl, rfl, ?_, ?_⟩ nofun (.refl _)
  · rw [mountCall_run]
    rfl
  · intro tid htid
    cases htid
    rfl
  · exact .connected 5 shareReply [] (by decide)

/-- The late reply comes first. -/
theorem mount_step : Step films afterGivenUp mountEvent afterMount := by
  have hheads : mountMessage.Heads { Info.default .TreeConnect with mid := 1 } :=
    ⟨rfl, rfl, trivial, by decide⟩
  refine event_step (n := 1) (replied .TreeConnect 1 6) (shareReply.body true []) mountCall_messages mountMessage_plain ?_ rfl
    (Message.parse_write mountMessage_plain hheads rfl) (.connected (.new "m" "") 6 shareReply ?_)
    ⟨⟨trivial, by decide, by decide⟩, rfl, rfl, rfl, ?_, ?_⟩ ?_ (.refl _)
  · rw [mountCall_run]
    rfl
  · rfl
  · intro tid htid
    cases htid
    rfl
  · exact .connected 6 shareReply [] (by decide)
  · simp only [List.forall_mem_cons]
    exact ⟨by decide, by decide, nofun⟩

theorem calls_answered_mount :
    Served films afterGivenUp.server (mountEvent.call.messages.take 1) mountEvent.answers
        afterMount.server ∧
      (mountEvent.Answered ∨ mountEvent.Cut afterGivenUp afterMount) :=
  calls_answered ⟨rfl, rfl, rfl, rfl⟩ (.snoc .nil givenUp_step) mount_step (by decide)

end CifsClientStream.Server
