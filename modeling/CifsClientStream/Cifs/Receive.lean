import CifsClientStream.Cifs.Run
import CifsClientStream.Lib.Mailbox

/-!
# Receiving refines taking from a mailbox

When everything that has arrived is a keepalive or a message with a good
header, `pending_replies` and the frames not yet read are a mailbox keyed by
multiplex id, and `recv` takes from it (`recv_receive`). What else the
connection holds is not touched.
-/

namespace CifsClientStream.Cifs
open Cursor Async Win Smb Utils Mailbox

/-- The messages among the arrivals, if all others are keepalives. -/
def readable : List Arrival → Option (List Delivery)
  | [] => some []
  | .frame answers (.Message msg) :: rest =>
    match parseFrame msg with
    | .ok reply => (readable rest).map (⟨reply, answers⟩ :: ·)
    | .error _ => none
  | .frame _ .Keepalive :: rest => readable rest
  | _ :: _ => none

/-- The first of readable arrivals is a keepalive or a message. -/
theorem readable_cons {a : Arrival} {rest : List Arrival} {ds : List Delivery}
    (h : readable (a :: rest) = some ds) :
    (∃ answers, a = .frame answers .Keepalive ∧ readable rest = some ds) ∨
    ∃ answers msg reply ds', a = .frame answers (.Message msg) ∧ parseFrame msg = .ok reply ∧
      ds = ⟨reply, answers⟩ :: ds' ∧ readable rest = some ds' := by
  cases a with
  | failed e => simp [readable] at h
  | frame answers frame =>
    cases frame with
    | Keepalive => exact Or.inl ⟨answers, rfl, h⟩
    | Message msg =>
      simp only [readable] at h
      split at h
      · rename_i reply hp
        obtain ⟨ds', hr, he⟩ := Option.map_eq_some_iff.mp h
        exact Or.inr ⟨answers, msg, reply, ds', rfl, hp, he.symm, hr⟩
      · cases h
    | SessionRequest msg => simp [readable] at h
    | PositiveResponse => simp [readable] at h
    | NegativeResponse code => simp [readable] at h
    | Retarget => simp [readable] at h

theorem readable_append (now later : List Arrival) (ds : List Delivery)
    (h : readable now = some []) (hl : readable later = some ds) :
    readable (now ++ later) = some ds := by
  induction now with
  | nil => exact hl
  | cons a rest ih =>
    rcases readable_cons h with ⟨answers, rfl, hrest⟩ | ⟨_, _, _, _, _, _, hnil, _⟩
    · exact ih hrest
    · cases hnil

/-- `c` holds the messages of `box`, and `later` arrives behind them. -/
structure Holds (c : Cifs) (box : Box UInt16 Delivery) (later : List Arrival) : Prop where
  stored : c.pendingReplies = box.stored
  unread : ∃ now, c.netbios.incoming = now ++ later ∧ readable now = some box.unread

structure Kept (c c' : Cifs) : Prop where
  mid : c'.mid = c.mid
  uid : c'.uid = c.uid
  auth : c'.auth = c.auth
  useUnicode : c'.useUnicode = c.useUnicode
  ioStats : c'.ioStats = c.ioStats
  writes : c'.netbios.writes = c.netbios.writes
  sent : c'.history.sent = c.history.sent

theorem Kept.refl (c : Cifs) : Kept c c := ⟨rfl, rfl, rfl, rfl, rfl, rfl, rfl⟩

theorem Kept.trans {a b c : Cifs} (h : Kept a b) (h' : Kept b c) : Kept a c :=
  ⟨h'.mid.trans h.mid, h'.uid.trans h.uid, h'.auth.trans h.auth,
    h'.useUnicode.trans h.useUnicode, h'.ioStats.trans h.ioStats, h'.writes.trans h.writes,
    h'.sent.trans h.sent⟩

theorem recvMessage_nil (now later : List Arrival) (h : readable now = some []) :
    recvMessage (now ++ later) = recvMessage later := by
  induction now with
  | nil => rfl
  | cons a rest ih =>
    rcases readable_cons h with ⟨answers, rfl, hrest⟩ | ⟨_, _, _, _, _, _, hnil, _⟩
    · exact ih hrest
    · cases hnil

theorem recvMessage_cons (now later : List Arrival) (d : Delivery) (ds : List Delivery)
    (h : readable now = some (d :: ds)) :
    ∃ frame rest, recvMessage (now ++ later) = (.ok (d.answers, frame), rest ++ later) ∧
      parseFrame frame = .ok d.reply ∧ readable rest = some ds ∧ rest.length < now.length := by
  induction now with
  | nil => simp [readable] at h
  | cons a rest ih =>
    rcases readable_cons h with ⟨answers, rfl, hrest⟩ | ⟨answers, msg, reply, _, rfl, hp, he, hr⟩
    · obtain ⟨frame, rest', hm, hp, hr, hl⟩ := ih hrest
      exact ⟨frame, rest', hm, hp, hr, by rw [List.length_cons]; omega⟩
    · cases he
      exact ⟨msg, rest, rfl, hp, hr, Nat.lt_succ_self _⟩

theorem recvFrame_later (c : Cifs) (now later : List Arrival)
    (hin : c.netbios.incoming = now ++ later) (h : readable now = some []) :
    recvFrame c = recvFrame (c.withIncoming later) := by
  have hl : (c.withIncoming later).netbios.incoming = later := rfl
  unfold recvFrame
  rw [hin, hl, recvMessage_nil now later h]
  rfl

theorem recvFrame_cons (c : Cifs) (now later : List Arrival) (d : Delivery) (ds : List Delivery)
    (hin : c.netbios.incoming = now ++ later) (h : readable now = some (d :: ds)) :
    ∃ rest, recvFrame c = .ok d ((c.withIncoming (rest ++ later)).logReceived d) ∧
      readable rest = some ds ∧ rest.length < now.length := by
  obtain ⟨frame, rest, hm, hp, hr, hl⟩ := recvMessage_cons now later d ds h
  exact ⟨rest, recvFrame_ok c d.answers frame (rest ++ later) d.reply (by rw [hin, hm]) hp, hr, hl⟩

theorem putAside_eq (d : Delivery) (c : Cifs) :
    putAside d c = if (c.pendingReplies d.mid).isSome
      then .error (.error (duplicateReply d.mid)) (c.store d.mid (some d))
      else .ok ⟨⟩ (c.store d.mid (some d)) := by
  have hx : putAside d c = (if (c.pendingReplies d.mid).isSome then
      (raise (duplicateReply d.mid) : Fut Error Cifs Unit) else pure ())
        (c.store d.mid (some d)) := rfl
  rw [hx]
  split
  · rfl
  · rfl

theorem recvLoop_other (R : Type) [Reply R] (t : Ticket) (fuel : ℕ) (c c' : Cifs) (d : Delivery)
    (h : recvFrame c = .ok d c') (hm : d.mid ≠ t.mid) :
    recvLoop R t (fuel + 1) c = if (c'.pendingReplies d.mid).isSome
      then .error (.error (duplicateReply d.mid)) (c'.store d.mid (some d))
      else recvLoop R t fuel (c'.store d.mid (some d)) := by
  rw [recvLoop_succ R t fuel c c' d h, if_neg hm, fut_bind, putAside_eq]
  by_cases hs : (c'.pendingReplies d.mid).isSome
  · simp only [hs, if_true]
  · simp only [hs, if_false, Bool.false_eq_true]

theorem recvLoop_readFor (R : Type) [Reply R] (t : Ticket) (fuel : ℕ) (c : Cifs)
    (now later : List Arrival) (ds : List Delivery) (hin : c.netbios.incoming = now ++ later)
    (hun : readable now = some ds) (hfuel : c.netbios.incoming.length < fuel) :
    ∃ c' fuel', Kept c c' ∧ c'.history.handed = c.history.handed ∧ later.length < fuel' ∧
      Holds c' (readFor Delivery.mid t.mid c.pendingReplies ds).2 later ∧
      recvLoop R t fuel c = match (readFor Delivery.mid t.mid c.pendingReplies ds).1 with
        | .got d => hand R t d c'
        | .duplicate d => .error (.error (duplicateReply d.mid)) c'
        | .starved => recvLoop R t fuel' c' := by
  rw [hin, List.length_append] at hfuel
  induction ds generalizing c fuel now with
  | nil =>
    refine ⟨c.withIncoming later, fuel, ⟨rfl, rfl, rfl, rfl, rfl, rfl, rfl⟩, rfl, by omega,
      ⟨rfl, [], rfl, rfl⟩, ?_⟩
    cases fuel with
    | zero => omega
    | succ fuel =>
      change recvLoop R t (fuel + 1) c = recvLoop R t (fuel + 1) (c.withIncoming later)
      rw [recvLoop, fut_bind, fut_bind, recvFrame_later c now later hin hun]
  | cons x ds ih =>
    obtain ⟨rest, hf, hrest, hlen⟩ := recvFrame_cons c now later x ds hin hun
    cases fuel with
    | zero => omega
    | succ fuel =>
      by_cases hx : x.mid = t.mid
      · refine ⟨(c.withIncoming (rest ++ later)).logReceived x, fuel,
          ⟨rfl, rfl, rfl, rfl, rfl, rfl, rfl⟩, rfl, by omega, ?_, ?_⟩
        · simp only [readFor, hx, if_true]
          exact ⟨rfl, rest, rfl, hrest⟩
        · rw [recvLoop_succ R t fuel c _ x hf]
          simp only [readFor, hx, if_true]
      · rw [recvLoop_other R t fuel c _ x hf hx]
        simp only [readFor, hx, if_false]
        have hk0 : Kept c (((c.withIncoming (rest ++ later)).logReceived x).store x.mid (some x)) :=
          ⟨rfl, rfl, rfl, rfl, rfl, rfl, rfl⟩
        cases hp : c.pendingReplies x.mid with
        | some y =>
          have hp' : ((c.withIncoming (rest ++ later)).logReceived x).pendingReplies x.mid =
            some y := hp
          refine ⟨((c.withIncoming (rest ++ later)).logReceived x).store x.mid (some x), fuel, hk0,
            rfl, by omega, ⟨rfl, rest, rfl, hrest⟩, ?_⟩
          simp only [hp', Option.isSome_some, if_true]
        | none =>
          have hp' : ((c.withIncoming (rest ++ later)).logReceived x).pendingReplies x.mid =
            none := hp
          obtain ⟨c', fuel', hk, hhd, hf', hh, he⟩ := ih fuel
            (((c.withIncoming (rest ++ later)).logReceived x).store x.mid (some x)) rest rfl hrest
            (by omega)
          refine ⟨c', fuel', hk0.trans hk, hhd, hf', hh, ?_⟩
          simp only [hp', Option.isSome_none, Bool.false_eq_true, if_false]
          exact he

/-- `recv` ends as receiving from the mailbox does, or goes on with what arrives later. -/
theorem recv_receive (R : Type) [Reply R] (t : Ticket) (c : Cifs) (box : Box UInt16 Delivery)
    (later : List Arrival) (hc : Holds c box later) :
    ∃ c' fuel, Kept c c' ∧ c'.history.handed = c.history.handed ∧ later.length < fuel ∧
      Holds c' (receive Delivery.mid t.mid box).2 later ∧
      recv R t c = match (receive Delivery.mid t.mid box).1 with
        | .got d => hand R t d c'
        | .duplicate d => .error (.error (duplicateReply d.mid)) c'
        | .starved => recvLoop R t fuel c' := by
  obtain ⟨stored, unread⟩ := box
  obtain ⟨hst, now, hin, hun⟩ := hc
  simp only at hst hun
  subst hst
  cases hp : c.pendingReplies t.mid with
  | some d =>
    refine ⟨c.store t.mid none, later.length + 1, ⟨rfl, rfl, rfl, rfl, rfl, rfl, rfl⟩, rfl,
      Nat.lt_succ_self _, ?_, ?_⟩
    · simp only [receive, hp]
      exact ⟨rfl, now, hin, hun⟩
    · rw [recv_some R t c d hp]
      simp only [receive, hp]
  | none =>
    rw [recv_none R t c hp]
    simp only [receive, hp]
    exact recvLoop_readFor R t _ c now later unread hin hun (Nat.lt_succ_self _)

theorem hand_ok (R : Type) [Reply R] (t : Ticket) (d : Delivery) (c : Cifs) (r : R)
    (h : parseReply R d.reply = .ok r) : hand R t d c = .ok r (c.logHanded t.request d) := by
  have hx : hand R t d c = lift (parseReply R d.reply) (c.logHanded t.request d) := rfl
  rw [hx, h]
  rfl

/-- With at most one message for every other id, `recv` returns the answer in the first
message held under its id and leaves the others where they are. -/
theorem recv_queued (R : Type) [Reply R] (t : Ticket) (c : Cifs) (box : Box UInt16 Delivery)
    (later : List Arrival) (hc : Holds c box later) (d : Delivery) (ds : List Delivery) (r : R)
    (hq : queued Delivery.mid box t.mid = d :: ds)
    (hu : ∀ k, k ≠ t.mid → (queued Delivery.mid box k).length ≤ 1)
    (hr : parseReply R d.reply = .ok r) :
    ∃ c' box', recv R t c = .ok r c' ∧ Kept c c' ∧ Holds c' box' later ∧
      queued Delivery.mid box' t.mid = ds ∧
      (∀ k, k ≠ t.mid → queued Delivery.mid box' k = queued Delivery.mid box k) ∧
      box'.unread <:+ box.unread := by
  obtain ⟨box', he, hown, hother, hsuf⟩ := receive_queued Delivery.mid t.mid box d ds hq hu
  obtain ⟨c', _, hk, _, _, hh, hrecv⟩ := recv_receive R t c box later hc
  rw [he] at hh hrecv
  refine ⟨c'.logHanded t.request d, box', ?_, hk.trans ⟨rfl, rfl, rfl, rfl, rfl, rfl, rfl⟩,
    ⟨hh.stored, hh.unread⟩, hown, hother, hsuf⟩
  rw [hrecv]
  exact hand_ok R t d c' r hr

/-! ### Messages of other requests -/

def ownReplies (mids : List UInt16) (ds : List Delivery) : List Delivery :=
  ds.filter fun d => d.mid ∈ mids

/-- Of the messages `ds` that arrive before `later`, no two carry the same id outside
`mids`, and none carries an id under which a message is put aside. -/
structure Undisturbed (c : Cifs) (mids : List UInt16) (ds : List Delivery)
    (later : List Arrival) : Prop where
  arrived : ∃ now, c.netbios.incoming = now ++ later ∧ readable now = some ds
  distinct : ((ds.filter fun d => d.mid ∉ mids).map Delivery.mid).Nodup
  unstored : ∀ d ∈ ds, c.pendingReplies d.mid = none

variable {c : Cifs} {mids : List UInt16} {ds : List Delivery} {later : List Arrival}

theorem Undisturbed.holds (h : Undisturbed c mids ds later) :
    Holds c ⟨c.pendingReplies, ds⟩ later := ⟨rfl, h.arrived⟩

theorem Undisturbed.queued_own (h : Undisturbed c mids ds later) (d : Delivery) (hd : d ∈ ds)
    (hm : d.mid ∈ mids) :
    queued Delivery.mid ⟨c.pendingReplies, ds⟩ d.mid =
      (ownReplies mids ds).filter fun x => x.mid = d.mid := by
  rw [queued_mk, h.unstored d hd, Option.toList_none, List.nil_append, ownReplies,
    List.filter_filter]
  refine List.filter_congr fun x _ => ?_
  by_cases hx : x.mid = d.mid
  · simp [hx, hm]
  · simp [hx]

theorem Undisturbed.queued_other (h : Undisturbed c mids ds later) (k : UInt16) (hk : k ∉ mids) :
    (queued Delivery.mid ⟨c.pendingReplies, ds⟩ k).length ≤ 1 := by
  by_cases hd : ∃ d ∈ ds, d.mid = k
  · obtain ⟨d, hd, rfl⟩ := hd
    have hf := filter_key Delivery.mid _ h.distinct d
      (List.mem_filter.mpr ⟨hd, by simpa using hk⟩)
    rw [List.filter_filter] at hf
    have hsame : ds.filter (fun x => x.mid = d.mid) =
        ds.filter fun x => decide (x.mid = d.mid) && decide (x.mid ∉ mids) := by
      refine List.filter_congr fun x _ => ?_
      by_cases hx : x.mid = d.mid
      · simp [hx, hk]
      · simp [hx]
    rw [queued_mk, h.unstored d hd, Option.toList_none, List.nil_append, hsame, hf]
    exact le_rfl
  · rw [queued_foreign]
    · cases c.pendingReplies k with
      | none => exact Nat.zero_le _
      | some d => exact le_rfl
    · intro hm
      obtain ⟨d, hd', rfl⟩ := List.mem_map.mp hm
      exact hd ⟨d, hd', rfl⟩

theorem Undisturbed.of_eq {c' : Cifs} (h : Undisturbed c mids ds later)
    (hp : c'.pendingReplies = c.pendingReplies)
    (hi : c'.netbios.incoming = c.netbios.incoming) : Undisturbed c' mids ds later :=
  ⟨by rw [hi]; exact h.arrived, h.distinct, by rw [hp]; exact h.unstored⟩

end CifsClientStream.Cifs
