import CifsClientStream.Cifs.Directory
import CifsClientStream.Smb.Entries

/-!
# Both ways to list a directory give the same entries

What a search asks for is determined by the replies it has got
(`Continues`): the next batch is asked for with the search id of the first
reply and the last name of the last one. Both `list` and a `DirectoryReader`
search that way, so they agree (`list_reader_agree`). That there always is a
last name rests on the parsers: a batch that is not the last is not empty.
-/

namespace CifsClientStream.Cifs
open Cursor Async Win Smb Utils

/-! ### Searches -/

/-- The request for what follows a batch. -/
def resumeAfter (tid sid : UInt16) (info : List DirInfo) : Option SearchRequest :=
  (lastFilename info).map fun last => .next tid (.new sid last)

/-- Transactions behind a reply: each asks for what follows the last batch so far, one that
fails is asked again, and after the end of the search there are none. -/
def Continues (tid sid : UInt16) : SearchReply → List Exchange → Prop
  | _, [] => True
  | last, e :: es =>
    last.finished = false ∧ some e.request = resumeAfter tid sid last.info ∧
      Continues tid sid (e.reply.getD last) es

/-- The transactions of a search from its first on; there is no second without a reply to
the first. -/
def Searches (share : Share) (pattern : String) : List Exchange → Prop
  | [] => True
  | e :: es =>
    e.request = .first share.tid (firstRequest pattern) ∧
      match e.reply with
      | none => es = []
      | some (.first reply) => Continues share.tid reply.sid (.first reply) es
      | some (.next _) => False

def replies (es : List Exchange) : List SearchReply := es.filterMap (·.reply)

theorem replies_cons (request : SearchRequest) (reply : SearchReply) (es : List Exchange) :
    replies (⟨request, some reply⟩ :: es) = reply :: replies es := rfl

def batches (rs : List SearchReply) : List (List DirInfo) := rs.map SearchReply.info

/-- The requests that were answered. -/
def asked (es : List Exchange) : List SearchRequest :=
  (es.filter (·.reply.isSome)).map (·.request)

/-- The requests that a search with these replies asks. -/
def resumes (tid sid : UInt16) : SearchReply → List SearchReply → List SearchRequest
  | _, [] => []
  | last, reply :: rest => (resumeAfter tid sid last.info).toList ++ resumes tid sid reply rest

def requestsOf (share : Share) (pattern : String) : List SearchReply → List SearchRequest
  | .first reply :: rest =>
    .first share.tid (firstRequest pattern) ::
      resumes share.tid reply.sid (.first reply) rest
  | _ => []

def Ended (rs : List SearchReply) : Prop := (rs.getLast?.map SearchReply.finished) = some true

/-- A batch that is not the last has a last entry. -/
def SearchReply.Resumable (r : SearchReply) : Prop := r.finished = false → r.info ≠ []

theorem SearchReply.Resumable.resume {r : SearchReply} (h : r.Resumable)
    (hmore : r.finished = false) :
    ∃ before last, r.info = before ++ [last] ∧ lastFilename r.info = some last.filename := by
  obtain ⟨before, last, hinfo⟩ := List.eq_nil_or_concat r.info |>.resolve_left (h hmore)
  refine ⟨before, last, by rw [hinfo, List.concat_eq_append], ?_⟩
  rw [lastFilename, hinfo, List.concat_eq_append, List.getLast?_append, List.getLast?_singleton]
  rfl

/-! ### One transaction -/

/-- The search with one more transaction. -/
def Search.logged (s : Search) (c : Cifs) (request : SearchRequest) (reply : Option SearchReply) :
    Search := ⟨c, s.log ++ [⟨request, reply⟩]⟩

theorem transact_cases {C R : Type} [SubCmd C] [SubReply R] (server : SearchServer)
    (tid : UInt16) (subcmd : C) (request : SearchRequest) (reply : R → SearchReply) (s : Search) :
    (∃ r c, (∃ parameter data, SubReply.parse parameter data = .ok r) ∧
      transact server tid subcmd request reply s =
        .ok r (s.logged c request (some (reply r)))) ∨
    ∃ e c, transact server tid subcmd request reply s = .error e (s.logged c request none) := by
  unfold transact
  dsimp only
  cases ht : transact2 R tid subcmd (s.cifs.arrive (server s.log s.cifs request).1
      (server s.log s.cifs request).2) with
  | ok r c => exact Or.inl ⟨r, c, transact2_parsed ht, rfl⟩
  | error e c => exact Or.inr ⟨e, c, rfl⟩

theorem findFirst_cases (server : SearchServer) (share : Share) (pattern : String) (s : Search) :
    (∃ r c, (SearchReply.first r).Resumable ∧ findFirst server share pattern s =
      .ok r (s.logged c (.first share.tid (firstRequest pattern)) (some (.first r)))) ∨
    ∃ e c, findFirst server share pattern s =
      .error e (s.logged c (.first share.tid (firstRequest pattern)) none) := by
  rcases transact_cases server share.tid (firstRequest pattern)
    (.first share.tid (firstRequest pattern)) SearchReply.first s with
    ⟨r, c, ⟨parameter, data, hparse⟩, ht⟩ | ⟨e, c, ht⟩
  · exact Or.inl ⟨r, c, findFirst_nonempty hparse, ht⟩
  · exact Or.inr ⟨e, c, ht⟩

theorem findNext_cases (server : SearchServer) (tid sid : UInt16) (lastfile : String) (s : Search) :
    (∃ r c, (SearchReply.next r).Resumable ∧ findNext server tid sid lastfile s =
      .ok r (s.logged c (.next tid (.new sid lastfile)) (some (.next r)))) ∨
    ∃ e c, findNext server tid sid lastfile s =
      .error e (s.logged c (.next tid (.new sid lastfile)) none) := by
  rcases transact_cases server tid (SubCmd.FindNext2.new sid lastfile)
    (.next tid (.new sid lastfile)) SearchReply.next s with
    ⟨r, c, ⟨parameter, data, hparse⟩, ht⟩ | ⟨e, c, ht⟩
  · exact Or.inl ⟨r, c, findNext_nonempty hparse, ht⟩
  · exact Or.inr ⟨e, c, ht⟩

/-! ### `list` -/

/-- How the transactions `es` leave a listing that has `result` so far: complete, when the
last of them ends the search; else stopped, because the last one failed or because as many as
allowed did not end it. -/
def Listed (rounds : ℕ) (result : List DirInfo) (es : List Exchange)
    (r : EStateM.Result (Stop Error) Search (List DirInfo)) : Prop :=
  (Ended (replies es) ∧ ∃ s, r = .ok (result ++ (batches (replies es)).flatten) s) ∨
  ((∀ reply ∈ replies es, reply.finished = false) ∧ ∃ e s, r = .error e s ∧
    ((∃ failed, es.getLast? = some failed ∧ failed.reply = none) ∨
      (e = .dropped ∧ (replies es).length = rounds)))

theorem Listed.cons {rounds : ℕ} {result : List DirInfo} {es : List Exchange}
    {r : EStateM.Result (Stop Error) Search (List DirInfo)} {request : SearchRequest}
    {reply : SearchReply} (hmore : reply.finished = false)
    (h : Listed rounds (result ++ reply.info) es r) :
    Listed (rounds + 1) result (⟨request, some reply⟩ :: es) r := by
  rcases h with ⟨hend, s, hr⟩ | ⟨hmore', e, s, hr, hwhy⟩
  · refine Or.inl ⟨?_, s, ?_⟩
    · unfold Ended at hend ⊢
      rw [replies_cons]
      cases hrs : replies es with
      | nil =>
        rw [hrs] at hend
        cases hend
      | cons r' rs =>
        rw [hrs] at hend
        rw [List.getLast?_cons_cons]
        exact hend
    · rw [hr, replies_cons]
      simp [batches]
  · refine Or.inr ⟨?_, e, s, hr, ?_⟩
    · rw [replies_cons]
      exact List.forall_mem_cons.mpr ⟨hmore, hmore'⟩
    · rcases hwhy with ⟨failed, hlast, hfailed⟩ | ⟨he, hlen⟩
      · refine Or.inl ⟨failed, ?_, hfailed⟩
        cases es with
        | nil => cases hlast
        | cons e' es' =>
          rw [List.getLast?_cons_cons]
          exact hlast
      · refine Or.inr ⟨he, ?_⟩
        rw [replies_cons, List.length_cons, hlen]

theorem Listed.ended (rounds : ℕ) (result : List DirInfo) (request : SearchRequest)
    (reply : SearchReply) (hfin : reply.finished = true) (s : Search) :
    Listed rounds result [⟨request, some reply⟩] (.ok (result ++ reply.info) s) := by
  refine Or.inl ⟨congrArg some hfin, s, ?_⟩
  simp [batches, replies]

theorem Listed.failed (rounds : ℕ) (result : List DirInfo) (request : SearchRequest)
    (e : Stop Error) (s : Search) : Listed rounds result [⟨request, none⟩] (.error e s) :=
  Or.inr ⟨fun _ h => absurd h List.not_mem_nil, e, s, rfl, Or.inl ⟨_, rfl, rfl⟩⟩

theorem listLoop_listed (server : SearchServer) (tid sid : UInt16) (rounds : ℕ)
    (result before : List DirInfo) (last : SearchReply) (s : Search) (hlast : last.Resumable)
    (hmore : last.finished = false) (hresult : result = before ++ last.info) :
    ∃ es, (endState (listLoop server tid sid rounds result s)).log = s.log ++ es ∧
      Continues tid sid last es ∧ Listed rounds result es (listLoop server tid sid rounds result s) := by
  induction rounds generalizing result before last s with
  | zero =>
    refine ⟨[], (List.append_nil _).symm, trivial, Or.inr ⟨?_, .dropped, s, rfl, Or.inr ⟨rfl, rfl⟩⟩⟩
    exact fun reply h => absurd h List.not_mem_nil
  | succ rounds ih =>
    obtain ⟨entries, entry, hinfo, hname⟩ := hlast.resume hmore
    have hget : result.getLast? = some entry := by
      rw [hresult, hinfo, ← List.append_assoc, List.getLast?_append, List.getLast?_singleton]
      rfl
    have hloop : listLoop server tid sid (rounds + 1) result s =
        (findNext server tid sid entry.filename >>= fun reply =>
          if reply.finished then pure (result ++ reply.info)
          else listLoop server tid sid rounds (result ++ reply.info)) s := by
      rw [listLoop, hget]
    have hrequest : some (SearchRequest.next tid (.new sid entry.filename)) =
        resumeAfter tid sid last.info := by
      rw [resumeAfter, hname]
      rfl
    rcases findNext_cases server tid sid entry.filename s with ⟨r, c, hres, hr⟩ | ⟨e, c, hr⟩
    · by_cases hfin : r.finished = true
      · have heq : listLoop server tid sid (rounds + 1) result s = .ok (result ++ r.info)
            (s.logged c (.next tid (.new sid entry.filename)) (some (.next r))) := by
          rw [hloop, fut_bind, hr]
          dsimp only
          rw [if_pos hfin]
          rfl
        rw [heq]
        exact ⟨_, rfl, ⟨hmore, hrequest, trivial⟩, Listed.ended _ _ _ (.next r) hfin _⟩
      · rw [Bool.not_eq_true] at hfin
        obtain ⟨es, hlog, hcont, hlisted⟩ := ih (result ++ r.info) result (.next r)
          (s.logged c (.next tid (.new sid entry.filename)) (some (.next r))) hres hfin rfl
        have heq : listLoop server tid sid (rounds + 1) result s =
            listLoop server tid sid rounds (result ++ r.info)
              (s.logged c (.next tid (.new sid entry.filename)) (some (.next r))) := by
          rw [hloop, fut_bind, hr]
          dsimp only
          rw [hfin, if_neg Bool.false_ne_true]
        refine ⟨⟨_, some (.next r)⟩ :: es, ?_, ⟨hmore, hrequest, hcont⟩, ?_⟩
        · rw [heq, hlog, Search.logged, List.append_assoc]
          rfl
        · rw [heq]
          exact hlisted.cons hfin
    · have heq : listLoop server tid sid (rounds + 1) result s =
          .error e (s.logged c (.next tid (.new sid entry.filename)) none) := by
        rw [hloop, fut_bind, hr]
      rw [heq]
      exact ⟨_, rfl, ⟨hmore, hrequest, trivial⟩, Listed.failed _ _ _ e _⟩

theorem list_listed (server : SearchServer) (rounds : ℕ) (share : Share) (pattern : String)
    (s : Search) :
    ∃ es, (endState (list server rounds share pattern s)).log = s.log ++ es ∧
      Searches share pattern es ∧ Listed (rounds + 1) [] es (list server rounds share pattern s) := by
  rcases findFirst_cases server share pattern s with ⟨r, c, hres, hr⟩ | ⟨e, c, hr⟩
  · by_cases hfin : r.finished = true
    · have heq : list server rounds share pattern s =
          .ok r.info (s.logged c (.first share.tid (firstRequest pattern)) (some (.first r))) := by
        rw [list, fut_bind, hr]
        dsimp only
        rw [if_pos hfin]
        rfl
      rw [heq]
      exact ⟨_, rfl, ⟨rfl, trivial⟩, Listed.ended _ [] _ (.first r) hfin _⟩
    · rw [Bool.not_eq_true] at hfin
      have heq : list server rounds share pattern s =
          listLoop server share.tid r.sid rounds r.info
            (s.logged c (.first share.tid (firstRequest pattern)) (some (.first r))) := by
        rw [list, fut_bind, hr]
        dsimp only
        rw [hfin, if_neg Bool.false_ne_true]
      obtain ⟨es, hlog, hcont, hlisted⟩ := listLoop_listed server share.tid r.sid rounds r.info []
        (.first r) (s.logged c (.first share.tid (firstRequest pattern)) (some (.first r))) hres
        hfin rfl
      refine ⟨⟨_, some (.first r)⟩ :: es, ?_, ⟨rfl, hcont⟩, ?_⟩
      · rw [heq, hlog, Search.logged, List.append_assoc]
        rfl
      · rw [heq]
        exact hlisted.cons hfin
  · have heq : list server rounds share pattern s =
        .error e (s.logged c (.first share.tid (firstRequest pattern)) none) := by
      rw [list, fut_bind, hr]
    rw [heq]
    exact ⟨_, rfl, ⟨rfl, rfl⟩, Listed.failed _ _ _ e _⟩

/-- The batches in which a directory came. -/
theorem list_batches {server : SearchServer} {rounds : ℕ} {share : Share} {pattern : String}
    {s t : Search} {all : List DirInfo} (h : list server rounds share pattern s = .ok all t) :
    ∃ r c es, findFirst server share pattern s =
        .ok r (s.logged c (.first share.tid (firstRequest pattern)) (some (.first r))) ∧
      t.log = s.log ++ ⟨.first share.tid (firstRequest pattern), some (.first r)⟩ :: es ∧
      all = r.info ++ (batches (replies es)).flatten := by
  rcases findFirst_cases server share pattern s with ⟨r, c, hres, hr⟩ | ⟨e, c, hr⟩
  · by_cases hfin : r.finished = true
    · rw [list, fut_bind, hr] at h
      dsimp only at h
      rw [if_pos hfin] at h
      cases h
      exact ⟨r, c, [], hr, rfl, (List.append_nil _).symm⟩
    · rw [Bool.not_eq_true] at hfin
      obtain ⟨es, hlog, _, hlisted⟩ := listLoop_listed server share.tid r.sid rounds r.info []
        (.first r) (s.logged c (.first share.tid (firstRequest pattern)) (some (.first r))) hres
        hfin rfl
      rw [list, fut_bind, hr] at h
      dsimp only at h
      rw [hfin, if_neg Bool.false_ne_true] at h
      rw [h] at hlog hlisted
      refine ⟨r, c, es, hr, ?_, ?_⟩
      · change t.log = _ at hlog
        rw [hlog, Search.logged, List.append_assoc]
        rfl
      · rcases hlisted with ⟨_, t', ht⟩ | ⟨_, e, t', ht, _⟩
        · cases ht
          rfl
        · cases ht
  · rw [list, fut_bind, hr] at h
    cases h

/-! ### The reader -/

/-- A reader whose last reply was `last`. -/
structure Reading (tid sid : UInt16) (last : SearchReply) (r : DirectoryReader) : Prop where
  tid : r.tid = tid
  sid : r.sid = sid
  lastFile : r.lastFile = lastFilename last.info
  finished : r.finished = last.finished
  resumable : last.Resumable

/-- What a call of `next` can do. -/
theorem next_cases (server : SearchServer) {tid sid : UInt16} {last : SearchReply} {b : Browsing}
    (h : Reading tid sid last b.reader) :
    (∃ info, b.reader.pending = some info ∧
      next server b = .ok (some info) { b with reader := { b.reader with pending := none } }) ∨
    (b.reader.pending = none ∧ last.finished = true ∧ next server b = .ok none b) ∨
    (b.reader.pending = none ∧ last.finished = false ∧
      ∃ request, some request = resumeAfter tid sid last.info ∧
        ((∃ r c, (SearchReply.next r).Resumable ∧ next server b = .ok (some r.info)
            ⟨{ b.reader with finished := r.finished, lastFile := lastFilename r.info },
              b.search.logged c request (some (.next r))⟩) ∨
          ∃ e c, next server b = .error e ⟨b.reader, b.search.logged c request none⟩)) := by
  obtain ⟨⟨tid', sid', pending, lastFile, finished⟩, search⟩ := b
  obtain ⟨rfl, rfl, hname, hfin, hres⟩ := h
  dsimp only at hname hfin
  cases pending with
  | some info => exact Or.inl ⟨info, rfl, rfl⟩
  | none =>
    right
    cases finished with
    | true => exact Or.inl ⟨rfl, hfin.symm, rfl⟩
    | false =>
      obtain ⟨_, entry, _, hlast⟩ := hres.resume hfin.symm
      rw [hlast] at hname
      subst hname
      have hresume : some (.next tid' (.new sid' entry.filename)) =
          resumeAfter tid' sid' last.info := by
        rw [resumeAfter, hlast]
        rfl
      have hnext : next server ⟨⟨tid', sid', none, some entry.filename, false⟩, search⟩ =
          (onSearch (findNext server tid' sid' entry.filename) >>= fun reply => do
            modify fun b => { b with reader := { b.reader with finished := reply.finished } }
            modify fun b =>
              { b with reader := { b.reader with lastFile := lastFilename reply.info } }
            pure (some reply.info)) ⟨⟨tid', sid', none, some entry.filename, false⟩, search⟩ := by
        unfold next
        rw [fut_bind]
        rfl
      refine Or.inr ⟨rfl, hfin.symm, _, hresume, ?_⟩
      rw [hnext, fut_bind]
      rcases findNext_cases server tid' sid' entry.filename search with
        ⟨r, c, hr, hfind⟩ | ⟨e, c, hfind⟩
      · refine Or.inl ⟨r, c, hr, ?_⟩
        rw [onSearch, hfind]
        rfl
      · refine Or.inr ⟨e, c, ?_⟩
        rw [onSearch, hfind]

theorem isDone_iff {r : DirectoryReader} :
    r.isDone = true ↔ r.finished = true ∧ r.pending = none := by
  rw [DirectoryReader.isDone, Bool.and_eq_true, Option.isNone_iff_eq_none]

theorem Reading.next_done (server : SearchServer) {tid sid : UInt16} {last : SearchReply}
    {b : Browsing} (h : Reading tid sid last b.reader) (hdone : b.reader.isDone = true) :
    next server b = .ok none b := by
  rw [isDone_iff, h.finished] at hdone
  rcases next_cases server h with ⟨info, hp, _⟩ | ⟨_, _, hn⟩ | ⟨_, hmore, _⟩
  · rw [hdone.2] at hp
    cases hp
  · exact hn
  · rw [hdone.1] at hmore
    cases hmore

theorem Reading.resume {tid sid : UInt16} {last : SearchReply} {r : DirectoryReader}
    (h : Reading tid sid last r) (hmore : r.finished = false) : r.lastFile ≠ none := by
  rw [h.finished] at hmore
  obtain ⟨_, entry, _, hlast⟩ := h.resumable.resume hmore
  rw [h.lastFile, hlast]
  exact Option.some_ne_none _

/-- A call that fails leaves the reader as it is. -/
theorem Reading.next_failed (server : SearchServer) {tid sid : UInt16} {last : SearchReply}
    {b b' : Browsing} {e : Stop Error} (h : Reading tid sid last b.reader)
    (hfail : next server b = .error e b') :
    b'.reader = b.reader ∧ ∃ request, b'.search.log = b.search.log ++ [⟨request, none⟩] := by
  rcases next_cases server h with ⟨info, _, hn⟩ | ⟨_, _, hn⟩ |
    ⟨_, _, request, _, ⟨r', c', _, hn⟩ | ⟨e', c', hn⟩⟩
  · rw [hn] at hfail
    cases hfail
  · rw [hn] at hfail
    cases hfail
  · rw [hn] at hfail
    cases hfail
  · rw [hn] at hfail
    cases hfail
    exact ⟨rfl, request, rfl⟩

def delivered (events : List Browsed) : List (List DirInfo) :=
  events.filterMap fun
    | .batch info => info
    | _ => none

theorem delivered_append (events events' : List Browsed) :
    delivered (events ++ events') = delivered events ++ delivered events' :=
  List.filterMap_append

/-- Where a run leaves a reader. -/
structure Browses (tid sid : UInt16) (last : SearchReply) (b : Browsing)
    (r : List Browsed × Browsing) (es : List Exchange) : Prop where
  log : r.2.search.log = b.search.log ++ es
  continues : Continues tid sid last es
  reading : Reading tid sid ((replies es).getLastD last) r.2.reader
  delivered : delivered r.1 ++ r.2.reader.pending.toList =
    b.reader.pending.toList ++ batches (replies es)
  done : .batch none ∈ r.1 → r.2.reader.isDone = true

theorem Continues.ended {tid sid : UInt16} {last : SearchReply} {es : List Exchange}
    (h : Continues tid sid last es) (hend : last.finished = true) : es = [] := by
  cases es with
  | nil => rfl
  | cons e es =>
    have hmore := h.1
    rw [hend] at hmore
    cases hmore

theorem Continues.append {tid sid : UInt16} {last : SearchReply} {es es' : List Exchange}
    (h : Continues tid sid last es)
    (h' : Continues tid sid ((replies es).getLastD last) es') : Continues tid sid last (es ++ es') := by
  induction es generalizing last with
  | nil => exact h'
  | cons e es ih =>
    obtain ⟨hmore, hrequest, hrest⟩ := h
    refine ⟨hmore, hrequest, ih hrest ?_⟩
    obtain ⟨request, reply⟩ := e
    cases reply with
    | none => exact h'
    | some reply =>
      rw [replies_cons, List.getLastD_cons] at h'
      exact h'

/-- A reader that is done has nothing more to give, and asks for nothing. -/
theorem Browses.of_done {tid sid : UInt16} {last : SearchReply} {b : Browsing}
    {r : List Browsed × Browsing} {es : List Exchange} (h : Browses tid sid last b r es)
    (hpending : b.reader.pending = none) (hend : last.finished = true) :
    es = [] ∧ r.2.reader.isDone = true := by
  have hnil := h.continues.ended hend
  subst hnil
  have hdelivered := h.delivered
  rw [hpending] at hdelivered
  have hlast := (List.append_eq_nil_iff.mp hdelivered).2
  exact ⟨rfl, isDone_iff.mpr ⟨h.reading.finished.trans hend, Option.toList_eq_nil_iff.mp hlast⟩⟩

/-- Runs of a reader can be put together. -/
theorem Browses.trans {tid sid : UInt16} {last : SearchReply} {b b1 b2 : Browsing}
    {events events' : List Browsed} {es es' : List Exchange}
    (h : Browses tid sid last b (events, b1) es)
    (h' : Browses tid sid ((replies es).getLastD last) b1 (events', b2) es') :
    Browses tid sid last b (events ++ events', b2) (es ++ es') := by
  have hreplies : replies (es ++ es') = replies es ++ replies es' := List.filterMap_append
  constructor
  · rw [h'.log, h.log, List.append_assoc]
  · exact h.continues.append h'.continues
  · rw [hreplies, List.getLastD_eq_getLast?, List.getLast?_append, Option.getD_or,
      ← List.getLastD_eq_getLast?, ← List.getLastD_eq_getLast?]
    exact h'.reading
  · have h1 := h.delivered
    have h2 := h'.delivered
    have hbatches : batches (replies es ++ replies es') = batches (replies es) ++ batches (replies es') :=
      List.map_append
    rw [delivered_append, List.append_assoc, h2, ← List.append_assoc, h1, hreplies, hbatches,
      List.append_assoc]
  · intro hm
    rcases List.mem_append.mp hm with hfirst | hsecond
    · -- nothing comes behind the end
      have hdone := isDone_iff.mp (h.done hfirst)
      exact (h'.of_done hdone.2 (h.reading.finished ▸ hdone.1)).2
    · exact h'.done hsecond

/-- One call. -/
theorem browse_step (server : SearchServer) (tid sid : UInt16) (call : BrowseCall)
    (last : SearchReply) (b : Browsing) (h : Reading tid sid last b.reader) :
    ∃ es, Browses tid sid last b ([(browse server b call).1], (browse server b call).2) es := by
  cases call with
  | elsewhere cifs =>
    exact ⟨[], (List.append_nil _).symm, trivial, h, (List.append_nil _).symm, by simp [browse]⟩
  | next =>
    rcases next_cases server h with ⟨info, hp, hn⟩ | ⟨hp, hend, hn⟩ |
      ⟨hp, hmore, request, hrequest, ⟨r, c, hres, hn⟩ | ⟨e, c, hn⟩⟩
    · have hstep : browse server b .next =
          (.batch (some info), { b with reader := { b.reader with pending := none } }) := by
        rw [browse, hn]
      rw [hstep]
      refine ⟨[], (List.append_nil _).symm, trivial, ?_, ?_, by simp⟩
      · exact ⟨h.tid, h.sid, h.lastFile, h.finished, h.resumable⟩
      · rw [hp]
        rfl
    · have hstep : browse server b .next = (.batch none, b) := by rw [browse, hn]
      rw [hstep]
      refine ⟨[], (List.append_nil _).symm, trivial, h, (List.append_nil _).symm, fun _ => ?_⟩
      exact isDone_iff.mpr ⟨h.finished.trans hend, hp⟩
    · have hstep : browse server b .next = (.batch (some r.info),
          ⟨{ b.reader with finished := r.finished, lastFile := lastFilename r.info },
            b.search.logged c request (some (.next r))⟩) := by
        rw [browse, hn]
      rw [hstep]
      refine ⟨[⟨request, some (.next r)⟩], rfl, ⟨hmore, hrequest, trivial⟩, ?_, ?_, by simp⟩
      · exact ⟨h.tid, h.sid, rfl, rfl, hres⟩
      · rw [hp]
        rfl
    · have hstep : browse server b .next =
          (.stopped e, ⟨b.reader, b.search.logged c request none⟩) := by
        rw [browse, hn]
      rw [hstep]
      exact ⟨[⟨request, none⟩], rfl, ⟨hmore, hrequest, trivial⟩, h, (List.append_nil _).symm,
        by simp⟩

theorem browse_run (server : SearchServer) (tid sid : UInt16) (calls : List BrowseCall)
    (last : SearchReply) (b : Browsing) (h : Reading tid sid last b.reader) :
    ∃ es, Browses tid sid last b (Runs.run (browse server) b calls) es := by
  induction calls generalizing b last with
  | nil =>
    refine ⟨[], (List.append_nil _).symm, trivial, h, ?_, fun hm => absurd hm List.not_mem_nil⟩
    exact (List.append_nil _).symm
  | cons call calls ih =>
    rw [Runs.run_cons]
    obtain ⟨es, hes⟩ := browse_step server tid sid call last b h
    obtain ⟨es', hes'⟩ := ih _ _ hes.reading
    exact ⟨es ++ es', hes.trans hes'⟩

/-! ### The requests -/

theorem Continues.asked_eq {tid sid : UInt16} {last : SearchReply} {es : List Exchange}
    (h : Continues tid sid last es) : asked es = resumes tid sid last (replies es) := by
  induction es generalizing last with
  | nil => rfl
  | cons e es ih =>
    obtain ⟨_, hrequest, hrest⟩ := h
    obtain ⟨request, reply⟩ := e
    cases reply with
    | none => exact ih hrest
    | some reply =>
      have htail := ih hrest
      have hasked : asked (⟨request, some reply⟩ :: es) = request :: asked es := rfl
      rw [hasked, htail, replies_cons, resumes, ← hrequest]
      rfl

theorem Searches.asked_eq {share : Share} {pattern : String} {es : List Exchange}
    (h : Searches share pattern es) : asked es = requestsOf share pattern (replies es) := by
  cases es with
  | nil => rfl
  | cons e es =>
    obtain ⟨request, reply⟩ := e
    obtain ⟨hrequest, hrest⟩ := h
    dsimp only at hrequest hrest
    subst hrequest
    cases reply with
    | none =>
      dsimp only at hrest
      subst hrest
      rfl
    | some reply =>
      cases reply with
      | first reply => exact congrArg (_ :: ·) hrest.asked_eq
      | next reply => exact hrest.elim

/-! ### Both ways -/

theorem openDirReader_cases (server : SearchServer) (share : Share) (pattern : String) (s : Search) :
    (∃ r c, (SearchReply.first r).Resumable ∧ openDirReader server share pattern s =
      .ok (DirectoryReader.new share.tid r)
        (s.logged c (.first share.tid (firstRequest pattern)) (some (.first r)))) ∨
    ∃ e c, openDirReader server share pattern s =
      .error e (s.logged c (.first share.tid (firstRequest pattern)) none) := by
  unfold openDirReader
  rw [fut_bind]
  rcases findFirst_cases server share pattern s with ⟨r, c, hres, hr⟩ | ⟨e, c, hr⟩
  · rw [hr]
    exact Or.inl ⟨r, c, hres, rfl⟩
  · rw [hr]
    exact Or.inr ⟨e, c, rfl⟩

/-- What a reader has done to get from `s` to `b`, and what another call of `next` does. -/
structure ReaderRun (server : SearchServer) (share : Share) (pattern : String) (s : Search)
    (events : List Browsed) (b : Browsing) (es : List Exchange) : Prop where
  log : b.search.log = s.log ++ es
  searches : Searches share pattern es
  delivered : delivered events ++ b.reader.pending.toList = batches (replies es)
  done : b.reader.isDone = true ↔ Ended (replies es) ∧ b.reader.pending = none
  last : .batch none ∈ events → b.reader.isDone = true
  next_done : b.reader.isDone = true → next server b = .ok none b
  resume : b.reader.pending = none → b.reader.finished = false → b.reader.lastFile ≠ none
  next_failed : ∀ e b', next server b = .error e b' → b'.reader = b.reader ∧
    ∃ request, b'.search.log = b.search.log ++ [⟨request, none⟩]

theorem reader_run (server : SearchServer) (share : Share) (pattern : String) (s s1 : Search)
    (reader : DirectoryReader) (hopen : openDirReader server share pattern s = .ok reader s1)
    (calls : List BrowseCall) :
    ∃ es, ReaderRun server share pattern s (Runs.run (browse server) ⟨reader, s1⟩ calls).1
      (Runs.run (browse server) ⟨reader, s1⟩ calls).2 es := by
  rcases openDirReader_cases server share pattern s with ⟨r, c, hres, hr⟩ | ⟨e, c, hr⟩
  · rw [hr] at hopen
    cases hopen
    obtain ⟨es, hes⟩ := browse_run server share.tid r.sid calls (.first r)
      ⟨DirectoryReader.new share.tid r, _⟩ ⟨rfl, rfl, rfl, rfl, hres⟩
    have hreading := hes.reading
    have hended : Ended (.first r :: replies es) ↔
        ((replies es).getLastD (.first r)).finished = true := by
      rw [Ended, List.getLast?_cons, Option.map_some, Option.some_inj, List.getLastD_eq_getLast?]
    refine ⟨⟨.first share.tid (firstRequest pattern), some (.first r)⟩ :: es, ?_,
      ⟨rfl, hes.continues⟩, hes.delivered, ?_, hes.done, hreading.next_done server,
      fun _ => hreading.resume, fun e b' => hreading.next_failed server⟩
    · rw [hes.log, Search.logged, List.append_assoc]
      rfl
    · rw [replies_cons, hended, ← hreading.finished, isDone_iff]
  · rw [hr] at hopen
    cases hopen

/-- Whatever the servers send, and whatever fails: `list` returns the concatenation of all
batches as soon as a reply ends the search, and stops otherwise only where a transaction failed
or no more are allowed; a reader returns the batches one by one, a failed call leaves it as it
is, and it never loses its resume point; and the requests that are answered depend on the
replies alone. So with the same replies both give the same entries for the same requests. -/
theorem list_reader_agree (share : Share) (pattern : String) (server server' : SearchServer)
    (rounds : ℕ) (s s' s1 : Search) (reader : DirectoryReader)
    (hopen : openDirReader server' share pattern s' = .ok reader s1) (calls : List BrowseCall) :
    ∃ es es', (endState (list server rounds share pattern s)).log = s.log ++ es ∧
      Searches share pattern es ∧
      (Ended (replies es) → ∃ t, list server rounds share pattern s =
        .ok (batches (replies es)).flatten t) ∧
      (¬Ended (replies es) → ∃ e t, list server rounds share pattern s = .error e t ∧
        ((∃ failed, es.getLast? = some failed ∧ failed.reply = none) ∨
          (e = .dropped ∧ (replies es).length = rounds + 1))) ∧
      ReaderRun server' share pattern s' (Runs.run (browse server') ⟨reader, s1⟩ calls).1
        (Runs.run (browse server') ⟨reader, s1⟩ calls).2 es' ∧
      asked es = requestsOf share pattern (replies es) ∧
      asked es' = requestsOf share pattern (replies es') ∧
      (replies es = replies es' → Ended (replies es) →
        .batch none ∈ (Runs.run (browse server') ⟨reader, s1⟩ calls).1 →
        ∃ t, list server rounds share pattern s =
          .ok (delivered (Runs.run (browse server') ⟨reader, s1⟩ calls).1).flatten t) := by
  obtain ⟨es, hlog, hsearches, hlisted⟩ := list_listed server rounds share pattern s
  obtain ⟨es', hrun⟩ := reader_run server' share pattern s' s1 reader hopen calls
  have hnever : (∀ reply ∈ replies es, reply.finished = false) → ¬Ended (replies es) := by
    intro hmore hend
    obtain ⟨last, hlast, hfin⟩ := Option.map_eq_some_iff.mp hend
    have hno := hmore last (List.mem_of_getLast? hlast)
    rw [hfin] at hno
    cases hno
  have hok : Ended (replies es) → ∃ t, list server rounds share pattern s =
      .ok (batches (replies es)).flatten t := by
    intro hend
    rcases hlisted with ⟨_, t, ht⟩ | ⟨hmore, _⟩
    · exact ⟨t, ht⟩
    · exact absurd hend (hnever hmore)
  refine ⟨es, es', hlog, hsearches, hok, ?_, hrun, hsearches.asked_eq, hrun.searches.asked_eq, ?_⟩
  · intro hopen
    rcases hlisted with ⟨hend, _⟩ | ⟨_, e, t, ht, hwhy⟩
    · exact absurd hend hopen
    · exact ⟨e, t, ht, hwhy⟩
  · intro hsame hend hlast
    have hpending := (hrun.done.mp (hrun.last hlast)).2
    have hdelivered := hrun.delivered
    rw [hpending, ← hsame, Option.toList_none, List.append_nil] at hdelivered
    rw [hdelivered]
    exact hok hend

/-- The reply to a transaction in one message, with one byte of padding. -/
def transactReply (mid : UInt16) (parameter data : Bytes) : Bytes :=
  Info.write { Info.default .Transact2 with flags1 := Flags1.REPLY, mid } ++
    (putU8 10 ++ putU16Le (UInt16.ofNat parameter.length) ++
      putU16Le (UInt16.ofNat data.length) ++ putBytes 0 2 ++
      putU16Le (UInt16.ofNat parameter.length) ++ putU16Le 56 ++ putU16Le 0 ++
      putU16Le (UInt16.ofNat data.length) ++ putU16Le (UInt16.ofNat (56 + parameter.length)) ++
      putU16Le 0 ++ putBytes 0 2 ++
      putU16Le (UInt16.ofNat (1 + parameter.length + data.length)) ++
      ([0] ++ parameter ++ data))

/-- A server with a directory of two entries, which it sends one at a time. -/
def twoBatches : SearchServer := fun _ cifs request =>
  match request with
  | .first _ _ => ([.frame 0 (.Message (transactReply cifs.mid
      (firstParameter 5 1 0 (putBytes 0 4)) (chain [entryA] [])))], [])
  | .next _ _ => ([.frame 0 (.Message (transactReply cifs.mid
      (nextParameter 1 1 (putBytes 0 4)) (chain [entryA] [])))], [])

def mediaShare : Share where
  accessRights := none
  guestRights := none
  service := "A:"
  filesystem := "NTFS"
  tid := 3

theorem list_reader_agree_two :
    ∃ reader s1, openDirReader twoBatches mediaShare "*" ⟨fresh noAuth, []⟩ = .ok reader s1 ∧
      ∃ es', ReaderRun twoBatches mediaShare "*" ⟨fresh noAuth, []⟩
        (Runs.run (browse twoBatches) ⟨reader, s1⟩ [.next, .next, .next]).1
        (Runs.run (browse twoBatches) ⟨reader, s1⟩ [.next, .next, .next]).2 es' := by
  obtain ⟨s1, hopen⟩ := returned_some (r := openDirReader twoBatches mediaShare "*"
    ⟨fresh noAuth, []⟩) (a := ⟨3, 5, some [infoA], some "a", false⟩) (by decide +kernel)
  obtain ⟨_, es', _, _, _, _, hrun, _⟩ := list_reader_agree mediaShare "*" twoBatches twoBatches 9
    ⟨fresh noAuth, []⟩ ⟨fresh noAuth, []⟩ s1 _ hopen [.next, .next, .next]
  exact ⟨_, s1, hopen, es', hrun⟩

end CifsClientStream.Cifs
