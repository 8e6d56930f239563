import CifsClientStream.Stream.Source

/-!
# The bytes that are played are the bytes of the file

The reads of a batch are planned one behind the other, for replies of full
length, and the chunks are pushed one behind the other, whatever their length.
The two agree as long as only the last reply of a batch is short
(`blocks_faithful`); a short reply before it shifts what comes after
(`shortFirst_shifts`).
-/

namespace CifsClientStream.Stream
open Cursor hiding slice
open Async Smb Slice
open Cifs (Arrival WriteStep StreamingWorkerReadRequest)

/-- Every payload is some of the bytes that were asked for, from the first one on. -/
def Prefixes (F : Bytes) (requests : List StreamingWorkerReadRequest) (chunks : List Bytes) :
    Prop :=
  List.Forall₂ (fun r chunk => chunk ≠ [] ∧ chunk <+: slice F r.offset r.len) requests chunks

/-- Only the last reply is shorter than what was asked for. -/
def FullButLast (requests : List StreamingWorkerReadRequest) (chunks : List Bytes) : Prop :=
  ∀ a ∈ (requests.zip chunks).dropLast, a.2.length = a.1.len

instance (requests : List StreamingWorkerReadRequest) (chunks : List Bytes) :
    Decidable (FullButLast requests chunks) :=
  inferInstanceAs (Decidable (∀ a ∈ (requests.zip chunks).dropLast, a.2.length = a.1.len))

def ReadBatch.ShortAtEnd (b : ReadBatch) : Prop :=
  ∀ chunks ∈ b.chunks, FullButLast b.requests chunks

instance (b : ReadBatch) : Decidable b.ShortAtEnd :=
  inferInstanceAs (Decidable (∀ chunks ∈ b.chunks, FullButLast b.requests chunks))

variable {F : Bytes} {server : Server}

theorem served_prefixes {requests : List StreamingWorkerReadRequest} (hsound : Sound F requests) :
    Prefixes F requests (served F requests) := by
  refine List.forall₂_map_right_iff.mpr (List.forall₂_same.mpr fun r hr => ⟨?_, List.prefix_rfl⟩)
  obtain ⟨hpos, _, hin⟩ := hsound.each r hr
  intro hnil
  have hlen := congrArg List.length hnil
  rw [slice_length, List.length_nil] at hlen
  omega

theorem prefixes_follow {chunkSize room source : ℕ}
    {requests : List StreamingWorkerReadRequest} {chunks : List Bytes}
    (hp : Planned chunkSize F.length room source requests) (hc : Prefixes F requests chunks)
    (hs : FullButLast requests chunks) : Follows F source chunks := by
  induction hp generalizing chunks with
  | nil =>
    cases hc
    exact .nil
  | @cons room source len rest pos le_chunk le_room le_file hrest ih =>
    cases hc with
    | @cons _ chunk _ others hchunk hothers =>
      obtain ⟨hne, hprefix⟩ := hchunk
      have hle : chunk.length ≤ len := by
        have hlen := hprefix.length_le
        rw [slice_length] at hlen
        exact hlen.trans (Nat.min_le_left _ _)
      refine .cons hne (by omega) (eq_slice F source len chunk hprefix) ?_
      cases rest with
      | nil =>
        cases hothers
        exact .nil
      | cons next rest =>
        cases hothers with
        | @cons _ second _ others hsecond hothers =>
          have hfull : chunk.length = len := hs _ List.mem_cons_self
          rw [hfull]
          exact ih (.cons hsecond hothers) fun a ha => hs a (List.mem_cons_of_mem _ ha)

/-! ### Filling -/

/-- From `p` to `p'` batches were read; if they are short only at the end, the buffer still
mirrors the file, from the same playback position on. -/
def Fills (F : Bytes) (p p' : Playing) : Prop :=
  p.reads <+: p'.reads ∧ ((∀ b ∈ p'.reads, b.ShortAtEnd) → Mirrors F p →
    Mirrors F p' ∧ p'.state.playbackPosition = p.state.playbackPosition)

theorem fills_chain : Chain (Fills F) where
  refl p := ⟨List.prefix_rfl, fun _ h => ⟨h, rfl⟩⟩
  trans a b c hab hbc := by
    refine ⟨hab.1.trans hbc.1, fun hall ha => ?_⟩
    obtain ⟨hb, h1⟩ := hab.2 (fun x hx => hall x (hbc.1.subset hx)) ha
    obtain ⟨hc, h2⟩ := hbc.2 hall hb
    exact ⟨hc, h2.trans h1⟩

theorem step_reads (server : Server) (p : Playing) (call : StreamCall) :
    p.reads <+: (step server p call).2.reads := by
  have hchain : Chain fun p p' : Playing => p.reads <+: p'.reads :=
    ⟨fun _ => List.prefix_rfl, fun _ _ _ h h' => h.trans h'⟩
  refine step_moves hchain (fun goal => ?_) (fun p maxLen => List.prefix_rfl) (fun pos p => ?_) p call
  · refine (Moves.get hchain).bind hchain fun _ => fillLoop_moves hchain goal
      (fun p c e _ _ => List.prefix_append _ _) (fun p c chunks _ _ => ?_) _ _
    rw [takeChunks_reads chunks (p.logRead c (p.planned goal) (some chunks))]
    exact List.prefix_append _ _
  · rcases seek_cases pos p with ⟨next, s, _, hr⟩ | ⟨e, _, hr⟩
    · rw [hr]
      exact List.prefix_rfl
    · rw [hr]
      exact List.prefix_rfl

theorem fillUntilBuffered_fills (hs : Serves F (Prefixes F) server) (goal : ℕ) :
    Moves (Fills F) (fillUntilBuffered server goal) := by
  refine (Moves.get fills_chain).bind fills_chain fun _ => ?_
  refine fillLoop_moves fills_chain goal (fun p c e hne hr => ?_) (fun p c chunks hne hr => ?_) _ _
  · refine ⟨List.prefix_append _ _, fun _ h => ?_⟩
    obtain ⟨chunks, c', hok, _⟩ := readBatch_answered hs p h.idle _ hne (h.sound goal hne).1
    rw [hok] at hr
    cases hr
  · have hreads := takeChunks_reads chunks (p.logRead c (p.planned goal) (some chunks))
    refine ⟨?_, fun hall h => ?_⟩
    · rw [hreads]
      exact List.prefix_append _ _
    · obtain ⟨chunks', c', hok, hidle, _, hprefix⟩ := readBatch_answered hs p h.idle _ hne
        (h.sound goal hne).1
      rw [hok] at hr
      cases hr
      have hshort : FullButLast (p.planned goal) chunks := by
        refine hall ⟨p.planned goal, p.state.bufferedLen,
          p.state.fileSize - p.state.sourcePosition, some chunks⟩ ?_ chunks rfl
        rw [hreads]
        exact List.mem_append_right _ (List.mem_singleton_self _)
      have hm : Mirrors F (p.logRead c (p.planned goal) (some chunks)) :=
        ⟨⟨h.inv.state, h.inv.size, h.inv.position⟩, hidle, h.valid, h.size, h.content⟩
      obtain ⟨p', hok', hm', hplay, _⟩ := takeChunks_follows chunks _ hm
        (prefixes_follow (h.sound goal hne).2 hprefix hshort)
      rw [hok']
      exact ⟨hm', hplay⟩

/-! ### Every call -/

theorem pop_mirrors (p : Playing) (maxLen : ℕ) (h : Mirrors F p) :
    Mirrors F (p.withState (p.state.popRead maxLen).2) := by
  have hinv := pop_keeps p maxLen h.inv
  obtain ⟨_, _, hcontent, hplay, _, hsize, hoptions⟩ := pop_inv h.inv.state maxLen
  refine ⟨hinv, h.idle, ?_, hsize.trans h.size, ?_⟩
  · rw [Playing.withState_state, hoptions]
    exact h.valid
  · rw [Playing.withState_state, hcontent, hplay, List.length_take, List.length_drop]
    by_cases hle : maxLen ≤ p.state.content.length
    · rw [Nat.min_eq_left hle, ← drop_slice, ← h.content]
    · rw [Nat.min_eq_right (by omega), List.drop_eq_nil_of_le (by omega),
        Nat.sub_eq_zero_of_le (by omega), slice_zero]

theorem seek_mirrors (pos : SeekFrom) (p : Playing) (h : Mirrors F p) :
    Mirrors F (endState (Stream.seek pos p)) := by
  have hk := seek_keeps pos p h.inv
  rcases seek_cases pos p with ⟨next, s, hseek, hr⟩ | ⟨e, _, hr⟩
  · obtain ⟨_, hcontent, _, _, hsize, hoptions, _⟩ := seek_inv h.inv.state hseek
    rw [hr] at hk ⊢
    refine ⟨hk, h.idle, ?_, hsize.trans h.size, ?_⟩
    · change s.options.Valid
      rw [hoptions]
      exact h.valid
    · change s.content = slice F s.playbackPosition s.content.length
      rw [hcontent, List.length_nil, slice_zero]
  · rw [hr]
    exact h

/-- A returned block is what the file has at the position of the call. -/
def Event.Faithful (F : Bytes) (e : Event) : Prop :=
  ∀ b, e.answer = .block (some b) → b = slice F e.position b.length

theorem pop_faithful (p : Playing) (maxLen : ℕ) (h : Mirrors F p) (b : Bytes)
    (hb : (p.state.popRead maxLen).1 = some b) : b = slice F p.state.playbackPosition b.length := by
  obtain ⟨_, hblock, _⟩ := pop_inv h.inv.state maxLen
  rw [hblock] at hb
  split at hb
  · cases hb
  · cases hb
    refine eq_slice F _ p.state.content.length _ ?_
    rw [← h.content]
    exact List.take_prefix _ _

theorem readBlock_mirrors (hs : Serves F (Prefixes F) server) (p : Playing) (maxLen : ℕ)
    (hall : ∀ b ∈ (step server p (.readBlock maxLen)).2.reads, b.ShortAtEnd) (h : Mirrors F p) :
    (step server p (.readBlock maxLen)).1.Faithful F ∧
      Mirrors F (step server p (.readBlock maxLen)).2 := by
  change (∀ b, (answered Answer.block (readBlock server maxLen p)).1 = .block (some b) → _) ∧
    Mirrors F (answered Answer.block (readBlock server maxLen p)).2
  change ∀ b ∈ (answered Answer.block (readBlock server maxLen p)).2.reads, b.ShortAtEnd at hall
  by_cases h0 : maxLen = 0
  · subst h0
    refine ⟨fun b hb => ?_, h⟩
    cases hb
  · have hf := fillUntilBuffered_fills hs (max maxLen p.state.options.lowWatermark) p
    rcases readBlock_cases server maxLen p h0 with ⟨e, p1, hr, hx⟩ | ⟨p1, hp1, hx⟩
    · rw [hx] at hall ⊢
      rw [hr] at hf
      refine ⟨fun b hb => ?_, (hf.2 hall h).1⟩
      cases hb
    · rw [hx] at hall ⊢
      have hm : Mirrors F p1 ∧ p1.state.playbackPosition = p.state.playbackPosition := by
        rcases hp1 with ⟨_, rfl⟩ | ⟨filled, hr⟩
        · exact ⟨h, rfl⟩
        · rw [hr] at hf
          exact hf.2 hall h
      obtain ⟨hm, hplay⟩ := hm
      refine ⟨fun b hb => ?_, pop_mirrors p1 maxLen hm⟩
      have hpop := pop_faithful p1 maxLen hm b (Answer.block.inj hb)
      rw [hplay] at hpop
      exact hpop

theorem step_mirrors (hs : Serves F (Prefixes F) server) (p : Playing) (call : StreamCall)
    (hall : ∀ b ∈ (step server p call).2.reads, b.ShortAtEnd) (h : Mirrors F p) :
    (step server p call).1.Faithful F ∧ Mirrors F (step server p call).2 := by
  have hfill := fillUntilBuffered_fills hs
  have hfilled : ∀ (filled : Bool) (b : Bytes), Answer.filled filled ≠ .block (some b) :=
    fun _ _ hb => by cases hb
  have hposition : ∀ (next : ℕ) (b : Bytes), Answer.position next ≠ .block (some b) :=
    fun _ _ hb => by cases hb
  cases call with
  | fillInitialBuffer =>
    have hp := answered_moves Answer.filled (fillInitialBuffer_moves fills_chain hfill) p
    exact ⟨fun b hb => absurd hb (answered_noBlock _ hfilled _ b), (hp.2 hall h).1⟩
  | maybePrefill =>
    have hp := answered_moves Answer.filled (maybePrefill_moves fills_chain hfill) p
    exact ⟨fun b hb => absurd hb (answered_noBlock _ hfilled _ b), (hp.2 hall h).1⟩
  | readBlock maxLen => exact readBlock_mirrors hs p maxLen hall h
  | seek pos =>
    refine ⟨fun b hb => absurd hb (answered_noBlock _ hposition _ b), ?_⟩
    exact answered_moves (R := fun p p' => Mirrors F p → Mirrors F p') Answer.position
      (fun p => seek_mirrors pos p) p h

/-- In every run on a connection whose server answers every read with some of the bytes asked
for, from the first one on: if in every batch only the last reply is short, every block is what
the file has at the playback position. -/
theorem blocks_faithful (F : Bytes) (server : Server) (hserver : Serves F (Prefixes F) server)
    (stream : FileStream) (options : SmbMediaStreamOptions) (media : SmbMediaStream) (cifs : Cifs)
    (hpos : stream.position < 2 ^ 64) (hsize : stream.size = F.length)
    (hnew : SmbMediaStream.new stream options = .ok media) (hidle : Idle cifs)
    (calls : List StreamCall)
    (hshort : ∀ b ∈ (Runs.run (step server) (start media cifs) calls).2.reads, b.ShortAtEnd) :
    ∀ e ∈ (Runs.run (step server) (start media cifs) calls).1, e.Faithful F := by
  have hgrows : Runs.Grows (step server) (fun p p' => p.reads <+: p'.reads)
      fun p => ∀ b ∈ p.reads, b.ShortAtEnd :=
    ⟨fun p => List.prefix_rfl, fun a b c h h' => h.trans h', step_reads server,
      fun p p' h hall b hb => hall b (h.subset hb)⟩
  exact (Runs.run_under hgrows (fun p call hall h => step_mirrors hserver p call hall h) _ _ hshort
    (start_mirrors hpos hsize hnew hidle)).1

/-! ### A short reply in front -/

def cutFirst (count : ℕ) : List Bytes → List Bytes
  | [] => []
  | chunk :: rest => chunk.take count :: rest

/-- The bytes asked for, but only `count` of them in the first reply of the first batch. -/
def shortFirst (F : Bytes) (count : ℕ) (reads : List ReadBatch)
    (requests : List StreamingWorkerReadRequest) : List Bytes :=
  if reads = [] then cutFirst count (served F requests) else served F requests

theorem cutFirst_prefixes {count : ℕ} (hcount : 0 < count)
    {requests : List StreamingWorkerReadRequest} {chunks : List Bytes}
    (h : Prefixes F requests chunks) : Prefixes F requests (cutFirst count chunks) := by
  cases h with
  | nil => exact .nil
  | @cons r chunk _ _ hchunk hrest =>
    refine .cons ⟨fun hnil => ?_, (List.take_prefix _ _).trans hchunk.2⟩ hrest
    rcases List.take_eq_nil_iff.mp hnil with h0 | h0
    · omega
    · exact hchunk.1 h0

theorem Prefixes.bounds {requests : List StreamingWorkerReadRequest} {chunks : List Bytes}
    (h : Prefixes F requests chunks) (hsound : Sound F requests) :
    chunks.length = requests.length ∧ ∀ chunk ∈ chunks, chunk.length < 65536 := by
  refine ⟨h.length_eq.symm, fun chunk hc => ?_⟩
  obtain ⟨i, hi, rfl⟩ := List.getElem_of_mem hc
  have hi' : i < requests.length := by
    rw [h.length_eq]
    exact hi
  have hle := (h.get hi' hi).2.length_le
  obtain ⟨_, hlen, _⟩ := hsound.each requests[i] (List.getElem_mem hi')
  rw [slice_length] at hle
  have hmin : chunks[i].length ≤ requests[i].len := hle.trans (Nat.min_le_left _ _)
  omega

theorem shortFirst_serves (F : Bytes) (count : ℕ) (hcount : 0 < count) :
    Serves F (Prefixes F) (replyAll (shortFirst F count)) := by
  refine replyAll_serves _ fun reads requests hsound => ?_
  have hprefixes : Prefixes F requests (shortFirst F count reads requests) := by
    unfold shortFirst
    split
    · exact cutFirst_prefixes hcount (served_prefixes hsound)
    · exact served_prefixes hsound
  obtain ⟨hlen, hshort⟩ := hprefixes.bounds hsound
  exact ⟨hlen, hshort, hprefixes⟩

theorem fresh_idle (auth : Ntlm.Auth) : Idle (Cifs.fresh auth) :=
  ⟨fun _ => rfl, rfl, fun _ hw => absurd hw List.not_mem_nil⟩

def eightBytes : Bytes := [1, 2, 3, 4, 5, 6, 7, 8]

/-- A lone read may be answered short: the bytes that are missing are read next. -/
theorem blocks_faithful_last :
    ∃ media, SmbMediaStream.new (FileStream.new (Cifs.fileOfSize 8)) smallOptions = .ok media ∧
      ∀ e ∈ (Runs.run (step (replyAll (shortFirst eightBytes 2)))
        (start media (Cifs.fresh Cifs.noAuth)) [.fillInitialBuffer, .readBlock 8]).1,
        e.Faithful eightBytes := by
  refine ⟨_, rfl, blocks_faithful eightBytes _ (shortFirst_serves eightBytes 2 (by decide))
    (FileStream.new (Cifs.fileOfSize 8)) smallOptions _ (Cifs.fresh Cifs.noAuth) (by decide) rfl rfl
    (fresh_idle _) [.fillInitialBuffer, .readBlock 8] ?_⟩
  decide +kernel

/-- Two reads of four bytes are sent; the first brings two, and the second is taken for what
comes behind them. -/
theorem shortFirst_shifts :
    Serves eightBytes (Prefixes eightBytes) (replyAll (shortFirst eightBytes 2)) ∧
    Idle (Cifs.fresh Cifs.noAuth) ∧
    ∃ media, SmbMediaStream.new (FileStream.new (Cifs.fileOfSize 8)) smallOptions = .ok media ∧
      (Runs.run (step (replyAll (shortFirst eightBytes 2)))
        (start media (Cifs.fresh Cifs.noAuth)) [.readBlock 8]).1 =
          [⟨.readBlock 8, 0, .block (some [1, 2, 5, 6, 7, 8, 7, 8])⟩] :=
  ⟨shortFirst_serves eightBytes 2 (by decide), fresh_idle _, _, rfl, by decide +kernel⟩

end CifsClientStream.Stream
