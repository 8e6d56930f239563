import CifsClientStream.Stream.Invariant

/-!
# How much is buffered

Reads are planned so that what is asked for fits under the high watermark, but
a reply may carry more than was asked for, and the chunks are only checked
against the end of the file. The buffer stays under the watermark exactly as
long as no batch brings more than there is room for (`levels_iff`).
-/

namespace CifsClientStream.Stream
open Cursor Async Smb
open Cifs (Arrival WriteStep StreamingWorkerReadRequest)

/-- How many bytes of the chunks are taken when `remaining` bytes of the file remain: all up
to the first chunk that is empty or goes past the end. -/
def accepted : ℕ → List Bytes → ℕ
  | _, [] => 0
  | remaining, chunk :: rest =>
    if chunk = [] ∨ remaining < chunk.length then 0
    else chunk.length + accepted (remaining - chunk.length) rest

theorem accepted_zero (chunks : List Bytes) : accepted 0 chunks = 0 := by
  cases chunks with
  | nil => rfl
  | cons chunk rest =>
    rw [accepted, if_pos]
    by_cases hc : chunk = []
    · exact Or.inl hc
    · exact Or.inr (List.length_pos_of_ne_nil hc)

def ReadBatch.Fits (high : ℕ) (b : ReadBatch) : Prop :=
  ∀ chunks, b.chunks = some chunks → b.buffered + accepted b.remaining chunks ≤ high

/-! ### The chunks of a batch -/

theorem push_error_accepted {s : StreamingWorkerState} {chunk : Bytes} {e : Error}
    (hpush : s.pushSourceChunk chunk = .error e) (rest : List Bytes) :
    accepted (s.fileSize - s.sourcePosition) (chunk :: rest) = 0 := by
  rw [accepted, if_pos]
  by_contra hgood
  obtain ⟨hc, hroom⟩ := not_or.mp hgood
  have hpos := List.length_pos_of_ne_nil hc
  obtain ⟨s', hs⟩ := push_ok (s := s) hc (by omega)
  rw [hs] at hpush
  cases hpush

theorem push_buffered {s s' : StreamingWorkerState} {chunk : Bytes} (h : s.Inv)
    (hpush : s.pushSourceChunk chunk = .ok s') :
    s'.buffer.buffered = s.buffer.buffered + chunk.length := by
  obtain ⟨hinv, hcontent, _⟩ := push_inv h hpush
  rw [← hinv.content_length, ← h.content_length, hcontent, List.length_append]

theorem push_accepted {s s' : StreamingWorkerState} {chunk : Bytes} (h : s.Inv)
    (hpush : s.pushSourceChunk chunk = .ok s') (rest : List Bytes) :
    accepted (s.fileSize - s.sourcePosition) (chunk :: rest) =
      chunk.length + accepted (s'.fileSize - s'.sourcePosition) rest := by
  obtain ⟨hinv, _, hsource, _, hsize, _, hempty⟩ := push_inv h hpush
  rw [accepted]
  by_cases hc : chunk = []
  · have hend := hempty hc
    rw [if_pos (Or.inl hc), hsize, hsource, hc, List.length_nil, Nat.add_zero,
      Nat.sub_eq_zero_of_le hend, accepted_zero]
  · have hpos := List.length_pos_of_ne_nil hc
    have hbuffered := push_buffered h hpush
    have hin : s'.sourcePosition ≤ s'.fileSize := hinv.inside (by omega)
    rw [if_neg (by rw [not_or]; exact ⟨hc, by omega⟩), hsize, hsource, Nat.sub_add_eq]

theorem takeChunks_levels (chunks : List Bytes) (p : Playing) (h : StreamInv p) :
    ∃ levels, (endState (takeChunks chunks p)).levels = p.levels ++ levels ∧
      (endState (takeChunks chunks p)).reads = p.reads ∧
      (endState (takeChunks chunks p)).state.options = p.state.options ∧
      (endState (takeChunks chunks p)).state.buffer.buffered = p.state.buffer.buffered +
        accepted (p.state.fileSize - p.state.sourcePosition) chunks ∧
      ∀ high, (p.state.buffer.buffered ≤ high ∧ ∀ l ∈ levels, l ≤ high) ↔
        p.state.buffer.buffered +
          accepted (p.state.fileSize - p.state.sourcePosition) chunks ≤ high := by
  induction chunks generalizing p with
  | nil =>
    refine ⟨[], (List.append_nil _).symm, rfl, rfl, rfl, fun high => ?_⟩
    exact ⟨fun hl => hl.1, fun hl => ⟨hl, fun l hm => absurd hm List.not_mem_nil⟩⟩
  | cons chunk rest ih =>
    rcases takeChunk_cases chunk p h.state with ⟨s, hpush, hr⟩ | ⟨e, hpush, hr⟩
    · have hinv := took_inv h hpush
      have hbuffered := push_buffered h.state hpush
      obtain ⟨_, _, _, _, _, hoptions, _⟩ := push_inv h.state hpush
      rw [takeChunks_ok _ _ _ _ hr, push_accepted h.state hpush]
      by_cases heof : (p.took s).state.isSourceEof = true
      · have hend : s.fileSize ≤ s.sourcePosition := hinv.state.eof.mp heof
        rw [if_pos heof, Nat.sub_eq_zero_of_le hend, accepted_zero]
        refine ⟨[s.buffer.buffered], rfl, rfl, hoptions, hbuffered, fun high => ?_⟩
        simp only [List.mem_singleton, forall_eq]
        omega
      · obtain ⟨levels, hlevels, hreads, hopt, hlast, hiff⟩ := ih (p.took s) hinv
        rw [if_neg heof]
        rw [Playing.took_state] at hopt hlast hiff
        refine ⟨s.buffer.buffered :: levels, ?_, hreads, hopt.trans hoptions, by omega,
          fun high => ?_⟩
        · rw [hlevels, List.append_cons]
          rfl
        · have hle := hiff high
          rw [List.forall_mem_cons]
          constructor
          · rintro ⟨_, hb, hl⟩
            have := hle.mp ⟨hb, hl⟩
            omega
          · intro hsum
            obtain ⟨hb, hl⟩ := hle.mpr (by omega)
            exact ⟨by omega, hb, hl⟩
    · -- the chunk is refused, and so is what comes behind it
      rw [takeChunks_error _ _ _ _ _ hr, push_error_accepted hpush]
      refine ⟨[], (List.append_nil _).symm, rfl, rfl, rfl, fun high => ?_⟩
      exact ⟨fun hl => hl.1, fun hl => ⟨hl, fun l hm => absurd hm List.not_mem_nil⟩⟩

/-! ### Every call -/

/-- The record of a stream with options `o`: the levels are under the watermark exactly when
every batch fits, and no batch asks for more than there is room for. -/
structure Recorded (o : StreamingWorkerOptions) (p : Playing) : Prop where
  inv : StreamInv p
  valid : o.Valid
  options : p.state.options = o
  levels : (∀ l ∈ p.levels, l ≤ o.highWatermark) ↔ ∀ b ∈ p.reads, b.Fits o.highWatermark
  now : (∀ b ∈ p.reads, b.Fits o.highWatermark) → p.state.buffer.buffered ≤ o.highWatermark
  asked : ∀ b ∈ p.reads, b.buffered + asked b.requests ≤ o.highWatermark

variable {o : StreamingWorkerOptions}

def KeepsRecord (o : StreamingWorkerOptions) (p p' : Playing) : Prop := Recorded o p → Recorded o p'

theorem keepsRecord_chain : Chain (KeepsRecord o) :=
  ⟨fun _ h => h, fun _ _ _ h h' hp => h' (h hp)⟩

theorem forall_mem_snoc {α : Type*} (P : α → Prop) (xs : List α) (x : α) :
    (∀ y ∈ xs ++ [x], P y) ↔ (∀ y ∈ xs, P y) ∧ P x := by
  rw [List.forall_mem_append, List.forall_mem_singleton]

theorem Recorded.planned_le {p : Playing} (h : Recorded o p) (goal : ℕ)
    (hne : p.planned goal ≠ []) :
    p.state.buffer.buffered + Stream.asked (p.planned goal) ≤ o.highWatermark := by
  have hopt := h.options
  obtain ⟨hlt, _, hplanned, _⟩ := next_planned h.inv.state (by rw [hopt]; exact h.valid) goal
    p.state.options.pipelineDepth hne
  have hle : Stream.asked (p.planned goal) ≤ _ := hplanned.asked_le
  rw [hopt] at hlt hle
  omega

theorem Recorded.snoc {p p' : Playing} (h : Recorded o p) (hinv : StreamInv p')
    (hoptions : p'.state.options = p.state.options) (b : ReadBatch) (levels : List ℕ)
    (hreads : p'.reads = p.reads ++ [b]) (hlevels : p'.levels = p.levels ++ levels)
    (hasked : b.buffered + Stream.asked b.requests ≤ o.highWatermark)
    (hb : p.state.buffer.buffered ≤ o.highWatermark →
      ((∀ l ∈ levels, l ≤ o.highWatermark) ↔ b.Fits o.highWatermark) ∧
        (b.Fits o.highWatermark → p'.state.buffer.buffered ≤ o.highWatermark)) :
    Recorded o p' := by
  refine ⟨hinv, h.valid, hoptions.trans h.options, ?_, ?_, ?_⟩
  · rw [hreads, hlevels, List.forall_mem_append, forall_mem_snoc, h.levels]
    constructor
    · rintro ⟨hold, hnew⟩
      exact ⟨hold, (hb (h.now hold)).1.mp hnew⟩
    · rintro ⟨hold, hnew⟩
      exact ⟨hold, (hb (h.now hold)).1.mpr hnew⟩
  · rw [hreads, forall_mem_snoc]
    rintro ⟨hold, hnew⟩
    exact (hb (h.now hold)).2 hnew
  · rw [hreads, forall_mem_snoc]
    exact ⟨h.asked, hasked⟩

theorem fillUntilBuffered_record (server : Server) (goal : ℕ) :
    Moves (KeepsRecord o) (fillUntilBuffered server goal) := by
  refine (Moves.get keepsRecord_chain).bind keepsRecord_chain fun p => ?_
  refine fillLoop_moves keepsRecord_chain goal (fun p c e hne _ h => ?_)
    (fun p c chunks hne _ h => ?_) _ _
  · refine h.snoc ⟨h.inv.state, h.inv.size, h.inv.position⟩ rfl _ [] rfl
      (List.append_nil _).symm (h.planned_le goal hne) fun hb => ⟨?_, fun _ => hb⟩
    exact ⟨fun _ chunks hc => (nomatch hc), fun _ l hl => absurd hl List.not_mem_nil⟩
  · have hinv : StreamInv (p.logRead c (p.planned goal) (some chunks)) :=
      ⟨h.inv.state, h.inv.size, h.inv.position⟩
    obtain ⟨levels, hlevels, hreads, hoptions, hbuffered, hiff⟩ := takeChunks_levels chunks _ hinv
    refine h.snoc (takeChunks_keeps chunks _ hinv) hoptions _ levels hreads hlevels
      (h.planned_le goal hne) fun hb => ?_
    have hfits : ReadBatch.Fits o.highWatermark ⟨p.planned goal, p.state.bufferedLen,
        p.state.fileSize - p.state.sourcePosition, some chunks⟩ ↔
        p.state.buffer.buffered + accepted (p.state.fileSize - p.state.sourcePosition) chunks ≤
          o.highWatermark := by
      constructor
      · exact fun hf => hf chunks rfl
      · intro hle cs hcs
        cases hcs
        exact hle
    refine ⟨?_, fun hf => ?_⟩
    · rw [hfits]
      refine Iff.trans ?_ (hiff o.highWatermark)
      exact ⟨fun hl => ⟨hb, hl⟩, fun hl => hl.2⟩
    · rw [hbuffered]
      exact hfits.mp hf

theorem pop_record (p : Playing) (maxLen : ℕ) :
    KeepsRecord o p (p.withState (p.state.popRead maxLen).2) := by
  intro h
  have hinv := pop_keeps p maxLen h.inv
  obtain ⟨_, _, hcontent, _, _, _, hoptions⟩ := pop_inv h.inv.state maxLen
  have hlen := congrArg List.length hcontent
  have hlen' : (p.state.popRead maxLen).2.content.length =
    (p.state.popRead maxLen).2.buffer.buffered := hinv.state.content_length
  rw [hlen', List.length_drop, h.inv.state.content_length] at hlen
  refine ⟨hinv, h.valid, hoptions.trans h.options, h.levels, fun hf => ?_, h.asked⟩
  have := h.now hf
  change (p.state.popRead maxLen).2.buffer.buffered ≤ _
  omega

theorem seek_record (pos : SeekFrom) : Moves (KeepsRecord o) (Stream.seek pos) := by
  intro p h
  have hk := seek_keeps pos p h.inv
  rcases seek_cases pos p with ⟨next, s, hseek, hr⟩ | ⟨e, _, hr⟩
  · obtain ⟨hinv, hcontent, _, _, _, hoptions, _⟩ := seek_inv h.inv.state hseek
    have hlen := hinv.content_length
    rw [hcontent, List.length_nil] at hlen
    rw [hr] at hk ⊢
    refine ⟨hk, h.valid, hoptions.trans h.options, h.levels, fun _ => ?_, h.asked⟩
    change s.buffer.buffered ≤ _
    omega
  · rw [hr]
    exact h

/-- In every run of a stream: the buffer holds no more than the high watermark, at the end and
after each chunk, exactly when no batch brings more than there is room for. What a batch asks
for always has room. -/
theorem levels_iff (server : Server) (stream : FileStream) (options : SmbMediaStreamOptions)
    (media : SmbMediaStream) (cifs : Cifs) (hpos : stream.position < 2 ^ 64)
    (hnew : SmbMediaStream.new stream options = .ok media) (calls : List StreamCall) :
    ((Runs.run (step server) (start media cifs) calls).2.state.buffer.buffered ≤
        options.workerOptions.highWatermark ∧
      (∀ l ∈ (Runs.run (step server) (start media cifs) calls).2.levels,
        l ≤ options.workerOptions.highWatermark) ↔
      ∀ b ∈ (Runs.run (step server) (start media cifs) calls).2.reads,
        b.Fits options.workerOptions.highWatermark) ∧
    (∀ b ∈ (Runs.run (step server) (start media cifs) calls).2.reads,
      b.buffered + asked b.requests ≤ options.workerOptions.highWatermark) ∧
    options.workerOptions.highWatermark ≤
      options.workerOptions.streamOptions.readAheadCapacity := by
  obtain ⟨_, hinv, _, hoptions, hvalid, _, _, hcontent⟩ := worker_inv hpos (media_new hnew).2.2
  have h0 : Recorded options.workerOptions (start media cifs) := by
    refine ⟨start_inv hpos hnew cifs, hvalid, hoptions, ?_, fun _ => ?_, fun b hb => ?_⟩
    · exact ⟨fun _ b hb => absurd hb List.not_mem_nil, fun _ l hl => absurd hl List.not_mem_nil⟩
    · have hlen := hinv.content_length
      rw [hcontent, List.length_nil] at hlen
      change media.worker.state.buffer.buffered ≤ _
      omega
    · exact absurd hb List.not_mem_nil
  have hrun := Runs.run_invariant (P := Recorded options.workerOptions) (fun p call h =>
    step_moves keepsRecord_chain (fillUntilBuffered_record server) pop_record seek_record p call h)
    (start media cifs) calls h0
  refine ⟨⟨fun h => hrun.levels.mp h.2, fun h => ⟨hrun.now h, hrun.levels.mpr h⟩⟩, hrun.asked,
    hvalid.high_le_capacity⟩

/-! ### A reply that is longer than what was asked for -/

/-- A server that answers a read with the given bytes, however many were asked for. -/
def answerWith (payload : Bytes) : Server := fun _ cifs _ =>
  ([.frame 0 (.Message (Cifs.readReply cifs.mid payload))], [])

theorem levels_iff_tight :
    ∃ media, SmbMediaStream.new (FileStream.new (Cifs.fileOfSize 8)) tightOptions = .ok media ∧
      ((Runs.run (step (answerWith [1, 2, 3])) (start media (Cifs.fresh Cifs.noAuth))
            [.fillInitialBuffer]).2.state.buffer.buffered ≤ 4 ∧
        (∀ l ∈ (Runs.run (step (answerWith [1, 2, 3])) (start media (Cifs.fresh Cifs.noAuth))
            [.fillInitialBuffer]).2.levels, l ≤ 4) ↔
        ∀ b ∈ (Runs.run (step (answerWith [1, 2, 3])) (start media (Cifs.fresh Cifs.noAuth))
            [.fillInitialBuffer]).2.reads, b.Fits 4) :=
  ⟨_, rfl, (levels_iff (answerWith [1, 2, 3]) (FileStream.new (Cifs.fileOfSize 8)) tightOptions _
    (Cifs.fresh Cifs.noAuth) (by decide) rfl [.fillInitialBuffer]).1⟩

/-- Eight bytes come for a read of four, and are kept. -/
theorem answerWith_overflows :
    ∃ media, SmbMediaStream.new (FileStream.new (Cifs.fileOfSize 8)) tightOptions = .ok media ∧
      (Runs.run (step (answerWith [1, 2, 3, 4, 5, 6, 7, 8]))
        (start media (Cifs.fresh Cifs.noAuth)) [.fillInitialBuffer]).2.levels = [8] ∧
      tightOptions.workerOptions.streamOptions.readAheadCapacity = 4 :=
  ⟨_, rfl, rfl, rfl⟩

end CifsClientStream.Stream
