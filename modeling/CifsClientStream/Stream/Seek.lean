import CifsClientStream.Stream.Invariant

/-!
# Moving to another position (`StreamingWorker::seek` of src/lib.rs)

Two positions are set, each by a check that can fail. The second check sees a
position that passed the first, so a call changes both or nothing. What was
read ahead is dropped: whatever calls follow, they deliver nothing but bytes
that were received after the call (`Fresh`).
-/

namespace CifsClientStream.Stream
open Cursor Async Smb
open Cifs (StreamingWorkerReadRequest)

/-! ### The target -/

/-- No 64-bit position. -/
def OutOfRange (target : ℤ) : Prop := target < 0 ∨ 2 ^ 64 - 1 < target

theorem seekPosition_error (size current : ℕ) (pos : SeekFrom)
    (h : OutOfRange (pos.next size current)) :
    seekPosition size current pos = .error (.InternalError "seek position is out of range") :=
  if_pos h

theorem seekPosition_ok (size current : ℕ) (pos : SeekFrom)
    (h : ¬OutOfRange (pos.next size current)) :
    seekPosition size current pos = .ok (pos.next size current).toNat := if_neg h

/-- Where a call asks to go, as an integer. -/
def Playing.target (p : Playing) (pos : SeekFrom) : ℤ :=
  pos.next p.state.fileSize p.state.playbackPosition

/-- `p` at `next`, with nothing buffered. -/
def Playing.sought (p : Playing) (next : ℕ) : Playing :=
  (p.withState { p.state with
    buffer := StreamingBuffer.new
    playbackPosition := next
    sourcePosition := next
    sourceEof := decide (p.state.fileSize ≤ next) }).seekTo next

theorem seek_out_of_range (pos : SeekFrom) (p : Playing) (h : OutOfRange (p.target pos)) :
    Stream.seek pos p = .error (.error (.InternalError "seek position is out of range")) p := by
  have hstate : p.state.seek pos = .error (.InternalError "seek position is out of range") := by
    rw [StreamingWorkerState.seek, seekPosition_error _ _ pos h]
    rfl
  rcases seek_cases pos p with ⟨next, s, hseek, _⟩ | ⟨e, hseek, hr⟩
  · cases hstate.symm.trans hseek
  · cases hstate.symm.trans hseek
    exact hr

theorem seek_in_range (pos : SeekFrom) (p : Playing) (h : ¬OutOfRange (p.target pos)) :
    Stream.seek pos p = .ok (p.target pos).toNat (p.sought (p.target pos).toNat) := by
  have hstate : p.state.seek pos =
      .ok ((p.target pos).toNat, (p.sought (p.target pos).toNat).state) := by
    rw [StreamingWorkerState.seek, seekPosition_ok _ _ pos h]
    rfl
  rcases seek_cases pos p with ⟨next, s, hseek, hr⟩ | ⟨e, hseek, _⟩
  · cases hstate.symm.trans hseek
    exact hr
  · cases hstate.symm.trans hseek

theorem plan_head (bufferedGoal chunkSize fileSize max buffered source : ℕ) :
    ∀ r ∈ (StreamingWorkerState.plan bufferedGoal chunkSize fileSize max buffered source).head?,
      r.offset = source := by
  intro r hr
  cases max with
  | zero => cases hr
  | succ max =>
    rw [StreamingWorkerState.plan] at hr
    split at hr
    · dsimp only at hr
      generalize (if usizeMax < fileSize - source then min (bufferedGoal - buffered) chunkSize
        else min (min (bufferedGoal - buffered) chunkSize) (fileSize - source)) = len at hr
      split at hr
      · cases hr
      · split at hr
        · cases hr
        · cases hr
          rfl
    · cases hr

/-- The first read that is planned, if any, starts where the source stands. -/
theorem next_head (s : StreamingWorkerState) (bufferedGoal maxRequests : ℕ) :
    ∀ r ∈ (s.nextBufferedReadRequests bufferedGoal maxRequests).head?,
      r.offset = s.sourcePosition := by
  unfold StreamingWorkerState.nextBufferedReadRequests
  split
  · exact fun r hr => by cases hr
  · exact plan_head _ _ _ _ _ _

/-! ### What is delivered afterwards -/

/-- The bytes that a list of calls delivered. -/
def delivered (events : List Event) : Bytes :=
  events.flatMap fun e => match e.answer with
    | .block (some b) => b
    | _ => []

/-- The bytes that a list of batches brought. -/
def received (reads : List ReadBatch) : Bytes := reads.flatMap fun b => (b.chunks.getD []).flatten

theorem delivered_append (xs ys : List Event) :
    delivered (xs ++ ys) = delivered xs ++ delivered ys := List.flatMap_append

theorem received_append (xs ys : List ReadBatch) :
    received (xs ++ ys) = received xs ++ received ys := List.flatMap_append

/-- The buffer is in order, and what was delivered and is buffered since the batches `before` is
some of what was received since. -/
def Fresh (before : List ReadBatch) (out : Bytes) (p : Playing) : Prop :=
  p.state.buffer.Wrapped ∧
    ∃ since, p.reads = before ++ since ∧ List.Sublist (out ++ p.state.content) (received since)

def KeepsFresh (p p' : Playing) : Prop := ∀ before out, Fresh before out p → Fresh before out p'

theorem keepsFresh_chain : Chain KeepsFresh :=
  ⟨fun _ _ _ h => h, fun _ _ _ h h' before out hp => h' before out (h before out hp)⟩

/-! Filling. -/

theorem push_content {s s' : StreamingWorkerState} {chunk : Bytes} (h : s.buffer.Wrapped)
    (hpush : s.pushSourceChunk chunk = .ok s') :
    s'.buffer.Wrapped ∧ s'.content = s.content ++ chunk := by
  unfold StreamingWorkerState.pushSourceChunk at hpush
  by_cases hc : chunk = []
  · rw [if_pos hc] at hpush
    split at hpush
    · cases hpush
    · cases hpush
      rw [hc, List.append_nil]
      exact ⟨h, rfl⟩
  · rw [if_neg hc] at hpush
    split at hpush
    · cases hpush
    · cases hpush
      exact StreamingBuffer.push_wrapped h chunk

theorem takeChunk_content (chunk : Bytes) (p : Playing) (h : p.state.buffer.Wrapped) :
    (∃ p', takeChunk chunk p = .ok ⟨⟩ p' ∧ p'.state.buffer.Wrapped ∧
      p'.state.content = p.state.content ++ chunk) ∨ ∃ e, takeChunk chunk p = .error e p := by
  have hx : takeChunk chunk p = (ofExcept (p.state.pushSourceChunk chunk) >>= fun state => do
      modify fun p => (p.withState state).logLevel
      seekStream (.start (UInt64.ofNat state.sourcePosition))) p := rfl
  rw [hx, fut_bind]
  cases hpush : p.state.pushSourceChunk chunk with
  | ok s => exact Or.inl ⟨_, seekStream_offset _ _, push_content h hpush⟩
  | error e => exact Or.inr ⟨_, rfl⟩

/-- The chunks that are taken are appended, and some may not be. -/
theorem takeChunks_content (chunks : List Bytes) (p : Playing) (h : p.state.buffer.Wrapped) :
    (endState (takeChunks chunks p)).state.buffer.Wrapped ∧
      List.Sublist (endState (takeChunks chunks p)).state.content
        (p.state.content ++ chunks.flatten) := by
  induction chunks generalizing p with
  | nil =>
    rw [List.flatten_nil, List.append_nil]
    exact ⟨h, List.Sublist.refl _⟩
  | cons chunk rest ih =>
    rcases takeChunk_content chunk p h with ⟨p', hr, hwrapped, hcontent⟩ | ⟨e, hr⟩
    · rw [takeChunks_ok chunk rest p p' hr, List.flatten_cons, ← List.append_assoc, ← hcontent]
      split
      · exact ⟨hwrapped, List.sublist_append_left _ _⟩
      · exact ih p' hwrapped
    · rw [takeChunks_error chunk rest p p e hr]
      exact ⟨h, List.sublist_append_left _ _⟩

theorem logRead_reads (p : Playing) (cifs : Cifs) (requests : List StreamingWorkerReadRequest)
    (chunks : Option (List Bytes)) : ∃ b : ReadBatch,
      (p.logRead cifs requests chunks).reads = p.reads ++ [b] ∧
        received [b] = (chunks.getD []).flatten :=
  ⟨_, rfl, List.flatMap_singleton _ _⟩

theorem fillUntilBuffered_fresh (server : Server) (goal : ℕ) :
    Moves KeepsFresh (fillUntilBuffered server goal) := by
  refine (Moves.get keepsFresh_chain).bind keepsFresh_chain fun _ => ?_
  refine fillLoop_moves keepsFresh_chain goal (fun p c e _ _ before out h => ?_)
    (fun p c chunks _ _ before out h => ?_) _ _
  · obtain ⟨hwrapped, since, hreads, hsub⟩ := h
    obtain ⟨b, hlog, _⟩ := logRead_reads p c (p.planned goal) none
    refine ⟨hwrapped, since ++ [b], ?_, ?_⟩
    · rw [hlog, hreads, List.append_assoc]
    · rw [received_append]
      exact hsub.trans (List.sublist_append_left _ _)
  · obtain ⟨hwrapped, since, hreads, hsub⟩ := h
    obtain ⟨b, hlog, hbatch⟩ := logRead_reads p c (p.planned goal) (some chunks)
    have hsame := takeChunks_reads chunks (p.logRead c (p.planned goal) (some chunks))
    obtain ⟨hwrapped', hcontent⟩ := takeChunks_content chunks
      (p.logRead c (p.planned goal) (some chunks)) hwrapped
    refine ⟨hwrapped', since ++ [b], ?_, ?_⟩
    · rw [hsame, hlog, hreads, List.append_assoc]
    · rw [received_append, hbatch]
      refine (hcontent.append_left out).trans ?_
      rw [← List.append_assoc]
      exact hsub.append_right _

/-! Taking a block. -/

theorem pop_content (p : Playing) (maxLen : ℕ) (h : p.state.buffer.Wrapped) :
    (p.state.popRead maxLen).2.buffer.Wrapped ∧
      (p.state.popRead maxLen).1.getD [] ++ (p.state.popRead maxLen).2.content =
        p.state.content := by
  obtain ⟨hwrapped, hblock, hcontent⟩ := StreamingBuffer.popBlock_wrapped h maxLen
  have hpop : (p.state.popRead maxLen).1 = (p.state.buffer.popBlock maxLen).1 ∧
      (p.state.popRead maxLen).2.buffer = (p.state.buffer.popBlock maxLen).2 := by
    unfold StreamingWorkerState.popRead
    split
    · rename_i hr
      rw [hr]
      exact ⟨rfl, rfl⟩
    · rename_i hr
      rw [hr]
      exact ⟨rfl, rfl⟩
  rw [StreamingWorkerState.content, hpop.1, hpop.2, hblock, hcontent]
  refine ⟨hwrapped, ?_⟩
  by_cases hnone : maxLen = 0 ∨ p.state.buffer.content = []
  · rw [if_pos hnone]
    rcases hnone with hzero | hnil
    · rw [hzero, List.drop_zero]
      rfl
    · change _ = p.state.buffer.content
      rw [hnil, List.drop_nil]
      rfl
  · rw [if_neg hnone]
    exact List.take_append_drop _ _

theorem pop_fresh {before : List ReadBatch} {out : Bytes} {p : Playing} (h : Fresh before out p)
    (maxLen : ℕ) : Fresh before (out ++ (p.state.popRead maxLen).1.getD [])
      (p.withState (p.state.popRead maxLen).2) := by
  obtain ⟨hwrapped, since, hreads, hsub⟩ := h
  obtain ⟨hwrapped', hcontent⟩ := pop_content p maxLen hwrapped
  refine ⟨hwrapped', since, hreads, ?_⟩
  rw [List.append_assoc, Playing.withState_state, hcontent]
  exact hsub

/-! Every call. -/

theorem seek_fresh (pos : SeekFrom) : Moves KeepsFresh (Stream.seek pos) := by
  intro p before out h
  by_cases hrange : OutOfRange (p.target pos)
  · rw [seek_out_of_range pos p hrange]
    exact h
  · obtain ⟨_, since, hreads, hsub⟩ := h
    rw [seek_in_range pos p hrange]
    refine ⟨StreamingBuffer.new_wrapped, since, hreads, ?_⟩
    exact (List.Sublist.append_left (List.nil_sublist _) out).trans hsub

theorem readBlock_fresh (server : Server) (maxLen : ℕ) (p : Playing) {before : List ReadBatch}
    {out : Bytes} (h : Fresh before out p) :
    Fresh before (out ++ delivered [(step server p (.readBlock maxLen)).1])
      (step server p (.readBlock maxLen)).2 := by
  have hblock : ∀ block : Option Bytes, delivered [⟨.readBlock maxLen, p.state.playbackPosition,
      .block block⟩] = block.getD [] := by
    intro block
    rw [delivered, List.flatMap_singleton]
    cases block with
    | none => rfl
    | some b => rfl
  have hstep : step server p (.readBlock maxLen) = (⟨.readBlock maxLen, p.state.playbackPosition,
      (answered Answer.block (readBlock server maxLen p)).1⟩,
        (answered Answer.block (readBlock server maxLen p)).2) := rfl
  rw [hstep]
  by_cases h0 : maxLen = 0
  · subst h0
    have hnone : readBlock server 0 p = .ok none p := rfl
    rw [hnone]
    change Fresh before (out ++ delivered [⟨_, _, .block none⟩]) p
    rw [hblock, Option.getD_none, List.append_nil]
    exact h
  · have hfill := fillUntilBuffered_fresh server (max maxLen p.state.options.lowWatermark) p
      before out
    rcases readBlock_cases server maxLen p h0 with ⟨e, p1, hr, hx⟩ | ⟨p1, hp1, hx⟩
    · rw [hr] at hfill
      rw [hx]
      change Fresh before (out ++ []) p1
      rw [List.append_nil]
      exact hfill h
    · have hfresh : Fresh before out p1 := by
        rcases hp1 with ⟨_, rfl⟩ | ⟨filled, hr⟩
        · exact h
        · rw [hr] at hfill
          exact hfill h
      rw [hx]
      change Fresh before (out ++ delivered [⟨_, _, .block (p1.state.popRead maxLen).1⟩]) _
      rw [hblock]
      exact pop_fresh hfresh maxLen

theorem step_fresh (server : Server) (events : List Event) (p : Playing) (call : StreamCall)
    {before : List ReadBatch} (h : Fresh before (delivered events) p) :
    Fresh before (delivered (events ++ [(step server p call).1])) (step server p call).2 := by
  have hfill := fillUntilBuffered_fresh server
  have hsilent : ∀ e : Event, (∀ b, e.answer ≠ .block (some b)) → delivered [e] = [] := by
    intro e he
    rw [delivered, List.flatMap_singleton]
    split
    · exact absurd ‹_› (he _)
    · rfl
  rw [delivered_append]
  cases call with
  | fillInitialBuffer =>
    have hp := answered_moves Answer.filled (fillInitialBuffer_moves keepsFresh_chain hfill) p
    rw [hsilent _ (answered_noBlock _ (fun _ _ hb => by cases hb) _), List.append_nil]
    exact hp before _ h
  | maybePrefill =>
    have hp := answered_moves Answer.filled (maybePrefill_moves keepsFresh_chain hfill) p
    rw [hsilent _ (answered_noBlock _ (fun _ _ hb => by cases hb) _), List.append_nil]
    exact hp before _ h
  | readBlock maxLen => exact readBlock_fresh server maxLen p h
  | seek pos =>
    have hp := answered_moves Answer.position (seek_fresh pos) p
    rw [hsilent _ (answered_noBlock _ (fun _ _ hb => by cases hb) _), List.append_nil]
    exact hp before _ h

theorem run_fresh (server : Server) (calls : List StreamCall) (p : Playing) (next : ℕ) :
    Fresh p.reads (delivered (Runs.run (step server) (p.sought next) calls).1)
      (Runs.run (step server) (p.sought next) calls).2 := by
  have hstart : Fresh p.reads (delivered []) (p.sought next) :=
    ⟨StreamingBuffer.new_wrapped, [], (List.append_nil _).symm, List.Sublist.refl _⟩
  exact Runs.run_history (P := fun events q => Fresh p.reads (delivered events) q)
    (fun events q call h => step_fresh server events q call h) [] _ calls hstart

/-! ### The call -/

/-- A call to `seek` fails exactly for a target out of range, and then it changes nothing.
Otherwise it moves to the target: the next read starts there, what was buffered makes no
difference any more, and every run delivers only what it receives. -/
theorem seek_exact (pos : SeekFrom) (p : Playing) :
    (OutOfRange (p.target pos) →
      Stream.seek pos p = .error (.error (.InternalError "seek position is out of range")) p) ∧
    (¬OutOfRange (p.target pos) → ∃ next : ℕ, (next : ℤ) = p.target pos ∧
      Stream.seek pos p = .ok next (p.sought next) ∧
      (∀ bufferedGoal maxRequests, ∀ r ∈
        ((p.sought next).state.nextBufferedReadRequests bufferedGoal maxRequests).head?,
          r.offset = next) ∧
      (∀ buffer, Stream.seek pos (p.withState { p.state with buffer }) =
        .ok next (p.sought next)) ∧
      ∀ (server : Server) (calls : List StreamCall),
        Fresh p.reads (delivered (Runs.run (step server) (p.sought next) calls).1)
          (Runs.run (step server) (p.sought next) calls).2) := by
  refine ⟨seek_out_of_range pos p, fun hrange => ?_⟩
  have htarget : ((p.target pos).toNat : ℤ) = p.target pos := by
    unfold OutOfRange at hrange
    omega
  exact ⟨(p.target pos).toNat, htarget, seek_in_range pos p hrange, next_head _,
    fun buffer => seek_in_range pos (p.withState { p.state with buffer }) hrange,
    fun server calls => run_fresh server calls p _⟩

end CifsClientStream.Stream
