import CifsClientStream.Cifs.Pipeline
import CifsClientStream.Stream.Media
import CifsClientStream.Lib.Runs

/-!
# The state of a stream stays in order

Whatever the server sends and wherever a call ends, the five fields of the
state and the position of the file stream agree (`stream_inv`).
-/

namespace CifsClientStream.Stream
open Cursor Async Smb
open Cifs (Arrival WriteStep StreamingWorkerReadRequest)

/-- The invariant of the state, and the file stream stands where the source is read next. -/
structure StreamInv (p : Playing) : Prop where
  state : p.state.Inv
  size : p.state.fileSize = p.media.worker.stream.size
  position : p.media.worker.stream.position = p.state.sourcePosition

/-! ### The position of the file stream -/

def Playing.seekTo (p : Playing) (next : ℕ) : Playing :=
  p.withStream { p.media.worker.stream with position := next }

theorem seekStream_offset (p : Playing) (offset : UInt64) :
    seekStream (.start offset) p = .ok ⟨⟩ (p.seekTo offset.toNat) := by
  have hseek : p.media.worker.stream.seek (.start offset) =
      .ok (offset.toNat, { p.media.worker.stream with position := offset.toNat }) := by
    unfold FileStream.seek
    rw [seekPosition_start]
    rfl
  unfold seekStream
  rw [fut_bind]
  change (ofExcept (p.media.worker.stream.seek (.start offset)) >>= _) p = _
  rw [hseek]
  rfl

theorem seekStream_start (p : Playing) (next : ℕ) (h : next < 2 ^ 64) :
    seekStream (.start (UInt64.ofNat next)) p = .ok ⟨⟩ (p.seekTo next) := by
  have hn : (UInt64.ofNat next).toNat = next := UInt64.toNat_ofNat_of_lt' h
  rw [seekStream_offset, hn]

/-- `p` after one more chunk, which made its state `s`. -/
def Playing.took (p : Playing) (s : StreamingWorkerState) : Playing :=
  ((p.withState s).logLevel).seekTo s.sourcePosition

@[simp] theorem Playing.took_state (p : Playing) (s : StreamingWorkerState) :
    (p.took s).state = s := rfl

theorem takeChunk_cases (chunk : Bytes) (p : Playing) (h : p.state.Inv) :
    (∃ s, p.state.pushSourceChunk chunk = .ok s ∧ takeChunk chunk p = .ok ⟨⟩ (p.took s)) ∨
    ∃ e, p.state.pushSourceChunk chunk = .error e ∧ takeChunk chunk p = .error (.error e) p := by
  have hx : takeChunk chunk p = (ofExcept (p.state.pushSourceChunk chunk) >>= fun state => do
      modify fun p => (p.withState state).logLevel
      seekStream (.start (UInt64.ofNat state.sourcePosition))) p := rfl
  rw [hx, fut_bind]
  cases hpush : p.state.pushSourceChunk chunk with
  | ok s =>
    have hs := (push_inv h hpush).1
    exact Or.inl ⟨s, rfl, seekStream_start _ _ hs.bound⟩
  | error e => exact Or.inr ⟨e, rfl, rfl⟩

theorem seek_cases (pos : SeekFrom) (p : Playing) :
    (∃ next s, p.state.seek pos = .ok (next, s) ∧
      Stream.seek pos p = .ok next ((p.withState s).seekTo next)) ∨
    ∃ e, p.state.seek pos = .error e ∧ Stream.seek pos p = .error (.error e) p := by
  have hx : Stream.seek pos p = (ofExcept (p.state.seek pos) >>= fun r => do
      modify fun p => p.withState r.2
      seekStream (.start (UInt64.ofNat r.1))
      pure r.1) p := rfl
  rw [hx, fut_bind]
  cases hseek : p.state.seek pos with
  | ok r =>
    obtain ⟨next, s⟩ := r
    have hstream := seekStream_start (p.withState s) next (seekPosition_lt (seek_next hseek))
    refine Or.inl ⟨next, s, rfl, ?_⟩
    change (seekStream (.start (UInt64.ofNat next)) >>= fun _ => pure next) (p.withState s) = _
    rw [fut_bind, hstream]
    rfl
  | error e => exact Or.inr ⟨e, rfl, rfl⟩

/-! ### Every call keeps the invariant -/

def KeepsInv (p p' : Playing) : Prop := StreamInv p → StreamInv p'

theorem keepsInv_chain : Chain KeepsInv := ⟨fun _ h => h, fun _ _ _ h h' hp => h' (h hp)⟩

theorem took_inv {p : Playing} {chunk : Bytes} {s : StreamingWorkerState} (h : StreamInv p)
    (hpush : p.state.pushSourceChunk chunk = .ok s) : StreamInv (p.took s) := by
  obtain ⟨hinv, _, _, _, hsize, _⟩ := push_inv h.state hpush
  exact ⟨hinv, hsize.trans h.size, rfl⟩

theorem takeChunk_keeps (chunk : Bytes) : Moves KeepsInv (takeChunk chunk) := by
  intro p h
  rcases takeChunk_cases chunk p h.state with ⟨s, hpush, hr⟩ | ⟨e, _, hr⟩
  · rw [hr]
    exact took_inv h hpush
  · rw [hr]
    exact h

theorem takeChunks_keeps (chunks : List Bytes) : Moves KeepsInv (takeChunks chunks) := by
  induction chunks with
  | nil => exact Moves.pure keepsInv_chain _
  | cons chunk rest ih =>
    exact (takeChunk_keeps chunk).bind keepsInv_chain fun _ =>
      (Moves.get keepsInv_chain).bind keepsInv_chain fun _ => (Moves.pure keepsInv_chain _).ite ih

theorem fillUntilBuffered_keeps (server : Server) (goal : ℕ) :
    Moves KeepsInv (fillUntilBuffered server goal) := by
  refine (Moves.get keepsInv_chain).bind keepsInv_chain fun p => ?_
  exact fillLoop_moves keepsInv_chain goal
    (fun p c e _ _ h => ⟨h.state, h.size, h.position⟩)
    (fun p c chunks _ _ h => takeChunks_keeps chunks _ ⟨h.state, h.size, h.position⟩) _ _

theorem pop_keeps (p : Playing) (maxLen : ℕ) :
    KeepsInv p (p.withState (p.state.popRead maxLen).2) := by
  intro h
  obtain ⟨hinv, _, _, _, hsource, hsize, _⟩ := pop_inv h.state maxLen
  exact ⟨hinv, hsize.trans h.size, h.position.trans hsource.symm⟩

theorem seek_keeps (pos : SeekFrom) : Moves KeepsInv (Stream.seek pos) := by
  intro p h
  rcases seek_cases pos p with ⟨next, s, hseek, hr⟩ | ⟨e, _, hr⟩
  · obtain ⟨hinv, _, _, hsource, hsize, _⟩ := seek_inv h.state hseek
    rw [hr]
    exact ⟨hinv, hsize.trans h.size, hsource.symm⟩
  · rw [hr]
    exact h

theorem step_keeps (server : Server) (p : Playing) (call : StreamCall) :
    KeepsInv p (step server p call).2 :=
  step_moves keepsInv_chain (fillUntilBuffered_keeps server) pop_keeps seek_keeps p call

/-! ### New streams -/

theorem worker_inv {stream : FileStream} {options : StreamingWorkerOptions}
    {worker : StreamingWorker} (hpos : stream.position < 2 ^ 64)
    (h : StreamingWorker.new stream options = .ok worker) :
    worker.stream = stream ∧ worker.state.Inv ∧ worker.state.fileSize = stream.size ∧
      worker.state.options = options ∧ options.Valid ∧
      worker.state.playbackPosition = stream.position ∧
      worker.state.sourcePosition = stream.position ∧ worker.state.content = [] := by
  unfold StreamingWorker.new at h
  cases hs : StreamingWorkerState.new stream.size options with
  | error e =>
    rw [hs] at h
    cases h
  | ok state =>
    obtain ⟨hinv, hsize, hopt, hvalid, hplay, hcontent⟩ := new_inv stream.handle.size.toNat_lt hs
    have hsource : state.sourcePosition = 0 := by
      have hlen := hinv.content_length
      have hp := hinv.positions
      rw [hcontent, List.length_nil] at hlen
      omega
    rw [hs] at h
    change (if stream.position ≠ 0 then _ else _) = _ at h
    by_cases h0 : stream.position = 0
    · rw [if_neg (not_not.mpr h0)] at h
      cases h
      exact ⟨rfl, hinv, hsize, hopt, hvalid, by rw [h0, hplay], by rw [h0, hsource], hcontent⟩
    · rw [if_pos h0] at h
      cases hseek : state.seek (.start (UInt64.ofNat stream.position)) with
      | error e =>
        rw [hseek] at h
        cases h
      | ok r =>
        obtain ⟨next, state'⟩ := r
        rw [hseek] at h
        cases h
        obtain ⟨hinv', hcontent', hplay', hsource', hsize', hopt', hnext⟩ := seek_inv hinv hseek
        rw [seekPosition_start, UInt64.toNat_ofNat_of_lt' hpos, Except.ok.injEq] at hnext
        exact ⟨rfl, hinv', hsize'.trans hsize, hopt'.trans hopt, hvalid, by rw [hplay', hnext],
          by rw [hsource', hnext], hcontent'⟩

theorem media_new {stream : FileStream} {options : SmbMediaStreamOptions} {media : SmbMediaStream}
    (h : SmbMediaStream.new stream options = .ok media) :
    media.options = options ∧ options.Valid ∧
      StreamingWorker.new stream options.workerOptions = .ok media.worker := by
  unfold SmbMediaStream.new at h
  cases hv : options.validate with
  | error e =>
    rw [hv] at h
    cases h
  | ok _ =>
    rw [hv] at h
    cases hw : StreamingWorker.new stream options.workerOptions with
    | error e =>
      rw [hw] at h
      cases h
    | ok worker =>
      rw [hw] at h
      cases h
      exact ⟨rfl, (SmbMediaStreamOptions.validate_ok _).mp hv, rfl⟩

theorem start_inv {stream : FileStream} {options : SmbMediaStreamOptions} {media : SmbMediaStream}
    (hpos : stream.position < 2 ^ 64) (h : SmbMediaStream.new stream options = .ok media)
    (cifs : Cifs) : StreamInv (start media cifs) := by
  obtain ⟨hstream, hinv, hsize, _, _, _, hsource, _⟩ := worker_inv hpos (media_new h).2.2
  exact ⟨hinv, by rw [start, Playing.state, hsize, hstream],
    by rw [start, Playing.state, hsource, hstream]⟩

/-! ### Every reachable state -/

/-- In every state a stream reaches, whatever the server sends and wherever calls end, the
state is in order. -/
theorem stream_inv (server : Server) (stream : FileStream) (options : SmbMediaStreamOptions)
    (media : SmbMediaStream) (cifs : Cifs) (hpos : stream.position < 2 ^ 64)
    (hnew : SmbMediaStream.new stream options = .ok media) (calls : List StreamCall) :
    StreamInv (Runs.run (step server) (start media cifs) calls).2 :=
  Runs.run_invariant (fun p call h => step_keeps server p call h) _ _ (start_inv hpos hnew cifs)

def smallOptions : SmbMediaStreamOptions where
  workerOptions := {
    streamOptions := { readAheadCapacity := 16, chunkSize := 4 }
    lowWatermark := 4
    highWatermark := 12
    pipelineDepth := 2 }
  initialBufferSize := 4

def tightOptions : SmbMediaStreamOptions where
  workerOptions := {
    streamOptions := { readAheadCapacity := 4, chunkSize := 4 }
    lowWatermark := 0
    highWatermark := 4
    pipelineDepth := 1 }
  initialBufferSize := 4

/-- A server that answers the first read of a batch with five bytes, and no other. -/
def overlong : Server := fun _ cifs _ =>
  ([.frame 0 (.Message (Cifs.readReply cifs.mid [1, 2, 3, 4, 5]))], [])

theorem stream_inv_overlong :
    ∃ media, SmbMediaStream.new (FileStream.new (Cifs.fileOfSize 8)) smallOptions = .ok media ∧
      StreamInv (Runs.run (step overlong) (start media (Cifs.fresh Cifs.noAuth))
        [.fillInitialBuffer, .readBlock 9, .seek (.fromEnd 3), .maybePrefill]).2 :=
  ⟨_, rfl, stream_inv overlong (FileStream.new (Cifs.fileOfSize 8)) smallOptions _
    (Cifs.fresh Cifs.noAuth) (by decide) rfl _⟩

end CifsClientStream.Stream
