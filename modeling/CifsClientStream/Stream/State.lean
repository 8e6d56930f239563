import CifsClientStream.Cifs.Session
import CifsClientStream.Stream.Buffer
import CifsClientStream.Stream.Options

/-!
# The state of a stream (struct `StreamingWorkerState` of src/lib.rs)

Where the player is in the file, how far the source has been read, and what
lies in between. Reads are planned from the state as it is before any of them
is answered; the chunks that come back are pushed one after the other.
-/

namespace CifsClientStream.Stream
open Cursor Smb
open Cifs (StreamingWorkerReadRequest)

inductive SeekFrom where
  | start (offset : UInt64)
  | fromEnd (offset : Int64)
  | current (offset : Int64)
  deriving DecidableEq

/-- The position before its range is checked. -/
def SeekFrom.next (size current : ℕ) : SeekFrom → ℤ
  | .start offset => offset.toNat
  | .fromEnd offset => size + offset.toInt
  | .current offset => current + offset.toInt

def seekPosition (size current : ℕ) (pos : SeekFrom) : Except Error ℕ :=
  let next := pos.next size current
  if next < 0 ∨ 2 ^ 64 - 1 < next then
    .error (.InternalError "seek position is out of range")
  else .ok next.toNat

structure StreamingWorkerStats where
  playbackPosition : ℕ
  sourcePosition : ℕ
  fileSize : ℕ
  buffered : ℕ
  bufferedChunks : ℕ
  lowWatermark : ℕ
  highWatermark : ℕ
  sourceEof : Bool
  deriving DecidableEq, Repr

def StreamingWorkerStats.shouldPrefill (s : StreamingWorkerStats) : Bool :=
  !s.sourceEof && s.buffered ≤ s.lowWatermark && s.buffered < s.highWatermark

structure StreamingWorkerState where
  options : StreamingWorkerOptions
  buffer : StreamingBuffer
  playbackPosition : ℕ
  sourcePosition : ℕ
  fileSize : ℕ
  sourceEof : Bool
  deriving DecidableEq, Repr

namespace StreamingWorkerState

def new (fileSize : ℕ) (options : StreamingWorkerOptions) : Except Error StreamingWorkerState := do
  options.validate
  .ok {
    options
    buffer := StreamingBuffer.new
    playbackPosition := 0
    sourcePosition := 0
    fileSize
    sourceEof := fileSize == 0 }

def bufferedLen (s : StreamingWorkerState) : ℕ := s.buffer.bufferedLen

def isSourceEof (s : StreamingWorkerState) : Bool := s.sourceEof

def isFinished (s : StreamingWorkerState) : Bool := s.sourceEof && s.buffer.isEmpty

def stats (s : StreamingWorkerState) : StreamingWorkerStats where
  playbackPosition := s.playbackPosition
  sourcePosition := s.sourcePosition
  fileSize := s.fileSize
  buffered := s.buffer.bufferedLen
  bufferedChunks := s.buffer.chunkCount
  lowWatermark := s.options.lowWatermark
  highWatermark := s.options.highWatermark
  sourceEof := s.sourceEof

def shouldPrefill (s : StreamingWorkerState) : Bool := s.stats.shouldPrefill

/-- The loop of `next_buffered_read_requests`, for at most `max` more requests. -/
def plan (bufferedGoal chunkSize fileSize : ℕ) : ℕ → ℕ → ℕ → List StreamingWorkerReadRequest
  | 0, _, _ => []
  | max + 1, simulatedBuffered, simulatedSourcePosition =>
    if simulatedBuffered < bufferedGoal ∧ simulatedSourcePosition < fileSize then
      let free := bufferedGoal - simulatedBuffered
      if free = 0 then []
      else
        let count := min free chunkSize
        let remaining := fileSize - simulatedSourcePosition
        let len := if usizeMax < remaining then count else min count remaining
        if len = 0 then []
        else ⟨simulatedSourcePosition, len⟩ ::
          plan bufferedGoal chunkSize fileSize max (addU64 simulatedBuffered len)
            (addU64 simulatedSourcePosition len)
    else []

def nextBufferedReadRequests (s : StreamingWorkerState) (bufferedGoal maxRequests : ℕ) :
    List StreamingWorkerReadRequest :=
  if maxRequests = 0 ∨ s.sourceEof ∨ s.fileSize ≤ s.sourcePosition then []
  else plan (min bufferedGoal s.options.highWatermark)
    s.options.streamOptions.effectiveChunkSize s.fileSize maxRequests s.buffer.bufferedLen
    s.sourcePosition

def pushSourceChunk (s : StreamingWorkerState) (chunk : Bytes) :
    Except Error StreamingWorkerState :=
  if chunk = [] then
    if s.sourcePosition < s.fileSize then
      .error (.InternalError "streaming worker source returned empty chunk before EOF")
    else .ok { s with sourceEof := true }
  else if s.fileSize - s.sourcePosition < chunk.length then
    .error (.InternalError
      "streaming worker source returned more data than remains in file")
  else
    let sourcePosition := addU64 s.sourcePosition chunk.length
    .ok { s with
      sourcePosition
      buffer := s.buffer.push chunk
      sourceEof := if s.fileSize ≤ sourcePosition then true else s.sourceEof }

def popRead (s : StreamingWorkerState) (maxLen : ℕ) : Option Bytes × StreamingWorkerState :=
  match s.buffer.popBlock maxLen with
  | (none, buffer) => (none, { s with buffer })
  | (some chunk, buffer) =>
    (some chunk,
      { s with buffer, playbackPosition := addU64 s.playbackPosition chunk.length })

def seek (s : StreamingWorkerState) (pos : SeekFrom) : Except Error (ℕ × StreamingWorkerState) := do
  let next ← seekPosition s.fileSize s.playbackPosition pos
  .ok (next, { s with
    buffer := s.buffer.clear
    playbackPosition := next
    sourcePosition := next
    sourceEof := decide (s.fileSize ≤ next) })

end StreamingWorkerState

theorem seekPosition_lt {size current next : ℕ} {pos : SeekFrom}
    (h : seekPosition size current pos = .ok next) : next < 2 ^ 64 := by
  unfold seekPosition at h
  dsimp only at h
  split at h
  · cases h
  · cases h
    omega

theorem seekPosition_start (size current : ℕ) (offset : UInt64) :
    seekPosition size current (.start offset) = .ok offset.toNat := by
  have h := offset.toNat_lt
  have hn : (SeekFrom.start offset).next size current = offset.toNat := rfl
  unfold seekPosition
  rw [hn, if_neg (by omega)]
  rfl

/-! ### Planning -/

/-- One after the other, from `source` on, each of at most `chunkSize` bytes, none past the
end of the file, and all together at most `room` bytes. -/
inductive Planned (chunkSize fileSize : ℕ) :
    ℕ → ℕ → List StreamingWorkerReadRequest → Prop
  | nil {room source} : Planned chunkSize fileSize room source []
  | cons {room source len rest} (pos : 0 < len) (le_chunk : len ≤ chunkSize)
      (le_room : len ≤ room) (le_file : source + len ≤ fileSize)
      (hrest : Planned chunkSize fileSize (room - len) (source + len) rest) :
      Planned chunkSize fileSize room source (⟨source, len⟩ :: rest)

theorem Planned.each {chunkSize fileSize room source : ℕ}
    {requests : List StreamingWorkerReadRequest}
    (h : Planned chunkSize fileSize room source requests) :
    ∀ r ∈ requests, 0 < r.len ∧ r.len ≤ chunkSize ∧ r.offset + r.len ≤ fileSize := by
  induction h with
  | nil => exact fun r hr => absurd hr List.not_mem_nil
  | cons pos le_chunk _ le_file _ ih =>
    intro r hr
    rcases List.mem_cons.mp hr with rfl | hr
    · exact ⟨pos, le_chunk, le_file⟩
    · exact ih r hr

def planLen (bufferedGoal chunkSize fileSize buffered source : ℕ) : ℕ :=
  min (min (bufferedGoal - buffered) chunkSize) (fileSize - source)

theorem plan_succ (bufferedGoal chunkSize fileSize max buffered source : ℕ)
    (hsize : fileSize < 2 ^ 64) (hb : buffered ≤ source)
    (hlt : buffered < bufferedGoal ∧ source < fileSize) (hc : 0 < chunkSize) :
    StreamingWorkerState.plan bufferedGoal chunkSize fileSize (max + 1) buffered source =
      ⟨source, planLen bufferedGoal chunkSize fileSize buffered source⟩ ::
        StreamingWorkerState.plan bufferedGoal chunkSize fileSize max
          (buffered + planLen bufferedGoal chunkSize fileSize buffered source)
          (source + planLen bufferedGoal chunkSize fileSize buffered source) := by
  have hlen : (if usizeMax < fileSize - source then min (bufferedGoal - buffered) chunkSize
      else min (min (bufferedGoal - buffered) chunkSize) (fileSize - source)) =
        planLen bufferedGoal chunkSize fileSize buffered source := by
    unfold usizeMax planLen
    rw [if_neg (by omega)]
  have hpos : 0 < planLen bufferedGoal chunkSize fileSize buffered source := by
    unfold planLen
    omega
  have hle : planLen bufferedGoal chunkSize fileSize buffered source ≤ fileSize - source := by
    unfold planLen
    omega
  rw [StreamingWorkerState.plan, if_pos hlt]
  dsimp only
  rw [hlen, if_neg (by omega), if_neg (by omega), addU64_eq _ _ (by omega),
    addU64_eq _ _ (by omega)]

theorem plan_planned (bufferedGoal chunkSize fileSize max buffered source : ℕ)
    (hsize : fileSize < 2 ^ 64) (hb : buffered ≤ source) (hc : 0 < chunkSize) :
    Planned chunkSize fileSize (bufferedGoal - buffered) source
      (StreamingWorkerState.plan bufferedGoal chunkSize fileSize max buffered source) ∧
    (StreamingWorkerState.plan bufferedGoal chunkSize fileSize max buffered source).length ≤ max := by
  induction max generalizing buffered source with
  | zero => exact ⟨.nil, le_rfl⟩
  | succ max ih =>
    by_cases hlt : buffered < bufferedGoal ∧ source < fileSize
    · rw [plan_succ bufferedGoal chunkSize fileSize max buffered source hsize hb hlt hc]
      have hl : planLen bufferedGoal chunkSize fileSize buffered source =
        min (min (bufferedGoal - buffered) chunkSize) (fileSize - source) := rfl
      obtain ⟨hp, hn⟩ := ih (buffered + planLen bufferedGoal chunkSize fileSize buffered source)
        (source + planLen bufferedGoal chunkSize fileSize buffered source) (by omega)
      rw [Nat.sub_add_eq] at hp
      exact ⟨.cons (by omega) (by omega) (by omega) (by omega) hp, Nat.succ_le_succ hn⟩
    · rw [StreamingWorkerState.plan, if_neg hlt]
      exact ⟨.nil, Nat.zero_le _⟩

/-! ### The invariant -/

/-- What always holds of the state: the buffer holds what lies between the playback and the
source position, and no position leaves 64 bits. -/
structure StreamingWorkerState.Inv (s : StreamingWorkerState) : Prop where
  size : s.fileSize < 2 ^ 64
  counted : s.buffer.Counted
  positions : s.playbackPosition + s.buffer.buffered = s.sourcePosition
  bound : s.sourcePosition < 2 ^ 64
  eof : s.sourceEof = true ↔ s.fileSize ≤ s.sourcePosition
  inside : s.buffer.buffered ≠ 0 → s.sourcePosition ≤ s.fileSize

def StreamingWorkerState.content (s : StreamingWorkerState) : Bytes := s.buffer.content

variable {s s' : StreamingWorkerState}

theorem StreamingWorkerState.Inv.content_length (h : s.Inv) :
    s.content.length = s.buffer.buffered := h.counted.length

theorem new_inv {fileSize : ℕ} {options : StreamingWorkerOptions} (hsize : fileSize < 2 ^ 64)
    (h : StreamingWorkerState.new fileSize options = .ok s) :
    s.Inv ∧ s.fileSize = fileSize ∧ s.options = options ∧ options.Valid ∧
      s.playbackPosition = 0 ∧ s.content = [] := by
  unfold StreamingWorkerState.new at h
  cases hv : options.validate with
  | error e =>
    rw [hv] at h
    cases h
  | ok _ =>
    rw [hv] at h
    cases h
    refine ⟨⟨hsize, StreamingBuffer.new_counted, rfl, Nat.two_pow_pos 64, ?_, ?_⟩, rfl, rfl,
      (StreamingWorkerOptions.validate_ok _).mp hv, rfl, rfl⟩
    · simp
    · exact fun h0 => absurd rfl h0

theorem push_inv {chunk : Bytes} (h : s.Inv) (hpush : s.pushSourceChunk chunk = .ok s') :
    s'.Inv ∧ s'.content = s.content ++ chunk ∧
      s'.sourcePosition = s.sourcePosition + chunk.length ∧
      s'.playbackPosition = s.playbackPosition ∧ s'.fileSize = s.fileSize ∧
      s'.options = s.options ∧ (chunk = [] → s.fileSize ≤ s.sourcePosition) := by
  unfold StreamingWorkerState.pushSourceChunk at hpush
  by_cases hc : chunk = []
  · rw [if_pos hc] at hpush
    split at hpush
    · cases hpush
    · rename_i hle
      cases hpush
      have hend : s.fileSize ≤ s.sourcePosition := Nat.not_lt.mp hle
      refine ⟨⟨h.size, h.counted, h.positions, h.bound, ?_, h.inside⟩, ?_, ?_, rfl, rfl, rfl,
        fun _ => hend⟩
      · exact ⟨fun _ => hend, fun _ => rfl⟩
      · rw [hc, List.append_nil]
        rfl
      · rw [hc]
        rfl
  · rw [if_neg hc] at hpush
    split at hpush
    · cases hpush
    · rename_i hle
      have hpos := List.length_pos_of_ne_nil hc
      have hroom : s.sourcePosition + chunk.length ≤ s.fileSize := by omega
      have hsize := h.size
      have hadd : addU64 s.sourcePosition chunk.length = s.sourcePosition + chunk.length :=
        addU64_eq _ _ (by omega)
      have hp := h.positions
      obtain ⟨hcounted, hcontent, hbuffered⟩ := StreamingBuffer.push_counted h.counted chunk
        (by omega)
      cases hpush
      refine ⟨⟨hsize, hcounted, ?_, ?_, ?_, fun _ => ?_⟩, hcontent, hadd, rfl, rfl, rfl,
        fun h0 => absurd h0 hc⟩
      · dsimp only
        rw [hadd, hbuffered]
        omega
      · dsimp only
        omega
      · dsimp only
        rw [hadd]
        split
        · rename_i hend
          exact ⟨fun _ => hend, fun _ => rfl⟩
        · rw [h.eof]
          omega
      · dsimp only
        omega

theorem push_ok {chunk : Bytes} (hc : chunk ≠ [])
    (hroom : s.sourcePosition + chunk.length ≤ s.fileSize) :
    ∃ s', s.pushSourceChunk chunk = .ok s' := by
  unfold StreamingWorkerState.pushSourceChunk
  rw [if_neg hc, if_neg (by omega)]
  exact ⟨_, rfl⟩

theorem pop_inv (h : s.Inv) (maxLen : ℕ) :
    (s.popRead maxLen).2.Inv ∧
      (s.popRead maxLen).1 =
        (if maxLen = 0 ∨ s.content = [] then none else some (s.content.take maxLen)) ∧
      (s.popRead maxLen).2.content = s.content.drop maxLen ∧
      (s.popRead maxLen).2.playbackPosition =
        s.playbackPosition + (s.content.take maxLen).length ∧
      (s.popRead maxLen).2.sourcePosition = s.sourcePosition ∧
      (s.popRead maxLen).2.fileSize = s.fileSize ∧ (s.popRead maxLen).2.options = s.options := by
  have hp := h.positions
  have hb := h.bound
  have hlen := h.content_length
  obtain ⟨hcounted, hfirst, hcontent⟩ :=
    StreamingBuffer.popBlock_content h.counted (by omega) maxLen
  have hlen' := hcounted.length
  rw [hcontent, List.length_drop] at hlen'
  change s.content.length - maxLen = _ at hlen'
  have htake : (s.content.take maxLen).length = min maxLen s.content.length := List.length_take
  unfold StreamingWorkerState.popRead
  cases hpop : s.buffer.popBlock maxLen with
  | mk r buffer =>
    rw [hpop] at hcounted hfirst hcontent hlen'
    change r = (if maxLen = 0 ∨ s.content = [] then none else some (s.content.take maxLen)) at hfirst
    cases r with
    | none =>
      have h0 : maxLen = 0 ∨ s.content = [] := by
        by_contra hne
        rw [if_neg hne] at hfirst
        cases hfirst
      have hnone : (s.content.take maxLen).length = 0 := by
        rcases h0 with h0 | h0
        · rw [h0, List.take_zero, List.length_nil]
        · rw [h0, List.take_nil, List.length_nil]
      refine ⟨⟨h.size, hcounted, ?_, hb, h.eof, fun hne => h.inside ?_⟩, hfirst, hcontent, ?_, rfl,
        rfl, rfl⟩
      · dsimp only at hlen' ⊢
        omega
      · dsimp only at hlen' hne ⊢
        omega
      · dsimp only
        omega
    | some chunk =>
      have hne : ¬(maxLen = 0 ∨ s.content = []) := by
        intro h0
        rw [if_pos h0] at hfirst
        cases hfirst
      have hchunk : chunk = s.content.take maxLen := by
        rw [if_neg hne] at hfirst
        exact Option.some.inj hfirst
      have hadd : addU64 s.playbackPosition chunk.length =
          s.playbackPosition + (s.content.take maxLen).length := by
        rw [hchunk]
        exact addU64_eq _ _ (by omega)
      refine ⟨⟨h.size, hcounted, ?_, hb, h.eof, fun hb' => h.inside ?_⟩, hfirst, hcontent, hadd,
        rfl, rfl, rfl⟩
      · dsimp only at hlen' ⊢
        rw [hadd]
        omega
      · dsimp only at hlen' hb' ⊢
        omega

theorem seek_next {pos : SeekFrom} {next : ℕ} (hseek : s.seek pos = .ok (next, s')) :
    seekPosition s.fileSize s.playbackPosition pos = .ok next := by
  unfold StreamingWorkerState.seek at hseek
  cases hn : seekPosition s.fileSize s.playbackPosition pos with
  | error e =>
    rw [hn] at hseek
    cases hseek
  | ok target =>
    rw [hn] at hseek
    cases hseek
    rfl

theorem seek_error {pos : SeekFrom} {e : Error} (hseek : s.seek pos = .error e) :
    seekPosition s.fileSize s.playbackPosition pos = .error e := by
  unfold StreamingWorkerState.seek at hseek
  cases hn : seekPosition s.fileSize s.playbackPosition pos with
  | error e' =>
    rw [hn] at hseek
    cases hseek
    rfl
  | ok target =>
    rw [hn] at hseek
    cases hseek

theorem seek_inv {pos : SeekFrom} {next : ℕ} (h : s.Inv) (hseek : s.seek pos = .ok (next, s')) :
    s'.Inv ∧ s'.content = [] ∧ s'.playbackPosition = next ∧ s'.sourcePosition = next ∧
      s'.fileSize = s.fileSize ∧ s'.options = s.options ∧
      seekPosition s.fileSize s.playbackPosition pos = .ok next := by
  have hn := seek_next hseek
  unfold StreamingWorkerState.seek at hseek
  rw [hn] at hseek
  cases hseek
  refine ⟨⟨h.size, StreamingBuffer.new_counted, rfl, seekPosition_lt hn, ?_, ?_⟩, rfl, rfl, rfl,
    rfl, rfl, hn⟩
  · simp
  · exact fun h0 => absurd rfl h0

/-! ### The next batch -/

def asked (requests : List StreamingWorkerReadRequest) : ℕ := (requests.map (·.len)).sum

theorem Planned.asked_le {chunkSize fileSize room source : ℕ}
    {requests : List StreamingWorkerReadRequest}
    (h : Planned chunkSize fileSize room source requests) : asked requests ≤ room := by
  induction h with
  | nil => exact Nat.zero_le _
  | @cons room source len rest _ _ le_room _ _ ih =>
    change len + asked rest ≤ room
    omega

/-- A batch that is sent fits between what is buffered and the goal. -/
theorem next_planned (h : s.Inv) (hv : s.options.Valid) (bufferedGoal maxRequests : ℕ)
    (hne : s.nextBufferedReadRequests bufferedGoal maxRequests ≠ []) :
    s.buffer.buffered < min bufferedGoal s.options.highWatermark ∧
      s.sourcePosition < s.fileSize ∧
      Planned s.options.streamOptions.effectiveChunkSize s.fileSize
        (min bufferedGoal s.options.highWatermark - s.buffer.buffered) s.sourcePosition
        (s.nextBufferedReadRequests bufferedGoal maxRequests) ∧
      (s.nextBufferedReadRequests bufferedGoal maxRequests).length ≤ maxRequests := by
  unfold StreamingWorkerState.nextBufferedReadRequests at hne ⊢
  by_cases hstop : maxRequests = 0 ∨ s.sourceEof = true ∨ s.fileSize ≤ s.sourcePosition
  · rw [if_pos hstop] at hne
    exact absurd rfl hne
  · rw [if_neg hstop] at hne ⊢
    have hp := h.positions
    obtain ⟨hplanned, hlen⟩ := plan_planned (min bufferedGoal s.options.highWatermark)
      s.options.streamOptions.effectiveChunkSize s.fileSize maxRequests s.buffer.bufferedLen
      s.sourcePosition h.size (by change s.buffer.buffered ≤ _; omega) hv.stream.effective_pos
    refine ⟨?_, by omega, hplanned, hlen⟩
    by_contra hfull
    cases maxRequests with
    | zero => exact hne rfl
    | succ max =>
      rw [StreamingWorkerState.plan, if_neg fun hlt => hfull hlt.1] at hne
      exact hne rfl

/-- No batch is sent only when the file is read to its end or the goal is reached. -/
theorem next_nil (h : s.Inv) (hv : s.options.Valid) (bufferedGoal maxRequests : ℕ)
    (hmax : maxRequests ≠ 0)
    (hnil : s.nextBufferedReadRequests bufferedGoal maxRequests = []) :
    s.fileSize ≤ s.sourcePosition ∨ min bufferedGoal s.options.highWatermark ≤ s.buffer.buffered := by
  unfold StreamingWorkerState.nextBufferedReadRequests at hnil
  by_cases hstop : maxRequests = 0 ∨ s.sourceEof = true ∨ s.fileSize ≤ s.sourcePosition
  · rcases hstop with h0 | heof | hend
    · exact absurd h0 hmax
    · exact Or.inl (h.eof.mp heof)
    · exact Or.inl hend
  · rw [if_neg hstop] at hnil
    by_contra hmore
    obtain ⟨max, rfl⟩ := Nat.exists_eq_succ_of_ne_zero hmax
    have hp := h.positions
    change StreamingWorkerState.plan _ _ _ _ s.buffer.buffered _ = [] at hnil
    rw [plan_succ _ _ _ _ _ _ h.size (by omega) (by omega) hv.stream.effective_pos] at hnil
    cases hnil

end CifsClientStream.Stream
