import CifsClientStream.Error
import CifsClientStream.Smb.Reply

/-!
# Options of a stream (src/lib.rs)

The fields are public, so a value need not be valid; every constructor of a
stream checks it (`validate`). `Valid` says what the checks leave.
-/

namespace CifsClientStream.Stream
open Smb (SMB_LEGACY_READ_MAX)

def DEFAULT_READ_AHEAD_CAPACITY : ℕ := 8 * 1024 * 1024
def DEFAULT_STREAM_CHUNK_SIZE : ℕ := SMB_LEGACY_READ_MAX
def DEFAULT_MEDIA_INITIAL_BUFFER_SIZE : ℕ := 1024 * 1024
def DEFAULT_MEDIA_PREFILL_TARGET_SIZE : ℕ := 2 * 1024 * 1024
def DEFAULT_SMB1_PIPELINE_DEPTH : ℕ := 8

structure StreamOptions where
  readAheadCapacity : ℕ
  chunkSize : ℕ
  deriving DecidableEq, Repr

def StreamOptions.default : StreamOptions where
  readAheadCapacity := DEFAULT_READ_AHEAD_CAPACITY
  chunkSize := DEFAULT_STREAM_CHUNK_SIZE

def StreamOptions.validate (o : StreamOptions) : Except Error Unit :=
  if 1024 * 1024 < o.chunkSize then
    .error (.InvalidConfig "stream chunk size must not exceed 1 MiB")
  else if o.readAheadCapacity = 0 then
    .error (.InvalidConfig "read-ahead capacity must be greater than zero")
  else if o.chunkSize = 0 then
    .error (.InvalidConfig "stream chunk size must be greater than zero")
  else .ok ()

def StreamOptions.effectiveChunkSize (o : StreamOptions) : ℕ := min o.chunkSize SMB_LEGACY_READ_MAX

structure StreamingWorkerOptions where
  streamOptions : StreamOptions
  lowWatermark : ℕ
  highWatermark : ℕ
  pipelineDepth : ℕ
  deriving DecidableEq, Repr

def StreamingWorkerOptions.default : StreamingWorkerOptions where
  streamOptions := StreamOptions.default
  lowWatermark := StreamOptions.default.readAheadCapacity / 4
  highWatermark := StreamOptions.default.readAheadCapacity
  pipelineDepth := DEFAULT_SMB1_PIPELINE_DEPTH

def StreamingWorkerOptions.validate (o : StreamingWorkerOptions) : Except Error Unit := do
  o.streamOptions.validate
  if o.highWatermark = 0 then
    .error (.InvalidConfig "streaming worker high watermark must be greater than zero")
  else if o.highWatermark < o.lowWatermark then
    .error (.InvalidConfig "streaming worker low watermark must not exceed high watermark")
  else if o.streamOptions.readAheadCapacity < o.highWatermark then
    .error (.InvalidConfig "streaming worker high watermark must not exceed read-ahead capacity")
  else if o.pipelineDepth = 0 then
    .error (.InvalidConfig "streaming worker pipeline depth must be greater than zero")
  else if 16 < o.pipelineDepth then
    .error (.InvalidConfig "streaming worker pipeline depth must not exceed 16")
  else .ok ()

structure SmbMediaStreamOptions where
  workerOptions : StreamingWorkerOptions
  initialBufferSize : ℕ
  deriving DecidableEq, Repr

def SmbMediaStreamOptions.default : SmbMediaStreamOptions where
  workerOptions := {
    streamOptions := StreamOptions.default
    lowWatermark := DEFAULT_MEDIA_INITIAL_BUFFER_SIZE
    highWatermark := DEFAULT_MEDIA_PREFILL_TARGET_SIZE
    pipelineDepth := DEFAULT_SMB1_PIPELINE_DEPTH }
  initialBufferSize := DEFAULT_MEDIA_INITIAL_BUFFER_SIZE

def SmbMediaStreamOptions.validate (o : SmbMediaStreamOptions) : Except Error Unit := do
  o.workerOptions.validate
  if o.workerOptions.highWatermark < o.initialBufferSize then
    .error (.InvalidConfig "SMB media stream initial buffer must not exceed high watermark")
  else .ok ()

/-! ### What the checks leave -/

structure StreamOptions.Valid (o : StreamOptions) : Prop where
  chunkSize_le : o.chunkSize ≤ 1024 * 1024
  chunkSize_pos : 0 < o.chunkSize
  capacity_pos : 0 < o.readAheadCapacity

structure StreamingWorkerOptions.Valid (o : StreamingWorkerOptions) : Prop where
  stream : o.streamOptions.Valid
  high_pos : 0 < o.highWatermark
  low_le_high : o.lowWatermark ≤ o.highWatermark
  high_le_capacity : o.highWatermark ≤ o.streamOptions.readAheadCapacity
  depth_pos : 0 < o.pipelineDepth
  depth_le : o.pipelineDepth ≤ 16

structure SmbMediaStreamOptions.Valid (o : SmbMediaStreamOptions) : Prop where
  worker : o.workerOptions.Valid
  initial_le_high : o.initialBufferSize ≤ o.workerOptions.highWatermark

theorem StreamOptions.validate_ok (o : StreamOptions) : o.validate = .ok () ↔ o.Valid := by
  unfold validate
  constructor
  · intro h
    split at h
    · cases h
    · split at h
      · cases h
      · split at h
        · cases h
        · exact ⟨by omega, by omega, by omega⟩
  · intro h
    have h1 := h.chunkSize_le
    have h2 := h.chunkSize_pos
    have h3 := h.capacity_pos
    rw [if_neg (by omega), if_neg (by omega), if_neg (by omega)]

theorem StreamingWorkerOptions.validate_ok (o : StreamingWorkerOptions) :
    o.validate = .ok () ↔ o.Valid := by
  unfold validate
  cases hs : o.streamOptions.validate with
  | error e =>
    refine ⟨fun h => (nomatch h), fun h => ?_⟩
    rw [(StreamOptions.validate_ok _).mpr h.stream] at hs
    cases hs
  | ok _ =>
    have hstream := (StreamOptions.validate_ok _).mp hs
    change (if o.highWatermark = 0 then _ else _) = _ ↔ _
    constructor
    · intro h
      split at h
      · cases h
      · split at h
        · cases h
        · split at h
          · cases h
          · split at h
            · cases h
            · split at h
              · cases h
              · exact ⟨hstream, by omega, by omega, by omega, by omega, by omega⟩
    · intro h
      have h1 := h.high_pos
      have h2 := h.low_le_high
      have h3 := h.high_le_capacity
      have h4 := h.depth_pos
      have h5 := h.depth_le
      rw [if_neg (by omega), if_neg (by omega), if_neg (by omega), if_neg (by omega),
        if_neg (by omega)]

theorem SmbMediaStreamOptions.validate_ok (o : SmbMediaStreamOptions) :
    o.validate = .ok () ↔ o.Valid := by
  unfold validate
  cases hw : o.workerOptions.validate with
  | error e =>
    refine ⟨fun h => (nomatch h), fun h => ?_⟩
    rw [(StreamingWorkerOptions.validate_ok _).mpr h.worker] at hw
    cases hw
  | ok _ =>
    have hworker := (StreamingWorkerOptions.validate_ok _).mp hw
    change (if o.workerOptions.highWatermark < o.initialBufferSize then _ else _) = _ ↔ _
    constructor
    · intro h
      split at h
      · cases h
      · exact ⟨hworker, by omega⟩
    · intro h
      have h1 := h.initial_le_high
      rw [if_neg (by omega)]

theorem StreamOptions.Valid.effective_pos {o : StreamOptions} (h : o.Valid) :
    0 < o.effectiveChunkSize := by
  have h1 := h.chunkSize_pos
  unfold effectiveChunkSize SMB_LEGACY_READ_MAX
  omega

theorem StreamOptions.effective_le (o : StreamOptions) : o.effectiveChunkSize ≤ 65534 :=
  min_le_right _ _

theorem StreamOptions.default_valid : StreamOptions.default.Valid :=
  ⟨by decide, by decide, by decide⟩

theorem SmbMediaStreamOptions.default_valid : SmbMediaStreamOptions.default.Valid :=
  ⟨⟨StreamOptions.default_valid, by decide, by decide, by decide, by decide, by decide⟩, by decide⟩

theorem StreamingWorkerOptions.default_valid : StreamingWorkerOptions.default.Valid :=
  ⟨StreamOptions.default_valid, by decide, by decide, by decide, by decide, by decide⟩

end CifsClientStream.Stream
