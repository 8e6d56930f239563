import CifsClientStream.Cifs.Exchange
import CifsClientStream.Cifs.Pipeline
import CifsClientStream.Lib.Slice

/-!
# Reading a media file at a position (src/ffi.rs)

The app reads any part of an open file into its own buffer. The bytes come in
reads of at most 65534 each, one after the other, until the part is complete, a
reply is empty or a read fails; a call that waits too long is dropped. `reads`
records the reads with their replies, and `copied` what went to the app's
buffer. How an error is put into words is left open.
-/

namespace CifsClientStream.Ffi
open Cursor hiding slice
open Async Smb Slice
open Cifs (Arrival WriteStep StreamingWorkerReadRequest Delivery readable readable_append Holds
  parseReply)

/-- A read and the payload of its reply, if it succeeded. -/
structure ReadCall where
  request : StreamingWorkerReadRequest
  reply : Option Bytes
  deriving DecidableEq, Repr

structure Reading where
  cifs : Cifs
  reads : List ReadCall
  copied : Bytes

/-- What arrives while a read runs, and what becomes of its frames. -/
abbrev ReadServer := List ReadCall → Cifs → StreamingWorkerReadRequest →
  List Arrival × List WriteStep

def Reading.start (cifs : Cifs) : Reading := ⟨cifs, [], []⟩

def Reading.log (r : Reading) (cifs : Cifs) (request : StreamingWorkerReadRequest)
    (reply : Option Bytes) : Reading :=
  { r with cifs, reads := r.reads ++ [⟨request, reply⟩] }

def saturatingAdd (a b : ℕ) : ℕ := min (a + b) (2 ^ 64 - 1)

/-- The text of a `TryFromIntError`. -/
def outOfRange : String := "out of range integral type conversion attempted"

section

variable (formatError : Error → String) (server : ReadServer)

/-- `read_at` under a timeout. -/
def timedReadAt (handle : Handle) (offset : ℕ) (count : UInt32) : Fut String Reading Bytes := fun r =>
  let sent := server r.reads r.cifs ⟨offset, count.toNat⟩
  match Cifs.readAt handle offset count (r.cifs.arrive sent.1 sent.2) with
  | .ok chunk c => .ok chunk (r.log c ⟨offset, count.toNat⟩ (some chunk))
  | .error (.error e) c => .error (.error (formatError e)) (r.log c ⟨offset, count.toNat⟩ none)
  | .error .panic c => .error .panic (r.log c ⟨offset, count.toNat⟩ none)
  | .error .dropped c =>
    .error (.error "timeout while reading SMB media handle") (r.log c ⟨offset, count.toNat⟩ none)

/-- `u32::try_from` on the length of a read. -/
def readCount (readLen : ℕ) : Except String UInt32 :=
  if readLen < 2 ^ 32 then .ok (UInt32.ofNat readLen)
  else .error ("media read length conversion failed: " ++ outOfRange)

/-- The loop of `read_media_handle_at_for_session`. A chunk that is not empty leaves less to
read, whatever its length. -/
def readLoop (handle : Handle) (cursor remaining : ℕ) (output : Bytes) : Fut String Reading Bytes :=
  fun r =>
    if _h0 : remaining = 0 then .ok output r
    else
      match readCount (min remaining SMB_LEGACY_READ_MAX) with
      | .error e => .error (.error e) r
      | .ok count =>
        match timedReadAt formatError server handle cursor count r with
        | .error e r => .error e r
        | .ok chunk r =>
          if _hc : chunk = [] then .ok output r
          else
            readLoop handle (saturatingAdd cursor chunk.length) (remaining - chunk.length)
              (output ++ chunk) r
  termination_by remaining
  decreasing_by
    have := List.length_pos_of_ne_nil _hc
    omega

def readMediaHandleAtForSession (handle : Handle) (offset : UInt64) (requestedLen : ℕ) :
    Fut String Reading Bytes :=
  if requestedLen = 0 then pure []
  else if handle.size ≤ offset then pure []
  else
    let remainingFileBytes := handle.size.toNat - offset.toNat
    let remaining := min requestedLen (min remainingFileBytes usizeMax)
    if remaining = 0 then pure []
    else readLoop formatError server handle offset.toNat remaining []

/-- A session; its connection, if it is open, is the state of a call. -/
structure Session where
  isOpen : Bool
  deriving DecidableEq, Repr

/-- An open file; `none` for a null pointer and for a handle that was closed. -/
structure Media where
  session : Option Session
  handle : Option Handle
  deriving DecidableEq, Repr

/-- `i64::try_from` on the number of bytes read. -/
def bytesRead (n : ℕ) : Except String ℕ :=
  if n < 2 ^ 63 then .ok n else .error ("media read size conversion failed: " ++ outOfRange)

/-- The end of a call: as much as fits is copied, and counted. -/
def copyOut (requestedLen : ℕ) (bytes : Bytes) : Fut String Reading ℕ := do
  let bytesToCopy := min bytes.length requestedLen
  modify fun r => { r with copied := bytes.take bytesToCopy }
  ofExcept (bytesRead bytesToCopy)

def mediaReadAtFromC (media : Option Media) (offset : UInt64) (bufferIsNull : Bool)
    (bufferLen : UInt64) : Fut String Reading ℕ :=
  match media with
  | none => raise "media pointer is null"
  | some media =>
    if bufferIsNull then raise "output buffer pointer is null"
    else
      let requestedLen := bufferLen.toNat
      if requestedLen = 0 then pure 0
      else
        match media.handle with
        | none => raise "media handle is already closed"
        | some handle =>
          match media.session with
          | none => raise "media parent session pointer is null"
          | some session =>
            if !session.isOpen then raise "session is already closed"
            else do
              let bytes ← readMediaHandleAtForSession formatError server handle offset requestedLen
              copyOut requestedLen bytes

end

/-! ### One read -/

variable {formatError : Error → String} {server : ReadServer}

theorem timedReadAt_cases (handle : Handle) (offset : ℕ) (count : UInt32) (r : Reading) :
    (∃ chunk c, timedReadAt formatError server handle offset count r =
      .ok chunk (r.log c ⟨offset, count.toNat⟩ (some chunk))) ∨
    ∃ e c, timedReadAt formatError server handle offset count r =
      .error e (r.log c ⟨offset, count.toNat⟩ none) := by
  unfold timedReadAt
  dsimp only
  cases Cifs.readAt handle offset count
      (r.cifs.arrive (server r.reads r.cifs ⟨offset, count.toNat⟩).1
        (server r.reads r.cifs ⟨offset, count.toNat⟩).2) with
  | ok chunk c => exact Or.inl ⟨chunk, c, rfl⟩
  | error e c =>
    cases e with
    | error e => exact Or.inr ⟨_, c, rfl⟩
    | panic => exact Or.inr ⟨_, c, rfl⟩
    | dropped => exact Or.inr ⟨_, c, rfl⟩

/-- The length of the next read. -/
def readLen (remaining : ℕ) : ℕ := min remaining SMB_LEGACY_READ_MAX

theorem readLen_le (remaining : ℕ) : readLen remaining ≤ 65534 ∧ readLen remaining ≤ remaining :=
  ⟨Nat.min_le_right _ _, Nat.min_le_left _ _⟩

theorem readLen_pos {remaining : ℕ} (h : remaining ≠ 0) : 1 ≤ readLen remaining := by
  unfold readLen SMB_LEGACY_READ_MAX
  omega

theorem readLoop_zero (handle : Handle) (cursor : ℕ) (output : Bytes) (r : Reading) :
    readLoop formatError server handle cursor 0 output r = .ok output r := by
  rw [readLoop, dif_pos rfl]

theorem readLoop_round (handle : Handle) (cursor : ℕ) {remaining : ℕ} (h0 : remaining ≠ 0)
    (output : Bytes) (r : Reading) :
    readLoop formatError server handle cursor remaining output r =
      match timedReadAt formatError server handle cursor (UInt32.ofNat (readLen remaining)) r with
      | .error e r => .error e r
      | .ok chunk r =>
        if chunk = [] then .ok output r
        else readLoop formatError server handle (saturatingAdd cursor chunk.length)
          (remaining - chunk.length) (output ++ chunk) r := by
  have hle := readLen_le remaining
  have hcount : readCount (min remaining SMB_LEGACY_READ_MAX) =
      .ok (UInt32.ofNat (readLen remaining)) := by
    unfold readCount
    rw [if_pos (by change readLen remaining < _; omega)]
    rfl
  rw [readLoop, dif_neg h0, hcount]
  dsimp only
  cases timedReadAt formatError server handle cursor (UInt32.ofNat (readLen remaining)) r with
  | error e r' => rfl
  | ok chunk r' =>
    dsimp only
    by_cases hc : chunk = []
    · rw [dif_pos hc, if_pos hc]
    · rw [dif_neg hc, if_neg hc]

/-- The request of a round. -/
def nextRead (cursor remaining : ℕ) : StreamingWorkerReadRequest := ⟨cursor, readLen remaining⟩

/-- A round fails, ends the loop on an empty reply, or goes on behind its chunk. -/
theorem readLoop_cases (handle : Handle) (cursor : ℕ) {remaining : ℕ} (h0 : remaining ≠ 0)
    (output : Bytes) (r : Reading) :
    (∃ e c, readLoop formatError server handle cursor remaining output r =
      .error e (r.log c (nextRead cursor remaining) none)) ∨
    ∃ count chunk c, count.toNat = readLen remaining ∧
      timedReadAt formatError server handle cursor count r =
        .ok chunk (r.log c (nextRead cursor remaining) (some chunk)) ∧
      (chunk = [] ∧ readLoop formatError server handle cursor remaining output r =
          .ok output (r.log c (nextRead cursor remaining) (some [])) ∨
        chunk ≠ [] ∧ readLoop formatError server handle cursor remaining output r =
          readLoop formatError server handle (saturatingAdd cursor chunk.length)
            (remaining - chunk.length) (output ++ chunk)
            (r.log c (nextRead cursor remaining) (some chunk))) := by
  obtain ⟨hle, _⟩ := readLen_le remaining
  have hcount : (UInt32.ofNat (readLen remaining)).toNat = readLen remaining :=
    UInt32.toNat_ofNat_of_lt' (by change _ < 2 ^ 32; omega)
  have hround := @readLoop_round formatError server handle cursor remaining h0 output r
  rcases @timedReadAt_cases formatError server handle cursor (UInt32.ofNat (readLen remaining)) r with
    ⟨chunk, c, hread⟩ | ⟨e, c, hread⟩
  · rw [hcount] at hread
    rw [hread] at hround
    dsimp only at hround
    refine Or.inr ⟨_, chunk, c, hcount, hread, ?_⟩
    by_cases hc : chunk = []
    · subst hc
      exact Or.inl ⟨rfl, hround⟩
    · rw [if_neg hc] at hround
      exact Or.inr ⟨hc, hround⟩
  · rw [hcount] at hread
    rw [hread] at hround
    exact Or.inl ⟨e, c, hround⟩

/-! ### The loop -/

/-- What the reply brings, if there is one, is a prefix of what was asked for. -/
def ReadCall.Answered (F : Bytes) (read : ReadCall) : Prop :=
  ∀ chunk, read.reply = some chunk → chunk <+: slice F read.request.offset read.request.len

def ReadCall.Inside (F : Bytes) (read : ReadCall) : Prop :=
  1 ≤ read.request.len ∧ read.request.len ≤ 65534 ∧
    read.request.offset + read.request.len ≤ F.length

theorem log_reads (r : Reading) (c : Cifs) (request : StreamingWorkerReadRequest)
    (reply : Option Bytes) : (r.log c request reply).reads = r.reads ++ [⟨request, reply⟩] := rfl

theorem log_length (r : Reading) (c : Cifs) (request : StreamingWorkerReadRequest)
    (reply : Option Bytes) : (r.log c request reply).reads.length = r.reads.length + 1 := by
  rw [log_reads, List.length_append, List.length_singleton]

/-- Every round records one read and, unless it is the last, takes at least one byte. -/
theorem readLoop_grows (handle : Handle) (cursor remaining : ℕ) (output : Bytes) (r : Reading) :
    r.reads <+: (endState (readLoop formatError server handle cursor remaining output r)).reads ∧
      (endState (readLoop formatError server handle cursor remaining output r)).reads.length ≤
        r.reads.length + remaining ∧
      (endState (readLoop formatError server handle cursor remaining output r)).copied =
        r.copied := by
  induction remaining using Nat.strong_induction_on generalizing cursor output r with
  | _ remaining ih =>
    by_cases h0 : remaining = 0
    · subst h0
      rw [readLoop_zero]
      exact ⟨List.prefix_rfl, le_rfl, rfl⟩
    · have hlog : ∀ c request reply, r.reads <+: (r.log c request reply).reads :=
        fun c request reply => List.prefix_append _ _
      rcases @readLoop_cases formatError server handle cursor remaining h0 output r with
        ⟨e, c, hx⟩ | ⟨count, chunk, c, _, _, ⟨_, hx⟩ | ⟨hc, hx⟩⟩
      · rw [hx]
        exact ⟨hlog _ _ _, by rw [endState, log_length]; omega, rfl⟩
      · rw [hx]
        exact ⟨hlog _ _ _, by rw [endState, log_length]; omega, rfl⟩
      · have hpos := List.length_pos_of_ne_nil hc
        obtain ⟨hreads, hlen, hcopied⟩ := ih (remaining - chunk.length) (by omega)
          (saturatingAdd cursor chunk.length) (output ++ chunk)
          (r.log c (nextRead cursor remaining) (some chunk))
        rw [log_length] at hlen
        rw [hx]
        exact ⟨(hlog _ _ _).trans hreads, by omega, hcopied⟩

theorem mem_log {r : Reading} {c : Cifs} {request : StreamingWorkerReadRequest}
    {reply : Option Bytes} {read : ReadCall} :
    read ∈ (r.log c request reply).reads ↔ read ∈ r.reads ∨ read = ⟨request, reply⟩ := by
  rw [log_reads, List.mem_append, List.mem_singleton]

theorem nextRead_inside {F : Bytes} {cursor remaining : ℕ} (h0 : remaining ≠ 0)
    (hin : cursor + remaining ≤ F.length) (reply : Option Bytes) :
    ReadCall.Inside F ⟨nextRead cursor remaining, reply⟩ := by
  obtain ⟨hle, hrem⟩ := readLen_le remaining
  refine ⟨readLen_pos h0, hle, ?_⟩
  change cursor + readLen remaining ≤ F.length
  omega

/-- Behind a prefix of what was asked for, the rest lies inside the file. -/
theorem chunk_advances {F : Bytes} (hF : F.length < 2 ^ 64) {cursor remaining : ℕ}
    (hin : cursor + remaining ≤ F.length) {chunk : Bytes} (hc : chunk ≠ [])
    (hchunk : chunk <+: slice F cursor (readLen remaining)) :
    1 ≤ chunk.length ∧ chunk.length ≤ remaining ∧
      saturatingAdd cursor chunk.length = cursor + chunk.length := by
  obtain ⟨_, hrem⟩ := readLen_le remaining
  have hpos := List.length_pos_of_ne_nil hc
  have hlen := hchunk.length_le
  rw [slice_length] at hlen
  unfold saturatingAdd
  omega

/-- With prefixes for replies, the loop stays inside the file and gets what lies behind the
cursor: all of what remains, or less after an empty reply. -/
theorem readLoop_slice {F : Bytes} (hF : F.length < 2 ^ 64) (handle : Handle)
    (cursor remaining : ℕ) (output : Bytes) (r : Reading) (hin : cursor + remaining ≤ F.length)
    (hr : ∀ read ∈ r.reads, read.Inside F)
    (hans : ∀ read ∈ (endState (readLoop formatError server handle cursor remaining output r)).reads,
      read.Answered F) :
    (∀ read ∈ (endState (readLoop formatError server handle cursor remaining output r)).reads,
      read.Inside F) ∧
    ∀ out r', readLoop formatError server handle cursor remaining output r = .ok out r' →
      ∃ k ≤ remaining, out = output ++ slice F cursor k ∧
        (k = remaining ∨ ∃ read ∈ r'.reads, read.reply = some []) := by
  induction remaining using Nat.strong_induction_on generalizing cursor output r with
  | _ remaining ih =>
    by_cases h0 : remaining = 0
    · subst h0
      rw [readLoop_zero]
      refine ⟨hr, fun out r' h => ⟨0, le_rfl, ?_, Or.inl rfl⟩⟩
      cases h
      rw [slice_zero, List.append_nil]
    · have hlogged : ∀ c reply, ∀ read ∈ (r.log c (nextRead cursor remaining) reply).reads,
          read.Inside F := by
        intro c reply read hread
        rcases mem_log.mp hread with hread | rfl
        · exact hr read hread
        · exact nextRead_inside h0 hin reply
      rcases @readLoop_cases formatError server handle cursor remaining h0 output r with
        ⟨e, c, hx⟩ | ⟨count, chunk, c, _, _, ⟨_, hx⟩ | ⟨hc, hx⟩⟩
      · rw [hx]
        refine ⟨hlogged c none, fun out r' h => ?_⟩
        cases h
      · rw [hx]
        refine ⟨hlogged c (some []), fun out r' h => ⟨0, Nat.zero_le _, ?_, Or.inr ?_⟩⟩
        · cases h
          rw [slice_zero, List.append_nil]
        · cases h
          exact ⟨_, mem_log.mpr (Or.inr rfl), rfl⟩
      · rw [hx] at hans ⊢
        have hchunk : chunk <+: slice F cursor (readLen remaining) :=
          hans _ ((readLoop_grows _ _ _ _ _).1.subset (mem_log.mpr (Or.inr rfl))) chunk rfl
        have hslice := eq_slice F cursor (readLen remaining) chunk hchunk
        obtain ⟨hpos, hlen, hsat⟩ := chunk_advances hF hin hc hchunk
        rw [hsat] at hans ⊢
        obtain ⟨hinside, hok⟩ := ih (remaining - chunk.length) (by omega) (cursor + chunk.length)
          (output ++ chunk) (r.log c (nextRead cursor remaining) (some chunk)) (by omega)
          (hlogged c (some chunk)) hans
        refine ⟨hinside, fun out r' h => ?_⟩
        obtain ⟨k, hk, hout, hend⟩ := hok out r' h
        refine ⟨chunk.length + k, by omega, ?_, hend.imp (fun hfull => by omega) id⟩
        rw [hout, List.append_assoc, ← slice_append, ← hslice]

/-! ### The two functions -/

/-- How much there is to read. -/
def toRead (F : Bytes) (offset : UInt64) (requestedLen : ℕ) : ℕ :=
  min requestedLen (F.length - offset.toNat)

theorem readMedia_cases {F : Bytes} (handle : Handle) (hsize : handle.size.toNat = F.length)
    (offset : UInt64) (requestedLen : ℕ) :
    (toRead F offset requestedLen = 0 ∧
      readMediaHandleAtForSession formatError server handle offset requestedLen = pure []) ∨
    (offset.toNat + toRead F offset requestedLen ≤ F.length ∧
      readMediaHandleAtForSession formatError server handle offset requestedLen =
        readLoop formatError server handle offset.toNat (toRead F offset requestedLen) []) := by
  have hlt := handle.size.toNat_lt
  have hmin : min requestedLen (min (handle.size.toNat - offset.toNat) usizeMax) =
      toRead F offset requestedLen := by
    unfold toRead usizeMax
    omega
  unfold readMediaHandleAtForSession
  dsimp only
  rw [hmin]
  unfold toRead
  by_cases h0 : requestedLen = 0
  · rw [if_pos h0]
    exact Or.inl ⟨by omega, rfl⟩
  · rw [if_neg h0]
    by_cases hend : handle.size ≤ offset
    · have hend' := UInt64.le_iff_toNat_le.mp hend
      rw [if_pos hend]
      exact Or.inl ⟨by omega, rfl⟩
    · have hend' := mt UInt64.le_iff_toNat_le.mpr hend
      rw [if_neg hend, if_neg (by omega)]
      exact Or.inr ⟨by omega, rfl⟩

theorem readMedia_copied (handle : Handle) (offset : UInt64) (requestedLen : ℕ) (r : Reading) :
    (endState (readMediaHandleAtForSession formatError server handle offset requestedLen r)).copied =
      r.copied := by
  unfold readMediaHandleAtForSession
  dsimp only
  split
  · rfl
  · split
    · rfl
    · split
      · rfl
      · exact (readLoop_grows _ _ _ _ _).2.2

theorem copyOut_copied (requestedLen : ℕ) (bytes : Bytes) (r : Reading) :
    (endState (copyOut requestedLen bytes r)).copied.length ≤ requestedLen ∧
      ∀ n r', copyOut requestedLen bytes r = .ok n r' → n = r'.copied.length := by
  have htake : (bytes.take (min bytes.length requestedLen)).length =
      min bytes.length requestedLen := by
    rw [List.length_take]
    omega
  have hx : copyOut requestedLen bytes r =
      (ofExcept (bytesRead (min bytes.length requestedLen)) : Fut String Reading ℕ)
        { r with copied := bytes.take (min bytes.length requestedLen) } := rfl
  rw [hx]
  unfold bytesRead
  split
  · refine ⟨?_, fun n r' h => ?_⟩
    · change (bytes.take _).length ≤ _
      omega
    · cases h
      exact htake.symm
  · refine ⟨?_, fun n r' h => by cases h⟩
    change (bytes.take _).length ≤ _
    omega

/-- A call refuses its arguments, has nothing to do, or reads and copies. -/
theorem mediaRead_cases (media : Option Media) (offset : UInt64) (bufferIsNull : Bool)
    (bufferLen : UInt64) :
    (∃ text, mediaReadAtFromC formatError server media offset bufferIsNull bufferLen = raise text) ∨
    mediaReadAtFromC formatError server media offset bufferIsNull bufferLen = pure 0 ∨
    ∃ handle, mediaReadAtFromC formatError server media offset bufferIsNull bufferLen =
      readMediaHandleAtForSession formatError server handle offset bufferLen.toNat >>=
        copyOut bufferLen.toNat := by
  unfold mediaReadAtFromC
  cases media with
  | none => exact Or.inl ⟨_, rfl⟩
  | some media =>
    cases bufferIsNull with
    | true => exact Or.inl ⟨_, rfl⟩
    | false =>
      dsimp only
      rw [if_neg (by decide)]
      by_cases h0 : bufferLen.toNat = 0
      · rw [if_pos h0]
        exact Or.inr (Or.inl rfl)
      · rw [if_neg h0]
        cases media.handle with
        | none => exact Or.inl ⟨_, rfl⟩
        | some handle =>
          cases media.session with
          | none => exact Or.inl ⟨_, rfl⟩
          | some session =>
            dsimp only
            cases session.isOpen with
            | false => exact Or.inl ⟨_, rfl⟩
            | true => exact Or.inr (Or.inr ⟨handle, rfl⟩)

theorem mediaRead_copied (media : Option Media) (offset : UInt64) (bufferIsNull : Bool)
    (bufferLen : UInt64) (cifs : Cifs) :
    (endState (mediaReadAtFromC formatError server media offset bufferIsNull bufferLen
      (Reading.start cifs))).copied.length ≤ bufferLen.toNat ∧
    ∀ n r', mediaReadAtFromC formatError server media offset bufferIsNull bufferLen
      (Reading.start cifs) = .ok n r' → n = r'.copied.length := by
  rcases @mediaRead_cases formatError server media offset bufferIsNull bufferLen with ⟨text, hx⟩ | hx | ⟨handle, hx⟩
  · rw [hx]
    exact ⟨Nat.zero_le _, fun n r' h => by cases h⟩
  · rw [hx]
    refine ⟨Nat.zero_le _, fun n r' h => ?_⟩
    cases h
    rfl
  · have hcopied := @readMedia_copied formatError server handle offset
      bufferLen.toNat (Reading.start cifs)
    rw [hx, fut_bind]
    cases hread : readMediaHandleAtForSession formatError server handle offset bufferLen.toNat
      (Reading.start cifs) with
    | ok bytes r' => exact copyOut_copied _ _ _
    | error e r' =>
      rw [hread] at hcopied
      refine ⟨?_, fun n r2 h => by cases h⟩
      change r'.copied.length ≤ _
      change r'.copied = [] at hcopied
      rw [hcopied]
      exact Nat.zero_le _

/-! ### Servers that answer every read -/

/-- Nothing is put aside, and nothing but keepalives is unread. -/
structure Quiet (c : Cifs) : Prop where
  stored : ∀ mid, c.pendingReplies mid = none
  unread : readable c.netbios.incoming = some []

/-- For a read inside the file the server sends at most one message, under the id of the request;
if it is a successful reply it brings a prefix of what was asked for. -/
def Answers (F : Bytes) (server : ReadServer) : Prop :=
  ∀ reads (c : Cifs) request, ReadCall.Inside F ⟨request, none⟩ →
    ∃ ds, readable (server reads c request).1 = some ds ∧ ds.length ≤ 1 ∧
      ∀ d ∈ ds, d.mid = c.mid ∧ ∀ reply, parseReply Reply.Read d.reply = .ok reply →
        reply.data <+: slice F request.offset request.len

theorem readAt_inv {handle : Handle} {offset : ℕ} {count : UInt32} {c c' : Cifs} {chunk : Bytes}
    (hcount : count ≠ 0) (h : Cifs.readAt handle offset count c = .ok chunk c') :
    ∃ reply c1, Cifs.command Reply.Read (Msg.Read.handle handle (UInt64.ofNat offset) count) c =
      .ok reply c1 ∧ reply.data = chunk ∧ c'.pendingReplies = c1.pendingReplies ∧
      c'.netbios = c1.netbios := by
  unfold Cifs.readAt at h
  rw [if_neg hcount, bind_ok] at h
  obtain ⟨reply, c1, hcommand, hrest⟩ := h
  cases hrest
  exact ⟨reply, c1, hcommand, rfl, rfl, rfl⟩

theorem timedReadAt_answered {F : Bytes} (hs : Answers F server) {r r' : Reading}
    (hq : Quiet r.cifs) {handle : Handle} {offset : ℕ} {count : UInt32}
    (hin : ReadCall.Inside F ⟨⟨offset, count.toNat⟩, none⟩) {chunk : Bytes}
    (h : timedReadAt formatError server handle offset count r = .ok chunk r') :
    chunk <+: slice F offset count.toNat ∧ Quiet r'.cifs := by
  obtain ⟨ds, hread, hone, hds⟩ := hs r.reads r.cifs ⟨offset, count.toNat⟩ hin
  have hcount : count ≠ 0 := by
    intro h0
    have hpos : 1 ≤ count.toNat := hin.1
    rw [h0] at hpos
    exact absurd hpos (by decide)
  unfold timedReadAt at h
  dsimp only at h
  cases hx : Cifs.readAt handle offset count
    (r.cifs.arrive (server r.reads r.cifs ⟨offset, count.toNat⟩).1
      (server r.reads r.cifs ⟨offset, count.toNat⟩).2) with
  | error e c =>
    rw [hx] at h
    cases e with
    | error e => cases h
    | panic => cases h
    | dropped => cases h
  | ok bytes c =>
    rw [hx] at h
    cases h
    obtain ⟨reply, c1, hcommand, rfl, hstored, hnet⟩ := readAt_inv hcount hx
    have hholds : Holds (r.cifs.arrive (server r.reads r.cifs ⟨offset, count.toNat⟩).1
        (server r.reads r.cifs ⟨offset, count.toNat⟩).2) ⟨r.cifs.pendingReplies, ds⟩ [] :=
      ⟨rfl, _, (List.append_nil _).symm, readable_append _ _ ds hq.unread hread⟩
    obtain ⟨_, _, d, box, hrec, hparse, hex⟩ := Cifs.command_inv Reply.Read _ _ c1 _ [] hholds
      Cifs.silent_nil reply hcommand
    -- the one message that can be there is the reply
    obtain ⟨hd, rfl⟩ := Mailbox.receive_only Delivery.mid (hq.stored _) hone
      (fun x hx => (hds x hx).1) hrec
    refine ⟨(hds d hd).2 reply hparse, fun mid => ?_, ?_⟩
    · change c.pendingReplies mid = none
      rw [hstored, hex.holds.stored]
      exact hq.stored mid
    · obtain ⟨now, hnow, hunread⟩ := hex.holds.unread
      change readable c.netbios.incoming = some []
      rw [hnet, hnow, List.append_nil]
      exact hunread

theorem readLoop_answered {F : Bytes} (hF : F.length < 2 ^ 64) (hs : Answers F server)
    (handle : Handle) (cursor remaining : ℕ) (output : Bytes) (r : Reading) (hq : Quiet r.cifs)
    (hin : cursor + remaining ≤ F.length) (hr : ∀ read ∈ r.reads, read.Answered F) :
    ∀ read ∈ (endState (readLoop formatError server handle cursor remaining output r)).reads,
      read.Answered F := by
  induction remaining using Nat.strong_induction_on generalizing cursor output r with
  | _ remaining ih =>
    by_cases h0 : remaining = 0
    · subst h0
      rw [readLoop_zero]
      exact hr
    · have hlogged : ∀ c reply,
          ReadCall.Answered F ⟨nextRead cursor remaining, reply⟩ →
          ∀ read ∈ (r.log c (nextRead cursor remaining) reply).reads, read.Answered F := by
        intro c reply hreply read hread
        rcases mem_log.mp hread with hread | rfl
        · exact hr read hread
        · exact hreply
      rcases @readLoop_cases formatError server handle cursor remaining h0 output r with
        ⟨e, c, hx⟩ | ⟨count, chunk, c, hcount, hread, hend⟩
      · rw [hx]
        exact hlogged c none nofun
      · have hinside : ReadCall.Inside F ⟨⟨cursor, count.toNat⟩, none⟩ := by
          rw [hcount]
          exact nextRead_inside h0 hin none
        obtain ⟨hchunk, hquiet⟩ := timedReadAt_answered hs hq hinside hread
        rw [hcount] at hchunk
        have hthis : ReadCall.Answered F ⟨nextRead cursor remaining, some chunk⟩ :=
          fun b hb => Option.some.inj hb ▸ hchunk
        rcases hend with ⟨rfl, hx⟩ | ⟨hc, hx⟩
        · rw [hx]
          exact hlogged c (some []) hthis
        · obtain ⟨hpos, hlen, hsat⟩ := chunk_advances hF hin hc hchunk
          rw [hx, hsat]
          exact ih (remaining - chunk.length) (by omega) _ _ _ hquiet (by omega)
            (hlogged c (some chunk) hthis)

/-- On a quiet connection to a server that answers every read, all replies are prefixes. -/
theorem readMedia_answered {F : Bytes} (hs : Answers F server) {handle : Handle}
    (hsize : handle.size.toNat = F.length) (offset : UInt64) (requestedLen : ℕ) {cifs : Cifs}
    (hq : Quiet cifs) :
    ∀ read ∈ (endState (readMediaHandleAtForSession formatError server handle offset requestedLen
      (Reading.start cifs))).reads, read.Answered F := by
  have hnone : ∀ read ∈ (Reading.start cifs).reads, read.Answered F :=
    fun read hread => absurd hread List.not_mem_nil
  rcases @readMedia_cases formatError server F handle hsize offset requestedLen with ⟨_, hx⟩ | ⟨hin, hx⟩
  · rw [hx]
    exact hnone
  · rw [hx]
    exact readLoop_answered (hsize ▸ handle.size.toNat_lt) hs handle _ _ _ _ hq hin hnone

/-- With prefixes for replies, a positional read gets the part of the file asked for, and less of
it only after an empty reply; it reads inside the file, in at most as many reads as there are
bytes to get. Whatever the replies, no more is copied than the app's buffer holds. -/
theorem positional_read (formatError : Error → String) (server : ReadServer) (F : Bytes)
    (handle : Handle) (hsize : handle.size.toNat = F.length) (cifs : Cifs) (offset : UInt64)
    (requestedLen : ℕ)
    (hanswered : ∀ read ∈ (endState (readMediaHandleAtForSession formatError server handle offset
      requestedLen (Reading.start cifs))).reads, read.Answered F) :
    let r := readMediaHandleAtForSession formatError server handle offset requestedLen
      (Reading.start cifs)
    (∀ out r', r = .ok out r' → ∃ k ≤ toRead F offset requestedLen, out = slice F offset.toNat k ∧
      (k = toRead F offset requestedLen ∨ ∃ read ∈ r'.reads, read.reply = some [])) ∧
    (∀ read ∈ (endState r).reads, read.Inside F) ∧
    (endState r).reads.length ≤ toRead F offset requestedLen ∧
    ∀ (other : ReadServer) media bufferIsNull bufferLen,
      (endState (mediaReadAtFromC formatError other media offset bufferIsNull bufferLen
        (Reading.start cifs))).copied.length ≤ bufferLen.toNat := by
  have hcopied := fun (other : ReadServer) media bufferIsNull bufferLen =>
    (@mediaRead_copied formatError other media offset bufferIsNull bufferLen cifs).1
  have hnone : ∀ read ∈ (Reading.start cifs).reads, read.Inside F :=
    fun read hread => absurd hread List.not_mem_nil
  dsimp only
  rcases @readMedia_cases formatError server F handle hsize offset requestedLen with ⟨h0, hx⟩ | ⟨hin, hx⟩
  · rw [hx, h0]
    refine ⟨fun out r' h => ?_, hnone, le_rfl, hcopied⟩
    cases h
    exact ⟨0, le_rfl, (slice_zero F _).symm, Or.inl rfl⟩
  · rw [hx] at hanswered ⊢
    obtain ⟨hinside, hok⟩ := readLoop_slice (hsize ▸ handle.size.toNat_lt) handle _ _ [] _ hin hnone
      hanswered
    obtain ⟨_, hlen, _⟩ := @readLoop_grows formatError server handle
      offset.toNat (toRead F offset requestedLen) [] (Reading.start cifs)
    refine ⟨fun out r' h => ?_, hinside, by rwa [Reading.start, List.length_nil, Nat.zero_add] at hlen,
      hcopied⟩
    obtain ⟨k, hk, hout, hend⟩ := hok out r' h
    exact ⟨k, hk, by rw [hout, List.nil_append], hend⟩

/-- At most three bytes of what was asked for. -/
def threeAtOnce (F : Bytes) : ReadServer := fun _ c request =>
  ([.frame 0 (.Message (Cifs.readReply c.mid ((slice F request.offset request.len).take 3)))], [])

theorem threeAtOnce_answers (F : Bytes) : Answers F (threeAtOnce F) := by
  intro reads c request _
  have hlen : ((slice F request.offset request.len).take 3).length < 65536 := by
    rw [List.length_take]
    omega
  refine ⟨[Cifs.delivery 0 c.mid ((slice F request.offset request.len).take 3)], ?_, le_rfl, ?_⟩
  · simp only [threeAtOnce, readable, Cifs.readReply_frame, Option.map_some, Cifs.delivery]
  · intro d hd
    rw [List.mem_singleton.mp hd]
    refine ⟨rfl, fun reply hreply => ?_⟩
    change parseReply Reply.Read ⟨Cifs.readReplyInfo c.mid, Cifs.readReplyBody _⟩ = _ at hreply
    rw [Cifs.readReply_parse _ _ hlen] at hreply
    cases hreply
    exact List.take_prefix _ _

theorem positional_read_eight :
    let F : Bytes := [1, 2, 3, 4, 5, 6, 7, 8]
    let r := readMediaHandleAtForSession (fun _ => "") (threeAtOnce F) (Cifs.fileOfSize 8) 2 5
      (Reading.start (Cifs.fresh Cifs.noAuth))
    (∀ out r', r = .ok out r' → ∃ k ≤ 5, out = slice F 2 k ∧
      (k = 5 ∨ ∃ read ∈ r'.reads, read.reply = some [])) ∧
    (∀ read ∈ (endState r).reads, read.Inside F) ∧ (endState r).reads.length ≤ 5 := by
  have hquiet : Quiet (Cifs.fresh Cifs.noAuth) := ⟨fun _ => rfl, rfl⟩
  obtain ⟨hok, hinside, hlen, _⟩ := positional_read (fun _ => "") (threeAtOnce [1, 2, 3, 4, 5, 6, 7, 8])
    [1, 2, 3, 4, 5, 6, 7, 8] (Cifs.fileOfSize 8) rfl (Cifs.fresh Cifs.noAuth) 2 5
    (readMedia_answered (threeAtOnce_answers _) rfl 2 5 hquiet)
  exact ⟨hok, hinside, hlen⟩

end CifsClientStream.Ffi
