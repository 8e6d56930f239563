import CifsClientStream.Cifs.Run
import CifsClientStream.Stream.State

/-!
# A media stream on a connection (`StreamingWorker`, `SmbMediaStream` of src/lib.rs)

The worker reads ahead over the connection in batches. What a server sends for
a batch is given by a function of everything before (`Server`); the calls of a
player run one after the other (`step`), and each may be dropped while it waits
for the connection. `reads` records the batches and `levels` the fill of the
buffer after each chunk.
-/

namespace CifsClientStream.Stream
open Cursor Async Smb
open Cifs (Arrival WriteStep StreamingWorkerReadRequest readAtPipelined)

structure FileStream where
  handle : Handle
  position : ℕ

namespace FileStream

def new (handle : Handle) : FileStream := ⟨handle, 0⟩

def size (f : FileStream) : ℕ := f.handle.size.toNat

def seek (f : FileStream) (pos : SeekFrom) : Except Error (ℕ × FileStream) := do
  let position ← seekPosition f.size f.position pos
  .ok (position, { f with position })

end FileStream

structure StreamingWorker where
  stream : FileStream
  state : StreamingWorkerState

def StreamingWorker.new (stream : FileStream) (options : StreamingWorkerOptions) :
    Except Error StreamingWorker := do
  let state ← StreamingWorkerState.new stream.size options
  if stream.position ≠ 0 then
    let (_, state) ← state.seek (.start (UInt64.ofNat stream.position))
    .ok { stream, state }
  else .ok { stream, state }

structure SmbMediaStream where
  worker : StreamingWorker
  options : SmbMediaStreamOptions

def SmbMediaStream.new (stream : FileStream) (options : SmbMediaStreamOptions) :
    Except Error SmbMediaStream := do
  options.validate
  let worker ← StreamingWorker.new stream options.workerOptions
  .ok { worker, options }

/-- A batch of reads, how much was buffered and how much of the file remained when it was
sent, and its chunks if it succeeded. -/
structure ReadBatch where
  requests : List StreamingWorkerReadRequest
  buffered : ℕ
  remaining : ℕ
  chunks : Option (List Bytes)
  deriving DecidableEq, Repr

structure Playing where
  media : SmbMediaStream
  cifs : Cifs
  reads : List ReadBatch
  levels : List ℕ

/-- What arrives while a batch runs, and what becomes of its frames. -/
abbrev Server := List ReadBatch → Cifs → List StreamingWorkerReadRequest →
  List Arrival × List WriteStep

namespace Playing

def state (p : Playing) : StreamingWorkerState := p.media.worker.state

def withState (p : Playing) (state : StreamingWorkerState) : Playing :=
  { p with media := { p.media with worker := { p.media.worker with state } } }

def withStream (p : Playing) (stream : FileStream) : Playing :=
  { p with media := { p.media with worker := { p.media.worker with stream } } }

def logLevel (p : Playing) : Playing := { p with levels := p.levels ++ [p.state.bufferedLen] }

def logRead (p : Playing) (cifs : Cifs) (requests : List StreamingWorkerReadRequest)
    (chunks : Option (List Bytes)) : Playing :=
  { p with
    cifs
    reads := p.reads ++ [{
      requests
      buffered := p.state.bufferedLen
      remaining := p.state.fileSize - p.state.sourcePosition
      chunks }] }

@[simp] theorem withState_state (p : Playing) (s : StreamingWorkerState) :
    (p.withState s).state = s := rfl

end Playing

section

variable (server : Server)

/-- `read_at_pipelined` on the file of the stream. -/
def readBatch (requests : List StreamingWorkerReadRequest) : Fut Error Playing (List Bytes) :=
  fun p =>
    let sent := server p.reads p.cifs requests
    match readAtPipelined p.media.worker.stream.handle requests (p.cifs.arrive sent.1 sent.2) with
    | .ok chunks c => .ok chunks (p.logRead c requests (some chunks))
    | .error e c => .error e (p.logRead c requests none)

def seekStream (pos : SeekFrom) : Fut Error Playing Unit := do
  let stream := (← get).media.worker.stream
  let (_, stream) ← ofExcept (stream.seek pos)
  modify fun p => p.withStream stream

/-- One round of the loop over the chunks of a batch. -/
def takeChunk (chunk : Bytes) : Fut Error Playing Unit := do
  let state ← ofExcept ((← get).state.pushSourceChunk chunk)
  modify fun p => (p.withState state).logLevel
  seekStream (.start (UInt64.ofNat state.sourcePosition))

/-- The loop over the chunks; it ends early at the end of the file. -/
def takeChunks : List Bytes → Fut Error Playing Unit
  | [] => pure ()
  | chunk :: rest => do
    takeChunk chunk
    if (← get).state.isSourceEof then pure () else takeChunks rest

/-- The loop of `fill_until_buffered`, for at most `rounds` batches. -/
def fillLoop (bufferedGoal : ℕ) : ℕ → Bool → Fut Error Playing Bool
  | 0, _ => drop
  | rounds + 1, filled => do
    let state := (← get).state
    if state.isSourceEof then pure filled
    else
      let requests := state.nextBufferedReadRequests bufferedGoal state.options.pipelineDepth
      if requests = [] then pure filled
      else
        let chunks ← readBatch server requests
        if chunks = [] then pure filled
        else
          takeChunks chunks
          fillLoop bufferedGoal rounds true

/-- Every batch brings the source position forward, so the file size bounds the rounds. -/
def fillUntilBuffered (bufferedGoal : ℕ) : Fut Error Playing Bool := do
  let state := (← get).state
  fillLoop server bufferedGoal (state.fileSize - state.sourcePosition + 1) false

def prefillToHighWatermark : Fut Error Playing Bool := do
  fillUntilBuffered server (← get).state.options.highWatermark

def readAvailable (maxLen : ℕ) : Fut Error Playing (Option Bytes) := do
  let (block, state) := (← get).state.popRead maxLen
  modify fun p => p.withState state
  pure block

/-- `SmbMediaStream::read_block`, which is `StreamingWorker::read_block`. -/
def readBlock (maxLen : ℕ) : Fut Error Playing (Option Bytes) := do
  if maxLen = 0 then pure none
  else
    let state := (← get).state
    if state.bufferedLen < maxLen ∧ ¬state.isFinished then
      let _ ← fillUntilBuffered server (max maxLen state.options.lowWatermark)
      readAvailable maxLen
    else readAvailable maxLen

def seek (pos : SeekFrom) : Fut Error Playing ℕ := do
  let (next, state) ← ofExcept ((← get).state.seek pos)
  modify fun p => p.withState state
  seekStream (.start (UInt64.ofNat next))
  pure next

def fillInitialBuffer : Fut Error Playing Bool := do
  let goal := (← get).media.options.initialBufferSize
  if goal = 0 then pure false else fillUntilBuffered server goal

def maybePrefill : Fut Error Playing Bool := do
  if !(← get).state.shouldPrefill then pure false else prefillToHighWatermark server

theorem maybePrefill_apply (p : Playing) :
    maybePrefill server p = if p.state.shouldPrefill
      then fillUntilBuffered server p.state.options.highWatermark p else .ok false p := by
  have hget : maybePrefill server p =
      (if !p.state.shouldPrefill then (pure false : Fut Error Playing Bool)
        else prefillToHighWatermark server) p := rfl
  rw [hget]
  cases p.state.shouldPrefill with
  | false => rfl
  | true =>
    simp only [Bool.not_true, Bool.false_eq_true, if_false, if_true]
    unfold prefillToHighWatermark
    rw [fut_bind]
    rfl

/-! ### Calls -/

inductive StreamCall where
  | fillInitialBuffer
  | maybePrefill
  | readBlock (maxLen : ℕ)
  | seek (pos : SeekFrom)
  deriving DecidableEq

inductive Answer where
  | filled (filled : Bool)
  | block (block : Option Bytes)
  | position (next : ℕ)
  | stopped (e : Stop Error)
  deriving DecidableEq

/-- A call, the playback position at which it was made, and how it ended. -/
structure Event where
  call : StreamCall
  position : ℕ
  answer : Answer
  deriving DecidableEq

def answered {α : Type} (f : α → Answer) : EStateM.Result (Stop Error) Playing α → Answer × Playing
  | .ok a p => (f a, p)
  | .error e p => (.stopped e, p)

def StreamCall.run : StreamCall → Playing → Answer × Playing
  | .fillInitialBuffer, p => answered .filled (Stream.fillInitialBuffer server p)
  | .maybePrefill, p => answered .filled (Stream.maybePrefill server p)
  | .readBlock maxLen, p => answered .block (Stream.readBlock server maxLen p)
  | .seek pos, p => answered .position (Stream.seek pos p)

def step (p : Playing) (call : StreamCall) : Event × Playing :=
  let r := call.run server p
  (⟨call, p.state.playbackPosition, r.1⟩, r.2)

end

def start (media : SmbMediaStream) (cifs : Cifs) : Playing := ⟨media, cifs, [], []⟩

/-! ### Rules -/

section

variable {server : Server} {R : Playing → Playing → Prop}

theorem takeChunks_ok (chunk : Bytes) (rest : List Bytes) (p p' : Playing)
    (h : takeChunk chunk p = .ok ⟨⟩ p') :
    takeChunks (chunk :: rest) p =
      if p'.state.isSourceEof then .ok ⟨⟩ p' else takeChunks rest p' := by
  have hx : takeChunks (chunk :: rest) p =
      (if p'.state.isSourceEof then (pure () : Fut Error Playing Unit) else takeChunks rest) p' := by
    rw [takeChunks, fut_bind, h]
    rfl
  rw [hx]
  split
  · rfl
  · rfl

theorem takeChunks_error (chunk : Bytes) (rest : List Bytes) (p p' : Playing) (e : Stop Error)
    (h : takeChunk chunk p = .error e p') : takeChunks (chunk :: rest) p = .error e p' := by
  rw [takeChunks, fut_bind, h]

theorem takeChunk_reads (chunk : Bytes) :
    Moves (fun p p' => p'.reads = p.reads) (takeChunk chunk) := by
  have hchain : Chain fun p p' : Playing => p'.reads = p.reads :=
    ⟨fun _ => rfl, fun _ _ _ h h' => h'.trans h⟩
  refine (Moves.get hchain).bind hchain fun p => (Moves.ofExcept hchain _).bind hchain fun s => ?_
  refine Moves.bind hchain (Moves.modify fun _ => rfl) fun _ => ?_
  refine (Moves.get hchain).bind hchain fun q => (Moves.ofExcept hchain _).bind hchain fun r => ?_
  exact Moves.modify fun _ => rfl

theorem takeChunks_reads (chunks : List Bytes) :
    Moves (fun p p' => p'.reads = p.reads) (takeChunks chunks) := by
  have hchain : Chain fun p p' : Playing => p'.reads = p.reads :=
    ⟨fun _ => rfl, fun _ _ _ h h' => h'.trans h⟩
  induction chunks with
  | nil => exact Moves.pure hchain _
  | cons chunk rest ih =>
    exact (takeChunk_reads chunk).bind hchain fun _ => (Moves.get hchain).bind hchain fun _ =>
      (Moves.pure hchain _).ite ih

theorem readBatch_cases (server : Server) (requests : List StreamingWorkerReadRequest) (p : Playing) :
    (∃ chunks c, readBatch server requests p = .ok chunks (p.logRead c requests (some chunks))) ∨
      ∃ e c, readBatch server requests p = .error e (p.logRead c requests none) := by
  unfold readBatch
  dsimp only
  cases readAtPipelined p.media.worker.stream.handle requests
      (p.cifs.arrive (server p.reads p.cifs requests).1 (server p.reads p.cifs requests).2) with
  | ok chunks c => exact Or.inl ⟨chunks, c, rfl⟩
  | error e c => exact Or.inr ⟨e, c, rfl⟩

def Playing.planned (p : Playing) (bufferedGoal : ℕ) : List StreamingWorkerReadRequest :=
  p.state.nextBufferedReadRequests bufferedGoal p.state.options.pipelineDepth

theorem fillLoop_succ (bufferedGoal rounds : ℕ) (filled : Bool) (p : Playing) :
    fillLoop server bufferedGoal (rounds + 1) filled p =
      if p.state.isSourceEof = true ∨ p.planned bufferedGoal = [] then .ok filled p
      else (readBatch server (p.planned bufferedGoal) >>= fun chunks =>
        if chunks = [] then pure filled
        else takeChunks chunks >>= fun _ => fillLoop server bufferedGoal rounds true) p := by
  rw [fillLoop, fut_bind]
  change (if p.state.isSourceEof then _ else _ : Fut Error Playing Bool) p = _
  by_cases heof : p.state.isSourceEof = true
  · rw [if_pos heof, if_pos (Or.inl heof)]
    rfl
  · rw [if_neg heof]
    change (if p.planned bufferedGoal = [] then _ else _ : Fut Error Playing Bool) p = _
    by_cases hnil : p.planned bufferedGoal = []
    · rw [if_pos hnil, if_pos (Or.inr hnil)]
      rfl
    · rw [if_neg hnil, if_neg fun h => h.elim heof hnil]
      rfl

theorem fillLoop_moves (h : Chain R) (bufferedGoal : ℕ)
    (hstop : ∀ p c e, p.planned bufferedGoal ≠ [] →
      readBatch server (p.planned bufferedGoal) p =
        .error e (p.logRead c (p.planned bufferedGoal) none) →
      R p (p.logRead c (p.planned bufferedGoal) none))
    (hbatch : ∀ p c chunks, p.planned bufferedGoal ≠ [] →
      readBatch server (p.planned bufferedGoal) p =
        .ok chunks (p.logRead c (p.planned bufferedGoal) (some chunks)) →
      R p (endState (takeChunks chunks (p.logRead c (p.planned bufferedGoal) (some chunks)))))
    (rounds : ℕ) (filled : Bool) : Moves R (fillLoop server bufferedGoal rounds filled) := by
  induction rounds generalizing filled with
  | zero => exact Moves.drop h
  | succ rounds ih =>
    intro p
    rw [fillLoop_succ]
    by_cases hend : p.state.isSourceEof = true ∨ p.planned bufferedGoal = []
    · rw [if_pos hend]
      exact h.refl p
    · rw [if_neg hend, fut_bind]
      have hne : p.planned bufferedGoal ≠ [] := fun hnil => hend (Or.inr hnil)
      rcases readBatch_cases server (p.planned bufferedGoal) p with
        ⟨chunks, c, hr⟩ | ⟨e, c, hr⟩
      · have hb := hbatch p c chunks hne hr
        rw [hr]
        dsimp only
        split
        · rename_i hnil
          subst hnil
          exact hb
        · rw [fut_bind]
          cases ht : takeChunks chunks (p.logRead c (p.planned bufferedGoal) (some chunks)) with
          | ok u p' =>
            rw [ht] at hb
            exact h.trans _ _ _ hb (ih true p')
          | error e p' =>
            rw [ht] at hb
            exact hb
      · have hs := hstop p c e hne hr
        rw [hr]
        exact hs

theorem readBlock_cases (server : Server) (maxLen : ℕ) (p : Playing) (h : maxLen ≠ 0) :
    (∃ e p1, fillUntilBuffered server (max maxLen p.state.options.lowWatermark) p = .error e p1 ∧
      readBlock server maxLen p = .error e p1) ∨
    ∃ p1, ((¬(p.state.bufferedLen < maxLen ∧ ¬p.state.isFinished) ∧ p1 = p) ∨
        ∃ filled, fillUntilBuffered server (max maxLen p.state.options.lowWatermark) p =
          .ok filled p1) ∧
      readBlock server maxLen p = .ok (p1.state.popRead maxLen).1
        (p1.withState (p1.state.popRead maxLen).2) := by
  have hx : readBlock server maxLen p =
      (if p.state.bufferedLen < maxLen ∧ ¬p.state.isFinished then
        (fillUntilBuffered server (max maxLen p.state.options.lowWatermark) >>= fun _ =>
          readAvailable maxLen) else readAvailable maxLen) p := by
    unfold readBlock
    rw [if_neg h]
    rfl
  rw [hx]
  by_cases hfill : p.state.bufferedLen < maxLen ∧ ¬p.state.isFinished
  · rw [if_pos hfill, fut_bind]
    cases hr : fillUntilBuffered server (max maxLen p.state.options.lowWatermark) p with
    | ok filled p1 => exact Or.inr ⟨p1, Or.inr ⟨filled, rfl⟩, rfl⟩
    | error e p1 => exact Or.inl ⟨e, p1, rfl, rfl⟩
  · rw [if_neg hfill]
    exact Or.inr ⟨p, Or.inl ⟨hfill, rfl⟩, rfl⟩

theorem answered_moves {α : Type} (f : α → Answer) {x : Fut Error Playing α} (hx : Moves R x)
    (p : Playing) : R p (answered f (x p)).2 := by
  have hp := hx p
  cases hr : x p with
  | ok a p' =>
    rw [hr] at hp
    exact hp
  | error e p' =>
    rw [hr] at hp
    exact hp

theorem answered_noBlock {α : Type} (f : α → Answer) (hf : ∀ a b, f a ≠ .block (some b))
    (r : EStateM.Result (Stop Error) Playing α) (b : Bytes) :
    (answered f r).1 ≠ .block (some b) := by
  intro h
  cases r with
  | ok a p' => exact hf a b h
  | error e p' => cases h

theorem fillInitialBuffer_moves (h : Chain R)
    (hfill : ∀ goal, Moves R (fillUntilBuffered server goal)) : Moves R (fillInitialBuffer server) :=
  (Moves.get h).bind h fun _ => (Moves.pure h _).ite (hfill _)

theorem maybePrefill_moves (h : Chain R)
    (hfill : ∀ goal, Moves R (fillUntilBuffered server goal)) : Moves R (maybePrefill server) :=
  (Moves.get h).bind h fun _ => (Moves.pure h _).ite ((Moves.get h).bind h fun _ => hfill _)

theorem step_moves (h : Chain R) (hfill : ∀ goal, Moves R (fillUntilBuffered server goal))
    (hpop : ∀ p maxLen, R p (p.withState (p.state.popRead maxLen).2))
    (hseek : ∀ pos, Moves R (Stream.seek pos)) (p : Playing) (call : StreamCall) :
    R p (step server p call).2 := by
  have havail : ∀ maxLen, Moves R (readAvailable maxLen) := fun maxLen p => hpop p maxLen
  cases call with
  | fillInitialBuffer => exact answered_moves _ (fillInitialBuffer_moves h hfill) p
  | maybePrefill => exact answered_moves _ (maybePrefill_moves h hfill) p
  | readBlock maxLen =>
    refine answered_moves _ ((Moves.pure h _).ite ((Moves.get h).bind h fun p => ?_)) p
    exact ((hfill _).bind h fun _ => havail _).ite (havail _)
  | seek pos => exact answered_moves _ (hseek pos) p

end

end CifsClientStream.Stream
