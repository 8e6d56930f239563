import CifsClientStream.Lib.Runs
import CifsClientStream.Stream.Planning

/-!
# The chunk buffer is a byte queue (struct `StreamingBuffer` of src/lib.rs)

Whatever chunks were pushed and however they were cut since, the buffer behaves
like its content (`QueueStep`), and its count is the length of the content. The
count has 64 bits: `stepChecked` is the same buffer with overflow checks.
-/

namespace CifsClientStream.Stream
open Cursor

inductive BufferOp where
  | push (chunk : Bytes)
  | popBytes (maxLen : ℕ)
  | popBlock (maxLen : ℕ)
  | clear
  deriving DecidableEq

/-- What an operation takes out of a queue of bytes and what it leaves. How much of what it may
take `popBytes` takes is left open: it stops where a chunk ends. -/
def QueueStep (content : Bytes) (op : BufferOp) (out : Option Bytes) (rest : Bytes) : Prop :=
  match op with
  | .push chunk => out = none ∧ rest = content ++ chunk
  | .popBytes maxLen =>
    match out with
    | none => (maxLen = 0 ∨ content = []) ∧ rest = content
    | some block => block ≠ [] ∧ block.length ≤ maxLen ∧ block ++ rest = content
  | .popBlock maxLen =>
    out = (if maxLen = 0 ∨ content = [] then none else some (content.take maxLen)) ∧
      rest = content.drop maxLen
  | .clear => out = none ∧ rest = []

namespace StreamingBuffer

def step (b : StreamingBuffer) : BufferOp → Option Bytes × StreamingBuffer
  | .push chunk => (none, b.push chunk)
  | .popBytes maxLen => b.popBytes maxLen
  | .popBlock maxLen => b.popBlock maxLen
  | .clear => (none, b.clear)

variable {b : StreamingBuffer}

theorem step_queue (h : b.Wrapped) (op : BufferOp) :
    (b.step op).2.Wrapped ∧ QueueStep b.content op (b.step op).1 (b.step op).2.content := by
  cases op with
  | push chunk =>
    obtain ⟨hwrapped, hcontent⟩ := push_wrapped h chunk
    exact ⟨hwrapped, rfl, hcontent⟩
  | popBytes maxLen =>
    by_cases h0 : maxLen = 0
    · simp only [step, popBytes, h0, if_true, QueueStep, true_or, and_self, and_true]
      exact h
    · have hpop := popBytes_wrapped h maxLen (by omega)
      rw [step]
      cases hb : b.popBytes maxLen with
      | mk r b' =>
        rw [hb] at hpop
        cases r with
        | none =>
          obtain ⟨hnil, rfl⟩ := hpop
          exact ⟨h, Or.inr (h.content_nil.mpr hnil), rfl⟩
        | some out =>
          obtain ⟨hwrapped, happ, hne, hle, _⟩ := hpop
          exact ⟨hwrapped, hne, hle, happ⟩
  | popBlock maxLen => exact popBlock_wrapped h maxLen
  | clear => exact ⟨new_wrapped, rfl, rfl⟩

theorem run_wrapped (ops : List BufferOp) : (Runs.run step new ops).2.Wrapped := by
  have hstep : ∀ (b : StreamingBuffer) (op : BufferOp), b.Wrapped → (b.step op).2.Wrapped :=
    fun _ op h => (step_queue h op).1
  exact Runs.run_invariant hstep new ops new_wrapped

/-! ### Overflow checks -/

def pushChecked (b : StreamingBuffer) (chunk : Bytes) : Option StreamingBuffer :=
  if chunk = [] then some b
  else do
    let buffered ← checkedAdd b.buffered chunk.length
    some { chunks := b.chunks ++ [chunk], buffered }

def popBytesChecked (b : StreamingBuffer) (maxLen : ℕ) : Option (Option Bytes × StreamingBuffer) :=
  if maxLen = 0 then some (none, b)
  else
    match b.chunks with
    | [] => some (none, b)
    | chunk :: rest =>
      if maxLen < chunk.length then do
        let buffered ← checkedSub b.buffered (chunk.take maxLen).length
        some (some (chunk.take maxLen), { chunks := chunk.drop maxLen :: rest, buffered })
      else do
        let buffered ← checkedSub b.buffered chunk.length
        some (some chunk, { chunks := rest, buffered })

def popLoopChecked (maxLen : ℕ) :
    ℕ → Bytes → StreamingBuffer → Option (Bytes × StreamingBuffer)
  | 0, out, b => some (out, b)
  | rounds + 1, out, b =>
    if out.length < maxLen then do
      match ← b.popBytesChecked (maxLen - out.length) with
      | (none, b) => some (out, b)
      | (some chunk, b) => popLoopChecked maxLen rounds (out ++ chunk) b
    else some (out, b)

def popBlockChecked (b : StreamingBuffer) (maxLen : ℕ) : Option (Option Bytes × StreamingBuffer) :=
  if maxLen = 0 then some (none, b)
  else do
    match ← b.popBytesChecked maxLen with
    | (none, b) => some (none, b)
    | (some first, b) =>
      if first.length = maxLen ∨ b.chunks = [] then some (some first, b)
      else do
        let (out, b) ← popLoopChecked maxLen b.chunks.length first b
        some (some out, b)

def stepChecked (b : StreamingBuffer) : BufferOp → Option (Option Bytes × StreamingBuffer)
  | .push chunk => (b.pushChecked chunk).map fun b => (none, b)
  | .popBytes maxLen => b.popBytesChecked maxLen
  | .popBlock maxLen => b.popBlockChecked maxLen
  | .clear => some (none, b.clear)

theorem pushChecked_eq (h : b.Counted) (chunk : Bytes)
    (hlen : (b.content ++ chunk).length < 2 ^ 64) : b.pushChecked chunk = some (b.push chunk) := by
  rw [List.length_append, h.length] at hlen
  unfold pushChecked push
  by_cases hc : chunk = []
  · rw [if_pos hc, if_pos hc]
  · rw [if_neg hc, if_neg hc, checkedAdd_eq _ _ hlen]
    rfl

theorem popBytesChecked_eq (h : b.Counted) (hlen : b.content.length < 2 ^ 64) (maxLen : ℕ) :
    b.popBytesChecked maxLen = some (b.popBytes maxLen) := by
  rw [h.length] at hlen
  unfold popBytesChecked popBytes
  by_cases h0 : maxLen = 0
  · rw [if_pos h0, if_pos h0]
  · rw [if_neg h0, if_neg h0]
    cases hb : b.chunks with
    | nil => rfl
    | cons chunk rest =>
      have hsum := h.buffered
      rw [hb, List.map_cons, List.sum_cons] at hsum
      dsimp only
      by_cases hlt : maxLen < chunk.length
      · have htake : (chunk.take maxLen).length ≤ chunk.length := List.length_take_le' _ _
        rw [if_pos hlt, if_pos hlt, checkedSub_eq _ _ (by omega) hlen]
        rfl
      · rw [if_neg hlt, if_neg hlt, checkedSub_eq _ _ (by omega) hlen]
        rfl

theorem popBytes_counted (h : b.Counted) (hlen : b.content.length < 2 ^ 64) {maxLen : ℕ}
    (hpos : 0 < maxLen) {out : Bytes} {b' : StreamingBuffer}
    (hpop : b.popBytes maxLen = (some out, b')) :
    b'.Counted ∧ b'.content.length < 2 ^ 64 := by
  have hcontent := popBytes_wrapped (h.wrapped (by rw [← h.length]; exact hlen)) maxLen hpos
  rw [hpop] at hcontent
  obtain ⟨hwrapped, happ, _⟩ := hcontent
  have hlen' : b'.content.length < 2 ^ 64 := by
    rw [← happ, List.length_append] at hlen
    omega
  exact ⟨hwrapped.counted hlen', hlen'⟩

theorem popLoopChecked_eq (maxLen rounds : ℕ) (out : Bytes) (b : StreamingBuffer) (h : b.Counted)
    (hlen : b.content.length < 2 ^ 64) :
    popLoopChecked maxLen rounds out b = some (popLoop maxLen rounds out b) := by
  induction rounds generalizing out b with
  | zero => rfl
  | succ rounds ih =>
    rw [popLoopChecked, popLoop]
    by_cases hlt : out.length < maxLen
    · rw [if_pos hlt, if_pos hlt, popBytesChecked_eq h hlen]
      cases hb : b.popBytes (maxLen - out.length) with
      | mk r b' =>
        cases r with
        | none => rfl
        | some chunk =>
          obtain ⟨hcounted, hlen'⟩ := popBytes_counted h hlen (by omega) hb
          exact ih (out ++ chunk) b' hcounted hlen'
    · rw [if_neg hlt, if_neg hlt]

theorem popBlockChecked_eq (h : b.Counted) (hlen : b.content.length < 2 ^ 64) (maxLen : ℕ) :
    b.popBlockChecked maxLen = some (b.popBlock maxLen) := by
  unfold popBlockChecked popBlock
  by_cases h0 : maxLen = 0
  · rw [if_pos h0, if_pos h0]
  · rw [if_neg h0, if_neg h0, popBytesChecked_eq h hlen]
    cases hb : b.popBytes maxLen with
    | mk r b' =>
      cases r with
      | none => rfl
      | some first =>
        obtain ⟨hcounted, hlen'⟩ := popBytes_counted h hlen (by omega) hb
        change (if first.length = maxLen ∨ b'.chunks = [] then some (some first, b') else _) =
          some (if first.length = maxLen ∨ b'.chunks = [] then (some first, b') else _)
        by_cases hfirst : first.length = maxLen ∨ b'.chunks = []
        · rw [if_pos hfirst, if_pos hfirst]
        · rw [if_neg hfirst, if_neg hfirst, popLoopChecked_eq _ _ _ _ hcounted hlen']
          rfl

/-- No count overflows or underflows while the content keeps to 64 bits. -/
theorem stepChecked_eq (h : b.Counted) (hlen : b.content.length < 2 ^ 64) (op : BufferOp)
    (hlen' : (b.step op).2.content.length < 2 ^ 64) : b.stepChecked op = some (b.step op) := by
  cases op with
  | push chunk =>
    have hcontent := (push_wrapped (h.wrapped (by rw [← h.length]; exact hlen)) chunk).2
    change (b.push chunk).content.length < 2 ^ 64 at hlen'
    rw [hcontent] at hlen'
    rw [stepChecked, pushChecked_eq h chunk hlen']
    rfl
  | popBytes maxLen => exact popBytesChecked_eq h hlen maxLen
  | popBlock maxLen => exact popBlockChecked_eq h hlen maxLen
  | clear => rfl

/-- The count is the length of the content. -/
def Exact (b : StreamingBuffer) : Prop :=
  b.bufferedLen = b.content.length ∧ (b.isEmpty = true ↔ b.content = [])

theorem Counted.exact (h : b.Counted) : b.Exact := by
  refine ⟨h.length.symm, ?_⟩
  unfold isEmpty
  rw [beq_iff_eq, ← h.length, List.length_eq_zero_iff]

end StreamingBuffer

/-- After any operations the buffer does what a byte queue does, and its count is the length of
the content (in 64 bits, which the content of a stream never leaves). -/
theorem buffer_refines_queue :
    (∀ (ops : List BufferOp) (op : BufferOp),
      let b := (Runs.run StreamingBuffer.step StreamingBuffer.new ops).2
      let r := b.step op
      QueueStep b.content op r.1 r.2.content ∧ b.bufferedLen = b.content.length % 2 ^ 64 ∧
        (b.content.length < 2 ^ 64 → b.Exact ∧
          (r.2.content.length < 2 ^ 64 → b.stepChecked op = some r))) ∧
    ∀ s, Reachable s → s.buffer.content.length < 2 ^ 64 ∧ s.buffer.Exact := by
  constructor
  · intro ops op
    have hwrapped := StreamingBuffer.run_wrapped ops
    refine ⟨(StreamingBuffer.step_queue hwrapped op).2, hwrapped.buffered, fun hlen => ?_⟩
    have hcounted := hwrapped.counted hlen
    exact ⟨hcounted.exact, StreamingBuffer.stepChecked_eq hcounted hlen op⟩
  · intro s hs
    have hinv := hs.inv.1
    have hlen := hinv.counted.length
    have hp := hinv.positions
    have hb := hinv.bound
    exact ⟨by omega, hinv.counted.exact⟩

end CifsClientStream.Stream
