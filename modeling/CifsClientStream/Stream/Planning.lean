import CifsClientStream.Stream.State

/-!
# The reads that are planned next (`next_buffered_read_requests` of src/lib.rs)

A batch of reads is planned from any state that pushes, pops and seeks lead to
(`Reachable`). It continues the file where the source stands, keeps to three
limits at once and stops only at one of them (`batch_planned`). The loop counts
in 64 bits; `planChecked` is the same loop with overflow checks.
-/

namespace CifsClientStream.Stream
open Cursor Smb
open Cifs (StreamingWorkerReadRequest)

/-! ### Reachable states -/

inductive Reachable : StreamingWorkerState → Prop
  | new {fileSize options s} (size : fileSize < 2 ^ 64)
      (created : StreamingWorkerState.new fileSize options = .ok s) : Reachable s
  | push {s s' chunk} (before : Reachable s) (pushed : s.pushSourceChunk chunk = .ok s') :
      Reachable s'
  | pop {s} (maxLen : ℕ) (before : Reachable s) : Reachable (s.popRead maxLen).2
  | seek {s s' pos next} (before : Reachable s) (moved : s.seek pos = .ok (next, s')) :
      Reachable s'

variable {s : StreamingWorkerState}

theorem Reachable.inv (h : Reachable s) : s.Inv ∧ s.options.Valid := by
  induction h with
  | new size created =>
    obtain ⟨hinv, _, hoptions, hvalid, _⟩ := new_inv size created
    rw [hoptions]
    exact ⟨hinv, hvalid⟩
  | push _ pushed ih =>
    obtain ⟨hinv, _, _, _, _, hoptions, _⟩ := push_inv ih.1 pushed
    rw [hoptions]
    exact ⟨hinv, ih.2⟩
  | pop maxLen _ ih =>
    obtain ⟨hinv, _, _, _, _, _, hoptions⟩ := pop_inv ih.1 maxLen
    rw [hoptions]
    exact ⟨hinv, ih.2⟩
  | seek _ moved ih =>
    obtain ⟨hinv, _, _, _, _, hoptions, _⟩ := seek_inv ih.1 moved
    rw [hoptions]
    exact ⟨hinv, ih.2⟩

/-! ### Overflow checks -/

namespace StreamingWorkerState

/-- The loop of `next_buffered_read_requests` with overflow checks. -/
def planChecked (bufferedGoal chunkSize fileSize : ℕ) :
    ℕ → ℕ → ℕ → Option (List StreamingWorkerReadRequest)
  | 0, _, _ => some []
  | max + 1, simulatedBuffered, simulatedSourcePosition =>
    if simulatedBuffered < bufferedGoal ∧ simulatedSourcePosition < fileSize then
      let free := bufferedGoal - simulatedBuffered
      if free = 0 then some []
      else
        let count := min free chunkSize
        let remaining := fileSize - simulatedSourcePosition
        let len := if usizeMax < remaining then count else min count remaining
        if len = 0 then some []
        else do
          let nextSource ← checkedAdd simulatedSourcePosition len
          let nextBuffered ← checkedAdd simulatedBuffered len
          let rest ← planChecked bufferedGoal chunkSize fileSize max nextBuffered nextSource
          some (⟨simulatedSourcePosition, len⟩ :: rest)
    else some []

def nextBufferedReadRequestsChecked (s : StreamingWorkerState) (bufferedGoal maxRequests : ℕ) :
    Option (List StreamingWorkerReadRequest) :=
  if maxRequests = 0 ∨ s.sourceEof ∨ s.fileSize ≤ s.sourcePosition then some []
  else planChecked (min bufferedGoal s.options.highWatermark)
    s.options.streamOptions.effectiveChunkSize s.fileSize maxRequests s.buffer.bufferedLen
    s.sourcePosition

end StreamingWorkerState

theorem planChecked_eq (bufferedGoal chunkSize fileSize max buffered source : ℕ)
    (hsize : fileSize < 2 ^ 64) (hb : buffered ≤ source) :
    StreamingWorkerState.planChecked bufferedGoal chunkSize fileSize max buffered source =
      some (StreamingWorkerState.plan bufferedGoal chunkSize fileSize max buffered source) := by
  induction max generalizing buffered source with
  | zero => rfl
  | succ max ih =>
    rw [StreamingWorkerState.planChecked, StreamingWorkerState.plan]
    by_cases hlt : buffered < bufferedGoal ∧ source < fileSize
    · rw [if_pos hlt, if_pos hlt]
      dsimp only
      have hroom : ¬usizeMax < fileSize - source := by
        unfold usizeMax
        omega
      rw [if_neg hroom]
      by_cases hfree : bufferedGoal - buffered = 0
      · rw [if_pos hfree, if_pos hfree]
      · rw [if_neg hfree, if_neg hfree]
        by_cases hlen : min (min (bufferedGoal - buffered) chunkSize) (fileSize - source) = 0
        · rw [if_pos hlen, if_pos hlen]
        · -- what is read lies inside the file, and no more is buffered than was read
          rw [if_neg hlen, if_neg hlen, checkedAdd_eq _ _ (by omega), checkedAdd_eq _ _ (by omega)]
          have hsource := addU64_eq source
            (min (min (bufferedGoal - buffered) chunkSize) (fileSize - source)) (by omega)
          have hbuffered := addU64_eq buffered
            (min (min (bufferedGoal - buffered) chunkSize) (fileSize - source)) (by omega)
          have hrest := ih (addU64 buffered _) (addU64 source _)
            (by rw [hsource, hbuffered]; exact Nat.add_le_add_right hb _)
          simp only [Option.bind_eq_bind, Option.bind_some, hrest]
    · rw [if_neg hlt, if_neg hlt]

/-- No addition overflows. -/
theorem nextChecked_eq (h : s.Inv) (bufferedGoal maxRequests : ℕ) :
    s.nextBufferedReadRequestsChecked bufferedGoal maxRequests =
      some (s.nextBufferedReadRequests bufferedGoal maxRequests) := by
  unfold StreamingWorkerState.nextBufferedReadRequestsChecked
    StreamingWorkerState.nextBufferedReadRequests
  by_cases hstop : maxRequests = 0 ∨ s.sourceEof = true ∨ s.fileSize ≤ s.sourcePosition
  · rw [if_pos hstop, if_pos hstop]
  · have hp := h.positions
    have hb : s.buffer.bufferedLen ≤ s.sourcePosition := by
      change s.buffer.buffered ≤ _
      omega
    rw [if_neg hstop, if_neg hstop]
    exact planChecked_eq _ _ _ _ _ _ h.size hb

/-! ### Where a batch ends -/

/-- Reads one after the other, the first of them at `source`. -/
def Contiguous : ℕ → List StreamingWorkerReadRequest → Prop
  | _, [] => True
  | source, r :: rest => r.offset = source ∧ Contiguous (source + r.len) rest

theorem Planned.contiguous {chunkSize fileSize room source : ℕ}
    {requests : List StreamingWorkerReadRequest}
    (h : Planned chunkSize fileSize room source requests) : Contiguous source requests := by
  induction h with
  | nil => exact trivial
  | cons _ _ _ _ _ ih => exact ⟨rfl, ih⟩

/-- One of the three limits is reached. -/
def Limited (s : StreamingWorkerState) (bufferedGoal maxRequests : ℕ)
    (requests : List StreamingWorkerReadRequest) : Prop :=
  requests.length = maxRequests ∨
    min bufferedGoal s.options.highWatermark ≤ s.bufferedLen + asked requests ∨
    s.fileSize ≤ s.sourcePosition + asked requests

theorem asked_cons (offset len : ℕ) (rest : List StreamingWorkerReadRequest) :
    asked (⟨offset, len⟩ :: rest) = len + asked rest := rfl

theorem plan_stops (bufferedGoal chunkSize fileSize max buffered source : ℕ)
    (hsize : fileSize < 2 ^ 64) (hb : buffered ≤ source) (hc : 0 < chunkSize) :
    let requests := StreamingWorkerState.plan bufferedGoal chunkSize fileSize max buffered source
    requests.length = max ∨ bufferedGoal ≤ buffered + asked requests ∨
      fileSize ≤ source + asked requests := by
  induction max generalizing buffered source with
  | zero => exact Or.inl rfl
  | succ max ih =>
    by_cases hlt : buffered < bufferedGoal ∧ source < fileSize
    · have hrest := ih (buffered + planLen bufferedGoal chunkSize fileSize buffered source)
        (source + planLen bufferedGoal chunkSize fileSize buffered source)
        (Nat.add_le_add_right hb _)
      dsimp only at hrest ⊢
      rw [plan_succ _ _ _ _ _ _ hsize hb hlt hc, List.length_cons, asked_cons]
      omega
    · rw [StreamingWorkerState.plan, if_neg hlt]
      dsimp only
      omega

theorem next_stops (h : s.Inv) (hv : s.options.Valid) (bufferedGoal maxRequests : ℕ) :
    Limited s bufferedGoal maxRequests (s.nextBufferedReadRequests bufferedGoal maxRequests) := by
  unfold Limited StreamingWorkerState.nextBufferedReadRequests
  by_cases hstop : maxRequests = 0 ∨ s.sourceEof = true ∨ s.fileSize ≤ s.sourcePosition
  · rw [if_pos hstop]
    rcases hstop with h0 | heof | hend
    · exact Or.inl h0.symm
    · exact Or.inr (Or.inr (Nat.le_add_right_of_le (h.eof.mp heof)))
    · exact Or.inr (Or.inr (Nat.le_add_right_of_le hend))
  · have hp := h.positions
    rw [if_neg hstop]
    apply plan_stops _ _ _ _ _ _ h.size _ hv.stream.effective_pos
    change s.buffer.buffered ≤ _
    omega

theorem next_nil_iff (h : s.Inv) (hv : s.options.Valid) (bufferedGoal maxRequests : ℕ) :
    s.nextBufferedReadRequests bufferedGoal maxRequests = [] ↔
      Limited s bufferedGoal maxRequests [] := by
  constructor
  · intro hnil
    have hstops := next_stops h hv bufferedGoal maxRequests
    rw [hnil] at hstops
    exact hstops
  · intro hlimit
    by_contra hne
    obtain ⟨hgoal, hfile, hplanned, hlen⟩ := next_planned h hv bufferedGoal maxRequests hne
    have hpos := List.length_pos_of_ne_nil hne
    change 0 = maxRequests ∨ _ ≤ s.buffer.buffered + 0 ∨ s.fileSize ≤ s.sourcePosition + 0 at hlimit
    omega

/-- A batch planned in a reachable state continues the file from the source position in reads of
1 to `chunkSize` bytes, stays inside the file, the goal and the number of requests, overflows
nowhere, and ends only where one of the limits is reached. -/
theorem batch_planned (h : Reachable s) (bufferedGoal maxRequests : ℕ) :
    let requests := s.nextBufferedReadRequests bufferedGoal maxRequests
    requests.length ≤ maxRequests ∧ Contiguous s.sourcePosition requests ∧
      (∀ r ∈ requests, 1 ≤ r.len ∧ r.len ≤ s.options.streamOptions.effectiveChunkSize ∧
        r.len ≤ 65534 ∧ r.offset + r.len ≤ s.fileSize) ∧
      s.bufferedLen + asked requests ≤
        max s.bufferedLen (min bufferedGoal s.options.highWatermark) ∧
      s.nextBufferedReadRequestsChecked bufferedGoal maxRequests = some requests ∧
      Limited s bufferedGoal maxRequests requests ∧
      (requests = [] ↔ maxRequests = 0 ∨
        min bufferedGoal s.options.highWatermark ≤ s.bufferedLen ∨
        s.fileSize ≤ s.sourcePosition) := by
  obtain ⟨hinv, hv⟩ := h.inv
  have hchecked := nextChecked_eq hinv bufferedGoal maxRequests
  have hstops := next_stops hinv hv bufferedGoal maxRequests
  have hnil := next_nil_iff hinv hv bufferedGoal maxRequests
  have hempty : Limited s bufferedGoal maxRequests [] ↔ maxRequests = 0 ∨
      min bufferedGoal s.options.highWatermark ≤ s.bufferedLen ∨
      s.fileSize ≤ s.sourcePosition :=
    or_congr eq_comm Iff.rfl
  rw [hempty] at hnil
  dsimp only
  by_cases hne : s.nextBufferedReadRequests bufferedGoal maxRequests = []
  · rw [hne] at hchecked hstops hnil ⊢
    exact ⟨Nat.zero_le _, trivial, fun r hr => absurd hr List.not_mem_nil, le_max_left _ _, hchecked,
      hstops, hnil⟩
  · obtain ⟨hgoal, _, hplanned, hlen⟩ := next_planned hinv hv bufferedGoal maxRequests hne
    have hasked := hplanned.asked_le
    have hle := s.options.streamOptions.effective_le
    refine ⟨hlen, hplanned.contiguous, fun r hr => ?_, ?_, hchecked, hstops, hnil⟩
    · obtain ⟨h1, h2, h3⟩ := hplanned.each r hr
      exact ⟨h1, h2, h2.trans hle, h3⟩
    · change s.buffer.buffered + _ ≤ max s.buffer.buffered _
      omega

def eightToRead : StreamingWorkerState where
  options := StreamingWorkerOptions.default
  buffer := StreamingBuffer.new
  playbackPosition := 0
  sourcePosition := 0
  fileSize := 8
  sourceEof := false

theorem batch_planned_eight :
    Contiguous 0 (eightToRead.nextBufferedReadRequests 5 16) ∧
      eightToRead.bufferedLen + asked (eightToRead.nextBufferedReadRequests 5 16) ≤ 5 ∧
      eightToRead.nextBufferedReadRequests 5 16 ≠ [] := by
  have hnew : StreamingWorkerState.new 8 StreamingWorkerOptions.default = .ok eightToRead := rfl
  have hsize : 8 < 2 ^ 64 := by decide
  obtain ⟨_, hcontiguous, _, hle, _, _, hnil⟩ := batch_planned (.new hsize hnew) 5 16
  refine ⟨hcontiguous, hle.trans (by decide), fun h => ?_⟩
  exact absurd (hnil.mp h) (by decide)

end CifsClientStream.Stream
