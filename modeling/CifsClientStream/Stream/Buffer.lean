import CifsClientStream.Lib.Cursor
import CifsClientStream.Lib.Slice

/-!
# The chunk buffer (struct `StreamingBuffer` of src/lib.rs)

Chunks of data in order, with a count of their bytes kept beside them. Its
content is the chunks joined: `push` appends to it and `popBlock` takes from
its front, whatever the chunks and even if the count has left 64 bits
(`push_wrapped`, `popBlock_wrapped`).
-/

namespace CifsClientStream.Stream
open Cursor

/-- `+=` and `-=` on a 64-bit integer. -/
def addU64 (a b : ℕ) : ℕ := (a + b) % 2 ^ 64
def subU64 (a b : ℕ) : ℕ := (a + (2 ^ 64 - b % 2 ^ 64)) % 2 ^ 64

theorem addU64_eq (a b : ℕ) (h : a + b < 2 ^ 64) : addU64 a b = a + b := Nat.mod_eq_of_lt h

theorem subU64_eq (a b : ℕ) (hb : b ≤ a) (ha : a < 2 ^ 64) : subU64 a b = a - b := by
  unfold subU64
  rw [Nat.mod_eq_of_lt (by omega : b < 2 ^ 64)]
  omega

/-- The same with overflow checks. -/
def checkedAdd (a b : ℕ) : Option ℕ := if a + b < 2 ^ 64 then some (a + b) else none
def checkedSub (a b : ℕ) : Option ℕ := if b ≤ a then some (a - b) else none

theorem checkedAdd_eq (a b : ℕ) (h : a + b < 2 ^ 64) : checkedAdd a b = some (addU64 a b) := by
  unfold checkedAdd
  rw [if_pos h, addU64_eq a b h]

theorem checkedSub_eq (a b : ℕ) (hb : b ≤ a) (ha : a < 2 ^ 64) :
    checkedSub a b = some (subU64 a b) := by
  unfold checkedSub
  rw [if_pos hb, subU64_eq a b hb ha]

structure StreamingBuffer where
  chunks : List Bytes
  buffered : ℕ
  deriving DecidableEq, Repr

namespace StreamingBuffer

def new : StreamingBuffer := ⟨[], 0⟩

def bufferedLen (b : StreamingBuffer) : ℕ := b.buffered

def chunkCount (b : StreamingBuffer) : ℕ := b.chunks.length

def isEmpty (b : StreamingBuffer) : Bool := b.buffered == 0

def clear (_ : StreamingBuffer) : StreamingBuffer := ⟨[], 0⟩

def push (b : StreamingBuffer) (chunk : Bytes) : StreamingBuffer :=
  if chunk = [] then b
  else { chunks := b.chunks ++ [chunk], buffered := addU64 b.buffered chunk.length }

def popBytes (b : StreamingBuffer) (maxLen : ℕ) : Option Bytes × StreamingBuffer :=
  if maxLen = 0 then (none, b)
  else
    match b.chunks with
    | [] => (none, b)
    | chunk :: rest =>
      if maxLen < chunk.length then
        (some (chunk.take maxLen),
          { chunks := chunk.drop maxLen :: rest
            buffered := subU64 b.buffered (chunk.take maxLen).length })
      else (some chunk, { chunks := rest, buffered := subU64 b.buffered chunk.length })

/-- The loop of `pop_block`; each round takes a whole chunk or is the last one. -/
def popLoop (maxLen : ℕ) : ℕ → Bytes → StreamingBuffer → Bytes × StreamingBuffer
  | 0, out, b => (out, b)
  | rounds + 1, out, b =>
    if out.length < maxLen then
      match b.popBytes (maxLen - out.length) with
      | (none, b) => (out, b)
      | (some chunk, b) => popLoop maxLen rounds (out ++ chunk) b
    else (out, b)

def popBlock (b : StreamingBuffer) (maxLen : ℕ) : Option Bytes × StreamingBuffer :=
  if maxLen = 0 then (none, b)
  else
    match b.popBytes maxLen with
    | (none, b) => (none, b)
    | (some first, b) =>
      if first.length = maxLen ∨ b.chunks = [] then (some first, b)
      else
        let (out, b) := popLoop maxLen b.chunks.length first b
        (some out, b)

/-! ### Its content -/

def content (b : StreamingBuffer) : Bytes := b.chunks.flatten

/-- The count is right, and no chunk is empty. -/
structure Counted (b : StreamingBuffer) : Prop where
  buffered : b.buffered = (b.chunks.map List.length).sum
  nonempty : ∀ chunk ∈ b.chunks, chunk ≠ []

/-- The count is right up to overflows, and no chunk is empty. -/
structure Wrapped (b : StreamingBuffer) : Prop where
  buffered : b.buffered = b.content.length % 2 ^ 64
  nonempty : ∀ chunk ∈ b.chunks, chunk ≠ []

variable {b : StreamingBuffer}

theorem Counted.length (h : b.Counted) : b.content.length = b.buffered := by
  rw [content, List.length_flatten, h.buffered]

theorem Counted.wrapped (h : b.Counted) (hlen : b.buffered < 2 ^ 64) : b.Wrapped := by
  refine ⟨?_, h.nonempty⟩
  rw [h.length, Nat.mod_eq_of_lt hlen]

theorem Wrapped.counted (h : b.Wrapped) (hlen : b.content.length < 2 ^ 64) : b.Counted := by
  refine ⟨?_, h.nonempty⟩
  rw [h.buffered, Nat.mod_eq_of_lt hlen, content, List.length_flatten]

theorem Wrapped.content_nil (h : b.Wrapped) : b.content = [] ↔ b.chunks = [] := by
  constructor
  · intro hnil
    cases hc : b.chunks with
    | nil => rfl
    | cons chunk rest =>
      rw [content, hc, List.flatten_cons] at hnil
      exact absurd (List.append_eq_nil_iff.mp hnil).1 (h.nonempty chunk (by simp [hc]))
  · intro hnil
    rw [content, hnil, List.flatten_nil]

theorem new_counted : new.Counted := ⟨rfl, fun _ h => absurd h List.not_mem_nil⟩

theorem new_wrapped : new.Wrapped := new_counted.wrapped (Nat.two_pow_pos 64)

theorem addU64_mod (n k : ℕ) : addU64 (n % 2 ^ 64) k = (n + k) % 2 ^ 64 := by
  unfold addU64
  rw [Nat.mod_add_mod]

theorem subU64_mod (n k : ℕ) (h : k ≤ n) : subU64 (n % 2 ^ 64) k = (n - k) % 2 ^ 64 := by
  unfold subU64
  omega

theorem push_wrapped (h : b.Wrapped) (chunk : Bytes) :
    (b.push chunk).Wrapped ∧ (b.push chunk).content = b.content ++ chunk := by
  unfold push
  by_cases hc : chunk = []
  · rw [if_pos hc, hc]
    exact ⟨h, by rw [List.append_nil]⟩
  · rw [if_neg hc]
    have hcontent : content ⟨b.chunks ++ [chunk], addU64 b.buffered chunk.length⟩ =
        b.content ++ chunk := by
      rw [content, content, List.flatten_append, List.flatten_singleton]
    refine ⟨⟨?_, fun c hm => ?_⟩, hcontent⟩
    · rw [hcontent, List.length_append]
      change addU64 b.buffered chunk.length = _
      rw [h.buffered, addU64_mod]
    · rcases List.mem_append.mp hm with hm | hm
      · exact h.nonempty c hm
      · rw [List.mem_singleton.mp hm]
        exact hc

theorem push_counted (h : b.Counted) (chunk : Bytes) (hlen : b.buffered + chunk.length < 2 ^ 64) :
    (b.push chunk).Counted ∧ (b.push chunk).content = b.content ++ chunk ∧
      (b.push chunk).buffered = b.buffered + chunk.length := by
  obtain ⟨hwrapped, hcontent⟩ := push_wrapped (h.wrapped (by omega)) chunk
  have hlength : (b.push chunk).content.length = b.buffered + chunk.length := by
    rw [hcontent, List.length_append, h.length]
  have hcounted := hwrapped.counted (by omega)
  exact ⟨hcounted, hcontent, hcounted.length.symm.trans hlength⟩

/-- One chunk comes out, whole or in part. -/
theorem popBytes_wrapped (h : b.Wrapped) (maxLen : ℕ) (hpos : 0 < maxLen) :
    match b.popBytes maxLen with
    | (none, b') => b.chunks = [] ∧ b' = b
    | (some out, b') => b'.Wrapped ∧ out ++ b'.content = b.content ∧ out ≠ [] ∧
        out.length ≤ maxLen ∧ b'.chunks.length ≤ b.chunks.length ∧
        (out.length = maxLen ∨ b'.chunks.length + 1 = b.chunks.length) := by
  obtain ⟨chunks, buffered⟩ := b
  unfold popBytes
  rw [if_neg (by omega)]
  cases chunks with
  | nil => exact ⟨rfl, rfl⟩
  | cons chunk rest =>
    have hne := h.nonempty chunk List.mem_cons_self
    have hrest : ∀ c ∈ rest, c ≠ [] := fun c hc => h.nonempty c (List.mem_cons_of_mem _ hc)
    have hcontent : content ⟨chunk :: rest, buffered⟩ = chunk ++ rest.flatten := by
      rw [content, List.flatten_cons]
    have hcount : buffered = (chunk.length + rest.flatten.length) % 2 ^ 64 := by
      rw [← List.length_append, ← hcontent]
      exact h.buffered
    dsimp only
    rw [hcontent]
    by_cases hlt : maxLen < chunk.length
    · have htake : (chunk.take maxLen).length = maxLen := by
        rw [List.length_take, Nat.min_eq_left hlt.le]
      have hdrop : (chunk.drop maxLen).length = chunk.length - maxLen := List.length_drop
      rw [if_pos hlt, htake, hcount, subU64_mod _ _ (by omega)]
      refine ⟨⟨?_, fun c hc => ?_⟩, ?_, fun h0 => ?_, htake.le, le_rfl, Or.inl htake⟩
      · rw [content, List.flatten_cons, List.length_append, hdrop]
        change (chunk.length + rest.flatten.length - maxLen) % 2 ^ 64 = _
        rw [Nat.sub_add_comm hlt.le]
      · rcases List.mem_cons.mp hc with rfl | hc
        · apply List.ne_nil_of_length_pos
          omega
        · exact hrest c hc
      · rw [content, List.flatten_cons, ← List.append_assoc, List.take_append_drop]
      · rw [h0, List.length_nil] at htake
        omega
    · rw [if_neg hlt, hcount, subU64_mod _ _ (by omega), Nat.add_sub_cancel_left]
      refine ⟨⟨rfl, hrest⟩, rfl, hne, by omega, ?_, Or.inr ?_⟩
      · rw [List.length_cons]
        exact Nat.le_succ _
      · rw [List.length_cons]

theorem popLoop_wrapped (maxLen : ℕ) (rounds : ℕ) (out : Bytes) (b : StreamingBuffer)
    (h : b.Wrapped) (hr : b.chunks.length ≤ rounds) (ho : out.length ≤ maxLen) :
    (popLoop maxLen rounds out b).2.Wrapped ∧
      (popLoop maxLen rounds out b).1 ++ (popLoop maxLen rounds out b).2.content =
        out ++ b.content ∧
      (popLoop maxLen rounds out b).1.length ≤ maxLen ∧
      ((popLoop maxLen rounds out b).1.length = maxLen ∨
        (popLoop maxLen rounds out b).2.content = []) := by
  induction rounds generalizing out b with
  | zero =>
    have hc : b.chunks = [] := List.length_eq_zero_iff.mp (Nat.le_zero.mp hr)
    exact ⟨h, rfl, ho, Or.inr (h.content_nil.mpr hc)⟩
  | succ rounds ih =>
    by_cases hlt : out.length < maxLen
    · have hpop := popBytes_wrapped h (maxLen - out.length) (by omega)
      simp only [popLoop, hlt, if_true]
      cases hb : b.popBytes (maxLen - out.length) with
      | mk r b' =>
        rw [hb] at hpop
        cases r with
        | none =>
          obtain ⟨hnil, rfl⟩ := hpop
          exact ⟨h, rfl, ho, Or.inr (h.content_nil.mpr hnil)⟩
        | some chunk =>
          obtain ⟨hc, happ, hne, hle, hk, hdone⟩ := hpop
          have hout : (out ++ chunk).length ≤ maxLen := by
            rw [List.length_append]
            omega
          rcases hdone with hfull | hfewer
          · -- the block is full, so the loop stops whatever rounds are left
            have hstop : popLoop maxLen rounds (out ++ chunk) b' = (out ++ chunk, b') := by
              have hnot : ¬(out ++ chunk).length < maxLen := by
                rw [List.length_append]
                omega
              cases rounds with
              | zero => rfl
              | succ rounds => simp only [popLoop, hnot, if_false]
            dsimp only
            rw [hstop]
            refine ⟨hc, by rw [List.append_assoc, happ], hout, Or.inl ?_⟩
            rw [List.length_append]
            omega
          · obtain ⟨h1, h2, h3, h4⟩ := ih (out ++ chunk) b' hc (by omega) hout
            exact ⟨h1, by rw [h2, List.append_assoc, happ], h3, h4⟩
    · simp only [popLoop, hlt, if_false]
      exact ⟨h, trivial, ho, Or.inl (by omega)⟩

theorem take_drop_of_append (out rest whole : Bytes) (maxLen : ℕ) (h : out ++ rest = whole)
    (hle : out.length ≤ maxLen) (hdone : out.length = maxLen ∨ rest = []) :
    out = whole.take maxLen ∧ rest = whole.drop maxLen := by
  subst h
  rcases hdone with rfl | rfl
  · exact ⟨(List.take_left).symm, (List.drop_left).symm⟩
  · rw [List.append_nil]
    exact ⟨(List.take_of_length_le hle).symm, (List.drop_eq_nil_of_le hle).symm⟩

/-- `pop_block` takes the first `maxLen` bytes of the content, or as many as there are. -/
theorem popBlock_wrapped (h : b.Wrapped) (maxLen : ℕ) :
    (b.popBlock maxLen).2.Wrapped ∧
      (b.popBlock maxLen).1 =
        (if maxLen = 0 ∨ b.content = [] then none else some (b.content.take maxLen)) ∧
      (b.popBlock maxLen).2.content = b.content.drop maxLen := by
  by_cases h0 : maxLen = 0
  · simp only [popBlock, h0, if_true, true_or, List.drop_zero]
    exact ⟨h, trivial, trivial⟩
  · have hpop := popBytes_wrapped h maxLen (by omega)
    simp only [popBlock, h0, if_false, false_or]
    cases hb : b.popBytes maxLen with
    | mk r b' =>
      rw [hb] at hpop
      cases r with
      | none =>
        obtain ⟨hnil, rfl⟩ := hpop
        have hc : b'.content = [] := h.content_nil.mpr hnil
        exact ⟨h, by rw [if_pos hc], by rw [hc, List.drop_nil]⟩
      | some first =>
        obtain ⟨hc, happ, hne, hle, hk, hdone⟩ := hpop
        have hcontent : b.content ≠ [] := by
          rw [← happ]
          exact fun hnil => hne (List.append_eq_nil_iff.mp hnil).1
        rw [if_neg hcontent]
        dsimp only
        by_cases hfirst : first.length = maxLen ∨ b'.chunks = []
        · rw [if_pos hfirst]
          have hd : first.length = maxLen ∨ b'.content = [] := hfirst.imp id hc.content_nil.mpr
          obtain ⟨h1, h2⟩ := take_drop_of_append first _ _ maxLen happ hle hd
          exact ⟨hc, by rw [← h1], h2⟩
        · rw [if_neg hfirst]
          obtain ⟨h1, h2, h3, h4⟩ := popLoop_wrapped maxLen b'.chunks.length first b' hc le_rfl hle
          obtain ⟨h5, h6⟩ := take_drop_of_append _ _ _ maxLen (h2.trans happ) h3 h4
          exact ⟨h1, by rw [← h5], h6⟩

theorem popBlock_content (h : b.Counted) (hlen : b.buffered < 2 ^ 64) (maxLen : ℕ) :
    (b.popBlock maxLen).2.Counted ∧
      (b.popBlock maxLen).1 =
        (if maxLen = 0 ∨ b.content = [] then none else some (b.content.take maxLen)) ∧
      (b.popBlock maxLen).2.content = b.content.drop maxLen := by
  obtain ⟨hwrapped, hfirst, hcontent⟩ := popBlock_wrapped (h.wrapped hlen) maxLen
  refine ⟨hwrapped.counted ?_, hfirst, hcontent⟩
  rw [hcontent, List.length_drop, h.length]
  omega

end StreamingBuffer

end CifsClientStream.Stream
