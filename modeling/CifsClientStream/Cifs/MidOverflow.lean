import CifsClientStream.Cifs.Pipeline

/-!
# The counter of multiplex ids (`send` of src/lib.rs)

`send` takes the next id from a counter of 16 bits with `self.mid += 1`. Built
with overflow checks the client panics there when the counter is full:
`sendChecked` and the calls above it are the client built so. Every attempt to
send counts, whether the frame gets written or not.
-/

namespace CifsClientStream.Cifs
open Cursor Async Smb

/-- How a call fails when overflows are checked. -/
inductive CheckedError where
  | error (e : Error)
  | overflow
  deriving DecidableEq, Repr

def unchecked {α : Type} (x : Fut Error Cifs α) : Fut CheckedError Cifs α := fun c =>
  match x c with
  | .ok a c' => .ok a c'
  | .error e c' => .error (e.map .error) c'

def sendChecked {M : Type} [Msg M] (msg : M) : Fut CheckedError Cifs Ticket := fun c =>
  if c.mid = 65535 then .error (.error .overflow) c else unchecked (send msg) c

def commandChecked {M : Type} (R : Type) [Msg M] [Reply R] (msg : M) : Fut CheckedError Cifs R := do
  let ticket ← sendChecked msg
  unchecked (recv R ticket)

def readAtChecked (file : Handle) (offset : ℕ) (count : UInt32) : Fut CheckedError Cifs Bytes := do
  if count = 0 then pure []
  else do
    let reply ← commandChecked Reply.Read (Msg.Read.handle file (UInt64.ofNat offset) count)
    unchecked (recordRead reply.data.length)
    pure reply.data

def sendReadsChecked (file : Handle) :
    List StreamingWorkerReadRequest → Fut CheckedError Cifs (List Ticket)
  | [] => pure []
  | request :: rest => do
    let count ← unchecked (ofExcept (tryCount request.len))
    let ticket ← sendChecked (Msg.Read.handle file (UInt64.ofNat request.offset) count)
    let inFlight ← sendReadsChecked file rest
    pure (ticket :: inFlight)

def readAtPipelinedChecked (file : Handle) :
    List StreamingWorkerReadRequest → Fut CheckedError Cifs (List Bytes)
  | [] => pure []
  | [request] => do
    let count ← unchecked (ofExcept (tryCount request.len))
    let chunk ← readAtChecked file request.offset count
    pure [chunk]
  | requests => do
    let inFlight ← sendReadsChecked file requests
    unchecked (recvReads inFlight)

def transact2Checked {C : Type} (R : Type) [SubCmd C] [SubReply R] (tid : UInt16) (subcmd : C) :
    Fut CheckedError Cifs R := do
  let ticket ← sendChecked (Msg.Transact2.mk tid subcmd)
  let c ← get
  let ctx ← unchecked (collect ticket (c.netbios.incoming.length + 2) CollectTrans2.new)
  unchecked (lift (liftSmb (ctx.getSubreply R)))

def endedChecked {α : Type} :
    EStateM.Result (Stop CheckedError) Cifs α → Option (Stop CheckedError) × Cifs
  | .ok _ c => (none, c)
  | .error e c => (some e, c)

def Op.runChecked : Op → Cifs → Option (Stop CheckedError) × Cifs
  | @Op.command _ R _ _ msg, c => endedChecked (commandChecked R msg c)
  | .readAtPipelined file requests _, c => endedChecked (readAtPipelinedChecked file requests c)
  | @Op.transact2 _ R _ _ tid subcmd, c => endedChecked (transact2Checked R tid subcmd c)

def stepChecked (c : Cifs) (i : Input) : Option (Stop CheckedError) × Cifs :=
  i.op.runChecked (c.arrive i.arrivals i.writes)

/-! ### Counting what is sent -/

def sentReads (file : Handle) : List StreamingWorkerReadRequest → Cifs → ℕ
  | [], _ => 0
  | request :: rest, c =>
    match tryCount request.len with
    | .error _ => 0
    | .ok count =>
      match send (Msg.Read.handle file (UInt64.ofNat request.offset) count) c with
      | .ok _ c' => 1 + sentReads file rest c'
      | .error _ _ => 1

/-- How often an operation calls `send`. -/
def Op.sends : Op → Cifs → ℕ
  | @Op.command _ _ _ _ _, _ => 1
  | .readAtPipelined _ [] _, _ => 0
  | .readAtPipelined _ [request] _, _ =>
    match tryCount request.len with
    | .error _ => 0
    | .ok count => if count = 0 then 0 else 1
  | .readAtPipelined file (r1 :: r2 :: rest) _, c => sentReads file (r1 :: r2 :: rest) c
  | @Op.transact2 _ _ _ _ _ _, _ => 1

def totalSends : Cifs → List Input → ℕ
  | _, [] => 0
  | c, i :: rest => i.op.sends (c.arrive i.arrivals i.writes) + totalSends (step c i).2 rest

/-- `x'` is `x` with overflow checks, and `x` sends `n` times: if the counter has room for them
all, `x'` does what `x` does, and otherwise it overflows. -/
def Counts {α : Type} (x : Fut Error Cifs α) (x' : Fut CheckedError Cifs α) (n : Cifs → ℕ) : Prop :=
  ∀ c, (c.mid.toNat + n c ≤ 65535 →
      x' c = unchecked x c ∧ (endState (x c)).mid.toNat = c.mid.toNat + n c) ∧
    (65535 < c.mid.toNat + n c → ∃ c', x' c = .error (.error .overflow) c')

variable {α β : Type} {x : Fut Error Cifs α} {x' : Fut CheckedError Cifs α}
  {f : α → Fut Error Cifs β} {f' : α → Fut CheckedError Cifs β}

def SameMid (c c' : Cifs) : Prop := c'.mid = c.mid

theorem sameMid_receives : Receives SameMid where
  chain := ⟨fun _ => rfl, fun _ _ _ h h' => h'.trans h⟩
  incoming _ _ := rfl
  received _ _ := rfl
  stored _ _ _ := rfl
  handed _ _ _ := rfl
  recorded _ _ := rfl

theorem Counts.of_sameMid (h : Moves SameMid x) : Counts x (unchecked x) fun _ => 0 := by
  intro c
  have hmid : (endState (x c)).mid = c.mid := h c
  refine ⟨fun _ => ⟨rfl, by rw [hmid, Nat.add_zero]⟩, fun hover => ?_⟩
  have := c.mid.toNat_lt
  dsimp only at hover
  omega

theorem Counts.pure (a : α) : Counts (pure a) (pure a) fun _ => 0 :=
  Counts.of_sameMid (Moves.pure sameMid_receives.chain a)

theorem send_mid {M : Type} [Msg M] (msg : M) (c : Cifs) :
    (endState (send msg c)).mid = c.mid + 1 := by
  have h := send_ends msg c
  unfold Ends at h
  cases hs : send msg c with
  | ok t c' =>
    rw [hs] at h
    rw [endState, h.2]
    rfl
  | error e c' =>
    rw [hs] at h
    obtain ⟨writes, h⟩ := h
    rw [endState, h]
    rfl

theorem Counts.send {M : Type} [Msg M] (msg : M) :
    Counts (send msg) (sendChecked msg) fun _ => 1 := by
  intro c
  have hlt := c.mid.toNat_lt
  dsimp only
  constructor
  · intro hroom
    have hne : c.mid ≠ 65535 := by
      intro h
      rw [h] at hroom
      exact absurd hroom (by decide)
    refine ⟨by unfold sendChecked; rw [if_neg hne], ?_⟩
    rw [send_mid, UInt16.toNat_add, UInt16.toNat_one]
    omega
  · intro hover
    have hfull : c.mid = 65535 := UInt16.toNat_inj.mp (by change _ = 65535; omega)
    exact ⟨c, by unfold sendChecked; rw [if_pos hfull]⟩

theorem unchecked_bind (x : Fut Error Cifs α) (f : α → Fut Error Cifs β) (c : Cifs) :
    unchecked (x >>= f) c = match x c with
      | .ok a c' => unchecked (f a) c'
      | .error e c' => .error (e.map .error) c' := by
  unfold unchecked
  rw [fut_bind]
  cases x c with
  | ok a c' => rfl
  | error e c' => rfl

theorem Counts.bind {n : Cifs → ℕ} {m : α → Cifs → ℕ} (hx : Counts x x' n)
    (hf : ∀ a, Counts (f a) (f' a) (m a)) :
    Counts (x >>= f) (x' >>= f') fun c => n c + match x c with
      | .ok a c' => m a c'
      | .error _ _ => 0 := by
  intro c
  obtain ⟨hroom, hover⟩ := hx c
  rw [unchecked_bind, fut_bind, fut_bind]
  dsimp only
  by_cases hn : c.mid.toNat + n c ≤ 65535
  · obtain ⟨heq, hmid⟩ := hroom hn
    rw [heq, unchecked]
    cases hc : x c with
    | error e c' =>
      rw [hc] at hmid
      dsimp only
      exact ⟨fun _ => ⟨rfl, hmid⟩, fun h => by omega⟩
    | ok a c' =>
      rw [hc] at hmid
      obtain ⟨hroom', hover'⟩ := hf a c'
      change c'.mid.toNat = _ at hmid
      rw [hmid] at hroom' hover'
      dsimp only
      rw [← Nat.add_assoc]
      exact ⟨hroom', hover'⟩
  · obtain ⟨c', hc'⟩ := hover (by omega)
    rw [hc']
    exact ⟨fun h => by omega, fun _ => ⟨c', rfl⟩⟩

theorem Counts.congr {n n' : Cifs → ℕ} (h : Counts x x' n) (hn : ∀ c, n c = n' c) :
    Counts x x' n' := by
  rwa [← funext hn]

/-- What follows sends nothing. -/
theorem Counts.quiet {n : Cifs → ℕ} (hx : Counts x x' n) (hf : ∀ a, Moves SameMid (f a)) :
    Counts (x >>= f) (x' >>= fun a => unchecked (f a)) n := by
  refine (hx.bind fun a => .of_sameMid (hf a)).congr fun c => ?_
  cases x c with
  | ok a c' => rfl
  | error e c' => rfl

/-! ### What the operations send -/

theorem command_counts {M : Type} (R : Type) [Msg M] [Reply R] (msg : M) :
    Counts (command R msg) (commandChecked R msg) fun _ => 1 :=
  (Counts.send msg).quiet fun ticket => recv_moves sameMid_receives R ticket

theorem readAt_counts (file : Handle) (offset : ℕ) (count : UInt32) :
    Counts (readAt file offset count) (readAtChecked file offset count)
      fun _ => if count = 0 then 0 else 1 := by
  unfold readAt readAtChecked
  by_cases h0 : count = 0
  · simp only [if_pos h0]
    exact .pure _
  · simp only [if_neg h0]
    exact (command_counts Reply.Read _).quiet fun reply =>
      (recordRead_moves sameMid_receives _).bind sameMid_receives.chain fun _ =>
        Moves.pure sameMid_receives.chain _

theorem tryCount_counts {n : UInt32 → Cifs → ℕ} {g : UInt32 → Fut Error Cifs β}
    {g' : UInt32 → Fut CheckedError Cifs β} (len : ℕ) (hg : ∀ count, Counts (g count) (g' count) (n count)) :
    Counts (ofExcept (tryCount len) >>= g) (unchecked (ofExcept (tryCount len)) >>= g')
      fun c => match tryCount len with
        | .error _ => 0
        | .ok count => n count c := by
  have hquiet : Counts (ofExcept (tryCount len)) (unchecked (ofExcept (tryCount len))) fun _ => 0 :=
    .of_sameMid (Moves.ofExcept sameMid_receives.chain _)
  refine (hquiet.bind hg).congr fun c => ?_
  cases tryCount len with
  | error e => rfl
  | ok count => exact Nat.zero_add _

theorem sendReads_counts (file : Handle) (requests : List StreamingWorkerReadRequest) :
    Counts (sendReads file requests) (sendReadsChecked file requests) (sentReads file requests) := by
  induction requests with
  | nil => exact .pure _
  | cons request rest ih =>
    have hrest : ∀ ticket : Ticket, Counts
        (sendReads file rest >>= fun inFlight => (pure (ticket :: inFlight) : Fut Error Cifs _))
        (sendReadsChecked file rest >>= fun inFlight => pure (ticket :: inFlight))
        (sentReads file rest) :=
      fun ticket => ih.quiet fun _ => Moves.pure sameMid_receives.chain _
    refine (tryCount_counts request.len fun count =>
      (Counts.send (Msg.Read.handle file (UInt64.ofNat request.offset) count)).bind hrest).congr
        fun c => ?_
    rw [sentReads]
    cases tryCount request.len with
    | error e => rfl
    | ok count =>
      dsimp only
      cases send (Msg.Read.handle file (UInt64.ofNat request.offset) count) c with
      | ok t c' => rfl
      | error e c' => rfl

theorem single_counts (file : Handle) (request : StreamingWorkerReadRequest) :
    Counts (readAtPipelined file [request]) (readAtPipelinedChecked file [request])
      fun _ => match tryCount request.len with
        | .error _ => 0
        | .ok count => if count = 0 then 0 else 1 :=
  tryCount_counts request.len fun count =>
    (readAt_counts file request.offset count).quiet fun _ => Moves.pure sameMid_receives.chain _

theorem batch_counts (file : Handle) (r1 r2 : StreamingWorkerReadRequest)
    (rest : List StreamingWorkerReadRequest) :
    Counts (readAtPipelined file (r1 :: r2 :: rest)) (readAtPipelinedChecked file (r1 :: r2 :: rest))
      (sentReads file (r1 :: r2 :: rest)) :=
  (sendReads_counts file (r1 :: r2 :: rest)).quiet fun inFlight =>
    recvReads_moves sameMid_receives inFlight

theorem transact2_counts {C : Type} (R : Type) [SubCmd C] [SubReply R] (tid : UInt16)
    (subcmd : C) : Counts (transact2 R tid subcmd) (transact2Checked R tid subcmd) fun _ => 1 := by
  have hrest : ∀ ticket : Ticket, Counts
      (get >>= fun c => collect ticket (c.netbios.incoming.length + 2) CollectTrans2.new >>= fun ctx =>
        lift (liftSmb (ctx.getSubreply R)))
      (get >>= fun c => unchecked (collect ticket (c.netbios.incoming.length + 2) CollectTrans2.new) >>=
        fun ctx => unchecked (lift (liftSmb (ctx.getSubreply R)))) fun _ => 0 := by
    intro ticket c
    exact (Counts.of_sameMid (collect_moves sameMid_receives ticket
      (c.netbios.incoming.length + 2) CollectTrans2.new)).quiet
        (fun ctx => Moves.lift sameMid_receives.chain _) c
  refine ((Counts.send (Msg.Transact2.mk tid subcmd)).bind hrest).congr fun c => ?_
  cases send (Msg.Transact2.mk tid subcmd) c with
  | ok t c' => rfl
  | error e c' => rfl

/-- An operation that has room for its ids ends as without overflow checks. -/
structure Op.Roomy (op : Op) (c : Cifs) : Prop where
  outcome : (op.runChecked c).1 = (op.run c).1.map (Stop.map .error)
  state : (op.runChecked c).2 = (op.run c).2
  mid : (op.run c).2.mid.toNat = c.mid.toNat + op.sends c

theorem ended_counts {n : Cifs → ℕ} (h : Counts x x' n) (c : Cifs) :
    (c.mid.toNat + n c ≤ 65535 →
      (endedChecked (x' c)).1 = (ended (x c)).1.map (Stop.map .error) ∧
      (endedChecked (x' c)).2 = (ended (x c)).2 ∧
      (ended (x c)).2.mid.toNat = c.mid.toNat + n c) ∧
    (65535 < c.mid.toNat + n c → (endedChecked (x' c)).1 = some (.error .overflow)) := by
  obtain ⟨hroom, hover⟩ := h c
  constructor
  · intro hn
    obtain ⟨heq, hmid⟩ := hroom hn
    rw [heq, unchecked]
    cases hc : x c with
    | ok a c' =>
      rw [hc] at hmid
      exact ⟨rfl, rfl, hmid⟩
    | error e c' =>
      rw [hc] at hmid
      exact ⟨rfl, rfl, hmid⟩
  · intro hn
    obtain ⟨c', hc'⟩ := hover hn
    rw [hc']
    rfl

theorem Op.counts (op : Op) (c : Cifs) :
    (c.mid.toNat + op.sends c ≤ 65535 → op.Roomy c) ∧
      (65535 < c.mid.toNat + op.sends c → (op.runChecked c).1 = some (.error .overflow)) := by
  have hall : ∀ {α : Type} {x : Fut Error Cifs α} {x' : Fut CheckedError Cifs α},
      Counts x x' op.sends → op.run c = ended (x c) → op.runChecked c = endedChecked (x' c) →
      (c.mid.toNat + op.sends c ≤ 65535 → op.Roomy c) ∧
        (65535 < c.mid.toNat + op.sends c → (op.runChecked c).1 = some (.error .overflow)) := by
    intro α x x' hcounts hrun hchecked
    obtain ⟨hroom, hover⟩ := ended_counts hcounts c
    rw [← hrun, ← hchecked] at hroom
    rw [← hchecked] at hover
    exact ⟨fun h => ⟨(hroom h).1, (hroom h).2.1, (hroom h).2.2⟩, hover⟩
  cases op with
  | command R msg => exact hall (command_counts R msg) rfl rfl
  | transact2 R tid subcmd => exact hall (transact2_counts R tid subcmd) rfl rfl
  | readAtPipelined file requests depth =>
    cases requests with
    | nil => exact hall (.pure ([] : List Bytes)) rfl rfl
    | cons r1 rest =>
      cases rest with
      | nil => exact hall (single_counts file r1) rfl rfl
      | cons r2 rest => exact hall (batch_counts file r1 r2 rest) rfl rfl

/-! ### Runs -/

def NeverOverflows (c : Cifs) (inputs : List Input) : Prop :=
  ∀ o ∈ (Runs.run stepChecked c inputs).1, o ≠ some (.error .overflow)

theorem neverOverflows_iff (c : Cifs) (inputs : List Input) :
    NeverOverflows c inputs ↔ c.mid.toNat + totalSends c inputs ≤ 65535 := by
  induction inputs generalizing c with
  | nil =>
    have := c.mid.toNat_lt
    exact ⟨fun _ => by rw [totalSends]; omega, fun _ o ho => absurd ho List.not_mem_nil⟩
  | cons i rest ih =>
    have hmid : (c.arrive i.arrivals i.writes).mid = c.mid := rfl
    obtain ⟨hroom, hover⟩ := i.op.counts (c.arrive i.arrivals i.writes)
    rw [hmid] at hroom hover
    rw [NeverOverflows, Runs.run_cons, List.forall_mem_cons, totalSends]
    by_cases hn : c.mid.toNat + i.op.sends (c.arrive i.arrivals i.writes) ≤ 65535
    · have hroomy := hroom hn
      have hstate : (stepChecked c i).2 = (step c i).2 := hroomy.state
      have hnext : (step c i).2.mid.toNat = _ := hroomy.mid
      have hfirst : (stepChecked c i).1 ≠ some (.error .overflow) := by
        rw [show (stepChecked c i).1 = _ from hroomy.outcome]
        intro h
        obtain ⟨e, _, he⟩ := Option.map_eq_some_iff.mp h
        cases e with
        | error e => cases he
        | panic => cases he
        | dropped => cases he
      have hrest := ih (step c i).2
      rw [hnext, hmid, NeverOverflows] at hrest
      rw [hstate, hrest, Nat.add_assoc]
      exact and_iff_right hfirst
    · have hfirst : (stepChecked c i).1 = some (.error .overflow) := hover (by omega)
      exact ⟨fun h => absurd hfirst h.1, fun h => by omega⟩

/-- The counter of a new connection never overflows exactly as long as at most 65535 requests
are sent on it. -/
theorem mid_overflow_iff (auth : Ntlm.Auth) (inputs : List Input) :
    NeverOverflows (fresh auth) inputs ↔ totalSends (fresh auth) inputs ≤ 65535 := by
  have h := neverOverflows_iff (fresh auth) inputs
  have h0 : (fresh auth).mid.toNat = 0 := rfl
  rwa [h0, Nat.zero_add] at h

theorem totalSends_single (inputs : List Input) (h : ∀ i ∈ inputs, ∀ c, i.op.sends c = 1) (c : Cifs) :
    totalSends c inputs = inputs.length := by
  induction inputs generalizing c with
  | nil => rfl
  | cons i rest ih =>
    rw [totalSends, h i List.mem_cons_self, ih fun j hj => h j (List.mem_cons_of_mem _ hj),
      List.length_cons, Nat.add_comm]

/-- The `i`-th read of a file in chunks of 65534 bytes, and its reply. -/
def chunkRead (i : ℕ) : Input where
  op := .readAtPipelined (fileOfSize 4294836224) [⟨i * 65534, 65534⟩] (Nat.le_of_ble_eq_true rfl)
  arrivals := [.frame i (.Message (readReply (UInt16.ofNat i) (putBytes 0 65534)))]
  writes := []

theorem chunkRead_sends (i : ℕ) (c : Cifs) : (chunkRead i).op.sends c = 1 := by
  have hcount : tryCount 65534 = .ok 65534 := rfl
  have hne : (65534 : UInt32) ≠ 0 := by decide
  change (match tryCount 65534 with
    | .error _ => 0
    | .ok count => if count = 0 then 0 else 1) = 1
  rw [hcount]
  exact if_neg hne

/-- A file of 65536 chunks is not read to its end. -/
theorem mid_overflows : ¬NeverOverflows (fresh noAuth) ((List.range 65536).map chunkRead) := by
  have hsingle : ∀ i ∈ (List.range 65536).map chunkRead, ∀ c, i.op.sends c = 1 := by
    intro i hi
    obtain ⟨k, _, rfl⟩ := List.mem_map.mp hi
    exact chunkRead_sends k
  have hmid : (fresh noAuth).mid.toNat = 0 := rfl
  rw [neverOverflows_iff, totalSends_single _ hsingle, List.length_map, List.length_range, hmid]
  decide

end CifsClientStream.Cifs
