import CifsClientStream.Stream.Invariant

/-!
# Servers that answer every read

Such a server sends one successful reply for each read of a batch, in any
order; what the payloads may be is a parameter. The connection is idle between
batches, so each batch returns the payloads in the order of its reads
(`readBatch_answered`). A chunk list `Follows` the file when it can be pushed
as it is: each chunk lies where the one before ends.
-/

namespace CifsClientStream.Stream
open Cursor hiding slice
open Async Smb Slice
open Cifs (Arrival WriteStep StreamingWorkerReadRequest Delivery readable readable_append Answered
  AllWritten)

/-! ### The connection between batches -/

/-- Nothing is put aside, nothing unread, and every frame gets written. -/
structure Idle (c : Cifs) : Prop where
  stored : ∀ mid, c.pendingReplies mid = none
  unread : readable c.netbios.incoming = some []
  written : AllWritten c

/-- Reads that a server can answer: inside the file, and not longer than a reply can be. -/
structure Sound (F : Bytes) (requests : List StreamingWorkerReadRequest) : Prop where
  depth : requests.length ≤ 16
  each : ∀ r ∈ requests, 0 < r.len ∧ r.len ≤ 65534 ∧ r.offset + r.len ≤ F.length

/-- For every batch the server sends one successful read reply for each request, in any order
and with keepalives in between; the payloads are `good`. -/
def Serves (F : Bytes) (good : List StreamingWorkerReadRequest → List Bytes → Prop)
    (server : Server) : Prop :=
  ∀ reads c requests, Sound F requests → ∃ replies payloads ds,
    replies.length = requests.length ∧ Answered c.mid replies payloads ∧
    readable (server reads c requests).1 = some ds ∧ ds.Perm replies ∧
    (∀ w ∈ (server reads c requests).2, w = .written) ∧ good requests payloads

variable {F : Bytes} {good : List StreamingWorkerReadRequest → List Bytes → Prop}
  {server : Server}

theorem readBatch_answered (hs : Serves F good server) (p : Playing) (hidle : Idle p.cifs)
    (requests : List StreamingWorkerReadRequest) (hne : requests ≠ []) (hsound : Sound F requests) :
    ∃ chunks c, readBatch server requests p = .ok chunks (p.logRead c requests (some chunks)) ∧
      Idle c ∧ chunks.length = requests.length ∧ good requests chunks := by
  obtain ⟨replies, payloads, ds, hn, ha, hread, hperm, hwrites, hgood⟩ :=
    hs p.reads p.cifs requests hsound
  obtain ⟨c, hr, hp, _, hun, hw⟩ := Cifs.batch_ok p.media.worker.stream.handle requests
    (p.cifs.arrive (server p.reads p.cifs requests).1 (server p.reads p.cifs requests).2)
    replies payloads hne (by have := hsound.depth; omega)
    (fun r hr => ⟨(hsound.each r hr).1, by have := (hsound.each r hr).2.1; omega⟩) hwrites
    (fun i _ => hidle.stored _) hn ha
    ⟨ds, readable_append _ _ ds hidle.unread hread, hperm⟩
  refine ⟨payloads, c, ?_, ⟨fun mid => ?_, hun, hw⟩, ha.length.symm.trans hn, hgood⟩
  · unfold readBatch
    dsimp only
    rw [hr]
  · rw [hp]
    exact hidle.stored mid

def served (F : Bytes) (requests : List StreamingWorkerReadRequest) : List Bytes :=
  requests.map fun r => slice F r.offset r.len

/-! ### A server that sends its replies in order -/

def repliesTo : UInt16 → List Bytes → List Arrival
  | _, [] => []
  | mid, payload :: rest =>
    .frame 0 (.Message (Cifs.readReply mid payload)) :: repliesTo (mid + 1) rest

def deliveriesTo : UInt16 → List Bytes → List Delivery
  | _, [] => []
  | mid, payload :: rest => Cifs.delivery 0 mid payload :: deliveriesTo (mid + 1) rest

def replyAll (payloads : List ReadBatch → List StreamingWorkerReadRequest → List Bytes) : Server :=
  fun reads cifs requests => (repliesTo cifs.mid (payloads reads requests), [])

theorem repliesTo_readable (mid : UInt16) (payloads : List Bytes) :
    readable (repliesTo mid payloads) = some (deliveriesTo mid payloads) := by
  induction payloads generalizing mid with
  | nil => rfl
  | cons payload rest ih =>
    simp only [repliesTo, deliveriesTo, readable, Cifs.readReply_frame, ih, Option.map_some,
      Cifs.delivery]

theorem deliveriesTo_length (mid : UInt16) (payloads : List Bytes) :
    (deliveriesTo mid payloads).length = payloads.length := by
  induction payloads generalizing mid with
  | nil => rfl
  | cons payload rest ih => rw [deliveriesTo, List.length_cons, List.length_cons, ih]

theorem deliveriesTo_answered (mid : UInt16) (payloads : List Bytes)
    (h : ∀ payload ∈ payloads, payload.length < 65536) :
    Answered mid (deliveriesTo mid payloads) payloads := by
  induction payloads generalizing mid with
  | nil => exact ⟨rfl, fun i d p hd _ => by cases hd⟩
  | cons payload rest ih =>
    have hpayload := Cifs.readReply_parse mid payload (h payload List.mem_cons_self)
    exact Answered.push (d := Cifs.delivery 0 mid payload) rfl hpayload
      (ih (mid + 1) fun p hp => h p (List.mem_cons_of_mem _ hp))

theorem replyAll_serves
    (payloads : List ReadBatch → List StreamingWorkerReadRequest → List Bytes)
    (h : ∀ reads requests, Sound F requests →
      (payloads reads requests).length = requests.length ∧
        (∀ payload ∈ payloads reads requests, payload.length < 65536) ∧
        good requests (payloads reads requests)) : Serves F good (replyAll payloads) := by
  intro reads c requests hsound
  obtain ⟨hlen, hshort, hgood⟩ := h reads requests hsound
  refine ⟨deliveriesTo c.mid (payloads reads requests), payloads reads requests,
    deliveriesTo c.mid (payloads reads requests), (deliveriesTo_length _ _).trans hlen,
    deliveriesTo_answered _ _ hshort, repliesTo_readable _ _, List.Perm.refl _,
    fun w hw => absurd hw List.not_mem_nil, hgood⟩

/-! ### Chunks that follow the file -/

/-- Chunks that continue the file from `source` on. -/
inductive Follows (F : Bytes) : ℕ → List Bytes → Prop
  | nil {source} : Follows F source []
  | cons {source chunk rest} (nonempty : chunk ≠ []) (inside : source + chunk.length ≤ F.length)
      (content : chunk = slice F source chunk.length)
      (hrest : Follows F (source + chunk.length) rest) : Follows F source (chunk :: rest)

theorem Follows.inside {source : ℕ} {chunks : List Bytes} (h : Follows F source chunks)
    (hend : F.length ≤ source) : chunks = [] := by
  cases h with
  | nil => rfl
  | cons nonempty inside _ _ =>
    have := List.length_pos_of_ne_nil nonempty
    omega

/-- The content of the buffer is what the file has between the two positions. -/
structure Mirrors (F : Bytes) (p : Playing) : Prop where
  inv : StreamInv p
  idle : Idle p.cifs
  valid : p.state.options.Valid
  size : p.state.fileSize = F.length
  content : p.state.content = slice F p.state.playbackPosition p.state.content.length

variable {p : Playing}

theorem Mirrors.source (h : Mirrors F p) :
    p.state.playbackPosition + p.state.content.length = p.state.sourcePosition := by
  rw [h.inv.state.content_length]
  exact h.inv.state.positions

theorem Mirrors.sound (h : Mirrors F p) (goal : ℕ) (hne : p.planned goal ≠ []) :
    Sound F (p.planned goal) ∧
      Planned p.state.options.streamOptions.effectiveChunkSize F.length
        (min goal p.state.options.highWatermark - p.state.buffer.buffered) p.state.sourcePosition
        (p.planned goal) := by
  obtain ⟨_, _, hplanned, hlen⟩ := next_planned h.inv.state h.valid goal
    p.state.options.pipelineDepth hne
  rw [h.size] at hplanned
  refine ⟨⟨hlen.trans h.valid.depth_le, fun r hr => ?_⟩, hplanned⟩
  have hle := p.state.options.streamOptions.effective_le
  obtain ⟨h1, h2, h3⟩ := hplanned.each r hr
  omega

theorem start_mirrors {stream : FileStream} {options : SmbMediaStreamOptions}
    {media : SmbMediaStream} (hpos : stream.position < 2 ^ 64) (hsize : stream.size = F.length)
    (hnew : SmbMediaStream.new stream options = .ok media) {cifs : Cifs} (hidle : Idle cifs) :
    Mirrors F (start media cifs) := by
  obtain ⟨_, _, hfile, hoptions, hvalid, _, _, hcontent⟩ := worker_inv hpos (media_new hnew).2.2
  refine ⟨start_inv hpos hnew cifs, hidle, ?_, hfile.trans hsize, ?_⟩
  · change media.worker.state.options.Valid
    rw [hoptions]
    exact hvalid
  · change media.worker.state.content = slice F _ media.worker.state.content.length
    rw [hcontent, List.length_nil, slice_zero]

theorem takeChunks_follows (chunks : List Bytes) (p : Playing) (h : Mirrors F p)
    (hf : Follows F p.state.sourcePosition chunks) :
    ∃ p', takeChunks chunks p = .ok ⟨⟩ p' ∧ Mirrors F p' ∧
      p'.state.playbackPosition = p.state.playbackPosition ∧
      p'.state.sourcePosition = p.state.sourcePosition + (chunks.map List.length).sum ∧
      p'.state.options = p.state.options ∧ p'.reads = p.reads ∧
      p'.media.options = p.media.options := by
  induction chunks generalizing p with
  | nil => exact ⟨p, rfl, h, rfl, rfl, rfl, rfl, rfl⟩
  | cons chunk rest ih =>
    cases hf with
    | cons nonempty inside content hrest =>
      have hfits := push_ok (s := p.state) nonempty (by rw [h.size]; exact inside)
      rcases takeChunk_cases chunk p h.inv.state with ⟨s, hpush, hr⟩ | ⟨e, hpush, _⟩
      · obtain ⟨_, hcontent, hsource, hplay, hsize, hoptions, _⟩ := push_inv h.inv.state hpush
        have hlen : s.content.length = p.state.content.length + chunk.length := by
          rw [hcontent, List.length_append]
        have hm : Mirrors F (p.took s) := by
          refine ⟨took_inv h.inv hpush, h.idle, ?_, hsize.trans h.size, ?_⟩
          · rw [Playing.took_state, hoptions]
            exact h.valid
          · rw [Playing.took_state, hplay, hlen, ← slice_append, ← h.content, h.source, ← content,
              hcontent]
        rw [takeChunks_ok _ _ _ _ hr]
        by_cases heof : (p.took s).state.isSourceEof = true
        · -- at the end of the file no chunk can follow
          have hend : s.fileSize ≤ s.sourcePosition := hm.inv.state.eof.mp heof
          rw [hsize, h.size, hsource] at hend
          have hnil := hrest.inside hend
          subst hnil
          rw [if_pos heof]
          exact ⟨p.took s, rfl, hm, hplay, by simp [hsource], hoptions, rfl, rfl⟩
        · obtain ⟨p', hok, hm', hplay', hsource', hoptions', hreads, hmedia⟩ :=
            ih (p.took s) hm (by rw [Playing.took_state, hsource]; exact hrest)
          rw [if_neg heof]
          rw [Playing.took_state] at hplay' hsource' hoptions'
          refine ⟨p', hok, hm', hplay'.trans hplay, ?_, hoptions'.trans hoptions, hreads, hmedia⟩
          rw [hsource', hsource, List.map_cons, List.sum_cons, Nat.add_assoc]
      · obtain ⟨s, hs⟩ := hfits
        rw [hs] at hpush
        cases hpush

end CifsClientStream.Stream
