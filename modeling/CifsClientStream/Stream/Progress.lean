import CifsClientStream.Stream.Invariant

/-!
# A fill ends, and brings what it can (`fill_until_buffered` of src/lib.rs)

Each round of the loop ends the call or brings the source position forward
(`fillLoop_round`), so the number of rounds is bounded by what is left of the
file, whatever the server answers. A fill that returns leaves the buffer at the
goal or the file read to its end (`fill_delivers`).
-/

namespace CifsClientStream.Stream
open Cursor Async Smb
open Cifs (StreamingWorkerReadRequest)

variable {server : Server} {p p' : Playing}

/-! ### What a fill may change -/

/-- More of the file has been read, and nothing else has changed. -/
structure Fed (p p' : Playing) : Prop where
  inv : StreamInv p'
  size : p'.state.fileSize = p.state.fileSize
  options : p'.state.options = p.state.options
  read : ∃ more, p'.state.content = p.state.content ++ more ∧
    p'.state.sourcePosition = p.state.sourcePosition + more.length

theorem Fed.refl (h : StreamInv p) : Fed p p :=
  ⟨h, rfl, rfl, [], (List.append_nil _).symm, rfl⟩

theorem Fed.trans {p'' : Playing} (h : Fed p p') (h' : Fed p' p'') : Fed p p'' := by
  obtain ⟨more, hcontent, hsource⟩ := h.read
  obtain ⟨more', hcontent', hsource'⟩ := h'.read
  refine ⟨h'.inv, h'.size.trans h.size, h'.options.trans h.options, more ++ more', ?_, ?_⟩
  · rw [hcontent', hcontent, List.append_assoc]
  · rw [hsource', hsource, List.length_append, Nat.add_assoc]

theorem Fed.forward (h : Fed p p') : p.state.sourcePosition ≤ p'.state.sourcePosition := by
  obtain ⟨more, _, hsource⟩ := h.read
  omega

theorem Fed.ended (h : Fed p p') (hend : p.state.fileSize ≤ p.state.sourcePosition) :
    p'.state.fileSize ≤ p'.state.sourcePosition := by
  have hsize := h.size
  have hforward := h.forward
  omega

theorem logRead_fed (h : StreamInv p) (c : Cifs) (requests : List StreamingWorkerReadRequest)
    (chunks : Option (List Bytes)) : Fed p (p.logRead c requests chunks) :=
  ⟨⟨h.state, h.size, h.position⟩, rfl, rfl, [], (List.append_nil _).symm, rfl⟩

theorem took_fed {chunk : Bytes} {s : StreamingWorkerState} (h : StreamInv p)
    (hpush : p.state.pushSourceChunk chunk = .ok s) : Fed p (p.took s) := by
  obtain ⟨_, hcontent, hsource, _, hsize, hoptions, _⟩ := push_inv h.state hpush
  exact ⟨took_inv h hpush, hsize, hoptions, chunk, hcontent, hsource⟩

/-! ### The chunks of a batch -/

/-- Chunks are taken or refused; a refused chunk is an error, and what came before it stays. -/
theorem takeChunks_fed (chunks : List Bytes) (p : Playing) (h : StreamInv p) :
    Ends (takeChunks chunks) p (fun _ => Fed p) fun e p' => (∃ e', e = .error e') ∧ Fed p p' := by
  induction chunks generalizing p with
  | nil => exact Fed.refl h
  | cons chunk rest ih =>
    rcases takeChunk_cases chunk p h.state with ⟨s, hpush, hr⟩ | ⟨e, _, hr⟩
    · have hfed := took_fed h hpush
      unfold Ends
      rw [takeChunks_ok _ _ _ _ hr]
      by_cases heof : (p.took s).state.isSourceEof = true
      · rw [if_pos heof]
        exact hfed
      · rw [if_neg heof]
        exact (ih (p.took s) hfed.inv).mono (fun _ _ h' => hfed.trans h')
          fun _ _ h' => ⟨h'.1, hfed.trans h'.2⟩
    · unfold Ends
      rw [takeChunks_error _ _ _ _ _ hr]
      exact ⟨⟨e, rfl⟩, Fed.refl h⟩

theorem takeChunks_reads_eq (chunks : List Bytes) (p : Playing) (h : StreamInv p) :
    (endState (takeChunks chunks p)).reads = p.reads := by
  induction chunks generalizing p with
  | nil => rfl
  | cons chunk rest ih =>
    rcases takeChunk_cases chunk p h.state with ⟨s, hpush, hr⟩ | ⟨e, _, hr⟩
    · rw [takeChunks_ok _ _ _ _ hr]
      split
      · rfl
      · exact ih (p.took s) (took_inv h hpush)
    · rw [takeChunks_error _ _ _ _ _ hr]
      rfl

/-- A batch that is taken brings the source position forward: before the end of the file an
empty chunk is refused. -/
theorem takeChunks_forward (chunks : List Bytes) (hne : chunks ≠ []) (h : StreamInv p)
    (hmore : p.state.sourcePosition < p.state.fileSize)
    (ht : takeChunks chunks p = .ok ⟨⟩ p') :
    p.state.sourcePosition < p'.state.sourcePosition ∧
      p'.state.sourcePosition ≤ p'.state.fileSize := by
  obtain ⟨chunk, rest, rfl⟩ := List.exists_cons_of_ne_nil hne
  have hall := takeChunks_fed (chunk :: rest) p h
  unfold Ends at hall
  rw [ht] at hall
  have hfed : Fed p p' := hall
  rcases takeChunk_cases chunk p h.state with ⟨s, hpush, hr⟩ | ⟨e, _, hr⟩
  · obtain ⟨_, _, hsource, _, _, _, hempty⟩ := push_inv h.state hpush
    have hchunk : chunk ≠ [] := by
      intro h0
      have := hempty h0
      omega
    have hpos := List.length_pos_of_ne_nil hchunk
    have hrest : Fed (p.took s) p' := by
      rw [takeChunks_ok _ _ _ _ hr] at ht
      split at ht
      · cases ht
        exact Fed.refl hfed.inv
      · have htail := takeChunks_fed rest (p.took s) (took_inv h hpush)
        unfold Ends at htail
        rw [ht] at htail
        exact htail
    have hforward := hrest.forward
    rw [Playing.took_state, hsource] at hforward
    obtain ⟨more, hcontent, hmoved⟩ := hfed.read
    have hlen := hfed.inv.state.content_length
    rw [hcontent, List.length_append] at hlen
    have hin := hfed.inv.state.inside (by omega)
    exact ⟨by omega, hin⟩
  · rw [takeChunks_error _ _ _ _ _ hr] at ht
    cases ht

/-! ### A round of the loop -/

def Playing.Ready (p : Playing) (goal : ℕ) : Prop :=
  p.state.sourceEof = true ∨ min goal p.state.options.highWatermark ≤ p.state.bufferedLen

theorem readBatch_chunks {requests : List StreamingWorkerReadRequest} {chunks : List Bytes}
    (hne : requests ≠ []) (h : readBatch server requests p = .ok chunks p') : chunks ≠ [] := by
  unfold readBatch at h
  dsimp only at h
  split at h
  · rename_i chunks' c hread
    cases h
    have hlen := Cifs.readAtPipelined_length _ _ _ _ _ hread
    have hpos := List.length_pos_of_ne_nil hne
    exact List.ne_nil_of_length_pos (by omega)
  · cases h

/-- A round finds the goal reached, or sends a batch and stops with an error, or has brought
the source position forward. -/
theorem fillLoop_round (server : Server) (goal : ℕ) (p : Playing) (h : StreamInv p)
    (hv : p.state.options.Valid) :
    (p.Ready goal ∧ ∀ rounds filled, fillLoop server goal (rounds + 1) filled p = .ok filled p) ∨
    (∃ e p', Fed p p' ∧ p.state.sourcePosition < p.state.fileSize ∧
      p'.reads.length = p.reads.length + 1 ∧
      (e = .dropped → readBatch server (p.planned goal) p = .error .dropped p') ∧
      ∀ rounds filled, fillLoop server goal (rounds + 1) filled p = .error e p') ∨
    ∃ p', Fed p p' ∧ p.state.sourcePosition < p'.state.sourcePosition ∧
      p'.state.sourcePosition ≤ p'.state.fileSize ∧
      p'.reads.length = p.reads.length + 1 ∧
      ∀ rounds filled, fillLoop server goal (rounds + 1) filled p =
        fillLoop server goal rounds true p' := by
  by_cases hend : p.state.isSourceEof = true ∨ p.planned goal = []
  · refine Or.inl ⟨?_, fun rounds filled => by rw [fillLoop_succ, if_pos hend]⟩
    rcases hend with heof | hnil
    · exact Or.inl heof
    · have hdepth := hv.depth_pos
      rcases next_nil h.state hv goal p.state.options.pipelineDepth (by omega) hnil with hle | hle
      · exact Or.inl (h.state.eof.mpr hle)
      · exact Or.inr hle
  · right
    have hne : p.planned goal ≠ [] := fun hnil => hend (Or.inr hnil)
    have hmore : p.state.sourcePosition < p.state.fileSize := (next_planned h.state hv goal _ hne).2.1
    have hloop : ∀ rounds filled, fillLoop server goal (rounds + 1) filled p =
        (readBatch server (p.planned goal) >>= fun chunks =>
          if chunks = [] then pure filled
          else takeChunks chunks >>= fun _ => fillLoop server goal rounds true) p :=
      fun rounds filled => by rw [fillLoop_succ, if_neg hend]
    rcases readBatch_cases server (p.planned goal) p with ⟨chunks, c, hr⟩ | ⟨e, c, hr⟩
    · have hchunks := readBatch_chunks hne hr
      have hlog := logRead_fed h c (p.planned goal) (some chunks)
      have hreads : (p.logRead c (p.planned goal) (some chunks)).reads.length =
          p.reads.length + 1 := by
        simp only [Playing.logRead, List.length_append, List.length_singleton]
      have hfed := takeChunks_fed chunks _ hlog.inv
      have hsame := takeChunks_reads_eq chunks _ hlog.inv
      unfold Ends at hfed
      cases ht : takeChunks chunks (p.logRead c (p.planned goal) (some chunks)) with
      | ok u p' =>
        rw [ht] at hfed hsame
        obtain ⟨hforward, hin⟩ := takeChunks_forward chunks hchunks hlog.inv hmore ht
        refine Or.inr ⟨p', hlog.trans hfed, hforward, hin, (congrArg List.length hsame).trans hreads,
          fun rounds filled => ?_⟩
        rw [hloop, fut_bind, hr]
        dsimp only
        rw [if_neg hchunks, fut_bind, ht]
      | error e p' =>
        rw [ht] at hfed hsame
        obtain ⟨⟨e', rfl⟩, hfed⟩ := hfed
        refine Or.inl ⟨.error e', p', hlog.trans hfed, hmore,
          (congrArg List.length hsame).trans hreads, fun he => (nomatch he), fun rounds filled => ?_⟩
        rw [hloop, fut_bind, hr]
        dsimp only
        rw [if_neg hchunks, fut_bind, ht]
    · refine Or.inl ⟨e, _, logRead_fed h c _ none, hmore, ?_, fun he => by rw [hr, he],
        fun rounds filled => by rw [hloop, fut_bind, hr]⟩
      simp only [Playing.logRead, List.length_append, List.length_singleton]

/-! ### The loop -/

/-- How a fill ends, for a number of rounds that is enough. -/
structure FillEnds (server : Server) (goal : ℕ) (filled : Bool) (p : Playing)
    (r : EStateM.Result (Stop Error) Playing Bool) : Prop where
  fed : Fed p (endState r)
  batches : (endState r).reads.length ≤
    p.reads.length + (p.state.fileSize - p.state.sourcePosition)
  dropped : ∀ p', r = .error .dropped p' →
    ∃ q, readBatch server (q.planned goal) q = .error .dropped p'
  ready : ∀ filled' p', r = .ok filled' p' → p'.Ready goal ∧
    (filled' = true ↔ filled = true ∨ p.state.sourcePosition < p'.state.sourcePosition)

theorem fillLoop_ends (server : Server) (goal rounds : ℕ) (filled : Bool) (p : Playing)
    (h : StreamInv p) (hv : p.state.options.Valid)
    (hr : p.state.fileSize - p.state.sourcePosition < rounds) :
    FillEnds server goal filled p (fillLoop server goal rounds filled p) := by
  induction rounds generalizing filled p with
  | zero => omega
  | succ rounds ih =>
    rcases fillLoop_round server goal p h hv with ⟨hready, hloop⟩ |
      ⟨e, p', hfed, hmore, hreads, hdrop, hloop⟩ | ⟨p', hfed, hforward, hin, hreads, hloop⟩
    · rw [hloop]
      refine ⟨Fed.refl h, Nat.le_add_right _ _, fun p' he => (nomatch he), fun filled' p' ho => ?_⟩
      cases ho
      exact ⟨hready, by simp⟩
    · rw [hloop]
      refine ⟨hfed, ?_, fun p'' he => ?_, fun filled' p'' ho => (nomatch ho)⟩
      · change p'.reads.length ≤ _
        omega
      · cases he
        exact ⟨p, hdrop rfl⟩
    · have hsize := hfed.size
      have hends := ih true p' hfed.inv (by rw [hfed.options]; exact hv) (by omega)
      have hbatches := hends.batches
      rw [hloop]
      refine ⟨hfed.trans hends.fed, by omega, hends.dropped, fun filled' p'' ho => ?_⟩
      obtain ⟨hready, hfilled⟩ := hends.ready filled' p'' ho
      have hlast : Fed p' p'' := by
        have hf := hends.fed
        rw [ho] at hf
        exact hf
      have hforward' := hlast.forward
      refine ⟨hready, ⟨fun _ => Or.inr (by omega), fun _ => hfilled.mpr (Or.inl rfl)⟩⟩

/-- The bound on the rounds never shows. -/
theorem fillLoop_rounds (server : Server) (goal : ℕ) (filled : Bool) (p : Playing)
    (h : StreamInv p) (hv : p.state.options.Valid) (n m : ℕ)
    (hn : p.state.fileSize - p.state.sourcePosition < n)
    (hm : p.state.fileSize - p.state.sourcePosition < m) :
    fillLoop server goal n filled p = fillLoop server goal m filled p := by
  induction n generalizing filled p m with
  | zero => omega
  | succ n ih =>
    obtain ⟨m, rfl⟩ := Nat.exists_eq_succ_of_ne_zero (show m ≠ 0 by omega)
    rcases fillLoop_round server goal p h hv with ⟨_, hloop⟩ | ⟨e, p', _, _, _, _, hloop⟩ |
      ⟨p', hfed, hforward, _, _, hloop⟩
    · rw [hloop, hloop]
    · rw [hloop, hloop]
    · have hsize := hfed.size
      rw [hloop, hloop]
      exact ih true p' hfed.inv (by rw [hfed.options]; exact hv) m (by omega) (by omega)

theorem fillUntilBuffered_ends (server : Server) (goal : ℕ) (p : Playing) (h : StreamInv p)
    (hv : p.state.options.Valid) :
    FillEnds server goal false p (fillUntilBuffered server goal p) :=
  fillLoop_ends server goal _ false p h hv (Nat.lt_succ_self _)

/-! ### The calls that fill -/

def Playing.Finished (p : Playing) : Prop :=
  p.state.fileSize ≤ p.state.sourcePosition ∧ p.state.buffer.isEmpty = true

theorem isEmpty_iff (h : StreamInv p) :
    p.state.buffer.isEmpty = true ↔ p.state.content = [] := by
  have hlen := h.state.content_length
  rw [← List.length_eq_zero_iff, hlen]
  exact beq_iff_eq

theorem isFinished_iff (h : StreamInv p) : p.state.isFinished = true ↔ p.Finished := by
  unfold StreamingWorkerState.isFinished
  rw [Bool.and_eq_true, h.state.eof]
  rfl

/-- Past the end of the file a fill has nothing to bring. -/
theorem Fed.finished (hfed : Fed p p') (h : p.Finished) (hinv : StreamInv p) :
    p'.Finished := by
  obtain ⟨hend, hempty⟩ := h
  obtain ⟨more, hcontent, hsource⟩ := hfed.read
  rw [(isEmpty_iff hinv).mp hempty, List.nil_append] at hcontent
  have hlen := hfed.inv.state.content_length
  have hin := hfed.inv.state.inside
  have hsize := hfed.size
  rw [hcontent] at hlen
  have hnone : more.length = 0 := by
    by_contra hne
    have := hin (by omega)
    omega
  rw [Playing.Finished, isEmpty_iff hfed.inv, hcontent]
  exact ⟨hfed.ended hend, List.length_eq_zero_iff.mp hnone⟩

/-- After a fill the buffer is empty only if there was nothing to fill from. -/
theorem FillEnds.finished {goal : ℕ} {filled filled' : Bool}
    (hends : FillEnds server goal filled p (.ok filled' p')) (h : StreamInv p)
    (hgoal : 0 < min goal p.state.options.highWatermark) (hempty : p'.state.content = []) :
    p.Finished := by
  have hfed : Fed p p' := hends.fed
  obtain ⟨more, hcontent, hsource⟩ := hfed.read
  rw [hempty] at hcontent
  obtain ⟨h0, hmore⟩ := List.append_eq_nil_iff.mp hcontent.symm
  rw [hmore, List.length_nil] at hsource
  have hlen := hfed.inv.state.content_length
  rw [hempty, List.length_nil] at hlen
  refine ⟨?_, (isEmpty_iff h).mpr h0⟩
  rcases (hends.ready filled' p' rfl).1 with heof | hready
  · have hend := hfed.inv.state.eof.mp heof
    have hsize := hfed.size
    omega
  · rw [hfed.options] at hready
    change _ ≤ p'.state.buffer.buffered at hready
    omega

theorem readBlock_none (server : Server) (n : ℕ) (hn : 0 < n) (h : StreamInv p)
    (hv : p.state.options.Valid) (block : Option Bytes)
    (hr : readBlock server n p = .ok block p') :
    (block = none ↔ p.Finished) ∧ (block = none → p'.Finished) := by
  rcases readBlock_cases server n p (by omega) with ⟨e, p1, _, hb⟩ | ⟨p1, hfill, hb⟩
  · rw [hb] at hr
    cases hr
  · rw [hb] at hr
    cases hr
    have hfed : Fed p p1 := by
      rcases hfill with ⟨_, rfl⟩ | ⟨filled, hf⟩
      · exact Fed.refl h
      · have hends := fillUntilBuffered_ends server (max n p.state.options.lowWatermark) p h hv
        rw [hf] at hends
        exact hends.fed
    have hback : p1.state.content = [] → p.Finished := by
      intro hempty
      rcases hfill with ⟨hskip, rfl⟩ | ⟨filled, hf⟩
      · have hlen := h.state.content_length
        rw [hempty, List.length_nil] at hlen
        rw [← isFinished_iff h]
        by_contra hopen
        refine hskip ⟨?_, hopen⟩
        change p1.state.buffer.buffered < n
        omega
      · have hends := fillUntilBuffered_ends server (max n p.state.options.lowWatermark) p h hv
        rw [hf] at hends
        have hhigh := hv.high_pos
        exact hends.finished h (by omega) hempty
    obtain ⟨hinv, hpop, hcontent, _, hsource, hsize, _⟩ := pop_inv hfed.inv.state n
    have hnone : (p1.state.popRead n).1 = none ↔ p1.state.content = [] := by
      rw [hpop]
      constructor
      · intro h0
        by_contra hsome
        rw [if_neg (by rw [not_or]; exact ⟨by omega, hsome⟩)] at h0
        cases h0
      · intro h0
        rw [if_pos (Or.inr h0)]
    refine ⟨⟨fun h0 => hback (hnone.mp h0), fun hfin => ?_⟩, fun h0 => ?_⟩
    · exact hnone.mpr ((isEmpty_iff hfed.inv).mp (hfed.finished hfin h).2)
    · have hempty := hnone.mp h0
      obtain ⟨hend, _⟩ := hfed.finished (hback hempty) h
      refine ⟨?_, (isEmpty_iff (pop_keeps p1 n hfed.inv)).mpr ?_⟩
      · rw [Playing.withState_state, hsource, hsize]
        exact hend
      · rw [Playing.withState_state, hcontent, hempty, List.drop_nil]

theorem maybePrefill_low (server : Server) (h : StreamInv p) (hv : p.state.options.Valid)
    (filled : Bool) (hr : maybePrefill server p = .ok filled p') :
    p'.state.shouldPrefill = false := by
  rw [maybePrefill_apply] at hr
  by_cases hlow : p.state.shouldPrefill = true
  · rw [if_pos hlow] at hr
    have hends := fillUntilBuffered_ends server p.state.options.highWatermark p h hv
    rw [hr] at hends
    have hoptions : p'.state.options = p.state.options := hends.fed.options
    rcases (hends.ready filled p' rfl).1 with heof | hready
    · simp [StreamingWorkerState.shouldPrefill, StreamingWorkerStats.shouldPrefill,
        StreamingWorkerState.stats, heof]
    · rw [hoptions, min_self] at hready
      have hfull : ¬p'.state.buffer.bufferedLen < p.state.options.highWatermark := not_lt.mpr hready
      simp [StreamingWorkerState.shouldPrefill, StreamingWorkerStats.shouldPrefill,
        StreamingWorkerState.stats, hoptions, hfull]
  · rw [if_neg hlow] at hr
    cases hr
    exact Bool.not_eq_true _ ▸ hlow

/-- Whatever the server answers: each round ends the call or brings the source position
forward, so a fill stops after no more batches than bytes were left, and is dropped only while
it waits for one; when it returns, the goal is reached or the file read to its end, and it says
whether anything was read. So a block is missing only from a finished stream, and after a
prefill no other is due. -/
theorem fill_delivers (server : Server) (goal : ℕ) (p : Playing) (h : StreamInv p)
    (hv : p.state.options.Valid) :
    (∀ filled, (∃ r, ∀ rounds, fillLoop server goal (rounds + 1) filled p = r) ∨
      ∃ p', StreamInv p' ∧ p'.state.fileSize = p.state.fileSize ∧
        p.state.sourcePosition < p'.state.sourcePosition ∧
        p'.state.sourcePosition ≤ p'.state.fileSize ∧
        ∀ rounds, fillLoop server goal (rounds + 1) filled p =
          fillLoop server goal rounds true p') ∧
    (∀ rounds, p.state.fileSize - p.state.sourcePosition < rounds →
      fillLoop server goal rounds false p = fillUntilBuffered server goal p) ∧
    (endState (fillUntilBuffered server goal p)).reads.length ≤
      p.reads.length + (p.state.fileSize - p.state.sourcePosition) ∧
    (∀ p', fillUntilBuffered server goal p = .error .dropped p' →
      ∃ q, readBatch server (q.planned goal) q = .error .dropped p') ∧
    (∀ filled p', fillUntilBuffered server goal p = .ok filled p' →
      (p'.state.sourceEof = true ∨
        min goal p.state.options.highWatermark ≤ p'.state.bufferedLen) ∧
      (filled = true ↔ p.state.sourcePosition < p'.state.sourcePosition)) ∧
    (∀ n block p', 0 < n → readBlock server n p = .ok block p' →
      (block = none ↔ p.Finished) ∧ (block = none → p'.Finished)) ∧
    (∀ filled p', maybePrefill server p = .ok filled p' → p'.state.shouldPrefill = false) := by
  have hends := fillUntilBuffered_ends server goal p h hv
  refine ⟨fun filled => ?_, fun rounds hr => ?_, hends.batches, hends.dropped,
    fun filled p' ho => ?_, fun n block p' hn hr => readBlock_none server n hn h hv block hr,
    fun filled p' hr => maybePrefill_low server h hv filled hr⟩
  · rcases fillLoop_round server goal p h hv with ⟨_, hloop⟩ | ⟨e, p', _, _, _, _, hloop⟩ |
      ⟨p', hfed, hforward, hin, _, hloop⟩
    · exact Or.inl ⟨_, fun rounds => hloop rounds filled⟩
    · exact Or.inl ⟨_, fun rounds => hloop rounds filled⟩
    · exact Or.inr ⟨p', hfed.inv, hfed.size, hforward, hin, fun rounds => hloop rounds filled⟩
  · exact fillLoop_rounds server goal false p h hv rounds _ hr (Nat.lt_succ_self _)
  · obtain ⟨hready, hfilled⟩ := hends.ready filled p' ho
    have hoptions : p'.state.options = p.state.options := by
      have hfed := hends.fed
      rw [ho] at hfed
      exact hfed.options
    rw [Playing.Ready, hoptions] at hready
    exact ⟨hready, by simpa using hfilled⟩

/-- A stream of eight bytes whose server answers its first read with five bytes. -/
theorem fill_delivers_overlong :
    ∃ media, SmbMediaStream.new (FileStream.new (Cifs.fileOfSize 8)) smallOptions = .ok media ∧
      (endState (fillUntilBuffered overlong 12 (start media (Cifs.fresh Cifs.noAuth)))).reads.length
        ≤ 8 := by
  have hnew : SmbMediaStream.new (FileStream.new (Cifs.fileOfSize 8)) smallOptions = .ok _ := rfl
  have hoptions := (SmbMediaStreamOptions.validate_ok smallOptions).mp rfl
  have hinv := start_inv (by decide) hnew (Cifs.fresh Cifs.noAuth)
  exact ⟨_, hnew, (fill_delivers overlong 12 _ hinv hoptions.worker).2.2.1⟩

end CifsClientStream.Stream
