import CifsClientStream.Stream.Fidelity

/-!
# A server that answers every read in full

Then a stream is a plain reader of the file (`play`): what it delivers depends
on the file, the position and the sizes that are asked for, and on no option
(`playback_complete`). What is read ahead never shows.
-/

namespace CifsClientStream.Stream
open Cursor hiding slice
open Async Smb Slice
open Cifs (StreamingWorkerReadRequest)

def InFull (F : Bytes) (requests : List StreamingWorkerReadRequest) (chunks : List Bytes) : Prop :=
  chunks = served F requests

variable {F : Bytes} {server : Server} {p : Playing}

/-! ### Filling -/

theorem served_full {requests : List StreamingWorkerReadRequest} (hsound : Sound F requests) :
    FullButLast requests (served F requests) := by
  intro a ha
  have hzip : requests.zip (served F requests) =
      requests.map fun r => (r, slice F r.offset r.len) := by
    simpa [served] using List.zip_map' (f := id)
      (g := fun r : StreamingWorkerReadRequest => slice F r.offset r.len) (l := requests)
  have hmem := (List.dropLast_sublist _).subset ha
  rw [hzip, List.mem_map] at hmem
  obtain ⟨r, hr, rfl⟩ := hmem
  exact slice_full F _ _ (hsound.each r hr).2.2

theorem served_sum_pos {requests : List StreamingWorkerReadRequest} (hsound : Sound F requests)
    (hne : requests ≠ []) : 0 < ((served F requests).map List.length).sum := by
  cases requests with
  | nil => exact absurd rfl hne
  | cons r rest =>
    obtain ⟨hpos, _, hin⟩ := hsound.each r List.mem_cons_self
    have hlen := slice_full F r.offset r.len hin
    rw [served, List.map_cons, List.map_cons, List.sum_cons, hlen]
    omega

/-- `p'` is `p` with the buffer filled up to the goal, or to the end of the file. -/
structure Filled (F : Bytes) (goal : ℕ) (p p' : Playing) : Prop where
  mirrors : Mirrors F p'
  playback : p'.state.playbackPosition = p.state.playbackPosition
  options : p'.state.options = p.state.options
  ready : F.length ≤ p'.state.sourcePosition ∨
    min goal p.state.options.highWatermark ≤ p'.state.buffer.buffered

theorem fillLoop_filled (hs : Serves F (InFull F) server) (goal rounds : ℕ) (filled : Bool)
    (p : Playing) (h : Mirrors F p) (hr : F.length - p.state.sourcePosition < rounds) :
    ∃ filled' p', fillLoop server goal rounds filled p = .ok filled' p' ∧ Filled F goal p p' := by
  induction rounds generalizing filled p with
  | zero => omega
  | succ rounds ih =>
    rw [fillLoop_succ]
    by_cases hend : p.state.isSourceEof = true ∨ p.planned goal = []
    · rw [if_pos hend]
      refine ⟨filled, p, rfl, h, rfl, rfl, ?_⟩
      rcases hend with heof | hnil
      · rw [← h.size]
        exact Or.inl (h.inv.state.eof.mp heof)
      · rw [← h.size]
        have hdepth := h.valid.depth_pos
        exact next_nil h.inv.state h.valid goal _ (by omega) hnil
    · have hne : p.planned goal ≠ [] := fun hnil => hend (Or.inr hnil)
      obtain ⟨hsound, hplanned⟩ := h.sound goal hne
      have hmore : p.state.sourcePosition < p.state.fileSize :=
        (next_planned h.inv.state h.valid goal _ hne).2.1
      rw [h.size] at hmore
      obtain ⟨chunks, c, hok, hidle, hlen, hfull⟩ := readBatch_answered hs p h.idle _ hne hsound
      have hm : Mirrors F (p.logRead c (p.planned goal) (some chunks)) :=
        ⟨⟨h.inv.state, h.inv.size, h.inv.position⟩, hidle, h.valid, h.size, h.content⟩
      have hfollows : Follows F p.state.sourcePosition chunks := by
        rw [hfull]
        exact prefixes_follow hplanned (served_prefixes hsound) (served_full hsound)
      obtain ⟨p1, htake, hm1, hplay1, hsource1, hoptions1, _⟩ := takeChunks_follows chunks _ hm
        hfollows
      have hchunks : chunks ≠ [] := by
        intro hnil
        rw [hnil, List.length_nil] at hlen
        exact hne (List.length_eq_zero_iff.mp hlen.symm)
      have hpos : 0 < (chunks.map List.length).sum := by
        rw [hfull]
        exact served_sum_pos hsound hne
      have hsource2 : p1.state.sourcePosition =
        p.state.sourcePosition + (chunks.map List.length).sum := hsource1
      obtain ⟨filled', p', hloop, hf⟩ := ih true p1 hm1 (by omega)
      refine ⟨filled', p', ?_, hf.mirrors, hf.playback.trans hplay1, hf.options.trans hoptions1, ?_⟩
      · rw [if_neg hend, fut_bind, hok]
        dsimp only
        rw [if_neg hchunks, fut_bind, htake]
        exact hloop
      · have hready := hf.ready
        rw [hoptions1] at hready
        exact hready

theorem fillUntilBuffered_filled (hs : Serves F (InFull F) server) (goal : ℕ) (h : Mirrors F p) :
    ∃ filled p', fillUntilBuffered server goal p = .ok filled p' ∧ Filled F goal p p' := by
  refine fillLoop_filled hs goal _ false p h ?_
  rw [h.size]
  omega

/-! ### Taking a block -/

theorem pop_complete (h : Mirrors F p) (n : ℕ) (hn : n ≠ 0)
    (hready : F.length ≤ p.state.sourcePosition ∨
      min n p.state.options.highWatermark ≤ p.state.buffer.buffered) :
    ((p.state.popRead n).1 = none ∧ F.length ≤ p.state.playbackPosition ∧
      (p.state.popRead n).2.playbackPosition = p.state.playbackPosition) ∨
    ∃ b, (p.state.popRead n).1 = some b ∧ p.state.playbackPosition < F.length ∧
      b = slice F p.state.playbackPosition b.length ∧ 1 ≤ b.length ∧ b.length ≤ n ∧
      (n ≤ p.state.options.highWatermark →
        b.length = min n (F.length - p.state.playbackPosition)) ∧
      (p.state.popRead n).2.playbackPosition = p.state.playbackPosition + b.length := by
  have hpos := h.valid.high_pos
  have hsource := h.source
  have hlen := h.inv.state.content_length
  obtain ⟨_, hblock, _, hplay, _⟩ := pop_inv h.inv.state n
  by_cases hempty : p.state.content = []
  · left
    rw [hempty, List.length_nil] at hlen hsource
    rw [hempty, List.take_nil, List.length_nil] at hplay
    refine ⟨?_, by omega, hplay⟩
    rw [hblock, if_pos (Or.inr hempty)]
  · right
    have hcontent := List.length_pos_of_ne_nil hempty
    have hinside := h.inv.state.inside (by omega)
    rw [h.size] at hinside
    have htake : (p.state.content.take n).length = min n p.state.content.length :=
      List.length_take
    have hsome : (p.state.popRead n).1 = some (p.state.content.take n) := by
      rw [hblock, if_neg fun h0 => h0.elim hn hempty]
    refine ⟨p.state.content.take n, hsome, by omega, pop_faithful p n h _ hsome, by omega, by omega,
      fun hle => ?_, hplay⟩
    omega

theorem readBlock_filled (hs : Serves F (InFull F) server) (h : Mirrors F p) (n : ℕ) (hn : n ≠ 0) :
    ∃ p1, Filled F n p p1 ∧ readBlock server n p = .ok (p1.state.popRead n).1
      (p1.withState (p1.state.popRead n).2) := by
  obtain ⟨filled, p', hfill, hf⟩ :=
    fillUntilBuffered_filled hs (max n p.state.options.lowWatermark) h
  rcases readBlock_cases server n p hn with ⟨e, p1, hr, _⟩ | ⟨p1, hp1, hx⟩
  · rw [hfill] at hr
    cases hr
  · refine ⟨p1, ?_, hx⟩
    rcases hp1 with ⟨hno, rfl⟩ | ⟨filled', hr⟩
    · refine ⟨h, rfl, rfl, ?_⟩
      by_cases hlt : p1.state.bufferedLen < n
      · have hfinished : p1.state.isFinished = true := by
          by_contra hnot
          exact hno ⟨hlt, hnot⟩
        have heof := (Bool.and_eq_true_iff.mp hfinished).1
        rw [← h.size]
        exact Or.inl (h.inv.state.eof.mp heof)
      · right
        have hge : n ≤ p1.state.buffer.buffered := Nat.not_lt.mp hlt
        omega
    · rw [hfill] at hr
      cases hr
      refine ⟨hf.mirrors, hf.playback, hf.options, hf.ready.imp id fun hge => ?_⟩
      omega

/-! ### A plain reader -/

/-- A plain reader of the file: what it answers, and where it is then. It does not prefill. -/
def play (F : Bytes) (position : ℕ) : StreamCall → Option Answer × ℕ
  | .fillInitialBuffer => (none, position)
  | .maybePrefill => (none, position)
  | .readBlock n =>
    if n = 0 ∨ F.length ≤ position then (some (.block none), position)
    else (some (.block (some (slice F position n))), position + (slice F position n).length)
  | .seek pos =>
    match seekPosition F.length position pos with
    | .ok next => (some (.position next), next)
    | .error e => (some (.stopped (.error e)), position)

def StreamCall.plays : StreamCall → Bool
  | .fillInitialBuffer => false
  | .maybePrefill => false
  | .readBlock _ => true
  | .seek _ => true

def Event.played (e : Event) : Option Answer := if e.call.plays then some e.answer else none

theorem play_skip (F : Bytes) (position : ℕ) (call : StreamCall) (h : call.plays = false) :
    play F position call = (none, position) := by
  cases call with
  | fillInitialBuffer => rfl
  | maybePrefill => rfl
  | readBlock n => cases h
  | seek pos => cases h

def StreamCall.Within (high : ℕ) (call : StreamCall) : Prop :=
  ∀ n, call = .readBlock n → n ≤ high

/-- How a call ends: prefilling succeeds; a block is missing only at the end of the file, and
otherwise it is what the file has, and as long as it was asked for where that can be buffered. -/
def Event.Complete (F : Bytes) (high : ℕ) (e : Event) : Prop :=
  match e.call with
  | .fillInitialBuffer => ∃ filled, e.answer = .filled filled
  | .maybePrefill => ∃ filled, e.answer = .filled filled
  | .seek pos => (play F e.position (.seek pos)).1 = some e.answer
  | .readBlock n =>
    if n = 0 then e.answer = .block none
    else (e.answer = .block none ∧ F.length ≤ e.position) ∨
      ∃ b, e.answer = .block (some b) ∧ e.position < F.length ∧
        b = slice F e.position b.length ∧ 1 ≤ b.length ∧ b.length ≤ n ∧
        (n ≤ high → b.length = min n (F.length - e.position))

structure Event.Plays (F : Bytes) (p p' : Playing) (e : Event) : Prop where
  complete : e.Complete F p.state.options.highWatermark
  mirrors : Mirrors F p'
  options : p'.state.options = p.state.options
  like : e.call.Within p.state.options.highWatermark →
    e.played = (play F p.state.playbackPosition e.call).1 ∧
      p'.state.playbackPosition = (play F p.state.playbackPosition e.call).2

theorem filled_none (h : Mirrors F p) : Filled F 0 p p :=
  ⟨h, rfl, rfl, Or.inr (by rw [Nat.zero_min]; exact Nat.zero_le _)⟩

theorem fillInitialBuffer_filled (hs : Serves F (InFull F) server) (h : Mirrors F p) :
    ∃ filled p' goal, fillInitialBuffer server p = .ok filled p' ∧ Filled F goal p p' := by
  have hx : fillInitialBuffer server p =
      (if p.media.options.initialBufferSize = 0 then (pure false : Fut Error Playing Bool)
        else fillUntilBuffered server p.media.options.initialBufferSize) p := rfl
  rw [hx]
  split
  · exact ⟨false, p, 0, rfl, filled_none h⟩
  · obtain ⟨filled, p', hfill, hf⟩ := fillUntilBuffered_filled hs _ h
    exact ⟨filled, p', _, hfill, hf⟩

theorem maybePrefill_filled (hs : Serves F (InFull F) server) (h : Mirrors F p) :
    ∃ filled p' goal, maybePrefill server p = .ok filled p' ∧ Filled F goal p p' := by
  rw [maybePrefill_apply]
  split
  · obtain ⟨filled, p', hfill, hf⟩ := fillUntilBuffered_filled hs _ h
    exact ⟨filled, p', _, hfill, hf⟩
  · exact ⟨false, p, 0, rfl, filled_none h⟩

theorem readBlock_plays (hs : Serves F (InFull F) server) (h : Mirrors F p) (n : ℕ) :
    (step server p (.readBlock n)).1.Plays F p (step server p (.readBlock n)).2 := by
  by_cases hn : n = 0
  · subst hn
    exact ⟨rfl, h, rfl, fun _ => ⟨rfl, rfl⟩⟩
  · obtain ⟨p1, hf, hx⟩ := readBlock_filled hs h n hn
    have hplay : play F p.state.playbackPosition (.readBlock n) =
        if F.length ≤ p.state.playbackPosition then (some (.block none), p.state.playbackPosition)
        else (some (.block (some (slice F p.state.playbackPosition n))),
          p.state.playbackPosition + (slice F p.state.playbackPosition n).length) := by
      simp only [play, hn, false_or]
    have hready := hf.ready
    rw [← hf.options] at hready
    have hstep : step server p (.readBlock n) =
        (⟨.readBlock n, p.state.playbackPosition, .block (p1.state.popRead n).1⟩,
          p1.withState (p1.state.popRead n).2) := by
      unfold step
      change ((⟨.readBlock n, _, (answered .block (readBlock server n p)).1⟩ : Event),
        (answered .block (readBlock server n p)).2) = _
      rw [hx]
      rfl
    have hpop := pop_complete hf.mirrors n hn hready
    rw [hf.playback, hf.options] at hpop
    have hoptions : (p1.state.popRead n).2.options = p.state.options :=
      (pop_inv hf.mirrors.inv.state n).2.2.2.2.2.2.trans hf.options
    rw [hstep]
    refine ⟨?_, pop_mirrors p1 n hf.mirrors, hoptions, fun hwithin => ?_⟩
    · change if n = 0 then _ else _
      rw [if_neg hn]
      rcases hpop with ⟨hnone, hend, _⟩ | ⟨b, hsome, hlt, hb, h1, h2, h3, _⟩
      · exact Or.inl ⟨congrArg Answer.block hnone, hend⟩
      · exact Or.inr ⟨b, congrArg Answer.block hsome, hlt, hb, h1, h2, h3⟩
    · have hle := hwithin n rfl
      change some (Answer.block (p1.state.popRead n).1) = _ ∧
        (p1.state.popRead n).2.playbackPosition = _
      rw [hplay]
      rcases hpop with ⟨hnone, hend, hafter⟩ | ⟨b, hsome, hlt, hb, h1, h2, h3, hafter⟩
      · rw [if_pos hend, hnone]
        exact ⟨rfl, hafter⟩
      · have hblock : b = slice F p.state.playbackPosition n := by
          rw [slice_clip, ← h3 hle]
          exact hb
        rw [if_neg (by omega), hsome, ← hblock]
        exact ⟨rfl, hafter⟩

theorem seek_plays (h : Mirrors F p) (pos : SeekFrom) :
    (step server p (.seek pos)).1.Plays F p (step server p (.seek pos)).2 := by
  have hm := seek_mirrors pos p h
  have hstep : step server p (.seek pos) =
      (⟨.seek pos, p.state.playbackPosition, (answered .position (Stream.seek pos p)).1⟩,
        (answered .position (Stream.seek pos p)).2) := rfl
  rw [hstep]
  rcases seek_cases pos p with ⟨next, s, hseek, hr⟩ | ⟨e, hseek, hr⟩
  · obtain ⟨_, _, hplay, _, _, hoptions, hnext⟩ := seek_inv h.inv.state hseek
    rw [h.size] at hnext
    have hplays : play F p.state.playbackPosition (.seek pos) = (some (.position next), next) := by
      simp only [play, hnext]
    rw [hr] at hm ⊢
    exact ⟨congrArg Prod.fst hplays, hm, hoptions, fun _ => by rw [hplays]; exact ⟨rfl, hplay⟩⟩
  · have hnext := seek_error hseek
    rw [h.size] at hnext
    have hplays : play F p.state.playbackPosition (.seek pos) =
        (some (.stopped (.error e)), p.state.playbackPosition) := by
      simp only [play, hnext]
    rw [hr]
    exact ⟨congrArg Prod.fst hplays, h, rfl, fun _ => by rw [hplays]; exact ⟨rfl, rfl⟩⟩

theorem step_plays (hs : Serves F (InFull F) server) (h : Mirrors F p) (call : StreamCall) :
    (step server p call).1.Plays F p (step server p call).2 := by
  cases call with
  | fillInitialBuffer =>
    obtain ⟨filled, p', goal, hr, hf⟩ := fillInitialBuffer_filled hs h
    have hrun : StreamCall.fillInitialBuffer.run server p = (.filled filled, p') := by
      change answered Answer.filled (fillInitialBuffer server p) = _
      rw [hr]
      rfl
    unfold step
    rw [hrun]
    exact ⟨⟨filled, rfl⟩, hf.mirrors, hf.options, fun _ => ⟨rfl, hf.playback⟩⟩
  | maybePrefill =>
    obtain ⟨filled, p', goal, hr, hf⟩ := maybePrefill_filled hs h
    have hrun : StreamCall.maybePrefill.run server p = (.filled filled, p') := by
      change answered Answer.filled (maybePrefill server p) = _
      rw [hr]
      rfl
    unfold step
    rw [hrun]
    exact ⟨⟨filled, rfl⟩, hf.mirrors, hf.options, fun _ => ⟨rfl, hf.playback⟩⟩
  | readBlock n => exact readBlock_plays hs h n
  | seek pos => exact seek_plays h pos

/-! ### Whole runs -/

/-- A stream that was just made, on an idle connection whose server answers every read in
full. -/
structure Opened (F : Bytes) where
  server : Server
  serves : Serves F (InFull F) server
  stream : FileStream
  position_lt : stream.position < 2 ^ 64
  size : stream.size = F.length
  options : SmbMediaStreamOptions
  media : SmbMediaStream
  new : SmbMediaStream.new stream options = .ok media
  cifs : Cifs
  idle : Idle cifs

namespace Opened

def start (o : Opened F) : Playing := Stream.start o.media o.cifs

def run (o : Opened F) (calls : List StreamCall) : List Event × Playing :=
  Runs.run (step o.server) o.start calls

def highWatermark (o : Opened F) : ℕ := o.options.workerOptions.highWatermark

theorem start_mirrors (o : Opened F) : Mirrors F o.start :=
  Stream.start_mirrors o.position_lt o.size o.new o.idle

theorem start_options (o : Opened F) :
    o.start.state.options.highWatermark = o.highWatermark ∧
      o.start.state.playbackPosition = o.stream.position := by
  obtain ⟨_, _, _, hoptions, _, hplay, _⟩ := worker_inv o.position_lt (media_new o.new).2.2
  refine ⟨?_, hplay⟩
  change o.media.worker.state.options.highWatermark = _
  rw [hoptions]
  rfl

theorem run_complete (o : Opened F) (calls : List StreamCall) :
    ∀ e ∈ (o.run calls).1, e.Complete F o.highWatermark := by
  refine (Runs.run_outputs
    (P := fun p => Mirrors F p ∧ p.state.options.highWatermark = o.highWatermark)
    (fun p call h => ?_) _ _ ⟨o.start_mirrors, o.start_options.1⟩).1
  obtain ⟨hm, hhigh⟩ := h
  have hplays := step_plays o.serves hm call
  have hcomplete := hplays.complete
  rw [hhigh] at hcomplete
  exact ⟨hcomplete, hplays.mirrors, by rw [hplays.options, hhigh]⟩

theorem run_plays (o : Opened F) (calls : List StreamCall)
    (h : ∀ call ∈ calls, call.Within o.highWatermark) :
    (o.run calls).1.map Event.played = (Runs.run (play F) o.stream.position calls).1 := by
  refine (Runs.run_refines (R := fun p position => Mirrors F p ∧
      p.state.options.highWatermark = o.highWatermark ∧ p.state.playbackPosition = position)
    (fun p position call hwithin hR => ?_) _ _ _ h
    ⟨o.start_mirrors, o.start_options.1, o.start_options.2⟩).1
  obtain ⟨hm, hhigh, rfl⟩ := hR
  have hplays := step_plays o.serves hm call
  obtain ⟨hplayed, hposition⟩ := hplays.like (by rw [hhigh]; exact hwithin)
  exact ⟨hplayed, hplays.mirrors, by rw [hplays.options, hhigh], hposition⟩

theorem run_played (o : Opened F) (calls : List StreamCall)
    (h : ∀ call ∈ calls, call.Within o.highWatermark) :
    (o.run calls).1.filterMap Event.played =
      (Runs.run (play F) o.stream.position (calls.filter StreamCall.plays)).1.reduceOption := by
  rw [Runs.run_filter fun position call hskip => play_skip F position call hskip, ← o.run_plays calls h,
    List.reduceOption, List.filterMap_map]
  rfl

end Opened

/-- With a server that answers in full every call is complete; and two streams of one file from
one position, whatever their options and however they prefill, play the same when the same
blocks and seeks are asked for and the blocks are within both high watermarks. -/
theorem playback_complete (o : Opened F) (calls : List StreamCall) :
    (∀ e ∈ (o.run calls).1, e.Complete F o.highWatermark) ∧
    ∀ (o' : Opened F) (calls' : List StreamCall), o'.stream.position = o.stream.position →
      calls'.filter StreamCall.plays = calls.filter StreamCall.plays →
      (∀ call ∈ calls, call.Within o.highWatermark ∧ call.Within o'.highWatermark) →
      (o'.run calls').1.filterMap Event.played = (o.run calls).1.filterMap Event.played := by
  refine ⟨o.run_complete calls, fun o' calls' hposition hsame hwithin => ?_⟩
  have hwithin' : ∀ call ∈ calls', call.Within o'.highWatermark := by
    rintro call hcall n rfl
    have hmem : .readBlock n ∈ calls'.filter StreamCall.plays := List.mem_filter.mpr ⟨hcall, rfl⟩
    rw [hsame] at hmem
    exact (hwithin _ (List.mem_filter.mp hmem).1).2 n rfl
  rw [o'.run_played calls' hwithin', o.run_played calls fun call hcall => (hwithin call hcall).1,
    hposition, hsame]

def eightOpened (options : SmbMediaStreamOptions) (media : SmbMediaStream)
    (h : SmbMediaStream.new (FileStream.new (Cifs.fileOfSize 8)) options = .ok media) :
    Opened eightBytes where
  server := replyAll fun _ requests => served eightBytes requests
  serves := replyAll_serves _ fun _ requests hsound => by
    obtain ⟨hlen, hshort⟩ := (served_prefixes hsound).bounds hsound
    exact ⟨hlen, hshort, rfl⟩
  stream := FileStream.new (Cifs.fileOfSize 8)
  position_lt := by decide
  size := rfl
  options
  media
  new := h
  cifs := Cifs.fresh Cifs.noAuth
  idle := fresh_idle _

theorem playback_complete_eight :
    ∃ o o' : Opened eightBytes, o.highWatermark = 12 ∧ o'.highWatermark = 4 ∧
      (o'.run [.seek (.start 2), .readBlock 3, .readBlock 4]).1.filterMap Event.played =
        (o.run [.fillInitialBuffer, .seek (.start 2), .readBlock 3, .maybePrefill,
          .readBlock 4]).1.filterMap Event.played := by
  refine ⟨eightOpened smallOptions _ rfl, eightOpened tightOptions _ rfl, rfl, rfl,
    (playback_complete _ _).2 _ _ rfl (by decide) fun call hcall => ?_⟩
  have hfour : ∀ n, call = .readBlock n → n ≤ 4 := by
    rintro n rfl
    simp only [List.mem_cons, List.not_mem_nil, StreamCall.readBlock.injEq, reduceCtorEq,
      false_or, or_false] at hcall
    omega
  exact ⟨fun n h => (hfour n h).trans (by decide), hfour⟩

end CifsClientStream.Stream
