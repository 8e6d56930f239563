import CifsClientStream.NetBios.Frame
import CifsClientStream.Lib.Runs

/-!
# Frame boundaries and dropped calls (src/netbios.rs)

The server's stream is a sequence of frames, cut into segments in any way. A
call that is dropped while a frame is partly read or partly written leaves the
stream inside that frame, and the next call takes what follows for a frame.
`calls_aligned` says that this is the only way to lose the alignment: if every
stop lies on a frame boundary, each call starts on one, and the messages that
are returned are those of the frames that have been read.
-/

namespace CifsClientStream.NetBios
open Cursor Async Utils

/-! ### The server's stream -/

/-- A well-formed frame as the server sends it. -/
structure WireFrame where
  rawType : UInt8
  payload : Bytes
  frame : Frame
  valid : Frame.new rawType payload = .ok frame
  fits : payload.length ≤ MAX_FRAME_LENGTH

def WireFrame.wire (f : WireFrame) : Bytes := f.rawType :: be3 f.payload.length ++ f.payload

def wires (frames : List WireFrame) : Bytes := (frames.map WireFrame.wire).flatten

def messages (frames : List WireFrame) : List Bytes :=
  frames.filterMap fun f => match f.frame with
    | .Message msg => some msg
    | _ => none

/-- A frame of the server starts, or the last one ends, at position `n` of its stream. -/
def Boundary (frames : List WireFrame) (n : ℕ) : Prop :=
  ∃ k ≤ frames.length, n = (wires (frames.take k)).length

/-- The waits that end without bytes, the end of the script included, are at positions in
`B`; the first arrival is at position `pos`. -/
def StopsOn (B : ℕ → Prop) : ℕ → List Arrival → Prop
  | pos, [] => B pos
  | pos, .segment _ bs :: rest => StopsOn B (pos + (bs.length + 1)) rest
  | pos, _ :: rest => B pos ∧ StopsOn B pos rest

@[simp] theorem be3_length (n : ℕ) : (be3 n).length = 3 := rfl

theorem beVal_be3 (n : ℕ) (h : n ≤ MAX_FRAME_LENGTH) : beVal (be3 n) = n := by
  have h24 : n < 2 ^ 24 := lt_of_le_of_lt h (by decide)
  simp only [beVal, be3, List.foldl, UInt8.toNat_ofNat']
  omega

theorem wire_length (f : WireFrame) : f.wire.length = 4 + f.payload.length := by
  simp only [WireFrame.wire, List.length_append, List.length_cons, be3_length]

theorem wires_take_succ (frames : List WireFrame) (k : ℕ) (f : WireFrame)
    (h : frames[k]? = some f) : wires (frames.take (k + 1)) = wires (frames.take k) ++ f.wire := by
  rw [List.take_add_one, h]
  simp [wires]

theorem wires_drop (frames : List WireFrame) (k : ℕ) (f : WireFrame) (h : frames[k]? = some f) :
    wires (frames.drop k) = f.wire ++ wires (frames.drop (k + 1)) := by
  obtain ⟨hk, hf⟩ := List.getElem?_eq_some_iff.mp h
  rw [List.drop_eq_getElem_cons hk, hf]
  simp [wires]

theorem wires_take_mono (frames : List WireFrame) (j k : ℕ) (h : j ≤ k) :
    (wires (frames.take j)).length ≤ (wires (frames.take k)).length := by
  obtain ⟨d, rfl⟩ := Nat.exists_eq_add_of_le h
  rw [List.take_add, wires, wires, List.map_append, List.flatten_append, List.length_append]
  omega

theorem no_boundary_inside (frames : List WireFrame) (k : ℕ) (f : WireFrame)
    (h : frames[k]? = some f) (i : ℕ) (h0 : 0 < i) (hi : i < f.wire.length) :
    ¬Boundary frames ((wires (frames.take k)).length + i) := by
  rintro ⟨j, _, hj⟩
  have hsucc := congrArg List.length (wires_take_succ frames k f h)
  rw [List.length_append] at hsucc
  by_cases hjk : j ≤ k
  · have := wires_take_mono frames j k hjk
    omega
  · have := wires_take_mono frames (k + 1) j (by omega)
    omega

/-! ### Reading -/

theorem stopsOn_segment (B : ℕ → Prop) (pos : ℕ) (b : UInt8) (bs : Bytes) (rest : List Arrival) :
    StopsOn B pos (.segment b bs :: rest) ↔ StopsOn B (pos + (b :: bs).length) rest := Iff.rfl

theorem StopsOn.mono {B C : ℕ → Prop} {pos : ℕ} {arrivals : List Arrival}
    (h : StopsOn B pos arrivals) (hBC : ∀ n, pos ≤ n → B n → C n) : StopsOn C pos arrivals := by
  induction arrivals generalizing pos with
  | nil => exact hBC pos le_rfl h
  | cons a rest ih =>
    cases a with
    | segment b bs => exact ih h fun n hn => hBC n (by omega)
    | timeout => exact ⟨hBC pos le_rfl h.1, ih h.2 hBC⟩
    | closed => exact ⟨hBC pos le_rfl h.1, ih h.2 hBC⟩
    | failed kind => exact ⟨hBC pos le_rfl h.1, ih h.2 hBC⟩

theorem readLoop_inside (B : ℕ → Prop) (eof : Error) (arrivals : List Arrival) (pos need : ℕ)
    (acc : Bytes) (hs : StopsOn B pos arrivals) (hB : ∀ j < need, ¬B (pos + j)) :
    ∃ rest, readLoop eof arrivals need acc = (.ok (acc ++ (bytesOf arrivals).take need), rest) ∧
      need ≤ (bytesOf arrivals).length ∧ bytesOf rest = (bytesOf arrivals).drop need ∧
      StopsOn B (pos + need) rest := by
  induction arrivals generalizing pos need acc with
  | nil =>
    cases need with
    | zero => exact ⟨[], by simp [readLoop], Nat.zero_le _, by simp, hs⟩
    | succ n => exact absurd hs (hB 0 (by omega))
  | cons a rest ih =>
    by_cases h0 : need = 0
    · subst h0
      exact ⟨a :: rest, by simp [readLoop], Nat.zero_le _, by simp, hs⟩
    · cases a with
      | segment b bs =>
        rw [stopsOn_segment] at hs
        have hbytes : bytesOf (.segment b bs :: rest) = b :: bs ++ bytesOf rest := rfl
        simp only [readLoop, h0, if_false, hbytes]
        cases hd : (b :: bs).drop need with
        | cons c cs =>
          -- the segment is longer than what is asked for
          have hlen := congrArg List.length hd
          have hcons : (c :: cs).length = cs.length + 1 := List.length_cons
          rw [List.length_drop, hcons] at hlen
          refine ⟨.segment c cs :: rest, ?_, ?_, ?_, ?_⟩
          · rw [List.take_append_of_le_length (by omega)]
          · rw [List.length_append]
            omega
          · rw [List.drop_append_of_le_length (by omega), hd]
            rfl
          · rw [stopsOn_segment, hcons]
            have hpos : pos + need + (cs.length + 1) = pos + (b :: bs).length := by omega
            rw [hpos]
            exact hs
        | nil =>
          have hlen : (b :: bs).length ≤ need := List.drop_eq_nil_iff.mp hd
          obtain ⟨rest', hr, hn, hb, hst⟩ := ih (pos + (b :: bs).length)
            (need - (b :: bs).length) (acc ++ b :: bs) hs (fun j hj => by
              have := hB ((b :: bs).length + j) (by omega)
              rwa [← Nat.add_assoc] at this)
          refine ⟨rest', ?_, ?_, ?_, ?_⟩
          · dsimp only
            rw [hr, List.take_append, List.take_of_length_le hlen, List.append_assoc]
          · rw [List.length_append]
            omega
          · rw [hb, List.drop_append, List.drop_eq_nil_of_le hlen, List.nil_append]
          · have hpos : pos + (b :: bs).length + (need - (b :: bs).length) = pos + need := by omega
            rw [← hpos]
            exact hst
      | timeout => exact absurd hs.1 (hB 0 (by omega))
      | closed => exact absurd hs.1 (hB 0 (by omega))
      | failed kind => exact absurd hs.1 (hB 0 (by omega))

/-- A read that starts where a wait may end and crosses no such place takes nothing, or all
it asks for. -/
theorem readLoop_first (B : ℕ → Prop) (eof : Error) (arrivals : List Arrival) (pos need : ℕ)
    (hs : StopsOn B pos arrivals) (h0 : 0 < need) (hB : ∀ j < need, 0 < j → ¬B (pos + j)) :
    (∃ e rest, readLoop eof arrivals need [] = (.error e, rest) ∧
      bytesOf rest = bytesOf arrivals ∧ StopsOn B pos rest) ∨
    ∃ rest, readLoop eof arrivals need [] = (.ok ((bytesOf arrivals).take need), rest) ∧
      need ≤ (bytesOf arrivals).length ∧ bytesOf rest = (bytesOf arrivals).drop need ∧
      StopsOn B (pos + need) rest := by
  have hne : need ≠ 0 := by omega
  cases arrivals with
  | nil => exact Or.inl ⟨.dropped, [], by simp [readLoop, hne], rfl, hs⟩
  | cons a rest =>
    cases a with
    | segment b bs =>
      right
      -- behind the first byte no wait can end
      have hlater : StopsOn (fun n => B n ∧ pos < n) pos (.segment b bs :: rest) := by
        rw [stopsOn_segment] at hs ⊢
        exact hs.mono fun n hn hBn => ⟨hBn, by rw [List.length_cons] at hn; omega⟩
      obtain ⟨rest', hr, hn, hb, hst⟩ := readLoop_inside _ eof _ pos need [] hlater
        (fun j hj hBj => hB j hj (by omega) hBj.1)
      exact ⟨rest', by rw [hr, List.nil_append], hn, hb, hst.mono fun n _ h => h.1⟩
    | timeout => exact Or.inl ⟨.dropped, rest, by simp [readLoop, hne], rfl, hs.2⟩
    | closed => exact Or.inl ⟨.error eof, .closed :: rest, by simp [readLoop, hne], rfl, hs⟩
    | failed kind =>
      exact Or.inl ⟨.error (.IoError kind), rest, by simp [readLoop, hne], rfl, hs.2⟩

/-! ### Calls -/

/-- The stream is at the start of frame `k`: the bytes to come are the frames from there
on, as far as they arrive, and every wait ends on a boundary. -/
structure Aligned (frames : List WireFrame) (k : ℕ) (arrivals : List Arrival) : Prop where
  known : k ≤ frames.length
  bytes : bytesOf arrivals <+: wires (frames.drop k)
  stops : StopsOn (Boundary frames) (wires (frames.take k)).length arrivals

variable {frames : List WireFrame} {k : ℕ}

theorem Aligned.of_eq {arrivals rest : List Arrival} (h : Aligned frames k arrivals)
    (hb : bytesOf rest = bytesOf arrivals)
    (hs : StopsOn (Boundary frames) (wires (frames.take k)).length rest) :
    Aligned frames k rest := ⟨h.known, by rw [hb]; exact h.bytes, hs⟩

theorem readBytes_inside (eof : Error) (s : TcpStream) (pos need : ℕ) (B : ℕ → Prop)
    (hs : StopsOn B pos s.incoming) (hB : ∀ j < need, ¬B (pos + j)) :
    Ends (readBytes eof need) s
      (fun b s' => b = (bytesOf s.incoming).take need ∧ need ≤ (bytesOf s.incoming).length ∧
        bytesOf s'.incoming = (bytesOf s.incoming).drop need ∧
        StopsOn B (pos + need) s'.incoming ∧ s'.written = s.written)
      (fun _ _ => False) := by
  obtain ⟨rest, hr, hn, hb, hst⟩ := readLoop_inside B eof s.incoming pos need [] hs hB
  unfold Ends readBytes
  rw [hr]
  exact ⟨rfl, hn, hb, hst, rfl⟩

theorem readBytes_first (eof : Error) (s : TcpStream) (pos need : ℕ) (B : ℕ → Prop)
    (hs : StopsOn B pos s.incoming) (h0 : 0 < need) (hB : ∀ j < need, 0 < j → ¬B (pos + j)) :
    Ends (readBytes eof need) s
      (fun b s' => b = (bytesOf s.incoming).take need ∧ need ≤ (bytesOf s.incoming).length ∧
        bytesOf s'.incoming = (bytesOf s.incoming).drop need ∧
        StopsOn B (pos + need) s'.incoming ∧ s'.written = s.written)
      (fun _ s' => bytesOf s'.incoming = bytesOf s.incoming ∧ StopsOn B pos s'.incoming ∧
        s'.written = s.written) := by
  unfold Ends readBytes
  rcases readLoop_first B eof s.incoming pos need hs h0 hB with
    ⟨e, rest, hr, hb, hst⟩ | ⟨rest, hr, hn, hb, hst⟩
  · rw [hr]
    exact ⟨hb, hst, rfl⟩
  · rw [hr]
    exact ⟨rfl, hn, hb, hst, rfl⟩

theorem take_drop_prefix {α : Type} {x y : List α} (h : x <+: y) (i n : ℕ)
    (hn : i + n ≤ x.length) : (x.drop i).take n = (y.drop i).take n := by
  obtain ⟨tail, rfl⟩ := h
  rw [List.drop_append_of_le_length (by omega),
    List.take_append_of_le_length (by rw [List.length_drop]; omega)]

theorem drop_prefix_drop {α : Type} {x y : List α} (h : x <+: y) (n : ℕ) (hn : n ≤ x.length) :
    x.drop n <+: y.drop n := by
  obtain ⟨tail, rfl⟩ := h
  exact ⟨tail, (List.drop_append_of_le_length hn).symm⟩

theorem wire_parts (f : WireFrame) (more : Bytes) :
    ((f.wire ++ more).drop 0).take 1 = [f.rawType] ∧
    ((f.wire ++ more).drop 1).take 3 = be3 f.payload.length ∧
    ((f.wire ++ more).drop 4).take f.payload.length = f.payload := by
  refine ⟨rfl, rfl, ?_⟩
  have h : (f.wire ++ more).drop 4 = f.payload ++ more := rfl
  rw [h, List.take_left]

/-- Behind the bytes of its frame the stream is at the start of the next one. -/
theorem Aligned.next {arrivals rest : List Arrival} {f : WireFrame} (h : Aligned frames k arrivals)
    (hf : frames[k]? = some f) (hfits : f.wire.length ≤ (bytesOf arrivals).length)
    (hb : bytesOf rest = (bytesOf arrivals).drop f.wire.length)
    (hst : StopsOn (Boundary frames) ((wires (frames.take k)).length + f.wire.length) rest) :
    Aligned frames (k + 1) rest := by
  refine ⟨?_, ?_, ?_⟩
  · have := (List.getElem?_eq_some_iff.mp hf).1
    omega
  · have hy := h.bytes
    rw [wires_drop frames k f hf] at hy
    have hd := drop_prefix_drop hy f.wire.length hfits
    rw [List.drop_left] at hd
    rw [hb]
    exact hd
  · rw [wires_take_succ frames k f hf, List.length_append]
    exact hst

theorem recv_aligned (s : TcpStream) (h : Aligned frames k s.incoming) :
    Ends recv s
      (fun frame s' => ∃ f, frames[k]? = some f ∧ frame = f.frame ∧
        Aligned frames (k + 1) s'.incoming ∧ s'.written = s.written)
      (fun _ s' => Aligned frames k s'.incoming ∧ s'.written = s.written) := by
  unfold recv readExact readExactly
  refine ends_bind ((readBytes_first _ s _ 1 _ h.stops (by omega) (by omega)).mono ?_
    fun _ s' hs' => ⟨h.of_eq hs'.1 hs'.2.1, hs'.2.2⟩)
  rintro msgType s1 ⟨rfl, hn1, hb1, hst1, hw1⟩
  cases hf : frames[k]? with
  | none =>
    -- behind the last frame there are no bytes
    have hk : frames.length ≤ k := List.getElem?_eq_none_iff.mp hf
    have hb := h.bytes.length_le
    rw [List.drop_eq_nil_of_le hk] at hb
    simp only [wires, List.map_nil, List.flatten_nil, List.length_nil] at hb
    omega
  | some f =>
    have hy := h.bytes
    rw [wires_drop frames k f hf] at hy
    have hlen := wire_length f
    obtain ⟨hp1, hp2, hp3⟩ := wire_parts f (wires (frames.drop (k + 1)))
    have hin : ∀ i, 0 < i → i < 4 + f.payload.length →
        ¬Boundary frames ((wires (frames.take k)).length + i) := fun i h0 hi =>
      no_boundary_inside frames k f hf i h0 (by omega)
    refine ends_bind ((readBytes_inside _ s1 _ 3 _ hst1 fun j hj => ?_).mono ?_
      fun _ _ hF => hF.elim)
    · rw [Nat.add_assoc]
      exact hin _ (by omega) (by omega)
    rintro rawLength s2 ⟨rfl, hn2, hb2, hst2, hw2⟩
    rw [hb1, List.length_drop] at hn2
    have hlength : beVal ((bytesOf s1.incoming).take 3) = f.payload.length := by
      rw [hb1, take_drop_prefix hy 1 3 (by omega), hp2, beVal_be3 _ f.fits]
    rw [hlength, if_neg (Nat.not_lt.mpr f.fits)]
    refine ends_bind ((readBytes_inside _ s2 _ f.payload.length _ hst2 fun j hj => ?_).mono ?_
      fun _ _ hF => hF.elim)
    · rw [Nat.add_assoc, Nat.add_assoc]
      exact hin _ (by omega) (by omega)
    rintro msgData s3 ⟨rfl, hn3, hb3, hst3, hw3⟩
    rw [hb2, hb1, List.drop_drop, List.length_drop] at hn3
    have htype : (bytesOf s.incoming).take 1 = [f.rawType] := by
      have := take_drop_prefix hy 0 1 (by omega)
      rw [hp1, List.drop_zero] at this
      exact this
    have hdata : (bytesOf s2.incoming).take f.payload.length = f.payload := by
      rw [hb2, hb1, List.drop_drop, take_drop_prefix hy 4 _ (by omega), hp3]
    rw [htype, hdata, List.headD_cons, f.valid]
    refine ends_ofExcept _ (fun frame hok => ?_) (fun e he => by cases he)
    cases hok
    have hwhole : f.wire.length = 1 + (3 + f.payload.length) := by omega
    refine ⟨f, rfl, rfl, h.next hf ?_ ?_ ?_, by rw [hw3, hw2, hw1]⟩
    · omega
    · rw [hb3, hb2, hb1, List.drop_drop, List.drop_drop, hwhole]
    · rw [hwhole, ← Nat.add_assoc, ← Nat.add_assoc]
      exact hst3

theorem messages_take_succ (f : WireFrame) (h : frames[k]? = some f) :
    messages (frames.take (k + 1)) = messages (frames.take k) ++ messages [f] := by
  rw [List.take_add_one, h]
  exact List.filterMap_append

theorem messages_of_frame (f : WireFrame) :
    messages [f] = match f.frame with
      | .Message msg => [msg]
      | _ => [] := by
  unfold messages
  cases hf : f.frame with
  | Message msg => simp [hf]
  | SessionRequest msg => simp [hf]
  | PositiveResponse => simp [hf]
  | NegativeResponse code => simp [hf]
  | Retarget => simp [hf]
  | Keepalive => simp [hf]

/-- Between two boundaries the client reads whole frames, one message at most; that one is
what it returns. -/
theorem recvMessageLoop_aligned (fuel : ℕ) (s : TcpStream) (h : Aligned frames k s.incoming) :
    Ends (recvMessageLoop fuel) s
      (fun msg s' => ∃ k', Aligned frames k' s'.incoming ∧ s'.written = s.written ∧
        messages (frames.take k') = messages (frames.take k) ++ [msg])
      (fun _ s' => ∃ k', Aligned frames k' s'.incoming ∧ s'.written = s.written ∧
        messages (frames.take k') = messages (frames.take k)) := by
  induction fuel generalizing k s with
  | zero => exact ⟨k, h, rfl, rfl⟩
  | succ fuel ih =>
    unfold recvMessageLoop
    refine ends_bind ((recv_aligned s h).mono ?_ fun e s' hs' => ⟨k, hs'.1, hs'.2, rfl⟩)
    rintro frame s' ⟨f, hf, rfl, hal, hw⟩
    have hm := messages_take_succ f hf
    rw [messages_of_frame] at hm
    cases hfr : f.frame with
    | Message msg =>
      rw [hfr] at hm
      exact ⟨k + 1, hal, hw, hm⟩
    | Keepalive =>
      rw [hfr, List.append_nil] at hm
      have hrest := ih s' hal
      rw [hm, hw] at hrest
      exact hrest
    | SessionRequest msg =>
      rw [hfr, List.append_nil] at hm
      exact ⟨k + 1, hal, hw, hm⟩
    | PositiveResponse =>
      rw [hfr, List.append_nil] at hm
      exact ⟨k + 1, hal, hw, hm⟩
    | NegativeResponse code =>
      rw [hfr, List.append_nil] at hm
      exact ⟨k + 1, hal, hw, hm⟩
    | Retarget =>
      rw [hfr, List.append_nil] at hm
      exact ⟨k + 1, hal, hw, hm⟩

/-! ### Writing -/

def messageWire (msg : Bytes) : Bytes := FrameType.Message.code :: be3 msg.length ++ msg

theorem writeLoop_enough (room : List ℕ) (buffer written : Bytes)
    (h : buffer.length ≤ (room.map (· + 1)).sum) :
    ∃ room', writeLoop room buffer written = (written ++ buffer, room', true) := by
  induction room generalizing buffer written with
  | nil =>
    have h0 : buffer = [] := List.length_eq_zero_iff.mp (by simpa using h)
    subst h0
    exact ⟨[], by simp [writeLoop]⟩
  | cons n room ih =>
    by_cases hb : buffer = []
    · subst hb
      exact ⟨n :: room, by simp [writeLoop]⟩
    · simp only [List.map_cons, List.sum_cons] at h
      obtain ⟨room', hr⟩ := ih (buffer.drop (n + 1)) (written ++ buffer.take (n + 1)) (by
        rw [List.length_drop]
        omega)
      refine ⟨room', ?_⟩
      simp only [writeLoop, hb, if_false]
      rw [hr, List.append_assoc, List.take_append_drop]

theorem sendMessage_whole (msg : Bytes) (s : TcpStream)
    (h : s.room = [] ∨ 4 + msg.length ≤ (s.room.map (· + 1)).sum) :
    Ends (sendMessage msg) s
      (fun _ s' => s'.incoming = s.incoming ∧ s'.written = s.written ++ messageWire msg)
      (fun _ s' => s'.incoming = s.incoming ∧ s'.written = s.written) := by
  unfold sendMessage send
  by_cases hlen : MAX_FRAME_LENGTH < msg.length
  · simp only [Frame.encode, hlen, if_true]
    exact ends_bind (ends_raise _ ⟨rfl, rfl⟩)
  · simp only [Frame.encode, hlen, if_false]
    refine ends_bind (ends_ofExcept _ (fun encoding hok => ?_) (fun e he => by cases he))
    cases hok
    unfold Ends writeExactly
    rcases h with h | h
    · simp only [h, writeLoop]
      cases s.blocked with
      | none => exact ⟨rfl, rfl⟩
      | some kind => exact ⟨rfl, rfl⟩
    · obtain ⟨room', hr⟩ := writeLoop_enough s.room (messageWire msg) s.written (by
        simp only [messageWire, List.length_append, List.length_cons, be3_length]
        exact h)
      unfold messageWire at hr
      rw [hr]
      exact ⟨rfl, rfl⟩

/-! ### Runs -/

/-- The calls of the client, a send with what the socket takes during it. -/
inductive Call where
  | recvMessage
  | sendMessage (msg : Bytes) (room : List ℕ) (blocked : Option IoErrorKind)

inductive Outcome where
  | message (msg : Bytes)
  | sent (msg : Bytes)
  | stopped (why : Stop Error)
  deriving DecidableEq, Repr

def step (s : TcpStream) : Call → Outcome × TcpStream
  | .recvMessage =>
    match recvMessage s with
    | .ok msg s' => (.message msg, s')
    | .error e s' => (.stopped e, s')
  | .sendMessage msg room blocked =>
    match sendMessage msg { s with room, blocked } with
    | .ok _ s' => (.sent msg, s')
    | .error e s' => (.stopped e, s')

def returned (outcomes : List Outcome) : List Bytes :=
  outcomes.filterMap fun o => match o with
    | .message msg => some msg
    | _ => none

def sentOut (outcomes : List Outcome) : List Bytes :=
  outcomes.filterMap fun o => match o with
    | .sent msg => some msg
    | _ => none

/-- A send that stops does so before the first byte of its frame is taken. -/
def Call.Whole : Call → Prop
  | .recvMessage => True
  | .sendMessage msg room _ => room = [] ∨ 4 + msg.length ≤ (room.map (· + 1)).sum

/-- What holds after `outcomes`: the incoming stream is at a frame, the messages before it
have been returned in order, and the outgoing stream consists of whole frames. -/
structure InStep (frames : List WireFrame) (outcomes : List Outcome) (s : TcpStream) : Prop where
  incoming : ∃ k, Aligned frames k s.incoming ∧ returned outcomes = messages (frames.take k)
  outgoing : s.written = ((sentOut outcomes).map messageWire).flatten

theorem InStep.snoc {outcomes : List Outcome} {o : Outcome} {s : TcpStream} {k : ℕ}
    (hal : Aligned frames k s.incoming)
    (hret : returned outcomes ++ returned [o] = messages (frames.take k))
    (hout : s.written = ((sentOut outcomes).map messageWire).flatten ++
      ((sentOut [o]).map messageWire).flatten) : InStep frames (outcomes ++ [o]) s := by
  refine ⟨⟨k, hal, ?_⟩, ?_⟩
  · rw [← hret]
    exact List.filterMap_append
  · have happend : sentOut (outcomes ++ [o]) = sentOut outcomes ++ sentOut [o] :=
      List.filterMap_append
    rw [hout, happend, List.map_append, List.flatten_append]

theorem step_inStep (outcomes : List Outcome) (s : TcpStream) (c : Call) (hc : c.Whole)
    (h : InStep frames outcomes s) :
    InStep frames (outcomes ++ [(step s c).1]) (step s c).2 := by
  obtain ⟨⟨k, hal, hret⟩, hout⟩ := h
  cases c with
  | recvMessage =>
    have hr := recvMessageLoop_aligned ((bytesOf s.incoming).length + 1) s hal
    unfold Ends at hr
    simp only [step, recvMessage]
    cases hx : recvMessageLoop ((bytesOf s.incoming).length + 1) s with
    | ok msg s' =>
      rw [hx] at hr
      obtain ⟨k', hal', hw, hm⟩ := hr
      apply InStep.snoc hal'
      · rw [hret, hm]
        rfl
      · rw [hw, hout]
        simp [sentOut]
    | error e s' =>
      rw [hx] at hr
      obtain ⟨k', hal', hw, hm⟩ := hr
      apply InStep.snoc hal'
      · rw [hret, hm]
        simp [returned]
      · rw [hw, hout]
        simp [sentOut]
  | sendMessage msg room blocked =>
    have hs := sendMessage_whole msg { s with room, blocked } hc
    unfold Ends at hs
    simp only [step]
    cases hx : sendMessage msg { s with room, blocked } with
    | ok _ s' =>
      rw [hx] at hs
      apply InStep.snoc (by rw [hs.1]; exact hal)
      · rw [hret]
        simp [returned]
      · rw [hs.2, hout]
        simp [sentOut]
    | error e s' =>
      rw [hx] at hs
      apply InStep.snoc (by rw [hs.1]; exact hal)
      · rw [hret]
        simp [returned]
      · rw [hs.2, hout]
        simp [sentOut]

theorem run_inStep (calls : List Call) (before : List Outcome) (s : TcpStream)
    (hc : ∀ c ∈ calls, c.Whole) (h : InStep frames before s) :
    InStep frames (before ++ (Runs.run step s calls).1) (Runs.run step s calls).2 := by
  induction calls generalizing before s with
  | nil =>
    rw [Runs.run_nil, List.append_nil]
    exact h
  | cons c calls ih =>
    have h1 := step_inStep before s c (hc c List.mem_cons_self) h
    have h2 := ih _ _ (fun c' hc' => hc c' (List.mem_cons_of_mem c hc')) h1
    rw [Runs.run_cons]
    rw [List.append_assoc] at h2
    exact h2

/-- Calls of which none is stopped inside a frame, on a stream of well-formed frames: every
call starts at a frame of the incoming stream and of the outgoing one, and the messages
returned are the server's, in order and without a gap. -/
theorem calls_aligned (frames : List WireFrame) (arrivals : List Arrival) (calls : List Call)
    (hbytes : bytesOf arrivals <+: wires frames) (hstops : StopsOn (Boundary frames) 0 arrivals)
    (hsends : ∀ c ∈ calls, c.Whole) :
    InStep frames (Runs.run step ⟨arrivals, [], none, []⟩ calls).1
      (Runs.run step ⟨arrivals, [], none, []⟩ calls).2 := by
  have h0 : InStep frames [] ⟨arrivals, [], none, []⟩ :=
    ⟨⟨0, ⟨Nat.zero_le _, hbytes, hstops⟩, rfl⟩, rfl⟩
  exact run_inStep calls [] _ hsends h0

/-- A message whose bytes look like a frame themselves. -/
def nestedFrame : WireFrame where
  rawType := 0x00
  payload := [0x00, 0x00, 0x00, 0x01, 0x42]
  frame := .Message [0x00, 0x00, 0x00, 0x01, 0x42]
  valid := rfl
  fits := by decide

def keepaliveFrame : WireFrame where
  rawType := 0x85
  payload := []
  frame := .Keepalive
  valid := rfl
  fits := by decide

theorem calls_aligned_keepalive :
    InStep [keepaliveFrame, nestedFrame]
      (Runs.run step ⟨[.segment 0x85 [0, 0], .segment 0 [], .timeout, .segment 0 [0, 0],
          .segment 5 [0, 0, 0, 1, 0x42]], [], none, []⟩
        [.recvMessage, .sendMessage [7] [] none, .recvMessage, .sendMessage [7] [1, 2] none]).1
      (Runs.run step ⟨[.segment 0x85 [0, 0], .segment 0 [], .timeout, .segment 0 [0, 0],
          .segment 5 [0, 0, 0, 1, 0x42]], [], none, []⟩
        [.recvMessage, .sendMessage [7] [] none, .recvMessage, .sendMessage [7] [1, 2] none]).2 :=
  calls_aligned _ _ _ (by decide) ⟨⟨1, by decide⟩, ⟨2, by decide⟩⟩ (by simp [Call.Whole])

/-- The first call is dropped between the length and the payload; the second one takes the
payload for a frame and returns a message that was never sent. -/
theorem dropped_inside_frame :
    bytesOf [.segment 0 [0, 0, 5], .timeout, .segment 0 [0, 0, 1, 0x42]] = wires [nestedFrame] ∧
    (Runs.run step ⟨[.segment 0 [0, 0, 5], .timeout, .segment 0 [0, 0, 1, 0x42]], [], none, []⟩
      [.recvMessage, .recvMessage]).1 = [.stopped .dropped, .message [0x42]] ∧
    [0x42] ∉ messages [nestedFrame] := by
  decide

end CifsClientStream.NetBios
