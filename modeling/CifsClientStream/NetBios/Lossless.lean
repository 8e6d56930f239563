import CifsClientStream.NetBios.Alignment

/-!
# Frames through a segmented stream (src/netbios.rs)

The messages of a sender, each encoded as a frame and with keepalives wherever
the sender likes, arrive in segments that know nothing of frames. The loops of
`read_exactly`, `recv` and `recv_message` are followed through the segments:
each call returns the next message and leaves the stream behind its frame.
-/

namespace CifsClientStream.NetBios
open Cursor Async Utils

/-! ### The loop of `read_exactly` -/

/-- `read_buf` on the stream limited to `limit` bytes: what one read puts into the buffer,
which is nothing at the end of the stream and when the limit is used up. -/
def readBuf (limit : ℕ) : List Arrival → Except (Stop Error) Bytes × List Arrival
  | [] => if limit = 0 then (.ok [], []) else (.error .dropped, [])
  | a :: rest =>
    if limit = 0 then (.ok [], a :: rest)
    else match a with
      | .segment b bs =>
        match (b :: bs).drop limit with
        | c :: cs => (.ok ((b :: bs).take limit), .segment c cs :: rest)
        | [] => (.ok (b :: bs), rest)
      | .timeout => (.error .dropped, rest)
      | .closed => (.ok [], .closed :: rest)
      | .failed kind => (.error (.error (.IoError kind)), rest)

/-- The loop of `read_exactly` with the limit of `chunk` and `count` kept apart, as the source
has them; `count -= n` panics if more bytes were read than are missing. -/
def readExactlyLoop : ℕ → ℕ → ℕ → Bytes → List Arrival → Except (Stop Error) Bytes × List Arrival
  | 0, _, _, _, arrivals => (.error .dropped, arrivals)
  | fuel + 1, limit, count, buffer, arrivals =>
    if count = 0 then (.ok buffer, arrivals)
    else match readBuf limit arrivals with
      | (.error e, rest) => (.error e, rest)
      | (.ok chunk, rest) =>
        if chunk = [] then (.error (.error .UnexpectedEOF), rest)
        else match trySub count chunk.length with
          | none => (.error .panic, rest)
          | some count =>
            readExactlyLoop fuel (limit - chunk.length) count (buffer ++ chunk) rest

theorem readLoop_zero (eof : Error) (arrivals : List Arrival) (acc : Bytes) :
    readLoop eof arrivals 0 acc = (.ok acc, arrivals) := by
  cases arrivals <;> simp [readLoop]

theorem trySub_le {n m : ℕ} (h : m ≤ n) : trySub n m = some (n - m) := by
  simp [trySub, Nat.not_lt.mpr h]

/-- The limit and the count run down together, so the subtraction never underflows. -/
theorem readExactlyLoop_eq (fuel count : ℕ) (buffer : Bytes) (arrivals : List Arrival)
    (h : count < fuel) :
    readExactlyLoop fuel count count buffer arrivals =
      readLoop .UnexpectedEOF arrivals count buffer := by
  induction fuel generalizing count buffer arrivals with
  | zero => exact absurd h (Nat.not_lt_zero _)
  | succ fuel ih =>
    by_cases h0 : count = 0
    · subst h0
      rw [readLoop_zero]
      simp [readExactlyLoop]
    · cases arrivals with
      | nil => simp [readExactlyLoop, readBuf, readLoop, h0]
      | cons a rest =>
        cases a with
        | segment b bs =>
          simp only [readExactlyLoop, readBuf, readLoop, h0, if_false]
          cases hd : (b :: bs).drop count with
          | cons c cs =>
            have hlen := congrArg List.length hd
            rw [List.length_drop, List.length_cons, List.length_cons] at hlen
            have htake : ((b :: bs).take count).length = count := by
              rw [List.length_take, List.length_cons]
              omega
            have hne : (b :: bs).take count ≠ [] := by
              intro hnil
              rw [hnil] at htake
              exact h0 htake.symm
            simp only [hne, if_false, htake, trySub_le le_rfl, Nat.sub_self]
            rw [ih 0 _ _ (by omega), readLoop_zero]
          | nil =>
            have hle : (b :: bs).length ≤ count := List.drop_eq_nil_iff.mp hd
            simp only [reduceCtorEq, if_false, trySub_le hle]
            refine ih _ _ _ ?_
            rw [List.length_cons] at hle ⊢
            omega
        | timeout => simp [readExactlyLoop, readBuf, readLoop, h0]
        | closed => simp [readExactlyLoop, readBuf, readLoop, h0]
        | failed kind => simp [readExactlyLoop, readBuf, readLoop, h0]

theorem readLoop_not_panic (eof : Error) (arrivals : List Arrival) (need : ℕ) (acc : Bytes) :
    (readLoop eof arrivals need acc).1 ≠ .error .panic := by
  induction arrivals generalizing need acc with
  | nil =>
    rw [readLoop]
    split
    · simp
    · simp
  | cons a rest ih =>
    by_cases h0 : need = 0
    · rw [h0, readLoop_zero]
      simp
    · cases a with
      | segment b bs =>
        simp only [readLoop, h0, if_false]
        split
        · simp
        · exact ih _ _
      | timeout => simp [readLoop, h0]
      | closed => simp [readLoop, h0]
      | failed kind => simp [readLoop, h0]

/-! ### Segments -/

/-- Segments of at least one byte each, and what arrives behind them. -/
def delivered (segments : List (UInt8 × Bytes)) (tail : List Arrival) : List Arrival :=
  segments.map (fun p => .segment p.1 p.2) ++ tail

def bytesIn (segments : List (UInt8 × Bytes)) : Bytes := segments.flatMap fun p => p.1 :: p.2

@[simp] theorem bytesIn_nil : bytesIn [] = [] := rfl

@[simp] theorem bytesIn_cons (b : UInt8) (bs : Bytes) (segments : List (UInt8 × Bytes)) :
    bytesIn ((b, bs) :: segments) = (b :: bs) ++ bytesIn segments := rfl

theorem bytesOf_delivered (segments : List (UInt8 × Bytes)) (tail : List Arrival) :
    bytesOf (delivered segments tail) = bytesIn segments ++ bytesOf tail := by
  induction segments with
  | nil => rfl
  | cons p segments ih =>
    change (p.1 :: p.2) ++ bytesOf (delivered segments tail) = _
    rw [ih, bytesIn_cons, List.append_assoc]

variable (eof : Error) (tail : List Arrival)

theorem readLoop_delivered (segments : List (UInt8 × Bytes)) (need : ℕ) (acc : Bytes)
    (h : need ≤ (bytesIn segments).length) :
    ∃ left, readLoop eof (delivered segments tail) need acc =
        (.ok (acc ++ (bytesIn segments).take need), delivered left tail) ∧
      bytesIn left = (bytesIn segments).drop need := by
  induction segments generalizing need acc with
  | nil =>
    have h0 : need = 0 := Nat.le_zero.mp h
    subst h0
    exact ⟨[], by rw [readLoop_zero]; simp, rfl⟩
  | cons p segments ih =>
    obtain ⟨b, bs⟩ := p
    by_cases h0 : need = 0
    · subst h0
      exact ⟨(b, bs) :: segments, by rw [readLoop_zero]; simp, rfl⟩
    · rw [bytesIn_cons] at h ⊢
      rw [List.length_append] at h
      change ∃ left, readLoop eof (.segment b bs :: delivered segments tail) need acc = _ ∧ _
      simp only [readLoop, h0, if_false]
      cases hd : (b :: bs).drop need with
      | cons c cs =>
        have hlen := congrArg List.length hd
        rw [List.length_drop, List.length_cons (a := c)] at hlen
        refine ⟨(c, cs) :: segments, ?_, ?_⟩
        · rw [List.take_append_of_le_length (by omega)]
          rfl
        · rw [List.drop_append_of_le_length (by omega), hd, bytesIn_cons]
      | nil =>
        have hle : (b :: bs).length ≤ need := List.drop_eq_nil_iff.mp hd
        obtain ⟨left, hr, hb⟩ := ih (need - (b :: bs).length) (acc ++ b :: bs) (by omega)
        refine ⟨left, ?_, ?_⟩
        · rw [hr, List.take_append, List.take_of_length_le hle, List.append_assoc]
        · rw [hb, List.drop_append, hd, List.nil_append]

/-- When the segments are too short the loop goes on with what is behind them. -/
theorem readLoop_through (segments : List (UInt8 × Bytes)) (need : ℕ) (acc : Bytes)
    (h : (bytesIn segments).length < need) :
    readLoop eof (delivered segments tail) need acc =
      readLoop eof tail (need - (bytesIn segments).length) (acc ++ bytesIn segments) := by
  induction segments generalizing need acc with
  | nil =>
    rw [bytesIn_nil, List.append_nil]
    rfl
  | cons p segments ih =>
    obtain ⟨b, bs⟩ := p
    rw [bytesIn_cons, List.length_append] at h
    have h0 : need ≠ 0 := by omega
    have hd : (b :: bs).drop need = [] := List.drop_eq_nil_of_le (by omega)
    change readLoop eof (.segment b bs :: delivered segments tail) need acc = _
    simp only [readLoop, h0, if_false]
    rw [hd]
    dsimp only
    rw [ih _ _ (by omega), bytesIn_cons, List.length_append, Nat.sub_sub, List.append_assoc]

theorem readBytes_delivered (s : TcpStream) (segments : List (UInt8 × Bytes)) (need : ℕ)
    (hs : s.incoming = delivered segments tail) (h : need ≤ (bytesIn segments).length) :
    ∃ left, readBytes eof need s =
        .ok ((bytesIn segments).take need) { s with incoming := delivered left tail } ∧
      bytesIn left = (bytesIn segments).drop need := by
  obtain ⟨left, hr, hb⟩ := readLoop_delivered eof tail segments need [] h
  refine ⟨left, ?_, hb⟩
  rw [readBytes, hs, hr]
  rfl

theorem readBytes_cut (s : TcpStream) (segments : List (UInt8 × Bytes)) (need : ℕ)
    (hs : s.incoming = delivered segments (.closed :: tail))
    (h : (bytesIn segments).length < need) :
    readBytes eof need s = .error (.error eof) { s with incoming := .closed :: tail } := by
  have h0 : need - (bytesIn segments).length ≠ 0 := by omega
  rw [readBytes, hs, readLoop_through _ _ _ _ _ h]
  simp [readLoop, h0]

variable {tail}

/-! ### One frame -/

theorem recv_delivered (s : TcpStream) (segments : List (UInt8 × Bytes)) (f : WireFrame)
    (more : Bytes) (hs : s.incoming = delivered segments tail)
    (hb : bytesIn segments = f.wire ++ more) :
    ∃ left, recv s = .ok f.frame { s with incoming := delivered left tail } ∧
      bytesIn left = more := by
  have hlen := congrArg List.length hb
  rw [List.length_append, wire_length] at hlen
  obtain ⟨hp1, hp2, hp3⟩ := wire_parts f more
  obtain ⟨s1, hr1, hb1⟩ := readBytes_delivered (.IoError .UnexpectedEof) tail s segments 1 hs
    (by omega)
  obtain ⟨s2, hr2, hb2⟩ := readBytes_delivered (.IoError .UnexpectedEof) tail
    { s with incoming := delivered s1 tail } s1 3 rfl (by rw [hb1, List.length_drop]; omega)
  obtain ⟨s3, hr3, hb3⟩ := readBytes_delivered .UnexpectedEOF tail
    { s with incoming := delivered s2 tail } s2 f.payload.length rfl (by
      rw [hb2, hb1, List.drop_drop, List.length_drop]
      omega)
  rw [hb] at hb1 hr1
  rw [hb1] at hb2 hr2
  rw [hb2, List.drop_drop] at hb3 hr3
  refine ⟨s3, ?_, ?_⟩
  · unfold recv readExact readExactly
    rw [fut_bind, hr1]
    dsimp only
    rw [fut_bind, hr2, hp2]
    dsimp only
    rw [beVal_be3 _ f.fits, if_neg (Nat.not_lt.mpr f.fits), fut_bind, hr3, hp3]
    dsimp only
    change ofExcept (Frame.new f.rawType f.payload) _ = _
    rw [f.valid]
    rfl
  · have hwire : 1 + (3 + f.payload.length) = f.wire.length := by
      rw [wire_length]
      omega
    rw [hb3, List.drop_drop, hwire, List.drop_left]

theorem recv_cut (s : TcpStream) (segments : List (UInt8 × Bytes)) (f : WireFrame)
    (hs : s.incoming = delivered segments (.closed :: tail))
    (hb : bytesIn segments <+: f.wire) (hshort : (bytesIn segments).length < f.wire.length) :
    ∃ e, recv s = .error (.error e) { s with incoming := .closed :: tail } := by
  unfold recv readExact readExactly
  by_cases h1 : 1 ≤ (bytesIn segments).length
  · obtain ⟨s1, hr1, hb1⟩ := readBytes_delivered (.IoError .UnexpectedEof) _ s segments 1 hs h1
    rw [fut_bind, hr1]
    dsimp only
    by_cases h4 : 4 ≤ (bytesIn segments).length
    · obtain ⟨s2, hr2, hb2⟩ := readBytes_delivered (.IoError .UnexpectedEof) _
        { s with incoming := delivered s1 (.closed :: tail) } s1 3 rfl
        (by rw [hb1, List.length_drop]; omega)
      have hlength : beVal ((bytesIn s1).take 3) = f.payload.length := by
        obtain ⟨_, hp2, _⟩ := wire_parts f []
        rw [List.append_nil] at hp2
        rw [hb1, take_drop_prefix hb 1 3 (by omega), hp2, beVal_be3 _ f.fits]
      rw [fut_bind, hr2]
      dsimp only
      rw [hlength, if_neg (Nat.not_lt.mpr f.fits), fut_bind,
        readBytes_cut .UnexpectedEOF tail _ s2 _ rfl (by
          rw [hb2, hb1, List.drop_drop, List.length_drop]
          rw [wire_length] at hshort
          omega)]
      exact ⟨_, rfl⟩
    · rw [fut_bind, readBytes_cut (.IoError .UnexpectedEof) tail _ s1 3 rfl
        (by rw [hb1, List.length_drop]; omega)]
      exact ⟨_, rfl⟩
  · rw [fut_bind, readBytes_cut (.IoError .UnexpectedEof) tail _ segments 1 hs (by omega)]
    exact ⟨_, rfl⟩

/-! ### What the sender puts on the stream -/

inductive Sent where
  | message (msg : Bytes)
  | keepalive
  deriving DecidableEq

namespace Sent

def encode : Sent → Except Error Bytes
  | message msg => (Frame.Message msg).encode
  | keepalive => .ok keepaliveFrame.wire

def wire : Sent → Bytes
  | message msg => messageWire msg
  | keepalive => keepaliveFrame.wire

def frame : Sent → Frame
  | message msg => .Message msg
  | keepalive => .Keepalive

def Fits : Sent → Prop
  | message msg => msg.length ≤ MAX_FRAME_LENGTH
  | keepalive => True

theorem encode_fits (x : Sent) (h : x.Fits) : x.encode = .ok x.wire := by
  cases x with
  | message msg => exact if_neg (Nat.not_lt.mpr h)
  | keepalive => rfl

theorem wireFrame (x : Sent) (h : x.Fits) : ∃ f : WireFrame, f.wire = x.wire ∧ f.frame = x.frame := by
  cases x with
  | message msg => exact ⟨⟨0, msg, .Message msg, rfl, h⟩, rfl, rfl⟩
  | keepalive => exact ⟨keepaliveFrame, rfl, rfl⟩

end Sent

theorem encode_too_long (msg : Bytes) (h : MAX_FRAME_LENGTH < msg.length) :
    (Frame.Message msg).encode = .error .InvalidFrame := if_pos h

def encodeAll : List Sent → Except Error Bytes
  | [] => .ok []
  | x :: rest => do
    let bytes ← x.encode
    let more ← encodeAll rest
    .ok (bytes ++ more)

def wireOf (items : List Sent) : Bytes := (items.map Sent.wire).flatten

def sentMessages (items : List Sent) : List Bytes :=
  items.filterMap fun x => match x with
    | .message msg => some msg
    | .keepalive => none

/-- The frames that are whole in the first `n` bytes. -/
def arrived : List Sent → ℕ → List Sent
  | [], _ => []
  | x :: rest, n => if x.wire.length ≤ n then x :: arrived rest (n - x.wire.length) else []

theorem encodeAll_fits (items : List Sent) (h : ∀ x ∈ items, x.Fits) :
    encodeAll items = .ok (wireOf items) := by
  induction items with
  | nil => rfl
  | cons x rest ih =>
    have hx := x.encode_fits (h x List.mem_cons_self)
    have hrest := ih fun y hy => h y (List.mem_cons_of_mem x hy)
    rw [encodeAll, hx, hrest]
    rfl

theorem fits_of_messages (items : List Sent)
    (h : ∀ msg ∈ sentMessages items, msg.length ≤ MAX_FRAME_LENGTH) : ∀ x ∈ items, x.Fits := by
  intro x hx
  cases x with
  | message msg => exact h msg (List.mem_filterMap.mpr ⟨.message msg, hx, rfl⟩)
  | keepalive => exact trivial

theorem wireOf_cons (x : Sent) (rest : List Sent) : wireOf (x :: rest) = x.wire ++ wireOf rest := rfl

theorem wireOf_append (xs ys : List Sent) : wireOf (xs ++ ys) = wireOf xs ++ wireOf ys := by
  simp [wireOf]

theorem sentMessages_append (xs ys : List Sent) :
    sentMessages (xs ++ ys) = sentMessages xs ++ sentMessages ys := List.filterMap_append

theorem arrived_all (items : List Sent) : arrived items (wireOf items).length = items := by
  induction items with
  | nil => rfl
  | cons x rest ih =>
    have hle : x.wire.length ≤ (wireOf (x :: rest)).length := by
      rw [wireOf_cons, List.length_append]
      omega
    have hsub : (wireOf (x :: rest)).length - x.wire.length = (wireOf rest).length := by
      rw [wireOf_cons, List.length_append]
      omega
    rw [arrived, if_pos hle, hsub, ih]

/-- A stream that begins with the frames of `x :: rest` and is long enough holds `x` whole. -/
theorem prefix_frame {x : Sent} {rest : List Sent} {q : Bytes} (h : q <+: wireOf (x :: rest))
    (hlen : x.wire.length ≤ q.length) : ∃ more, q = x.wire ++ more ∧ more <+: wireOf rest := by
  rw [wireOf_cons] at h
  obtain ⟨more, hq⟩ := List.prefix_of_prefix_length_le (List.prefix_append _ _) h hlen
  refine ⟨more, hq.symm, ?_⟩
  rw [← hq] at h
  exact (List.prefix_append_right_inj x.wire).mp h

theorem prefix_short {x : Sent} {rest : List Sent} {q : Bytes} (h : q <+: wireOf (x :: rest))
    (hlen : q.length < x.wire.length) : q <+: x.wire :=
  List.prefix_of_prefix_length_le h (List.prefix_append _ _) (by omega)

/-! ### One message -/

/-- The next message is returned if its frame is whole; nothing behind it is touched. -/
theorem recvMessageLoop_next (items : List Sent) (hfits : ∀ x ∈ items, x.Fits) (s : TcpStream)
    (segments : List (UInt8 × Bytes)) (fuel : ℕ) (hs : s.incoming = delivered segments tail)
    (hq : bytesIn segments <+: wireOf items) (hfuel : (bytesIn segments).length < fuel)
    (msg : Bytes) (msgs : List Bytes)
    (hm : sentMessages (arrived items (bytesIn segments).length) = msg :: msgs) :
    ∃ front rest left, items = front ++ rest ∧ front.getLast? = some (.message msg) ∧
      sentMessages front = [msg] ∧
      recvMessageLoop fuel s = .ok msg { s with incoming := delivered left tail } ∧
      bytesIn segments = wireOf front ++ bytesIn left ∧ bytesIn left <+: wireOf rest ∧
      sentMessages (arrived rest (bytesIn left).length) = msgs := by
  induction items generalizing s segments fuel with
  | nil => cases hm
  | cons x rest ih =>
    by_cases hlen : x.wire.length ≤ (bytesIn segments).length
    · obtain ⟨more, hmore, hrest⟩ := prefix_frame hq hlen
      obtain ⟨f, hwire, hframe⟩ := x.wireFrame (hfits x List.mem_cons_self)
      rw [← hwire] at hmore
      obtain ⟨left, hrecv, hleft⟩ := recv_delivered s segments f more hs hmore
      rw [hwire] at hmore
      rw [arrived, if_pos hlen, hmore, List.length_append, Nat.add_sub_cancel_left, ← hleft] at hm
      cases fuel with
      | zero => exact absurd hfuel (Nat.not_lt_zero _)
      | succ fuel =>
        rw [recvMessageLoop, fut_bind, hrecv, hframe]
        cases x with
        | message m =>
          rw [← hleft] at hrest hmore
          have hcons := List.cons.inj hm
          refine ⟨[.message m], rest, left, rfl, by rw [← hcons.1]; rfl, by rw [← hcons.1]; rfl,
            by rw [← hcons.1]; rfl, ?_, hrest, hcons.2⟩
          rw [hmore]
          simp [wireOf]
        | keepalive =>
          have hsize : (bytesIn left).length < fuel := by
            rw [hmore, List.length_append, ← hleft] at hfuel
            have h4 : (Sent.keepalive).wire.length = 4 := rfl
            omega
          rw [← hleft] at hrest hmore
          obtain ⟨front, rest', left', hsplit, hlast, hfront, hloop, hbytes, hpre, hmsgs⟩ :=
            ih (fun y hy => hfits y (List.mem_cons_of_mem _ hy))
              { s with incoming := delivered left tail } left fuel rfl hrest hsize hm
          refine ⟨.keepalive :: front, rest', left', by rw [hsplit]; rfl, ?_, hfront, hloop, ?_,
            hpre, hmsgs⟩
          · rw [List.getLast?_cons, hlast]
            rfl
          · rw [hmore, hbytes, wireOf_cons, List.append_assoc]
    · rw [arrived, if_neg hlen] at hm
      cases hm

/-- When the stream ends before the next message is whole, the call fails. -/
theorem recvMessageLoop_cut (items : List Sent) (hfits : ∀ x ∈ items, x.Fits) (s : TcpStream)
    (segments : List (UInt8 × Bytes)) (fuel : ℕ)
    (hs : s.incoming = delivered segments (.closed :: tail))
    (hq : bytesIn segments <+: wireOf items) (hfuel : (bytesIn segments).length < fuel)
    (hm : sentMessages (arrived items (bytesIn segments).length) = []) :
    ∃ e, recvMessageLoop fuel s = .error (.error e) { s with incoming := .closed :: tail } := by
  induction items generalizing s segments fuel with
  | nil =>
    have hnil : bytesIn segments = [] := List.prefix_nil.mp hq
    obtain ⟨e, he⟩ := recv_cut s segments keepaliveFrame hs
      (by rw [hnil]; exact List.nil_prefix) (by rw [hnil]; decide)
    cases fuel with
    | zero => exact absurd hfuel (Nat.not_lt_zero _)
    | succ fuel => exact ⟨e, by rw [recvMessageLoop, fut_bind, he]⟩
  | cons x rest ih =>
    obtain ⟨f, hwire, hframe⟩ := x.wireFrame (hfits x List.mem_cons_self)
    cases fuel with
    | zero => exact absurd hfuel (Nat.not_lt_zero _)
    | succ fuel =>
      rw [recvMessageLoop, fut_bind]
      by_cases hlen : x.wire.length ≤ (bytesIn segments).length
      · obtain ⟨more, hmore, hrest⟩ := prefix_frame hq hlen
        rw [← hwire] at hmore
        obtain ⟨left, hrecv, hleft⟩ := recv_delivered s segments f more hs hmore
        rw [hwire] at hmore
        rw [arrived, if_pos hlen, hmore, List.length_append, Nat.add_sub_cancel_left, ← hleft] at hm
        rw [hrecv, hframe]
        cases x with
        | message m => cases hm
        | keepalive =>
          have hsize : (bytesIn left).length < fuel := by
            rw [hmore, List.length_append, ← hleft] at hfuel
            have h4 : (Sent.keepalive).wire.length = 4 := rfl
            omega
          rw [← hleft] at hrest
          exact ih (fun y hy => hfits y (List.mem_cons_of_mem _ hy))
            { s with incoming := delivered left (.closed :: tail) } left fuel rfl hrest hsize hm
      · have hshort := Nat.not_le.mp hlen
        obtain ⟨e, he⟩ := recv_cut s segments f hs (by rw [hwire]; exact prefix_short hq hshort)
          (by rw [hwire]; exact hshort)
        exact ⟨e, by rw [he]⟩

theorem fuel_enough (s : TcpStream) (segments : List (UInt8 × Bytes))
    (hs : s.incoming = delivered segments tail) :
    (bytesIn segments).length < (bytesOf s.incoming).length + 1 := by
  rw [hs, bytesOf_delivered, List.length_append]
  omega

/-! ### Successive calls -/

/-- `r` is what `n` calls of `recv_message` lead to: they have returned the first `n` messages
and read `front`, the frames up to the last of these and no byte more. -/
def Received (items : List Sent) (segments : List (UInt8 × Bytes)) (tail : List Arrival)
    (s : TcpStream) (n : ℕ) (r : List Outcome × TcpStream) : Prop :=
  ∃ front rest left, items = front ++ rest ∧ front.getLast? ≠ some .keepalive ∧
    sentMessages front = (sentMessages items).take n ∧
    bytesIn segments = wireOf front ++ bytesIn left ∧
    r = (((sentMessages items).take n).map .message, { s with incoming := delivered left tail })

def receives (n : ℕ) : List Call := List.replicate n .recvMessage

theorem run_received (n : ℕ) (items : List Sent) (hfits : ∀ x ∈ items, x.Fits) (s : TcpStream)
    (segments : List (UInt8 × Bytes)) (hs : s.incoming = delivered segments tail)
    (hq : bytesIn segments <+: wireOf items)
    (hn : n ≤ (sentMessages (arrived items (bytesIn segments).length)).length) :
    Received items segments tail s n (Runs.run step s (receives n)) := by
  induction n generalizing items s segments with
  | zero =>
    refine ⟨[], items, segments, rfl, nofun, rfl, rfl, ?_⟩
    rw [← hs]
    rfl
  | succ n ih =>
    cases hm : sentMessages (arrived items (bytesIn segments).length) with
    | nil =>
      rw [hm] at hn
      exact absurd hn (Nat.not_succ_le_zero n)
    | cons msg msgs =>
      rw [hm, List.length_cons] at hn
      obtain ⟨front, rest, left, hsplit, hlast, hfront, hloop, hbytes, hpre, hmsgs⟩ :=
        recvMessageLoop_next items hfits s segments _ hs hq (fuel_enough s segments hs) msg msgs hm
      have hstep : step s .recvMessage =
          (.message msg, { s with incoming := delivered left tail }) := by
        rw [step, recvMessage, hloop]
      obtain ⟨front', rest', left', hsplit', hlast', hfront', hbytes', hrun⟩ :=
        ih rest (fun y hy => hfits y (by rw [hsplit]; exact List.mem_append_right front hy))
          { s with incoming := delivered left tail } left rfl hpre (by rw [hmsgs]; omega)
      have htake : (sentMessages items).take (n + 1) = msg :: (sentMessages rest).take n := by
        rw [hsplit, sentMessages_append, hfront]
        rfl
      refine ⟨front ++ front', rest', left', ?_, ?_, ?_, ?_, ?_⟩
      · rw [hsplit, hsplit', List.append_assoc]
      · rw [List.getLast?_append]
        cases hf : front'.getLast? with
        | none => simp [hlast]
        | some y =>
          rw [hf] at hlast'
          simpa using hlast'
      · rw [sentMessages_append, hfront, hfront', htake]
        rfl
      · rw [hbytes, hbytes', wireOf_append, List.append_assoc]
      · rw [receives, List.replicate_succ, Runs.run_cons, hstep, htake]
        change (_ :: (Runs.run step _ (receives n)).1, (Runs.run step _ (receives n)).2) = _
        rw [hrun]
        rfl

/-- `n` calls, each of which returned an error. -/
def Failed (n : ℕ) (outcomes : List Outcome) : Prop :=
  outcomes.length = n ∧ ∀ o ∈ outcomes, ∃ e, o = .stopped (.error e)

theorem step_cut (items : List Sent) (hfits : ∀ x ∈ items, x.Fits) (s : TcpStream)
    (segments : List (UInt8 × Bytes)) (hs : s.incoming = delivered segments (.closed :: tail))
    (hq : bytesIn segments <+: wireOf items)
    (hm : sentMessages (arrived items (bytesIn segments).length) = []) :
    ∃ e, step s .recvMessage = (.stopped (.error e), { s with incoming := .closed :: tail }) := by
  obtain ⟨e, he⟩ := recvMessageLoop_cut items hfits s segments _ hs hq (fuel_enough s segments hs) hm
  exact ⟨e, by rw [step, recvMessage, he]⟩

theorem run_failed (n : ℕ) (items : List Sent) (hfits : ∀ x ∈ items, x.Fits) (s : TcpStream)
    (segments : List (UInt8 × Bytes)) (hs : s.incoming = delivered segments (.closed :: tail))
    (hq : bytesIn segments <+: wireOf items)
    (hm : sentMessages (arrived items (bytesIn segments).length) = []) :
    Failed n (Runs.run step s (receives n)).1 := by
  induction n generalizing items s segments with
  | zero => exact ⟨rfl, nofun⟩
  | succ n ih =>
    obtain ⟨e, he⟩ := step_cut items hfits s segments hs hq hm
    -- what is left is an empty stream that has ended
    have hrest := ih [] nofun { s with incoming := .closed :: tail } [] rfl List.nil_prefix rfl
    rw [receives, List.replicate_succ, Runs.run_cons, he]
    refine ⟨?_, ?_⟩
    · rw [List.length_cons]
      exact congrArg (· + 1) hrest.1
    · intro o ho
      rcases List.mem_cons.mp ho with ho | ho
      · exact ⟨e, ho⟩
      · exact hrest.2 o ho

theorem arrived_prefix (items : List Sent) (n : ℕ) : arrived items n <+: items := by
  induction items generalizing n with
  | nil => exact List.nil_prefix
  | cons x rest ih =>
    rw [arrived]
    split
    · exact (List.prefix_cons_inj x).mpr (ih _)
    · exact List.nil_prefix

theorem arrived_append (front rest : List Sent) (n : ℕ) :
    arrived (front ++ rest) ((wireOf front).length + n) = front ++ arrived rest n := by
  induction front with
  | nil => simp [wireOf]
  | cons x front ih =>
    have hle : x.wire.length ≤ (wireOf (x :: front)).length + n := by
      rw [wireOf_cons, List.length_append]
      omega
    have hsub : (wireOf (x :: front)).length + n - x.wire.length = (wireOf front).length + n := by
      rw [wireOf_cons, List.length_append]
      omega
    rw [List.cons_append, arrived, if_pos hle, hsub, ih]
    rfl

/-- On a stream that is cut off the calls return the messages whose frames are whole, and then
fail. -/
theorem run_cut (n : ℕ) (items : List Sent) (hfits : ∀ x ∈ items, x.Fits) (s : TcpStream)
    (segments : List (UInt8 × Bytes)) (hs : s.incoming = delivered segments (.closed :: tail))
    (hq : bytesIn segments <+: wireOf items) :
    ∃ failures, Failed n failures ∧
      (Runs.run step s (receives
        ((sentMessages (arrived items (bytesIn segments).length)).length + n))).1 =
      (sentMessages (arrived items (bytesIn segments).length)).map .message ++ failures := by
  obtain ⟨front, rest, left, hsplit, _, hfront, hbytes, hrun⟩ :=
    run_received _ items hfits s segments hs hq le_rfl
  have hpre := ( arrived_prefix items (bytesIn segments).length).filterMap (fun x => match x with
    | .message msg => some msg
    | .keepalive => none)
  have htake : (sentMessages items).take
      (sentMessages (arrived items (bytesIn segments).length)).length =
        sentMessages (arrived items (bytesIn segments).length) :=
    (List.prefix_iff_eq_take.mp hpre).symm
  rw [htake] at hfront hrun
  have hleft : bytesIn left <+: wireOf rest := by
    rw [hbytes, hsplit, wireOf_append] at hq
    exact (List.prefix_append_right_inj _).mp hq
  have hnone : sentMessages (arrived rest (bytesIn left).length) = [] := by
    have harr := arrived_append front rest (bytesIn left).length
    rw [← List.length_append, ← hbytes, ← hsplit] at harr
    have hlen := congrArg (fun l => (sentMessages l).length) harr
    simp only [sentMessages_append, List.length_append, hfront] at hlen
    exact List.length_eq_zero_iff.mp (by omega)
  have hfail := run_failed n rest (fun y hy => hfits y (by
    rw [hsplit]
    exact List.mem_append_right front hy)) { s with incoming := delivered left (.closed :: tail) }
    left rfl hleft hnone
  refine ⟨_, hfail, ?_⟩
  rw [receives, List.replicate_add, Runs.run_append]
  change (Runs.run step s (receives _)).1 ++ (Runs.run step (Runs.run step s (receives _)).2
    (receives n)).1 = _
  rw [hrun]

/-- Framing is lossless. The messages a sender encodes, with keepalives anywhere and in any
segments, are what successive calls return, each up to its own last byte; a message that does
not fit is not encoded; a stream that ends gives its whole messages and then errors; and
`read_exactly` never counts below zero. -/
theorem framing_lossless (items : List Sent)
    (hfits : ∀ msg ∈ sentMessages items, msg.length ≤ MAX_FRAME_LENGTH) (s : TcpStream)
    (segments : List (UInt8 × Bytes)) (tail : List Arrival)
    (hs : s.incoming = delivered segments tail) :
    ∃ wire, encodeAll items = .ok wire ∧
      (bytesIn segments = wire → ∀ n ≤ (sentMessages items).length,
        Received items segments tail s n (Runs.run step s (receives n))) ∧
      (bytesIn segments <+: wire → tail.head? = some .closed → ∀ n, ∃ failures,
        Failed n failures ∧ (Runs.run step s (receives
          ((sentMessages (arrived items (bytesIn segments).length)).length + n))).1 =
        (sentMessages (arrived items (bytesIn segments).length)).map .message ++ failures) ∧
      (∀ msg, MAX_FRAME_LENGTH < msg.length → (Frame.Message msg).encode = .error .InvalidFrame) ∧
      ∀ count arrivals,
        (readExactlyLoop (count + 1) count count [] arrivals).1 ≠ .error .panic ∧
        readExactlyLoop (count + 1) count count [] arrivals =
          readLoop .UnexpectedEOF arrivals count [] := by
  have hfits := fits_of_messages items hfits
  refine ⟨wireOf items, encodeAll_fits items hfits, ?_, ?_, encode_too_long, ?_⟩
  · intro hwire n hn
    apply run_received n items hfits s segments hs
    · simp only [hwire, List.prefix_rfl]
    · rw [hwire, arrived_all]
      exact hn
  · intro hq hclosed n
    cases tail with
    | nil => cases hclosed
    | cons a tail =>
      have ha : a = .closed := Option.some.inj hclosed
      subst ha
      exact run_cut n items hfits s segments hs hq
  · intro count arrivals
    have heq := readExactlyLoop_eq (count + 1) count [] arrivals (Nat.lt_succ_self count)
    refine ⟨?_, heq⟩
    rw [heq]
    exact readLoop_not_panic _ _ _ _

/-- Two messages around a keepalive, in segments that end inside frames. -/
theorem framing_lossless_two :
    ∃ wire, encodeAll [.message [1, 2], .keepalive, .message []] = .ok wire ∧
      Received [.message [1, 2], .keepalive, .message []]
        [(0, [0, 0]), (2, [1]), (2, [0x85, 0, 0, 0, 0, 0]), (0, [0])] [.timeout]
        ⟨delivered [(0, [0, 0]), (2, [1]), (2, [0x85, 0, 0, 0, 0, 0]), (0, [0])] [.timeout],
          [], none, []⟩ 2
        (Runs.run step ⟨delivered [(0, [0, 0]), (2, [1]), (2, [0x85, 0, 0, 0, 0, 0]), (0, [0])]
          [.timeout], [], none, []⟩ (receives 2)) := by
  obtain ⟨wire, hwire, hall, _⟩ := framing_lossless [.message [1, 2], .keepalive, .message []]
    (by decide) ⟨delivered [(0, [0, 0]), (2, [1]), (2, [0x85, 0, 0, 0, 0, 0]), (0, [0])]
      [.timeout], [], none, []⟩ _ _ rfl
  exact ⟨wire, hwire, hall (Except.ok.inj hwire) 2 le_rfl⟩

end CifsClientStream.NetBios
