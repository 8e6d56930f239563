import CifsClientStream.NetBios.Lossless

/-!
# A stream without its segments (src/netbios.rs)

What a call makes of a stream depends on the bytes and on what happens between
them, not on how the bytes were cut into segments (`readLoop_events`). So the
arrivals may be taken for a list of events, and at the start of a frame a
receive meets a whole frame, the end of the stream or an error.
-/

namespace CifsClientStream.NetBios
open Cursor Async Utils

inductive Event where
  | byte (b : UInt8)
  | timeout
  | closed
  | failed (kind : IoErrorKind)
  deriving DecidableEq, Repr

def bytesOnly (bytes : Bytes) : List Event := bytes.map .byte

def Arrival.events : Arrival → List Event
  | .segment b bs => bytesOnly (b :: bs)
  | .timeout => [.timeout]
  | .closed => [.closed]
  | .failed kind => [.failed kind]

def events (arrivals : List Arrival) : List Event := arrivals.flatMap Arrival.events

@[simp] theorem bytesOnly_length (bytes : Bytes) : (bytesOnly bytes).length = bytes.length :=
  List.length_map ..

theorem bytesOnly_append (a b : Bytes) : bytesOnly (a ++ b) = bytesOnly a ++ bytesOnly b :=
  List.map_append ..

theorem events_append (a b : List Arrival) : events (a ++ b) = events a ++ events b :=
  List.flatMap_append

/-- The read loop, byte by byte. -/
def readEvents (eof : Error) : List Event → ℕ → Bytes → Except (Stop Error) Bytes × List Event
  | [], need, acc => if need = 0 then (.ok acc, []) else (.error .dropped, [])
  | event :: rest, need, acc =>
    if need = 0 then (.ok acc, event :: rest)
    else match event with
      | .byte b => readEvents eof rest (need - 1) (acc ++ [b])
      | .timeout => (.error .dropped, rest)
      | .closed => (.error (.error eof), .closed :: rest)
      | .failed kind => (.error (.error (.IoError kind)), rest)

theorem readEvents_bytes (eof : Error) (bytes acc : Bytes) (more : List Event) (need : ℕ) :
    readEvents eof (bytesOnly bytes ++ more) (bytes.length + need) acc =
      readEvents eof more need (acc ++ bytes) := by
  induction bytes generalizing acc with
  | nil => simp [bytesOnly]
  | cons b bytes ih =>
    have hneed : (b :: bytes).length + need ≠ 0 := by simp
    have hless : (b :: bytes).length + need - 1 = bytes.length + need := by
      rw [List.length_cons]
      omega
    have hacc : acc ++ b :: bytes = (acc ++ [b]) ++ bytes := by simp
    rw [hacc, ← ih]
    simp only [bytesOnly, List.map_cons, List.cons_append, readEvents, hneed, if_false, hless]

theorem readEvents_done (eof : Error) (evs : List Event) (acc : Bytes) :
    readEvents eof evs 0 acc = (.ok acc, evs) := by
  cases evs with
  | nil => rfl
  | cons event rest => rfl

theorem readLoop_events (eof : Error) (arrivals : List Arrival) (need : ℕ) (acc : Bytes) :
    (readLoop eof arrivals need acc).1 = (readEvents eof (events arrivals) need acc).1 ∧
      events (readLoop eof arrivals need acc).2 =
        (readEvents eof (events arrivals) need acc).2 := by
  induction arrivals generalizing need acc with
  | nil =>
    by_cases h0 : need = 0
    · simp [readLoop, readEvents, events, h0]
    · simp [readLoop, readEvents, events, h0]
  | cons a rest ih =>
    by_cases h0 : need = 0
    · subst h0
      rw [readEvents_done, readLoop_zero]
      exact ⟨rfl, rfl⟩
    · cases a with
      | timeout => simp [readLoop, readEvents, events, Arrival.events, h0]
      | closed => simp [readLoop, readEvents, events, Arrival.events, h0]
      | failed kind => simp [readLoop, readEvents, events, Arrival.events, h0]
      | segment b bs =>
        have hevents : events (.segment b bs :: rest) = bytesOnly (b :: bs) ++ events rest := rfl
        simp only [readLoop, h0, if_false]
        cases hdrop : (b :: bs).drop need with
        | nil =>
          -- the whole segment is taken
          have hle := List.drop_eq_nil_iff.mp hdrop
          have hneed : (b :: bs).length + (need - (b :: bs).length) = need := by omega
          have hread := readEvents_bytes eof (b :: bs) acc (events rest) (need - (b :: bs).length)
          rw [hneed] at hread
          rw [hevents, hread]
          exact ih (need - (b :: bs).length) (acc ++ b :: bs)
        | cons c cs =>
          -- the segment is cut where the read ends
          have hlen := congrArg List.length hdrop
          rw [List.length_drop, List.length_cons (a := c)] at hlen
          have htake : ((b :: bs).take need).length = need := by
            rw [List.length_take]
            omega
          have hsplit : bytesOnly (b :: bs) =
              bytesOnly ((b :: bs).take need) ++ bytesOnly (c :: cs) := by
            rw [← bytesOnly_append, ← hdrop, List.take_append_drop]
          have hread := readEvents_bytes eof ((b :: bs).take need) acc
            (bytesOnly (c :: cs) ++ events rest) 0
          rw [htake, Nat.add_zero, readEvents_done] at hread
          rw [hevents, hsplit, List.append_assoc, hread]
          exact ⟨rfl, rfl⟩

/-! ### Reading from a stream -/

theorem readBytes_events (eof : Error) (s : TcpStream) {bytes : Bytes} {more : List Event}
    {need : ℕ} (hneed : bytes.length = need) (h : events s.incoming = bytesOnly bytes ++ more) :
    ∃ incoming, readBytes eof need s = .ok bytes { s with incoming } ∧ events incoming = more := by
  have hread := readEvents_bytes eof bytes [] more 0
  rw [Nat.add_zero, hneed, readEvents_done, List.nil_append, ← h] at hread
  obtain ⟨hresult, hrest⟩ := readLoop_events eof s.incoming need []
  rw [hread] at hresult hrest
  refine ⟨(readLoop eof s.incoming need []).2, ?_, hrest⟩
  unfold readBytes
  split
  next b incoming hloop =>
    rw [hloop] at hresult
    cases hresult
    rw [hloop]
  next e incoming hloop =>
    rw [hloop] at hresult
    cases hresult

theorem readBytes_stop (eof : Error) (s : TcpStream) {need : ℕ} {e : Stop Error}
    {more : List Event} (h : readEvents eof (events s.incoming) need [] = (.error e, more)) :
    ∃ incoming, readBytes eof need s = .error e { s with incoming } ∧ events incoming = more := by
  obtain ⟨hresult, hrest⟩ := readLoop_events eof s.incoming need []
  rw [h] at hresult hrest
  refine ⟨(readLoop eof s.incoming need []).2, ?_, hrest⟩
  unfold readBytes
  split
  next b incoming hloop =>
    rw [hloop] at hresult
    cases hresult
  next e' incoming hloop =>
    rw [hloop] at hresult
    cases hresult
    rw [hloop]

/-! ### Whole frames -/

/-- A type byte and a payload that is not too long for a frame; the frame may still be none that
the client knows. -/
structure RawFrame where
  rawType : UInt8
  payload : Bytes
  fits : payload.length ≤ MAX_FRAME_LENGTH

def RawFrame.wire (f : RawFrame) : Bytes := f.rawType :: be3 f.payload.length ++ f.payload

def RawFrame.read (f : RawFrame) : Except Error Frame := Frame.new f.rawType f.payload

theorem RawFrame.wire_length (f : RawFrame) : f.wire.length = 4 + f.payload.length := by
  rw [wire, List.length_append, List.length_cons, be3_length]

/-- A whole frame is taken from the stream, whatever becomes of it. -/
theorem recv_frame (s : TcpStream) (f : RawFrame) {more : List Event}
    (h : events s.incoming = bytesOnly f.wire ++ more) :
    ∃ incoming, recv s = (ofExcept f.read : Fut Error TcpStream Frame) { s with incoming } ∧
      events incoming = more := by
  have hwire : bytesOnly f.wire ++ more =
      bytesOnly [f.rawType] ++ (bytesOnly (be3 f.payload.length) ++
        (bytesOnly f.payload ++ more)) := by
    rw [RawFrame.wire, ← List.singleton_append, List.append_assoc, bytesOnly_append,
      bytesOnly_append, List.append_assoc, List.append_assoc]
  have hone : [f.rawType].length = 1 := rfl
  rw [hwire] at h
  obtain ⟨in1, hread1, hmore1⟩ := readBytes_events (.IoError .UnexpectedEof) s hone h
  obtain ⟨in2, hread2, hmore2⟩ := readBytes_events (.IoError .UnexpectedEof)
    { s with incoming := in1 } (be3_length _) hmore1
  obtain ⟨in3, hread3, hmore3⟩ := readBytes_events .UnexpectedEOF { s with incoming := in2 } rfl
    hmore2
  refine ⟨in3, ?_, hmore3⟩
  have hlength := beVal_be3 f.payload.length f.fits
  have hfits : ¬MAX_FRAME_LENGTH < beVal (be3 f.payload.length) := by
    rw [hlength]
    exact Nat.not_lt.mpr f.fits
  unfold recv
  rw [fut_bind, readExact, hread1]
  dsimp only
  rw [fut_bind, readExact, hread2]
  dsimp only
  rw [if_neg hfits, hlength, fut_bind, readExactly, hread3]
  rfl

theorem recv_stop (s : TcpStream) {e : Stop Error} {more : List Event}
    (h : readEvents (.IoError .UnexpectedEof) (events s.incoming) 1 [] = (.error e, more)) :
    ∃ incoming, recv s = .error e { s with incoming } ∧ events incoming = more := by
  obtain ⟨incoming, hread, hmore⟩ := readBytes_stop (.IoError .UnexpectedEof) s h
  refine ⟨incoming, ?_, hmore⟩
  unfold recv
  rw [fut_bind, readExact, hread]

/-- The bytes among the events. -/
def eventBytes (evs : List Event) : Bytes :=
  evs.filterMap fun
    | .byte b => some b
    | _ => none

theorem eventBytes_append (bytes : Bytes) (evs : List Event) :
    eventBytes (bytesOnly bytes ++ evs) = bytes ++ eventBytes evs := by
  induction bytes with
  | nil => rfl
  | cons b bytes ih => exact congrArg (b :: ·) ih

theorem bytesOf_events (arrivals : List Arrival) : bytesOf arrivals = eventBytes (events arrivals) := by
  induction arrivals with
  | nil => rfl
  | cons a rest ih =>
    cases a with
    | segment b bs =>
      have hevents : events (.segment b bs :: rest) = bytesOnly (b :: bs) ++ events rest := rfl
      rw [hevents, eventBytes_append, ← ih]
      rfl
    | timeout => exact ih
    | closed => exact ih
    | failed kind => exact ih

/-! ### Writing to a stream -/

/-- A write leaves what arrives alone, and stops as the socket does. -/
theorem writeExactly_cases (buffer : Bytes) (s : TcpStream) :
    (∃ s', writeExactly buffer s = .ok ⟨⟩ s' ∧ s'.incoming = s.incoming) ∨
    (∃ s', writeExactly buffer s = .error .dropped s' ∧ s'.incoming = s.incoming) ∨
    ∃ kind s', writeExactly buffer s = .error (.error (.IoError kind)) s' ∧
      s'.incoming = s.incoming := by
  unfold writeExactly
  split
  next written room hloop => exact Or.inl ⟨_, rfl, rfl⟩
  next written room hloop =>
    cases s.blocked with
    | none => exact Or.inr (Or.inl ⟨_, rfl, rfl⟩)
    | some kind => exact Or.inr (Or.inr ⟨kind, _, rfl, rfl⟩)

end CifsClientStream.NetBios
