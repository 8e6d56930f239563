import CifsClientStream.Cifs.Setup
import CifsClientStream.Smb.Message

/-!
# The negotiated buffer size (src/lib.rs, src/smb/msg.rs)

The server announces the largest message it takes. `send` makes the capacity
of the frame buffer from it, and `Msg::write` compares with the room that is
left in that buffer; but the buffer grows, so there is always room.
-/

namespace CifsClientStream.Cifs
open Cursor Async Smb Win

/-! ### Sending any message -/

def messageHeader (m : Message) (c : Cifs) : Info :=
  m.fold fun {M} _ msg => Msg.fixHeader msg (c.header (Msg.CMD M))

/-- The frame `send` makes of the message. -/
def frameOut (m : Message) (c : Cifs) : Except (Fault Smb.Error) Bytes :=
  m.write (messageHeader m c) (messageHeader m c).write

def sendAny (m : Message) : Fut Error Cifs Ticket := m.fold fun msg => send msg

theorem messageHeader_unicode (m : Message) (c : Cifs) :
    contains (messageHeader m c).flags2 Flags2.UNICODE = c.useUnicode := by
  cases m with
  | negotiate m => exact header_unicode c .Negotiate
  | sessionSetup m => exact header_unicode c .SessionSetup
  | treeConnect m => exact header_unicode c .TreeConnect
  | treeDisconnect m => exact header_unicode c .TreeDisconnect
  | openFile m => exact header_unicode c .Create
  | close m => exact header_unicode c .Close
  | read m => exact header_unicode c .Read
  | findFirst m => exact header_unicode c .Transact2
  | findNext m => exact header_unicode c .Transact2

/-- The frame is made, and handed to the transport. -/
theorem sendAny_eq (m : Message) (c : Cifs) :
    sendAny m c = (lift (liftSmb (frameOut m c)) >>= fun frame => sendMessage frame c.mid)
      { c with mid := c.mid + 1 } := by
  cases m <;> exact send_eq _ c

variable {m : Message} {c : Cifs}

/-- What is handed to the transport is `frameOut`. -/
theorem sendAny_handed {frame : Bytes} (h : frameOut m c = .ok frame) :
    sendAny m c = sendMessage frame c.mid { c with mid := c.mid + 1 } := by
  rw [sendAny_eq, h]
  rfl

theorem sendAny_refused {e : Smb.Error} (h : frameOut m c = .error (.error e)) :
    sendAny m c = .error (.error (.SMBError e)) { c with mid := c.mid + 1 } := by
  rw [sendAny_eq, h]
  rfl

theorem sendAny_panics (h : frameOut m c = .error .panic) :
    sendAny m c = .error .panic { c with mid := c.mid + 1 } := by
  rw [sendAny_eq, h]
  rfl

/-! ### The limit -/

/-- The negotiated size is respected: no longer frame is handed to the transport, and a longer
message is refused by the checks on the buffer before anything is sent. -/
def SizeRespected (m : Message) (c : Cifs) : Prop :=
  (∀ frame, frameOut m c = .ok frame → frame.length ≤ c.maxSmbSize) ∧
  (c.maxSmbSize < m.length c.useUnicode → ∃ what ∈ bufferTooSmall,
    sendAny m c = .error (.error (.SMBError (.CreatePacket what))) { c with mid := c.mid + 1 })

/-- The three ways `send` can go; the negotiated size is in none of them. -/
theorem frameOut_cases (m : Message) (c : Cifs) :
    (m.Overruns ∧ frameOut m c = .error .panic) ∨
    (65536 ≤ m.dataLength c.useUnicode ∧ ∃ what, what ∉ bufferTooSmall ∧
      frameOut m c = .error (.error (.CreatePacket what))) ∨
    (m.dataLength c.useUnicode < 65536 ∧ ¬m.Overruns ∧
      ∃ frame, frameOut m c = .ok frame ∧ frame.length = m.length c.useUnicode) := by
  have hcases := m.write_cases (messageHeader m c)
  rw [messageHeader_unicode] at hcases
  rcases hcases with hover | ⟨hlong, _, hrefused⟩ | hok
  · exact Or.inl hover
  · exact Or.inr (Or.inl ⟨hlong, hrefused⟩)
  · exact Or.inr (Or.inr hok)

theorem not_tooSmall (m : Message) (c : Cifs) (what : String) (h : what ∈ bufferTooSmall) :
    sendAny m c ≠ .error (.error (.SMBError (.CreatePacket what))) { c with mid := c.mid + 1 } := by
  intro hsend
  rcases frameOut_cases m c with ⟨_, hframe⟩ | ⟨_, what', hother, hframe⟩ | ⟨_, _, frame, hframe, _⟩
  · rw [sendAny_panics hframe] at hsend
    cases hsend
  · rw [sendAny_refused hframe] at hsend
    cases hsend
    exact hother h
  · -- what the transport answers is never an error of the messages
    rw [sendAny_handed hframe] at hsend
    unfold sendMessage at hsend
    split at hsend
    · cases hsend
    · split at hsend
      · cases hsend
      · cases hsend
      · cases hsend

theorem handed_iff (m : Message) (c : Cifs) :
    (∀ frame, frameOut m c = .ok frame → frame.length ≤ c.maxSmbSize) ↔
      m.length c.useUnicode ≤ c.maxSmbSize ∨ 65536 ≤ m.dataLength c.useUnicode ∨ m.Overruns := by
  rcases frameOut_cases m c with ⟨hover, hframe⟩ | ⟨hlong, what, _, hframe⟩ |
    ⟨hshort, hfits, frame, hframe, hlen⟩
  · simp [hframe, hover]
  · simp [hframe, hlong]
  · simp [hframe, hlen, hfits, Nat.not_le.mpr hshort]

/-- `send` respects the size for the messages that are small enough anyway, and for no others:
the checks on the buffer never refuse anything. What keeps a longer frame back is only that its
data block or the offset of a search does not fit into 16 bits. -/
theorem sizeRespected_iff (m : Message) (c : Cifs) :
    (SizeRespected m c ↔ m.length c.useUnicode ≤ c.maxSmbSize) ∧
    ((∀ frame, frameOut m c = .ok frame → frame.length ≤ c.maxSmbSize) ↔
      m.length c.useUnicode ≤ c.maxSmbSize ∨ 65536 ≤ m.dataLength c.useUnicode ∨ m.Overruns) := by
  refine ⟨⟨fun h => ?_, fun h => ?_⟩, handed_iff m c⟩
  · by_contra hlarge
    obtain ⟨what, hwhat, hsend⟩ := h.2 (Nat.not_le.mp hlarge)
    exact not_tooSmall m c what hwhat hsend
  · exact ⟨(handed_iff m c).mpr (Or.inl h), fun hlt => absurd h (Nat.not_le.mpr hlt)⟩

/-- A server that takes 64 bytes is sent 74. -/
theorem size_exceeded :
    (frameOut (.treeConnect (.new "\\\\nas\\media" "")) { fresh noAuth with maxSmbSize := 64 }).toOption.map
        List.length = some 74 ∧
    ¬SizeRespected (.treeConnect (.new "\\\\nas\\media" "")) { fresh noAuth with maxSmbSize := 64 } := by
  have hlen : (frameOut (.treeConnect (.new "\\\\nas\\media" ""))
      { fresh noAuth with maxSmbSize := 64 }).toOption.map List.length = some 74 := by
    decide +kernel
  refine ⟨hlen, fun h => ?_⟩
  cases hframe : frameOut (.treeConnect (.new "\\\\nas\\media" ""))
      { fresh noAuth with maxSmbSize := 64 } with
  | error f =>
    rw [hframe] at hlen
    cases hlen
  | ok frame =>
    rw [hframe] at hlen
    have hle := h.1 frame hframe
    have heq : frame.length = 74 := Option.some.inj hlen
    rw [heq] at hle
    exact absurd hle (by decide)

end CifsClientStream.Cifs
