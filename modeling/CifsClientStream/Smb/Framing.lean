import CifsClientStream.Smb.Layout
import CifsClientStream.Smb.Transaction

/-!
# What is written is what is read (src/smb/msg.rs, src/smb/reply.rs)

`Msg::write` counts the parameters in words and `Reply::parse` in bytes, so a
block of odd length would be cut. No message has one. A reader that expects an
AndX block finds one exactly where the writer put it.
-/

namespace CifsClientStream.Smb
open Cursor Win Utils

/-! ### The writer -/

/-- When the body can be built, only the two counts decide. -/
theorem Msg.write_eq {M : Type} [Msg M] {msg : M} {info : Info} {p d : Bytes}
    (h : Msg.body msg info = .ok (p, d)) :
    Msg.write msg info info.write =
      if 256 ≤ (Msg.andx M ++ p).length / 2 then
        .error (.error (.CreatePacket "parameter length too big"))
      else if 65536 ≤ d.length then .error (.error (.CreatePacket "data length too big"))
      else .ok (info.write ++ framed (Msg.andx M ++ p) d []) := by
  have hbuffer : info.write.length < 2 ^ 32 := by
    rw [info.write_length]
    decide
  by_cases hwords : 256 ≤ (Msg.andx M ++ p).length / 2
  · rw [if_pos hwords, Msg.write, h]
    exact if_pos hwords
  · rw [if_neg hwords]
    by_cases hd : 65536 ≤ d.length
    · rw [if_pos hd]
      exact Msg.write_long h (by omega) hd _ hbuffer
    · rw [if_neg hd, Msg.write_ok msg info _ p d h (by omega) (by omega) hbuffer, framed,
        List.append_nil]
      simp only [List.append_assoc]

/-! ### The reader -/

theorem stripAndX_write (andx : Bool) (p : Bytes) :
    Reply.stripAndX andx ((if andx then AndX.write ⟨.NoCommand, 0⟩ else []) ++ p) = .ok p := by
  cases andx with
  | false => rfl
  | true =>
    have hlen : 4 ≤ (AndX.write ⟨.NoCommand, 0⟩ ++ p).length := by
      rw [List.length_append, andx_length]
      omega
    rw [if_pos rfl, Reply.stripAndX, if_pos rfl, andx_eq _ hlen]
    rfl

/-- The body of a message, and what every reader of the same AndX convention makes of it: the
parameters behind the AndX block, the data, and the place of the data in the frame. -/
structure ReadsBack (M : Type) [Msg M] (header body p d : Bytes) : Prop where
  written : ∃ (n : UInt8) (m : UInt16),
    body = putU8 n ++ ((Msg.andx M ++ p) ++ (putU16Le m ++ d)) ∧
      (Msg.andx M ++ p).length = 2 * n.toNat ∧ d.length = m.toNat
  read : ∃ dataOffset, (header ++ body).drop dataOffset = d ∧
    ∀ (R : Type) [Reply R], Reply.ANDX R = Msg.ANDX M → ∀ info : Info,
      Reply.parse R info body = Reply.create ⟨info, p, d, dataOffset⟩

theorem framed_reads_back {M : Type} [Msg M] (header p d : Bytes)
    (hheader : header.length = SMB_HEADER_LEN) (heven : (Msg.andx M ++ p).length % 2 = 0)
    (hp : (Msg.andx M ++ p).length < 512) (hd : d.length < 65536) :
    ReadsBack M header (framed (Msg.andx M ++ p) d []) p d := by
  refine ⟨⟨UInt8.ofNat ((Msg.andx M ++ p).length / 2), UInt16.ofNat d.length, ?_, ?_, ?_⟩,
    SMB_HEADER_LEN + 1 + (Msg.andx M ++ p).length + 2, ?_, ?_⟩
  · rw [framed, List.append_nil]
  · rw [ofNat8_toNat (by omega)]
    omega
  · exact (ofNat16_toNat hd).symm
  · have hsplit : header ++ framed (Msg.andx M ++ p) d [] =
        (header ++ putU8 (UInt8.ofNat ((Msg.andx M ++ p).length / 2)) ++ (Msg.andx M ++ p) ++
          putU16Le (UInt16.ofNat d.length)) ++ d := by
      simp only [framed, List.append_nil, List.append_assoc]
    rw [hsplit]
    refine List.drop_left' ?_
    rw [List.length_append, List.length_append, List.length_append, hheader]
    rfl
  · intro R _ handx info
    have hsections := sections_framed (Msg.andx M ++ p) d [] heven hp hd
    have hstrip : Reply.stripAndX (Reply.ANDX R) (Msg.andx M ++ p) = .ok p := by
      rw [handx]
      exact stripAndX_write _ p
    rw [Reply.parse, hsections]
    change (Reply.stripAndX (Reply.ANDX R) (Msg.andx M ++ p) >>= _) = _
    rw [hstrip]
    rfl

/-! ### The messages -/

/-- A count that does not fit into its field. -/
def TooLong (M : Type) [Msg M] (p d : Bytes) : Prop :=
  255 < (Msg.andx M ++ p).length / 2 ∨ 65535 < d.length

/-- What is written reads back; of the bodies that can be built, exactly those are refused that
are too long, and the others are written. -/
structure Framing {M : Type} [Msg M] (msg : M) (info : Info) : Prop where
  written : ∀ frame, Msg.write msg info info.write = .ok frame → ∃ p d body,
    Msg.body msg info = .ok (p, d) ∧ frame = info.write ++ body ∧
      ReadsBack M info.write body p d
  refused : ∀ p d, Msg.body msg info = .ok (p, d) →
    ((∃ e, Msg.write msg info info.write = .error (.error e)) ↔ TooLong M p d)
  accepted : ∀ p d, Msg.body msg info = .ok (p, d) →
    ((∃ frame, Msg.write msg info info.write = .ok frame) ↔ ¬TooLong M p d)

theorem Msg.write_refused {M : Type} [Msg M] {msg : M} {info : Info} {p d : Bytes}
    (h : Msg.body msg info = .ok (p, d)) (hlong : TooLong M p d) :
    ∃ e, Msg.write msg info info.write = .error (.error e) := by
  rw [Msg.write_eq h]
  by_cases hwords : 256 ≤ (Msg.andx M ++ p).length / 2
  · exact ⟨_, if_pos hwords⟩
  · have hd : 65536 ≤ d.length := hlong.resolve_left hwords
    rw [if_neg hwords, if_pos hd]
    exact ⟨_, rfl⟩

theorem Msg.write_accepted {M : Type} [Msg M] {msg : M} {info : Info} {p d : Bytes}
    (h : Msg.body msg info = .ok (p, d)) (hlong : ¬TooLong M p d) :
    Msg.write msg info info.write = .ok (info.write ++ framed (Msg.andx M ++ p) d []) := by
  unfold TooLong at hlong
  rw [Msg.write_eq h, if_neg (by omega), if_neg (by omega)]

theorem Msg.framing {M : Type} [Msg M] (msg : M) (info : Info)
    (heven : ∀ p d, Msg.body msg info = .ok (p, d) → (Msg.andx M ++ p).length % 2 = 0) :
    Framing msg info := by
  constructor
  case written =>
    intro frame hframe
    cases hbody : Msg.body msg info with
    | error f => cases (Msg.write_error hbody info.write).symm.trans hframe
    | ok blocks =>
      obtain ⟨p, d⟩ := blocks
      by_cases hlong : TooLong M p d
      · obtain ⟨e, he⟩ := Msg.write_refused hbody hlong
        cases he.symm.trans hframe
      · cases (Msg.write_accepted hbody hlong).symm.trans hframe
        unfold TooLong at hlong
        exact ⟨p, d, _, rfl, rfl, framed_reads_back _ p d info.write_length (heven p d hbody)
          (by omega) (by omega)⟩
  case refused =>
    intro p d hbody
    refine ⟨fun ⟨e, he⟩ => ?_, Msg.write_refused hbody⟩
    by_contra hlong
    cases he.symm.trans (Msg.write_accepted hbody hlong)
  case accepted =>
    intro p d hbody
    refine ⟨fun ⟨frame, hframe⟩ hlong => ?_, fun hlong => ⟨_, Msg.write_accepted hbody hlong⟩⟩
    obtain ⟨e, he⟩ := Msg.write_refused hbody hlong
    cases he.symm.trans hframe

/-- The parameters are whole words in every mode of every message. -/
theorem parameterLength_even (m : Message) : m.parameterLength % 2 = 0 := by
  cases m with
  | sessionSetup m =>
    obtain ⟨_, _, _, _, _, mode⟩ := m
    cases mode with
    | classic user domain secret => simp [Message.parameterLength]
    | extended blob => simp [Message.parameterLength]
  | _ => simp [Message.parameterLength]

theorem body_even (m : Message) (info : Info) (p d : Bytes) (h : m.body info = .ok (p, d)) :
    (m.andx ++ p).length % 2 = 0 := by
  have heven := parameterLength_even m
  cases body_cases m info with
  | built p' d' h' parameter data fits =>
    cases h'.symm.trans h
    omega
  | refused what h' other long fits => cases h'.symm.trans h
  | overrun h' overruns => cases h'.symm.trans h

theorem transact2_even {C : Type} [SubCmd C] (m : Msg.Transact2 C) (info : Info) (p d : Bytes)
    (h : Msg.body m info = .ok (p, d)) : (Msg.andx (Msg.Transact2 C) ++ p).length % 2 = 0 := by
  have handx : Msg.andx (Msg.Transact2 C) = [] := rfl
  obtain ⟨-, -, hp, -⟩ := transact2_ok h
  rw [handx, List.nil_append, hp, requestWords_length]

/-- The framing that is written is the framing that is read, for every message the client sends
and for transactions with any sub-command. -/
theorem framing_reads_back :
    (∀ (m : Message) (info : Info), m.fold fun msg => Framing msg info) ∧
    ∀ (C : Type) [SubCmd C] (m : Msg.Transact2 C) (info : Info), Framing m info := by
  refine ⟨fun m info => ?_, fun C _ m info => Msg.framing m info (transact2_even m info)⟩
  have heven := body_even m info
  cases m with
  | negotiate m => exact Msg.framing m info heven
  | sessionSetup m => exact Msg.framing m info heven
  | treeConnect m => exact Msg.framing m info heven
  | treeDisconnect m => exact Msg.framing m info heven
  | openFile m => exact Msg.framing m info heven
  | close m => exact Msg.framing m info heven
  | read m => exact Msg.framing m info heven
  | findFirst m => exact Msg.framing m info heven
  | findNext m => exact Msg.framing m info heven

end CifsClientStream.Smb
