import CifsClientStream.Smb.Message

/-!
# The layout of a transaction request (src/smb/trans2/msg.rs)

A request declares in its words where its two sections are, counted from the
header. The offsets are computed from the lengths; the padding is filled in on
the way. The two meet because the words in front are always 30 bytes long.
-/

namespace CifsClientStream.Smb
open Cursor Win Utils

/-! ### The declarations -/

/-- What a frame declares, read where the words of a transaction have it. -/
structure Declared where
  totalParameterCount : ℕ
  totalDataCount : ℕ
  parameterCount : ℕ
  parameterOffset : ℕ
  dataCount : ℕ
  dataOffset : ℕ
  deriving DecidableEq, Repr

def declared (frame : Bytes) : Declared where
  totalParameterCount := (u16At frame 33).toNat
  totalDataCount := (u16At frame 35).toNat
  parameterCount := (u16At frame 51).toNat
  parameterOffset := (u16At frame 53).toNat
  dataCount := (u16At frame 55).toNat
  dataOffset := (u16At frame 57).toNat

/-- Behind the header, the count of the words, the words and the count of the bytes. -/
def fixedPart : ℕ := SMB_HEADER_LEN + 1 + 30 + 2

/-- The two sections are where the frame declares them, on multiples of 4 and one behind the
other, between the fixed part and the end of the frame. -/
structure LaysOut (frame parameter data : Bytes) : Prop where
  words : (u8At frame SMB_HEADER_LEN).toNat = 15
  totals : (declared frame).totalParameterCount = (declared frame).parameterCount ∧
    (declared frame).totalDataCount = (declared frame).dataCount
  parameter : (frame.drop (declared frame).parameterOffset).take (declared frame).parameterCount =
    parameter
  data : (frame.drop (declared frame).dataOffset).take (declared frame).dataCount = data
  aligned : (declared frame).parameterOffset % 4 = 0 ∧ (declared frame).dataOffset % 4 = 0
  behind : fixedPart ≤ (declared frame).parameterOffset
  apart : (declared frame).parameterOffset + (declared frame).parameterCount ≤
    (declared frame).dataOffset
  inside : (declared frame).dataOffset + (declared frame).dataCount ≤ frame.length

/-- The frame of a request. -/
def requestFrame (C : Type) [SubCmd C] (info : Info) (parameter data : Bytes) : Bytes :=
  (info.write ++ putU8 15) ++ (requestWords C parameter.length data.length ++
    (putU16Le (UInt16.ofNat (requestData parameter data).length) ++ requestData parameter data))

section

variable (C : Type) [SubCmd C] (info : Info) (parameter data : Bytes)

theorem front_length : (info.write ++ putU8 15).length = 33 := by
  rw [List.length_append, info.write_length]
  rfl

/-- A field of the words, at its place in the frame. -/
theorem requestFrame_field (i : ℕ) (v : UInt16) (hi : i + 2 ≤ 30)
    (hv : ((requestWords C parameter.length data.length).drop i).take 2 = putU16Le v) :
    u16At (requestFrame C info parameter data) (33 + i) = v := by
  have hfront := front_length info
  have hwords := requestWords_length C parameter.length data.length
  unfold requestFrame
  rw [u16At_skip _ _ 33 i hfront, u16At_left _ _ _ (by omega), u16At_eq hv]

theorem requestFrame_declared (hp : parameter.length < 65536) (hd : data.length < 65536)
    (hround : roundUp4n (68 + parameter.length) < 65536) :
    declared (requestFrame C info parameter data) =
      ⟨parameter.length, data.length, parameter.length, 68, data.length,
        roundUp4n (68 + parameter.length)⟩ := by
  have hfield := requestFrame_field C info parameter data
  have h0 := hfield 0 (UInt16.ofNat parameter.length) (by omega)
    (by simp [requestWords, putU16Le, leBytes])
  have h2 := hfield 2 (UInt16.ofNat data.length) (by omega)
    (by simp [requestWords, putU16Le, leBytes])
  have h18 := hfield 18 (UInt16.ofNat parameter.length) (by omega)
    (by simp [requestWords, putU8, putU16Le, putU32Le, leBytes])
  have h20 := hfield 20 (UInt16.ofNat 68) (by omega)
    (by simp [requestWords, putU8, putU16Le, putU32Le, leBytes])
  have h22 := hfield 22 (UInt16.ofNat data.length) (by omega)
    (by simp [requestWords, putU8, putU16Le, putU32Le, leBytes])
  have h24 := hfield 24 (UInt16.ofNat (roundUp4n (68 + parameter.length))) (by omega)
    (by simp [requestWords, putU8, putU16Le, putU32Le, leBytes])
  simp only [Nat.reduceAdd] at h0 h2 h18 h20 h22 h24
  rw [declared, h0, h2, h18, h20, h22, h24, ofNat16_toNat hp, ofNat16_toNat hd,
    ofNat16_toNat hround, ofNat16_toNat (by omega)]

theorem requestFrame_length :
    (requestFrame C info parameter data).length = 65 + (requestData parameter data).length := by
  have hfront := front_length info
  have hwords := requestWords_length C parameter.length data.length
  simp only [requestFrame, List.length_append, putU16Le, leBytes_length] at hfront ⊢
  omega

/-- The padding in front of the data ends where the rounded offset says. -/
theorem requestFrame_sections :
    (requestFrame C info parameter data).drop 68 =
        parameter ++ (putBytes 0 (fillUp4n (68 + parameter.length)) ++ data) ∧
      (requestFrame C info parameter data).drop (roundUp4n (68 + parameter.length)) = data := by
  have hfront := front_length info
  have hwords := requestWords_length C parameter.length data.length
  have hparameter : (requestFrame C info parameter data).drop 68 =
      parameter ++ (putBytes 0 (fillUp4n (68 + parameter.length)) ++ data) := by
    have hsplit : requestFrame C info parameter data = ((info.write ++ putU8 15) ++
        (requestWords C parameter.length data.length ++
          (putU16Le (UInt16.ofNat (requestData parameter data).length) ++ [0, 0, 0]))) ++
        (parameter ++ (putBytes 0 (fillUp4n (68 + parameter.length)) ++ data)) := by
      simp only [requestFrame, requestData, List.append_assoc]
    rw [hsplit]
    refine List.drop_left' ?_
    simp only [List.length_append, putU16Le, leBytes_length, List.length_cons,
      List.length_nil] at hfront ⊢
    omega
  refine ⟨hparameter, ?_⟩
  have hround : roundUp4n (68 + parameter.length) =
      68 + (parameter ++ putBytes 0 (fillUp4n (68 + parameter.length))).length := by
    rw [roundUp4n_eq, List.length_append, putBytes, List.length_replicate]
    omega
  rw [hround, ← List.drop_drop, hparameter, ← List.append_assoc, List.drop_left]

theorem requestFrame_lays (hd : data.length < 65536)
    (hround : roundUp4n (68 + parameter.length) < 65536) :
    LaysOut (requestFrame C info parameter data) parameter data := by
  have hpad := roundUp4n_eq (68 + parameter.length)
  have hdeclared := requestFrame_declared C info parameter data (by omega) hd hround
  obtain ⟨hparameter, hdata⟩ := requestFrame_sections C info parameter data
  constructor
  case words =>
    have hu8 : (u8At (info.write ++ (putU8 15 ++ (requestWords C parameter.length data.length ++
        (putU16Le (UInt16.ofNat (requestData parameter data).length) ++
          requestData parameter data)))) info.write.length) = 15 := by
      rw [u8At, List.drop_left]
      rfl
    rw [requestFrame, List.append_assoc, ← info.write_length, hu8]
    rfl
  case totals =>
    rw [hdeclared]
    exact ⟨rfl, rfl⟩
  case parameter =>
    rw [hdeclared, hparameter, List.take_left]
  case data =>
    rw [hdeclared, hdata, List.take_length]
  case aligned =>
    rw [hdeclared]
    exact ⟨Nat.mod_eq_zero_of_dvd ⟨17, rfl⟩, Nat.mul_mod_right 4 _⟩
  case behind =>
    rw [hdeclared]
    change 65 ≤ 68
    omega
  case apart =>
    rw [hdeclared]
    dsimp only
    omega
  case inside =>
    rw [hdeclared, requestFrame_length, requestData_length]
    dsimp only
    omega

end

/-- A request whose body can be built is laid out as it declares, whatever the lengths of its
sections; only a data block that is too long for its count is not sent at all. -/
theorem transaction_laid_out {C : Type} [SubCmd C] (m : Msg.Transact2 C) (info : Info)
    (p d : Bytes) (h : Msg.body m info = .ok (p, d)) :
    p.length = 30 ∧
      (d.length < 65536 → ∃ written, Msg.write m info info.write = .ok (info.write ++ written) ∧
        LaysOut (info.write ++ written) (SubCmd.parameter m.subcmd) (SubCmd.data m.subcmd)) ∧
      (65536 ≤ d.length → Msg.write m info info.write =
        .error (.error (.CreatePacket "data length too big"))) := by
  obtain ⟨hdata, hround, rfl, rfl⟩ := transact2_ok h
  generalize SubCmd.parameter m.subcmd = parameter at h hround
  generalize SubCmd.data m.subcmd = data at h hdata
  have hwords := requestWords_length C parameter.length data.length
  have hbuffer : info.write.length < 2 ^ 32 := by
    rw [info.write_length]
    decide
  have handx : Msg.andx (Msg.Transact2 C) = [] := rfl
  have hp : (Msg.andx (Msg.Transact2 C) ++ requestWords C parameter.length data.length).length <
      512 := by
    rw [handx, List.nil_append]
    omega
  refine ⟨hwords, fun hd => ?_, fun hd => Msg.write_long h hp hd _ hbuffer⟩
  have hframe : Msg.write m info info.write =
      .ok (requestFrame C info parameter data) := by
    rw [Msg.write_ok m info _ _ _ h hp hd hbuffer, handx, List.nil_append, hwords, requestFrame]
    simp only [List.append_assoc]
    rfl
  refine ⟨putU8 15 ++ (requestWords C parameter.length data.length ++
    (putU16Le (UInt16.ofNat (requestData parameter data).length) ++
      requestData parameter data)), ?_⟩
  rw [← List.append_assoc]
  exact ⟨hframe, requestFrame_lays C info parameter data hdata hround⟩

/-- A search for one letter: 16 bytes of parameters, no data. -/
theorem transaction_laid_out_search :
    ∃ written, Msg.write (⟨1, SubCmd.FindFirst2.new "a" 0⟩ : Msg.Transact2 SubCmd.FindFirst2)
        (Info.default .Transact2) (Info.default .Transact2).write =
          .ok ((Info.default .Transact2).write ++ written) ∧
      LaysOut ((Info.default .Transact2).write ++ written)
        (SubCmd.parameter (SubCmd.FindFirst2.new "a" 0)) [] := by
  have hdata : SubCmd.data (SubCmd.FindFirst2.new "a" 0) = [] := rfl
  have hlen : (SubCmd.parameter (SubCmd.FindFirst2.new "a" 0)).length = 16 := by decide
  have hbody := transact2_built (⟨1, SubCmd.FindFirst2.new "a" 0⟩ : Msg.Transact2 SubCmd.FindFirst2)
    (Info.default .Transact2) (by decide) (by rw [hlen]; decide)
  refine (transaction_laid_out _ _ _ _ hbody).2.1 ?_
  rw [requestData_length, hlen, hdata]
  decide

end CifsClientStream.Smb
