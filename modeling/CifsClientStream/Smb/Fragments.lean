import CifsClientStream.Smb.Layout

/-!
# Where a transaction reply keeps its sections (src/smb/trans2/reply.rs)

The offset fields of a transaction reply count from the SMB header, the slices
of `Transact2::create` from the data bytes of the body. A fragment is laid out
here as a server does it, with padding where it likes, and the parser is
compared with the layout.
-/

namespace CifsClientStream.Smb
open Cursor Utils

/-! ### A fragment in its frame -/

/-- The reply message of a server: what it carries, what its fields say and how it is padded.
The offset field of a section that has bytes is where the section begins in the frame. -/
structure Fragment where
  parameter : Bytes
  data : Bytes
  parameterTotal : UInt16
  dataTotal : UInt16
  parameterDisplacement : UInt16
  dataDisplacement : UInt16
  parameterOffset : UInt16
  dataOffset : UInt16
  reserved : UInt16
  setupCount : UInt8
  setupReserved : UInt8
  setup : Bytes
  before : Bytes
  between : Bytes
  behind : Bytes
  trailing : Bytes
  setup_words : setup.length = 2 * setupCount.toNat
  words_fit : 10 + setupCount.toNat < 2 ^ 8
  block_fits : (before ++ parameter ++ between ++ data ++ behind).length < 2 ^ 16
  parameter_placed : parameter ≠ [] → parameterOffset.toNat =
    SMB_HEADER_LEN + 1 + 2 * (10 + setupCount.toNat) + 2 + before.length
  data_placed : data ≠ [] → dataOffset.toNat =
    SMB_HEADER_LEN + 1 + 2 * (10 + setupCount.toNat) + 2 + before.length + parameter.length +
      between.length

namespace Fragment

/-- The data bytes of the message. -/
def block (f : Fragment) : Bytes := f.before ++ f.parameter ++ f.between ++ f.data ++ f.behind

/-- Where the data bytes begin in the frame. -/
def start (f : Fragment) : ℕ := SMB_HEADER_LEN + 1 + 2 * (10 + f.setupCount.toNat) + 2

def words (f : Fragment) : Bytes :=
  putU16Le f.parameterTotal ++ (putU16Le f.dataTotal ++ (putU16Le f.reserved ++
    (putU16Le (UInt16.ofNat f.parameter.length) ++ (putU16Le f.parameterOffset ++
      (putU16Le f.parameterDisplacement ++
        (putU16Le (UInt16.ofNat f.data.length) ++ (putU16Le f.dataOffset ++
          (putU16Le f.dataDisplacement ++
            (putU8 f.setupCount ++ (putU8 f.setupReserved ++ f.setup))))))))))

def body (f : Fragment) : Bytes :=
  putU8 (UInt8.ofNat (10 + f.setupCount.toNat)) ++ (f.words ++
    (putU16Le (UInt16.ofNat f.block.length) ++ (f.block ++ f.trailing)))

/-- What the message says, as the parser should return it. -/
def reply (f : Fragment) : Reply.Transact2 where
  parameter := f.parameter
  parameterTotal := f.parameterTotal.toNat
  parameterOffset := f.parameterDisplacement.toNat
  data := f.data
  dataTotal := f.dataTotal.toNat
  dataOffset := f.dataDisplacement.toNat

@[simp] theorem words_length (f : Fragment) :
    f.words.length = 2 * (10 + f.setupCount.toNat) := by
  have h := f.setup_words
  simp [words, putU16Le, putU8]
  omega

theorem block_length (f : Fragment) :
    f.block.length = f.before.length + f.parameter.length + f.between.length + f.data.length +
      f.behind.length := by
  simp only [block, List.length_append]

theorem block_lt (f : Fragment) : f.block.length < 2 ^ 16 := f.block_fits

theorem parameter_lt (f : Fragment) : f.parameter.length < 2 ^ 16 := by
  have h := f.block_lt
  rw [block_length] at h
  omega

theorem data_lt (f : Fragment) : f.data.length < 2 ^ 16 := by
  have h := f.block_lt
  rw [block_length] at h
  omega

end Fragment

/-! ### What the parser makes of it -/

theorem body_framed (f : Fragment) : f.body = framed f.words f.block f.trailing := by
  have hcount : f.words.length / 2 = 10 + f.setupCount.toNat := by
    rw [Fragment.words_length]
    omega
  rw [framed, hcount]
  rfl

theorem sections_body (f : Fragment) :
    Reply.sections f.body = .ok ((f.words, f.block), f.trailing) := by
  have hwords := f.words_length
  have hfit := f.words_fit
  rw [body_framed]
  exact sections_framed _ _ _ (by omega) (by omega) f.block_lt

/-- `readSection` on the three fields of a section. -/
theorem readSection_put {β : Type} (dataOffset : ℕ) (count offset displacement : UInt16) (b : Bytes)
    (k : Reply.Section → Reader Error β) :
    (Reply.readSection dataOffset >>= k)
        (putU16Le count ++ (putU16Le offset ++ (putU16Le displacement ++ b))) =
      if offset.toNat < dataOffset then .error (.error .InvalidData)
      else k ⟨count.toNat, offset.toNat - dataOffset, displacement.toNat⟩ b := by
  unfold Reply.readSection trySub
  simp only [bind_assoc]
  rw [getU16Le_bind, getU16Le_bind]
  by_cases h : offset.toNat < dataOffset
  · simp only [h, if_true]
    rfl
  · simp only [h, if_false, bind_assoc, pure_bind]
    rw [getU16Le_bind]

theorem parameters_words (f : Fragment) :
    Reply.Transact2.parameters f.start f.words =
      if f.parameterOffset.toNat < f.start then .error (.error .InvalidData)
      else if f.dataOffset.toNat < f.start then .error (.error .InvalidData)
      else .ok ((f.parameterTotal.toNat, f.dataTotal.toNat,
        ⟨f.parameter.length, f.parameterOffset.toNat - f.start, f.parameterDisplacement.toNat⟩,
        ⟨f.data.length, f.dataOffset.toNat - f.start, f.dataDisplacement.toNat⟩),
          putU8 f.setupCount ++ (putU8 f.setupReserved ++ f.setup)) := by
  have hskip : (putU16Le f.reserved).length = 2 := leBytes_length 2 _
  rw [Reply.Transact2.parameters, Fragment.words, getU16Le_bind, getU16Le_bind,
    advance_bind _ _ _ _ hskip, readSection_put, readSection_put, ofNat16_toNat f.parameter_lt,
    ofNat16_toNat f.data_lt]
  rfl

theorem parse_body (f : Fragment) (info : Info) :
    Reply.parse Reply.Transact2 info f.body =
      if f.parameterOffset.toNat < f.start then .error (.error .InvalidData)
      else if f.dataOffset.toNat < f.start then .error (.error .InvalidData)
      else slice f.block (f.parameterOffset.toNat - f.start)
          (f.parameterOffset.toNat - f.start + f.parameter.length) >>= fun parameter =>
        slice f.block (f.dataOffset.toNat - f.start)
          (f.dataOffset.toNat - f.start + f.data.length) >>= fun data =>
        .ok { f.reply with parameter, data } := by
  have hcreate : Reply.parse Reply.Transact2 info f.body =
      Reply.Transact2.create ⟨info, f.words, f.block, f.start⟩ := by
    rw [Reply.parse, sections_body]
    change Reply.Transact2.create ⟨info, f.words, f.block, _⟩ = _
    rw [Fragment.words_length]
    rfl
  rw [hcreate, Reply.Transact2.create]
  dsimp only
  rw [parameters_words]
  split
  · rfl
  · split
    · rfl
    · rfl

/-! ### The exact condition -/

/-- `bytes` is what the parser slices out at the offset field `offset`. -/
def Cuts (f : Fragment) (offset : UInt16) (bytes : Bytes) : Prop :=
  f.start ≤ offset.toNat ∧ (slice f.block (offset.toNat - f.start)
    (offset.toNat - f.start + bytes.length) : Except (Fault Error) Bytes) = .ok bytes

/-- The offset field of an empty section points into the data bytes. -/
def EmptyInside (f : Fragment) (offset : UInt16) (bytes : Bytes) : Prop :=
  bytes = [] → f.start ≤ offset.toNat ∧ offset.toNat ≤ f.start + f.block.length

theorem slice_between (a bytes b : Bytes) :
    (slice (a ++ (bytes ++ b)) a.length (a.length + bytes.length) :
      Except (Fault Error) Bytes) = .ok bytes := by
  have hle : a.length + bytes.length ≤ (a ++ (bytes ++ b)).length := by
    rw [List.length_append, List.length_append]
    omega
  have htake : (a ++ (bytes ++ b)).take (a.length + bytes.length) = a ++ bytes := by
    rw [← List.append_assoc]
    exact List.take_left' (List.length_append ..)
  rw [slice, if_pos ⟨Nat.le_add_right _ _, hle⟩, htake, List.drop_left]

theorem slice_empty (b : Bytes) (i : ℕ) :
    (slice b i (i + ([] : Bytes).length) : Except (Fault Error) Bytes) = .ok [] ↔ i ≤ b.length := by
  rw [slice]
  by_cases h : i ≤ b.length
  · simp [h]
  · simp [h]

/-- A section that has bytes lies in the block behind `a`; one that has none may say anything. -/
theorem cuts_iff (f : Fragment) (offset : UInt16) (a bytes b : Bytes)
    (hblock : f.block = a ++ (bytes ++ b))
    (hplaced : bytes ≠ [] → offset.toNat = f.start + a.length) :
    Cuts f offset bytes ↔ EmptyInside f offset bytes := by
  unfold Cuts EmptyInside
  by_cases hne : bytes = []
  · subst hne
    rw [slice_empty]
    simp only [forall_const]
    constructor
    · intro h
      omega
    · intro h
      omega
  · have hoff := hplaced hne
    have hsub : offset.toNat - f.start = a.length := by omega
    rw [hsub, hblock, slice_between]
    simp only [hne, false_implies, iff_true, and_true]
    omega

theorem parameter_cuts (f : Fragment) :
    Cuts f f.parameterOffset f.parameter ↔ EmptyInside f f.parameterOffset f.parameter := by
  apply cuts_iff f _ f.before _ (f.between ++ f.data ++ f.behind)
  · simp [Fragment.block]
  · exact f.parameter_placed

theorem data_cuts (f : Fragment) :
    Cuts f f.dataOffset f.data ↔ EmptyInside f f.dataOffset f.data := by
  apply cuts_iff f _ (f.before ++ f.parameter ++ f.between) _ f.behind
  · simp [Fragment.block]
  · intro h
    rw [f.data_placed h]
    simp [Fragment.start]
    omega

theorem parse_body_cuts (f : Fragment) (info : Info) :
    Reply.parse Reply.Transact2 info f.body = .ok f.reply ↔
      Cuts f f.parameterOffset f.parameter ∧ Cuts f f.dataOffset f.data := by
  rw [parse_body]
  unfold Cuts
  by_cases hp : f.parameterOffset.toNat < f.start
  · simp [hp, Nat.not_le.mpr hp]
  · by_cases hd : f.dataOffset.toNat < f.start
    · simp [hp, hd, Nat.not_le.mpr hd]
    · simp only [hp, hd, if_false, except_bind_ok, Nat.not_lt.mp hp, Nat.not_lt.mp hd, true_and]
      constructor
      · intro h
        obtain ⟨parameter, hparameter, data, hdata, heq⟩ := h
        have hr := Except.ok.inj heq
        have h1 : parameter = f.parameter := congrArg Reply.Transact2.parameter hr
        have h2 : data = f.data := congrArg Reply.Transact2.data hr
        rw [h1] at hparameter
        rw [h2] at hdata
        exact ⟨hparameter, hdata⟩
      · intro h
        exact ⟨f.parameter, h.1, f.data, h.2, rfl⟩

/-- A message is decoded to what it says exactly if its empty sections point into the data
bytes: the parser subtracts and slices also where there is nothing to cut. -/
theorem fragment_parsed_iff (f : Fragment) (info : Info) :
    Reply.parse Reply.Transact2 info f.body = .ok f.reply ↔
      EmptyInside f f.parameterOffset f.parameter ∧ EmptyInside f f.dataOffset f.data := by
  rw [parse_body_cuts, parameter_cuts, data_cuts]

/-- The last message of a search that found nothing more: no data, and their offset is zero. -/
def nothingMore : Fragment where
  parameter := putU16Le 0 ++ putU16Le 1 ++ putU16Le 0 ++ putU16Le 0
  data := []
  parameterTotal := 8
  dataTotal := 0
  parameterDisplacement := 0
  dataDisplacement := 0
  parameterOffset := 56
  dataOffset := 0
  reserved := 0
  setupCount := 0
  setupReserved := 0
  setup := []
  before := [0]
  between := []
  behind := []
  trailing := []
  setup_words := rfl
  words_fit := by decide
  block_fits := by decide
  parameter_placed := fun _ => rfl
  data_placed := fun h => absurd rfl h

theorem fragment_refused : Reply.parse Reply.Transact2 (Info.default .Transact2) nothingMore.body =
      .error (.error .InvalidData) ∧
    ¬∀ (f : Fragment) (info : Info), Reply.parse Reply.Transact2 info f.body = .ok f.reply := by
  have hparse : Reply.parse Reply.Transact2 (Info.default .Transact2) nothingMore.body =
      .error (.error .InvalidData) := by
    rw [parse_body]
    rfl
  refine ⟨hparse, fun h => ?_⟩
  have hok := h nothingMore (Info.default .Transact2)
  rw [hparse] at hok
  cases hok

end CifsClientStream.Smb
