import CifsClientStream.Smb.Transaction

/-!
# Where the texts of a message are (src/smb/msg.rs, src/smb/trans2/msg.rs)

UTF-16 texts belong on even offsets from the header. Each message pads by the
parity of the field in front of the text and does not look at the offset, so
the rule has to fit the length of its own parameter block.
-/

namespace CifsClientStream.Smb
open Cursor Win Utils

/-- What is put into a data block: bytes, or a text with its terminator. -/
inductive Piece where
  | bytes (b : Bytes)
  | text (s : String)

def Piece.raw : Piece → Bytes
  | bytes b => b
  | text s => encodeUtf16Le0 s

/-- The texts among the pieces that start at `offset`, each with the offset of its own. -/
def starts : ℕ → List Piece → List (ℕ × String)
  | _, [] => []
  | offset, .bytes b :: rest => starts (offset + b.length) rest
  | offset, .text s :: rest => (offset, s) :: starts (offset + (encodeUtf16Le0 s).length) rest

theorem starts_drop (front : Bytes) (pieces : List Piece) (start : ℕ × String)
    (h : start ∈ starts front.length pieces) :
    encodeUtf16Le0 start.2 <+: (front ++ pieces.flatMap Piece.raw).drop start.1 := by
  induction pieces generalizing front with
  | nil => cases h
  | cons piece rest ih =>
    cases piece with
    | bytes b =>
      have hrest := ih (front ++ b) (by rw [List.length_append]; exact h)
      rw [List.append_assoc] at hrest
      exact hrest
    | text s =>
      rcases List.mem_cons.mp h with rfl | h
      · rw [List.drop_left]
        exact ⟨rest.flatMap Piece.raw, rfl⟩
      · have hrest := ih (front ++ encodeUtf16Le0 s) (by rw [List.length_append]; exact h)
        rw [List.append_assoc] at hrest
        exact hrest

/-- A text is a whole number of code units. -/
theorem encodeUtf16Le0_even (s : String) : (encodeUtf16Le0 s).length % 2 = 0 := by
  rw [encodeUtf16Le0_length]
  omega

namespace Message

/-- The piece of padding that makes what is in front of it odd. -/
def oddPadding (front : ℕ) : Piece := .bytes (if front % 2 = 0 then [0] else [])

/-- The parameters of a search in front of its name. -/
def findFirstHead (c : SubCmd.FindFirst2) : Bytes :=
  putU16Le c.search ++ putU16Le c.count ++ putU16Le c.flags ++
    putU16Le FindInfoLevel.DIRECTORY_INFO ++ putU32Le 0

def findNextHead (c : SubCmd.FindNext2) : Bytes :=
  putU16Le c.sid ++ putU16Le c.count ++ putU16Le FindInfoLevel.DIRECTORY_INFO ++ putU32Le 0 ++
    putU16Le c.flags

def transactPieces (head : Bytes) (name : String) : List Piece :=
  [.bytes [0, 0, 0], .bytes head, .text name,
    .bytes (putBytes 0 (fillUp4n (68 + (head ++ encodeUtf16Le0 name).length)))]

/-- The data block of a message with the UNICODE flag, piece by piece. -/
def pieces : Message → List Piece
  | negotiate _ => [.bytes (SMB_SUPPORTED_DIALECTS.flatMap fun d => [0x02] ++ asBytes d ++ [0x00])]
  | sessionSetup m => (match m.mode with
    | .classic user domain secret => [.bytes secret.toList, .bytes secret.toList,
      oddPadding (secret.toList ++ secret.toList).length, .text user, .text domain]
    | .extended blob => [.bytes blob, oddPadding blob.length]) ++ [.text "", .text ""]
  | treeConnect m =>
    let password := if m.password.isEmpty then [0x00] else asBytes m.password
    [.bytes password, oddPadding password.length, .text m.path, .bytes (putBytes 0x3f 5),
      .bytes [0]]
  | treeDisconnect _ => []
  | openFile m => [.bytes [0], .text m.filename]
  | close _ => []
  | read _ => []
  | findFirst m => transactPieces (findFirstHead m.subcmd) m.subcmd.filename
  | findNext m => transactPieces (findNextHead m.subcmd) m.subcmd.filename

/-- Where the data block starts, counted from the header. -/
def dataStart (m : Message) : ℕ := SMB_HEADER_LEN + 1 + m.parameterLength + 2

/-! ### The pieces are the data block -/

theorem sessionSetup_pieces (m : Msg.SessionSetup) (info : Info)
    (hunicode : contains info.flags2 Flags2.UNICODE) (p d : Bytes)
    (h : (sessionSetup m).body info = .ok (p, d)) :
    d = (sessionSetup m).pieces.flatMap Piece.raw := by
  obtain ⟨maxBufferSize, maxMpxCount, vcNumber, sessionKey, capabilities, mode⟩ := m
  cases hlengths : Msg.SessionSetup.lengths mode with
  | error f =>
    change Msg.SessionSetup.body _ info = _ at h
    rw [Msg.SessionSetup.body, hlengths] at h
    cases h
  | ok lengths =>
    have hbuilt := sessionSetup_built ⟨maxBufferSize, maxMpxCount, vcNumber, sessionKey,
      capabilities, mode⟩ info lengths hlengths
    obtain ⟨-, hd⟩ := Prod.mk.inj (Except.ok.inj (h.symm.trans hbuilt))
    have hempty : encodeUtf16Le0 "" = putU16Le 0 := by decide
    rw [hd, if_pos hunicode]
    cases mode with
    | classic user domain secret =>
      have hsecret : secret.toList.length = 24 := secret.length_toList
      simp [Msg.SessionSetup.modeData, pieces, oddPadding, Piece.raw, hsecret, hempty]
    | extended blob =>
      by_cases hodd : blob.length % 2 = 0
      · simp [Msg.SessionSetup.modeData, pieces, oddPadding, Piece.raw, hodd, hempty]
      · simp [Msg.SessionSetup.modeData, pieces, oddPadding, Piece.raw, hodd, hempty]

theorem treeConnect_pieces (m : Msg.TreeConnect) (info : Info)
    (hunicode : contains info.flags2 Flags2.UNICODE) (p d : Bytes)
    (h : (treeConnect m).body info = .ok (p, d)) :
    d = (treeConnect m).pieces.flatMap Piece.raw := by
  change Msg.TreeConnect.body m info = _ at h
  unfold Msg.TreeConnect.body at h
  obtain ⟨passwordLength, -, h⟩ := except_bind_ok.mp h
  obtain ⟨-, hd⟩ := Prod.mk.inj (Except.ok.inj h)
  have hzero : putU16Le 0 = [0, 0] := rfl
  rw [← hd, if_pos hunicode]
  simp [pieces, oddPadding, Piece.raw, encodeUtf16Le0, hzero]

theorem openFile_pieces (m : Msg.Open) (info : Info) (p d : Bytes)
    (h : (openFile m).body info = .ok (p, d)) : d = (openFile m).pieces.flatMap Piece.raw := by
  change Msg.Open.body m info = _ at h
  unfold Msg.Open.body at h
  obtain ⟨filenameLength, -, h⟩ := except_bind_ok.mp h
  obtain ⟨-, hd⟩ := Prod.mk.inj (Except.ok.inj h)
  rw [← hd]
  simp [pieces, Piece.raw]

theorem transact2_pieces {C : Type} [SubCmd C] (m : Msg.Transact2 C) (info : Info) (head : Bytes)
    (name : String) (hparameter : SubCmd.parameter m.subcmd = head ++ encodeUtf16Le0 name)
    (hdata : SubCmd.data m.subcmd = []) (p d : Bytes) (h : Msg.body m info = .ok (p, d)) :
    d = (transactPieces head name).flatMap Piece.raw := by
  obtain ⟨-, -, -, hd⟩ := transact2_ok h
  rw [hd, hparameter, hdata, requestData]
  simp [transactPieces, Piece.raw]

theorem body_pieces (m : Message) (info : Info) (hunicode : contains info.flags2 Flags2.UNICODE)
    (p d : Bytes) (h : m.body info = .ok (p, d)) : d = m.pieces.flatMap Piece.raw := by
  cases m with
  | negotiate m =>
    obtain ⟨-, hd⟩ := Prod.mk.inj (Except.ok.inj h)
    rw [← hd]
    simp [pieces, Piece.raw]
  | sessionSetup m => exact sessionSetup_pieces m info hunicode p d h
  | treeConnect m => exact treeConnect_pieces m info hunicode p d h
  | treeDisconnect m => exact (Prod.mk.inj (Except.ok.inj h)).2.symm
  | openFile m => exact openFile_pieces m info p d h
  | close m => exact (Prod.mk.inj (Except.ok.inj h)).2.symm
  | read m => exact (Prod.mk.inj (Except.ok.inj h)).2.symm
  | findFirst m => exact transact2_pieces m info _ _ rfl rfl p d h
  | findNext m => exact transact2_pieces m info _ _ rfl rfl p d h

/-! ### The texts start even -/

theorem oddPadding_even (offset front : ℕ) (hodd : offset % 2 = 1) :
    (offset + front + (oddPadding front).raw.length) % 2 = 0 := by
  unfold oddPadding
  by_cases hfront : front % 2 = 0
  · rw [if_pos hfront]
    change (offset + front + 1) % 2 = 0
    omega
  · rw [if_neg hfront]
    change (offset + front + 0) % 2 = 0
    omega

theorem starts_even (m : Message) : ∀ start ∈ starts m.dataStart m.pieces, start.1 % 2 = 0 := by
  cases m with
  | negotiate m => simp [pieces, starts]
  | sessionSetup m =>
    obtain ⟨_, _, _, _, _, mode⟩ := m
    have hempty := encodeUtf16Le0_even ""
    cases mode with
    | classic user domain secret =>
      have huser := encodeUtf16Le0_even user
      have hdomain := encodeUtf16Le0_even domain
      have hpadding := oddPadding_even 61 (secret.toList ++ secret.toList).length rfl
      simp only [pieces, oddPadding, Piece.raw, List.cons_append, List.nil_append, starts,
        List.length_append, dataStart, parameterLength, SMB_HEADER_LEN, List.mem_cons,
        List.not_mem_nil, or_false, forall_eq_or_imp, forall_eq] at hpadding ⊢
      omega
    | extended blob =>
      have hpadding := oddPadding_even 59 blob.length rfl
      simp only [pieces, oddPadding, Piece.raw, List.cons_append, List.nil_append, starts,
        dataStart, parameterLength, SMB_HEADER_LEN, List.mem_cons, List.not_mem_nil, or_false,
        forall_eq_or_imp, forall_eq] at hpadding ⊢
      omega
  | treeConnect m =>
    have hpadding := oddPadding_even 43
      (if m.password.isEmpty then [0x00] else asBytes m.password).length rfl
    simp only [pieces, oddPadding, Piece.raw, starts, dataStart, parameterLength, SMB_HEADER_LEN,
      List.mem_cons, List.not_mem_nil, or_false, forall_eq] at hpadding ⊢
    omega
  | treeDisconnect m => simp [pieces, starts]
  | openFile m => simp [pieces, starts, dataStart, parameterLength, SMB_HEADER_LEN]
  | close m => simp [pieces, starts]
  | read m => simp [pieces, starts]
  | findFirst m =>
    simp [pieces, transactPieces, starts, dataStart, parameterLength, SMB_HEADER_LEN,
      findFirstHead, putU16Le, putU32Le]
  | findNext m =>
    simp [pieces, transactPieces, starts, dataStart, parameterLength, SMB_HEADER_LEN,
      findNextHead, putU16Le, putU32Le]

/-! ### The frame -/

theorem write_front (m : Message) (info : Info) (frame : Bytes)
    (h : m.write info info.write = .ok frame) : ∃ p d front, m.body info = .ok (p, d) ∧
      front.length = m.dataStart ∧ frame = front ++ d := by
  have hheader := info.write_length
  have hbuffer : info.write.length < 2 ^ 32 := by rw [hheader]; decide
  cases body_cases m info with
  | built p d hbody parameter data fits =>
    have hp : (m.andx ++ p).length < 512 := by rw [parameter]; exact m.parameterLength_lt
    by_cases hd : d.length < 65536
    · refine ⟨p, d, _, hbody, ?_, Except.ok.inj (h.symm.trans (write_ok hbody hp hd _ hbuffer))⟩
      rw [List.length_append, List.length_append, List.length_append, hheader, parameter]
      rfl
    · cases h.symm.trans (write_long hbody hp (Nat.not_lt.mp hd) _ hbuffer)
  | refused what hbody other long fits => cases h.symm.trans (write_error hbody _)
  | overrun hbody overruns => cases h.symm.trans (write_error hbody _)

/-- With the UNICODE flag the data block is the pieces one behind the other, and every text among
them starts on an even offset from the header. -/
theorem texts_aligned (m : Message) (info : Info)
    (hunicode : contains info.flags2 Flags2.UNICODE) (frame : Bytes)
    (h : m.write info info.write = .ok frame) :
    frame.drop m.dataStart = m.pieces.flatMap Piece.raw ∧
      ∀ start ∈ starts m.dataStart m.pieces, start.1 % 2 = 0 ∧
        encodeUtf16Le0 start.2 <+: frame.drop start.1 := by
  obtain ⟨p, d, front, hbody, hfront, rfl⟩ := write_front m info frame h
  have hd := body_pieces m info hunicode p d hbody
  refine ⟨?_, fun start hstart => ⟨starts_even m start hstart, ?_⟩⟩
  · rw [← hfront, List.drop_left, hd]
  · rw [hd]
    exact starts_drop front m.pieces start (by rw [hfront]; exact hstart)

/-- Behind a password of two bytes a byte of padding moves the path. -/
theorem texts_aligned_share : ∃ frame,
    (treeConnect (.new "//h/s" "pw")).write (Info.default .TreeConnect)
      (Info.default .TreeConnect).write = .ok frame ∧
      starts 43 (treeConnect (.new "//h/s" "pw")).pieces = [(46, "//h/s")] ∧
      encodeUtf16Le0 "//h/s" <+: frame.drop 46 := by
  have hstarts : starts 43 (treeConnect (.new "//h/s" "pw")).pieces = [(46, "//h/s")] := by decide
  refine ⟨_, rfl, hstarts, ?_⟩
  have h := texts_aligned (treeConnect (.new "//h/s" "pw")) (Info.default .TreeConnect)
    (by decide) _ rfl
  refine (h.2 (46, "//h/s") ?_).2
  change _ ∈ starts 43 (treeConnect (.new "//h/s" "pw")).pieces
  rw [hstarts]
  exact List.mem_singleton.mpr rfl

end Message

end CifsClientStream.Smb
