import CifsClientStream.Smb.Msg
import CifsClientStream.Utf16

/-!
# All messages of the client (src/smb/msg.rs, src/smb/trans2/msg.rs)

A message of any of the types the client has, and how many bytes it takes:
`body_cases` says for each when its body can be built and how long the two
blocks are then, in terms of the strings and blobs it carries.
-/

namespace CifsClientStream.Smb
open Cursor Win Utils

inductive Message where
  | negotiate (m : Msg.Negotiate)
  | sessionSetup (m : Msg.SessionSetup)
  | treeConnect (m : Msg.TreeConnect)
  | treeDisconnect (m : Msg.TreeDisconnect)
  | openFile (m : Msg.Open)
  | close (m : Msg.Close)
  | read (m : Msg.Read)
  | findFirst (m : Msg.Transact2 SubCmd.FindFirst2)
  | findNext (m : Msg.Transact2 SubCmd.FindNext2)

namespace Message

/-- What is defined for every message type, for a message. -/
def fold {α : Type} (f : {M : Type} → [Msg M] → M → α) : Message → α
  | negotiate m => f m
  | sessionSetup m => f m
  | treeConnect m => f m
  | treeDisconnect m => f m
  | openFile m => f m
  | close m => f m
  | read m => f m
  | findFirst m => f m
  | findNext m => f m

def body (m : Message) (info : Info) : Except (Fault Error) (Bytes × Bytes) :=
  m.fold fun msg => Msg.body msg info

def andx (m : Message) : Bytes := m.fold fun {M} _ _ => Msg.andx M

def write (m : Message) (info : Info) (buffer : Bytes) : Except (Fault Error) Bytes :=
  m.fold fun msg => Msg.write msg info buffer

/-! ### Sizes -/

/-- The parameter block, the AndX block included. -/
def parameterLength : Message → ℕ
  | negotiate _ => 0
  | sessionSetup m => match m.mode with
    | .classic _ _ _ => 26
    | .extended _ => 24
  | treeConnect _ => 8
  | treeDisconnect _ => 0
  | openFile _ => 48
  | close _ => 6
  | read _ => 24
  | findFirst _ => 30
  | findNext _ => 30

def passwordLength (password : String) : ℕ := if password.isEmpty then 1 else (asBytes password).length

/-- The data block of a transaction whose parameters have `n` bytes. -/
def transactLength (n : ℕ) : ℕ := 3 + n + fillUp4n (68 + n)

def dataLength (unicode : Bool) : Message → ℕ
  | negotiate _ => 12
  | sessionSetup m => (match m.mode with
    | .classic user domain _ =>
      49 + (encodeUtf16Le0 user).length + (encodeUtf16Le0 domain).length
    | .extended blob => if blob.length % 2 = 0 then blob.length + 1 else blob.length) +
      (if unicode then 4 else 2)
  | treeConnect m => passwordLength m.password + (if unicode then
      (if passwordLength m.password % 2 = 0 then 1 else 0) + (encodeUtf16Le m.path).length + 2
    else (asBytes m.path).length + 1) + 6
  | treeDisconnect _ => 0
  | openFile m => 1 + (encodeUtf16Le0 m.filename).length
  | close _ => 0
  | read _ => 0
  | findFirst m => transactLength (12 + (encodeUtf16Le0 m.subcmd.filename).length)
  | findNext m => transactLength (12 + (encodeUtf16Le0 m.subcmd.filename).length)

/-- Header and body. -/
def length (unicode : Bool) (m : Message) : ℕ :=
  SMB_HEADER_LEN + 1 + m.parameterLength + 2 + m.dataLength unicode

/-- Parameters of `n` bytes are announced, but the offset of the data behind them is not: the
conversion panics. -/
def OffsetOverruns (n : ℕ) : Prop := n < 65536 ∧ 65464 < n

/-- The name of a search is so long that the offset field of the data overruns. -/
def Overruns : Message → Prop
  | findFirst m => OffsetOverruns (12 + (encodeUtf16Le0 m.subcmd.filename).length)
  | findNext m => OffsetOverruns (12 + (encodeUtf16Le0 m.subcmd.filename).length)
  | _ => False

end Message

/-- The texts of the two checks on the room in the packet buffer. -/
def bufferTooSmall : List String :=
  ["packet buffer too small for parameter", "packet buffer too small for data"]

/-- The ways the body of a message can come out. -/
inductive BodyCase (m : Message) (info : Info) : Prop where
  | built (p d : Bytes) (h : m.body info = .ok (p, d))
      (parameter : (m.andx ++ p).length = m.parameterLength)
      (data : d.length = m.dataLength (contains info.flags2 Flags2.UNICODE)) (fits : ¬m.Overruns)
  | refused (what : String) (h : m.body info = .error (.error (.CreatePacket what)))
      (other : what ∉ bufferTooSmall)
      (long : 65536 ≤ m.dataLength (contains info.flags2 Flags2.UNICODE)) (fits : ¬m.Overruns)
  | overrun (h : m.body info = .error .panic) (overruns : m.Overruns)

theorem tryU16_fits {n : ℕ} (what : String) (h : n < 65536) :
    tryU16 n what = .ok (UInt16.ofNat n) := if_pos h

theorem tryU16_long {n : ℕ} (what : String) (h : 65536 ≤ n) :
    tryU16 n what = .error (.error (.CreatePacket what)) := if_neg (Nat.not_lt.mpr h)

theorem names_length (info : Info) :
    (if contains info.flags2 Flags2.UNICODE then putU16Le 0 ++ putU16Le 0
      else putBytes 0 2).length = if contains info.flags2 Flags2.UNICODE then 4 else 2 := by
  split
  · rfl
  · rfl

theorem andx_length : (AndX.write ⟨.NoCommand, 0⟩).length = 4 := rfl

theorem sessionSetup_built (m : Msg.SessionSetup) (info : Info) (lengths : Bytes)
    (h : Msg.SessionSetup.lengths m.mode = .ok lengths) :
    (Message.sessionSetup m).body info = .ok (putU16Le m.maxBufferSize ++ putU16Le m.maxMpxCount ++
      putU16Le m.vcNumber ++ putU32Le m.sessionKey ++ lengths ++ putU32Le 0 ++
      putU32Le m.capabilities, Msg.SessionSetup.modeData m.mode ++
        if contains info.flags2 Flags2.UNICODE then putU16Le 0 ++ putU16Le 0
        else putBytes 0 2) := by
  change Msg.SessionSetup.body m info = _
  rw [Msg.SessionSetup.body, h]
  rfl

theorem sessionSetup_cases (m : Msg.SessionSetup) (info : Info) :
    BodyCase (.sessionSetup m) info := by
  obtain ⟨maxBufferSize, maxMpxCount, vcNumber, sessionKey, capabilities, mode⟩ := m
  cases mode with
  | classic user domain secret =>
    have hsecret : secret.toList.length = 24 := secret.length_toList
    have hbody := sessionSetup_built ⟨maxBufferSize, maxMpxCount, vcNumber, sessionKey,
      capabilities, .classic user domain secret⟩ info (putU16Le 24 ++ putU16Le 24) (by
        rw [Msg.SessionSetup.lengths, tryU16_fits _ (by omega), hsecret]
        rfl)
    refine .built _ _ hbody ?_ ?_ id
    · simp [Message.andx, Message.fold, Msg.andx, Msg.ANDX, andx_length, Message.parameterLength,
        putU16Le, putU32Le]
    · rw [List.length_append, names_length]
      simp only [Msg.SessionSetup.modeData, if_true, List.length_append, hsecret,
        Message.dataLength, List.length_singleton]
  | extended blob =>
    have hdata : (Msg.SessionSetup.modeData (.extended blob)).length =
        if blob.length % 2 = 0 then blob.length + 1 else blob.length := by
      rw [Msg.SessionSetup.modeData]
      split
      · rw [List.length_append, List.length_singleton]
      · rfl
    by_cases hblob : blob.length < 65536
    · have hbody := sessionSetup_built ⟨maxBufferSize, maxMpxCount, vcNumber, sessionKey,
        capabilities, .extended blob⟩ info (putU16Le (UInt16.ofNat blob.length)) (by
          rw [Msg.SessionSetup.lengths, tryU16_fits _ hblob]
          rfl)
      refine .built _ _ hbody ?_ ?_ id
      · simp [Message.andx, Message.fold, Msg.andx, Msg.ANDX, andx_length, Message.parameterLength,
          putU16Le, putU32Le]
      · rw [List.length_append, names_length, hdata]
        rfl
    · refine .refused "blob in SessionSetup too big" ?_ (by decide) ?_ id
      · change Msg.SessionSetup.body _ info = _
        rw [Msg.SessionSetup.body, Msg.SessionSetup.lengths, tryU16_long _ (Nat.not_lt.mp hblob)]
        rfl
      · simp only [Message.dataLength]
        split
        · omega
        · omega

theorem treeConnect_password (password : String) :
    (if password.isEmpty then [0x00] else asBytes password).length =
      Message.passwordLength password := by
  unfold Message.passwordLength
  split
  · rfl
  · rfl

theorem treeConnect_cases (m : Msg.TreeConnect) (info : Info) :
    BodyCase (.treeConnect m) info := by
  obtain ⟨path, password, flags⟩ := m
  have hlen := treeConnect_password password
  by_cases hpassword : Message.passwordLength password < 65536
  · have hbody : (Message.treeConnect ⟨path, password, flags⟩).body info = .ok
        (putU16Le flags ++ putU16Le (UInt16.ofNat (Message.passwordLength password)),
          (if password.isEmpty then [0x00] else asBytes password) ++
            (if contains info.flags2 Flags2.UNICODE then
              (if Message.passwordLength password % 2 = 0 then [0] else []) ++
                encodeUtf16Le path ++ putU16Le 0
            else asBytes path ++ [0]) ++ putBytes 0x3f 5 ++ [0]) := by
      change Msg.TreeConnect.body _ info = _
      rw [Msg.TreeConnect.body, hlen, tryU16_fits _ hpassword]
      rfl
    refine .built _ _ hbody ?_ ?_ id
    · simp [Message.andx, Message.fold, Msg.andx, Msg.ANDX, andx_length, Message.parameterLength,
        putU16Le]
    · simp only [List.length_append, hlen, Message.dataLength]
      split
      · split
        · simp [putU16Le, putBytes]
          omega
        · simp [putU16Le, putBytes]
      · simp [putBytes]
  · refine .refused "password too long" ?_ (by decide) ?_ id
    · change Msg.TreeConnect.body _ info = _
      rw [Msg.TreeConnect.body, hlen, tryU16_long _ (Nat.not_lt.mp hpassword)]
      rfl
    · simp only [Message.dataLength]
      omega

theorem openFile_cases (m : Msg.Open) (info : Info) : BodyCase (.openFile m) info := by
  by_cases hname : (encodeUtf16Le0 m.filename).length < 65536
  · have hbody : (Message.openFile m).body info = .ok (putU8 0 ++
        putU16Le (UInt16.ofNat (encodeUtf16Le0 m.filename).length) ++ putU32Le m.createFlags ++
        putU32Le m.directory ++ putU32Le m.access ++ putU64Le m.allocationSize ++
        putU32Le m.attributes ++ putU32Le m.shareAccess ++ putU32Le m.disposition ++
        putU32Le m.options ++ putU32Le m.impersonation ++ putU8 m.security,
          [0] ++ encodeUtf16Le0 m.filename) := by
      change Msg.Open.body _ info = _
      rw [Msg.Open.body, tryU16_fits _ hname]
      rfl
    refine .built _ _ hbody ?_ ?_ id
    · simp [Message.andx, Message.fold, Msg.andx, Msg.ANDX, andx_length, Message.parameterLength,
        putU8, putU16Le, putU32Le, putU64Le]
    · rw [List.length_append]
      rfl
  · refine .refused "filename too long" ?_ (by decide) ?_ id
    · change Msg.Open.body _ info = _
      rw [Msg.Open.body, tryU16_long _ (Nat.not_lt.mp hname)]
      rfl
    · simp only [Message.dataLength]
      omega

/-! ### Transactions -/

/-- The words of a request with `n` bytes of parameters and `k` bytes of data. -/
def requestWords (C : Type) [SubCmd C] (n k : ℕ) : Bytes :=
  putU16Le (UInt16.ofNat n) ++ putU16Le (UInt16.ofNat k) ++
    putU16Le (SubCmd.MAX_PARAM_COUNT C) ++ putU16Le (SubCmd.MAX_DATA_COUNT C) ++
    putU8 (SubCmd.MAX_SETUP_COUNT C) ++ putU8 0 ++ putU16Le 0 ++ putU32Le 0 ++ putU16Le 0 ++
    putU16Le (UInt16.ofNat n) ++ putU16Le (UInt16.ofNat 68) ++
    putU16Le (UInt16.ofNat k) ++ putU16Le (UInt16.ofNat (roundUp4n (68 + n))) ++
    putU8 1 ++ putU8 0 ++ putU16Le (SubCmd.SETUP C)

theorem requestWords_length (C : Type) [SubCmd C] (n k : ℕ) : (requestWords C n k).length = 30 := by
  simp [requestWords, putU8, putU16Le, putU32Le]

/-- The data block: the empty name and padding, the parameters, padding, the data. -/
def requestData (parameter data : Bytes) : Bytes :=
  [0, 0, 0] ++ (parameter ++ (putBytes 0 (fillUp4n (68 + parameter.length)) ++ data))

theorem requestData_length (parameter data : Bytes) :
    (requestData parameter data).length =
      3 + parameter.length + fillUp4n (68 + parameter.length) + data.length := by
  simp [requestData, putBytes]
  omega

/-- The padding is counted from the header, as the offsets are. -/
theorem align_requestData (parameter data : Bytes) :
    Msg.Transact2.align 65 (Msg.Transact2.align 65 [0] ++ parameter) ++ data =
      requestData parameter data := by
  have hname : Msg.Transact2.align 65 [0] = [0, 0, 0] := rfl
  have hlen : 65 + ([0, 0, 0] ++ parameter : Bytes).length = 68 + parameter.length := by
    simp
    omega
  rw [hname, Msg.Transact2.align, hlen, requestData]
  simp only [List.append_assoc]

theorem transact2_built {C : Type} [SubCmd C] (m : Msg.Transact2 C) (info : Info)
    (hdata : (SubCmd.data m.subcmd).length < 65536)
    (hround : roundUp4n (68 + (SubCmd.parameter m.subcmd).length) < 65536) :
    Msg.body m info =
      .ok (requestWords C (SubCmd.parameter m.subcmd).length (SubCmd.data m.subcmd).length,
        requestData (SubCmd.parameter m.subcmd) (SubCmd.data m.subcmd)) := by
  have hparameter : (SubCmd.parameter m.subcmd).length < 65536 := by
    unfold roundUp4n at hround
    omega
  change Msg.Transact2.body m info = _
  unfold Msg.Transact2.body
  dsimp only
  rw [tryU16_fits _ hparameter, tryU16_fits _ hdata, ← align_requestData]
  change (expectU16 (roundUp4n (68 + (SubCmd.parameter m.subcmd).length)) >>= _) = _
  rw [expectU16, if_pos hround]
  rfl

theorem tryU16_ok {n : ℕ} {what : String} {v : UInt16} (h : tryU16 n what = .ok v) :
    n < 65536 ∧ v = UInt16.ofNat n := by
  unfold tryU16 at h
  split at h
  · cases h
    exact ⟨‹_›, rfl⟩
  · cases h

theorem expectU16_ok {n : ℕ} {v : UInt16} (h : expectU16 n = .ok v) : n < 65536 := by
  unfold expectU16 at h
  split at h
  · assumption
  · cases h

/-- When the body can be built, all that it declares fits into its fields. -/
theorem transact2_ok {C : Type} [SubCmd C] {m : Msg.Transact2 C} {info : Info} {p d : Bytes}
    (h : Msg.body m info = .ok (p, d)) :
    (SubCmd.data m.subcmd).length < 65536 ∧
      roundUp4n (68 + (SubCmd.parameter m.subcmd).length) < 65536 ∧
      p = requestWords C (SubCmd.parameter m.subcmd).length (SubCmd.data m.subcmd).length ∧
      d = requestData (SubCmd.parameter m.subcmd) (SubCmd.data m.subcmd) := by
  have hbody : Msg.Transact2.body m info = .ok (p, d) := h
  unfold Msg.Transact2.body at hbody
  obtain ⟨parameterLen, -, hbody⟩ := except_bind_ok.mp hbody
  obtain ⟨dataLen, htry, hbody⟩ := except_bind_ok.mp hbody
  obtain ⟨parameterOffset, -, hbody⟩ := except_bind_ok.mp hbody
  obtain ⟨dataOffset, hexpect, -⟩ := except_bind_ok.mp hbody
  have hdata := (tryU16_ok htry).1
  have hround : roundUp4n (68 + (SubCmd.parameter m.subcmd).length) < 65536 := expectU16_ok hexpect
  rw [transact2_built m info hdata hround] at h
  obtain ⟨hp, hd⟩ := Prod.mk.inj (Except.ok.inj h)
  exact ⟨hdata, hround, hp.symm, hd.symm⟩

theorem transact2_long {C : Type} [SubCmd C] (m : Msg.Transact2 C) (info : Info)
    (hn : 65536 ≤ (SubCmd.parameter m.subcmd).length) :
    Msg.body m info = .error (.error
      (.CreatePacket "parameter transaction2 sub-command is too large")) := by
  change Msg.Transact2.body m info = _
  unfold Msg.Transact2.body
  dsimp only
  rw [tryU16_long _ hn]
  rfl

theorem transact2_overruns {C : Type} [SubCmd C] (m : Msg.Transact2 C) (info : Info)
    (hdata : SubCmd.data m.subcmd = [])
    (hn : Message.OffsetOverruns (SubCmd.parameter m.subcmd).length) :
    Msg.body m info = .error .panic := by
  obtain ⟨hlt, hgt⟩ := hn
  have hround : ¬roundUp4n (68 + (SubCmd.parameter m.subcmd).length) < 65536 := by
    unfold roundUp4n
    omega
  change Msg.Transact2.body m info = _
  unfold Msg.Transact2.body
  dsimp only
  rw [hdata, tryU16_fits _ hlt]
  change (expectU16 (roundUp4n (68 + (SubCmd.parameter m.subcmd).length)) >>= _) = _
  rw [expectU16, if_neg hround]
  rfl

theorem findFirst_parameter (c : SubCmd.FindFirst2) :
    (SubCmd.parameter c).length = 12 + (encodeUtf16Le0 c.filename).length := by
  simp [SubCmd.parameter, putU16Le, putU32Le]
  omega

theorem findNext_parameter (c : SubCmd.FindNext2) :
    (SubCmd.parameter c).length = 12 + (encodeUtf16Le0 c.filename).length := by
  simp [SubCmd.parameter, putU16Le, putU32Le]
  omega

/-- The two searches differ in their parameters only. -/
theorem transact2_cases {C : Type} [SubCmd C] (m : Msg.Transact2 C) (info : Info)
    (message : Message) (n : ℕ) (hn : (SubCmd.parameter m.subcmd).length = n)
    (hdata : SubCmd.data m.subcmd = []) (hbody : message.body info = Msg.body m info)
    (handx : message.andx = []) (hwords : message.parameterLength = 30)
    (hbytes : ∀ unicode, message.dataLength unicode = Message.transactLength n)
    (hover : message.Overruns ↔ Message.OffsetOverruns n) : BodyCase message info := by
  by_cases hlong : 65536 ≤ n
  · refine .refused _ (hbody.trans (transact2_long m info (by omega))) (by decide) ?_ ?_
    · rw [hbytes]
      unfold Message.transactLength
      omega
    · intro h
      exact absurd (hover.mp h).1 (Nat.not_lt.mpr hlong)
  · by_cases ho : Message.OffsetOverruns n
    · subst hn
      exact .overrun (hbody.trans (transact2_overruns m info hdata ho)) (hover.mpr ho)
    · have hle : (SubCmd.parameter m.subcmd).length ≤ 65464 := by
        unfold Message.OffsetOverruns at ho
        omega
      have hround : roundUp4n (68 + (SubCmd.parameter m.subcmd).length) < 65536 := by
        unfold roundUp4n
        omega
      have hempty : (SubCmd.data m.subcmd).length = 0 := by rw [hdata, List.length_nil]
      refine .built _ _ (hbody.trans (transact2_built m info (by omega) hround)) ?_ ?_ fun h =>
        ho (hover.mp h)
      · rw [handx, hwords, List.nil_append, requestWords_length]
      · rw [hbytes, requestData_length, hempty, hn, Message.transactLength, Nat.add_zero]

theorem negotiate_length :
    (SMB_SUPPORTED_DIALECTS.flatMap fun d => [0x02] ++ asBytes d ++ [0x00]).length = 12 := by
  decide

theorem body_cases (m : Message) (info : Info) : BodyCase m info := by
  cases m with
  | negotiate m => exact .built [] _ rfl rfl negotiate_length id
  | sessionSetup m => exact sessionSetup_cases m info
  | treeConnect m => exact treeConnect_cases m info
  | treeDisconnect m => exact .built [] [] rfl rfl rfl id
  | openFile m => exact openFile_cases m info
  | close m => exact .built _ [] rfl rfl rfl id
  | read m => exact .built _ [] rfl rfl rfl id
  | findFirst m =>
    exact transact2_cases m info _ _ (findFirst_parameter m.subcmd) rfl rfl rfl rfl
      (fun _ => rfl) Iff.rfl
  | findNext m =>
    exact transact2_cases m info _ _ (findNext_parameter m.subcmd) rfl rfl rfl rfl
      (fun _ => rfl) Iff.rfl

/-! ### The frame -/

theorem Msg.write_error {M : Type} [Msg M] {msg : M} {info : Info} {f : Fault Error}
    (h : Msg.body msg info = .error f) (buffer : Bytes) :
    Msg.write msg info buffer = .error f := by
  rw [Msg.write, h]
  rfl

theorem Msg.write_long {M : Type} [Msg M] {msg : M} {info : Info} {p d : Bytes}
    (h : Msg.body msg info = .ok (p, d)) (hp : (Msg.andx M ++ p).length < 512)
    (hd : 65536 ≤ d.length) (buffer : Bytes) (hbuffer : buffer.length < 2 ^ 32) :
    Msg.write msg info buffer = .error (.error (.CreatePacket "data length too big")) := by
  have h1 : ¬256 ≤ (Msg.andx M ++ p).length / 2 := by omega
  have h2 : ¬remainingMut buffer < (Msg.andx M ++ p).length := by
    unfold remainingMut usizeMax
    omega
  rw [Msg.write, h]
  change (if 256 ≤ (Msg.andx M ++ p).length / 2 then _ else _) = _
  rw [if_neg h1, if_neg h2, tryU16_long _ hd]
  rfl

namespace Message

theorem parameterLength_lt (m : Message) : m.parameterLength < 512 := by
  cases m with
  | sessionSetup m =>
    obtain ⟨_, _, _, _, _, mode⟩ := m
    cases mode <;> simp [parameterLength]
  | _ => simp [parameterLength]

theorem write_error {m : Message} {info : Info} {f : Fault Error} (h : m.body info = .error f)
    (buffer : Bytes) : m.write info buffer = .error f := by
  cases m <;> exact Msg.write_error h buffer

theorem write_long {m : Message} {info : Info} {p d : Bytes} (h : m.body info = .ok (p, d))
    (hp : (m.andx ++ p).length < 512) (hd : 65536 ≤ d.length) (buffer : Bytes)
    (hbuffer : buffer.length < 2 ^ 32) :
    m.write info buffer = .error (.error (.CreatePacket "data length too big")) := by
  cases m <;> exact Msg.write_long h hp hd buffer hbuffer

theorem write_ok {m : Message} {info : Info} {p d : Bytes} (h : m.body info = .ok (p, d))
    (hp : (m.andx ++ p).length < 512) (hd : d.length < 65536) (buffer : Bytes)
    (hbuffer : buffer.length < 2 ^ 32) :
    m.write info buffer = .ok (buffer ++ putU8 (UInt8.ofNat ((m.andx ++ p).length / 2)) ++
      (m.andx ++ p) ++ putU16Le (UInt16.ofNat d.length) ++ d) := by
  cases m <;> exact Msg.write_ok _ info buffer p d h hp hd hbuffer

/-- A message is framed with its length, unless its data block or the offset of a search do not
fit into their fields. -/
theorem write_cases (m : Message) (info : Info) :
    (m.Overruns ∧ m.write info info.write = .error .panic) ∨
    (65536 ≤ m.dataLength (contains info.flags2 Flags2.UNICODE) ∧ ¬m.Overruns ∧
      ∃ what, what ∉ bufferTooSmall ∧
        m.write info info.write = .error (.error (.CreatePacket what))) ∨
    (m.dataLength (contains info.flags2 Flags2.UNICODE) < 65536 ∧ ¬m.Overruns ∧
      ∃ frame, m.write info info.write = .ok frame ∧
        frame.length = m.length (contains info.flags2 Flags2.UNICODE)) := by
  have hheader := info.write_length
  have hbuffer : info.write.length < 2 ^ 32 := by rw [hheader]; decide
  cases body_cases m info with
  | built p d h parameter data fits =>
    have hp : (m.andx ++ p).length < 512 := by rw [parameter]; exact m.parameterLength_lt
    by_cases hd : d.length < 65536
    · refine Or.inr (Or.inr ⟨by omega, fits, _, write_ok h hp hd _ hbuffer, ?_⟩)
      simp only [List.length_append, putU8, putU16Le, leBytes_length, List.length_singleton,
        hheader] at parameter ⊢
      rw [data, parameter]
      rfl
    · have hlong := Nat.not_lt.mp hd
      exact Or.inr (Or.inl ⟨by omega, fits, _, by decide, write_long h hp hlong _ hbuffer⟩)
  | refused what h other long fits =>
    exact Or.inr (Or.inl ⟨long, fits, what, other, write_error h _⟩)
  | overrun h overruns => exact Or.inl ⟨overruns, write_error h _⟩

/-! ### Long names -/

/-- The pattern of a search, or the name behind which it goes on. -/
def searchName : Message → Option String
  | findFirst m => some m.subcmd.filename
  | findNext m => some m.subcmd.filename
  | _ => none

theorem overruns_iff (m : Message) : m.Overruns ↔ ∃ name, m.searchName = some name ∧
    32726 ≤ (utf16Units name).length ∧ (utf16Units name).length ≤ 32760 := by
  have hname : ∀ name : String, OffsetOverruns (12 + (encodeUtf16Le0 name).length) ↔
      32726 ≤ (utf16Units name).length ∧ (utf16Units name).length ≤ 32760 := by
    intro name
    rw [OffsetOverruns, encodeUtf16Le0_length]
    omega
  cases m with
  | findFirst m => simp [Overruns, searchName, hname]
  | findNext m => simp [Overruns, searchName, hname]
  | _ => simp [Overruns, searchName]

/-- The message is framed or refused. -/
def Written (m : Message) (info : Info) : Prop :=
  (∃ frame, m.write info info.write = .ok frame) ∨
    ∃ what, m.write info info.write = .error (.error (.CreatePacket what))

theorem written_of_fits (m : Message) (info : Info) : m.Written info ↔ ¬m.Overruns := by
  rcases m.write_cases info with ⟨hover, hw⟩ | ⟨_, hfits, what, _, hw⟩ | ⟨_, hfits, frame, hw, _⟩
  · refine iff_of_false (fun hwritten => ?_) (not_not.mpr hover)
    rcases hwritten with ⟨frame, h⟩ | ⟨what, h⟩
    · cases hw.symm.trans h
    · cases hw.symm.trans h
  · exact iff_of_true (Or.inr ⟨what, hw⟩) hfits
  · exact iff_of_true (Or.inl ⟨frame, hw⟩) hfits

/-- Building a message panics for a search name just below the limit of the length field: the
length fits, and the offset behind the name does not. -/
theorem message_written_iff (m : Message) (info : Info) :
    m.Written info ↔ ∀ name, m.searchName = some name →
      (utf16Units name).length < 32726 ∨ 32760 < (utf16Units name).length := by
  rw [written_of_fits, overruns_iff, not_exists]
  refine forall_congr' fun name => ?_
  rw [not_and]
  refine imp_congr_right fun _ => ?_
  omega

/-- The shortest search pattern that makes `write` panic. -/
theorem long_search_panics : ¬∀ m info, Written m info := by
  intro h
  have hlen : (utf16Units (String.ofList (List.replicate 32726 'a'))).length = 32726 := by
    have hunit : (encodeUtf16Char 'a').length = 1 := rfl
    rw [utf16Units, String.toList_ofList, List.length_flatMap, List.map_replicate, hunit,
      List.sum_replicate_nat]
  have hwritten := h (findFirst ⟨1, SubCmd.FindFirst2.new
    (String.ofList (List.replicate 32726 'a')) 0⟩) (Info.default .Transact2)
  refine (written_of_fits _ _).mp hwritten ((overruns_iff _).mpr ⟨_, rfl, ?_⟩)
  change 32726 ≤ (utf16Units (String.ofList (List.replicate 32726 'a'))).length ∧
    (utf16Units (String.ofList (List.replicate 32726 'a'))).length ≤ 32760
  omega

end Message

end CifsClientStream.Smb
