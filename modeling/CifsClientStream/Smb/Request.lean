import CifsClientStream.Smb.Framing
import CifsClientStream.Smb.Header
import CifsClientStream.Smb.ShareReply

/-!
# Requests as a server reads them (src/smb/msg.rs, src/smb/trans2/msg.rs)

The other end of `Msg::write`: a reader that goes by what a frame declares, its
counts, lengths and offsets, and by the alignment of UTF-16 texts, and that
knows nothing of how the client puts a message together. From the two blocks
of a message it gets back all its fields.
-/

namespace CifsClientStream.Smb
open Cursor Win Utils

namespace Request

/-- The header of a request. -/
def header : Reader Error Info := do
  let magic ← copyToBytes 4
  if magic ≠ SMB_MAGIC then fail .InvalidHeader
  else do
    let raw ← getU8
    match Cmd.tryFrom raw with
    | none => fail (.InvalidCommand raw)
    | some cmd => do
      let status ← getU32Le
      let flags1 ← getU8
      let flags2 ← getU16Le
      let pidHigh ← getU16Le
      advance 8
      advance 2
      let tid ← getU16Le
      let pidLow ← getU16Le
      let uid ← getU16Le
      let mid ← getU16Le
      pure {
        cmd, flags1, flags2, tid, uid, mid
        status := Status.ofCode status
        pid := (pidHigh.toUInt32 <<< 16) ||| pidLow.toUInt32 }

/-- Parameters, data and the place of the data in the frame. -/
def sections (andx : Bool) (info : Info) (body : Bytes) : Except (Fault Error) ReplyCtx := do
  let ((words, data), _) ← Reply.sections body
  let parameter ← Reply.stripAndX andx words
  .ok { info, parameter, data, dataOffset := SMB_HEADER_LEN + 1 + words.length + 2 }

/-! ### Texts -/

/-- Up to the next even offset of the frame. -/
def align (offset : ℕ) : Reader Error Unit := advance (offset % 2)

def text : Reader Error String := fun b => liftStr (parseUtf16Le0 b)

def asciiText : Reader Error String := fun b => liftStr (parseStr0 b)

/-! ### The message types -/

def dialects : ℕ → Reader Error (List String)
  | 0 => pure []
  | n + 1 => do
    if (← remaining) = 0 then pure []
    else do
      let tag ← getU8
      if tag ≠ 0x02 then fail .InvalidData
      else do
        let dialect ← asciiText
        let rest ← dialects n
        pure (dialect :: rest)

def negotiate (ctx : ReplyCtx) : Except (Fault Error) Msg.Negotiate := do
  let (offered, _) ← dialects ctx.data.length ctx.data
  if offered = SMB_SUPPORTED_DIALECTS then .ok ⟨⟩ else .error (.error .NoDialect)

def sessionSetupHead : Reader Error (UInt16 × UInt16 × UInt16 × UInt32) := do
  let maxBufferSize ← getU16Le
  let maxMpxCount ← getU16Le
  let vcNumber ← getU16Le
  let sessionKey ← getU32Le
  pure (maxBufferSize, maxMpxCount, vcNumber, sessionKey)

/-- Both secrets and the names behind them. -/
def credentials (dataOffset oem unicode : ℕ) : Reader Error Msg.SessionSetupMode := do
  advance oem
  let secret ← copyToBytes unicode
  align (dataOffset + oem + unicode)
  let user ← text
  let domain ← text
  if h : secret.toArray.size = 24 then pure (.classic user domain ⟨secret.toArray, h⟩)
  else fail .InvalidData

/-- Thirteen words with two lengths, or twelve with one. -/
def sessionSetup (ctx : ReplyCtx) : Except (Fault Error) Msg.SessionSetup := do
  let ((maxBufferSize, maxMpxCount, vcNumber, sessionKey), rest) ← sessionSetupHead ctx.parameter
  if rest.length = 12 then do
    let (oem, rest) ← getU16Le rest
    let (unicode, rest) ← getU16Le rest
    let (_, rest) ← advance 4 rest
    let (capabilities, _) ← getU32Le rest
    let (mode, _) ← credentials ctx.dataOffset oem.toNat unicode.toNat ctx.data
    .ok { maxBufferSize, maxMpxCount, vcNumber, sessionKey, capabilities, mode }
  else do
    let (blobLength, rest) ← getU16Le rest
    let (_, rest) ← advance 4 rest
    let (capabilities, _) ← getU32Le rest
    let (blob, _) ← copyToBytes blobLength.toNat ctx.data
    .ok { maxBufferSize, maxMpxCount, vcNumber, sessionKey, capabilities, mode := .extended blob }

/-- A password of one zero byte is none. -/
def password (raw : Bytes) : Except (Fault Error) String :=
  if raw = [0] then .ok ""
  else match fromUtf8 raw with
    | some s => .ok s
    | none => .error (.error .InvalidData)

/-- The name of the service behind the path is not looked at. -/
def treeConnect (ctx : ReplyCtx) : Except (Fault Error) Msg.TreeConnect := do
  let (flags, rest) ← getU16Le ctx.parameter
  let (passwordLength, _) ← getU16Le rest
  let (raw, data) ← copyToBytes passwordLength.toNat ctx.data
  let password ← password raw
  let (_, data) ← align (ctx.dataOffset + passwordLength.toNat) data
  let (path, _) ← text data
  .ok { path, password, flags }

def openWords (tid : UInt16) : Reader Error (String → Msg.Open) := do
  let createFlags ← getU32Le
  let directory ← getU32Le
  let access ← getU32Le
  let allocationSize ← getU64Le
  let attributes ← getU32Le
  let shareAccess ← getU32Le
  let disposition ← getU32Le
  let options ← getU32Le
  let impersonation ← getU32Le
  let security ← getU8
  pure fun filename => {
    tid, filename, createFlags, directory, access, allocationSize, attributes, shareAccess
    disposition, options, impersonation, security }

def openFile (ctx : ReplyCtx) : Except (Fault Error) Msg.Open := do
  let (_, rest) ← advance 1 ctx.parameter
  let (nameLength, rest) ← getU16Le rest
  let (open', _) ← openWords ctx.info.tid rest
  let (_, data) ← align ctx.dataOffset ctx.data
  let (raw, _) ← copyToBytes nameLength.toNat data
  let (filename, _) ← text raw
  .ok (open' filename)

def close (ctx : ReplyCtx) : Except (Fault Error) Msg.Close := do
  let (fid, rest) ← getU16Le ctx.parameter
  let _ ← advance 4 rest
  .ok { tid := ctx.info.tid, fid }

/-- Offset and count come in two halves. -/
def readWords (tid : UInt16) : Reader Error Msg.Read := do
  let fid ← getU16Le
  let offsetLow ← getU32Le
  let countLow ← getU16Le
  advance 2
  let countHigh ← getU16Le
  advance 2
  advance 2
  let offsetHigh ← getU32Le
  pure {
    tid, fid
    offset := UInt64.ofNat (offsetHigh.toNat * 2 ^ 32 + offsetLow.toNat)
    count := UInt32.ofNat (countHigh.toNat * 2 ^ 16 + countLow.toNat) }

def read (ctx : ReplyCtx) : Except (Fault Error) Msg.Read := do
  let (msg, _) ← readWords ctx.info.tid ctx.parameter
  .ok msg

/-! ### Transactions -/

/-- The sub-command, and count and offset of the parameters. -/
def transactWords : Reader Error (UInt16 × ℕ × ℕ) := do
  advance 18
  let count ← getU16Le
  let offset ← getU16Le
  advance 6
  let setup ← getU16Le
  pure (setup, count.toNat, offset.toNat)

def findFirst : Reader Error SubCmd.FindFirst2 := do
  let search ← getU16Le
  let count ← getU16Le
  let flags ← getU16Le
  advance 2
  advance 4
  let filename ← text
  pure { search, count, flags, filename }

def findNext : Reader Error SubCmd.FindNext2 := do
  let sid ← getU16Le
  let count ← getU16Le
  advance 2
  advance 4
  let flags ← getU16Le
  let filename ← text
  pure { sid, count, flags, filename }

end Request

/-- A request and its header. -/
def Message.parse (frame : Bytes) : Except (Fault Error) (Info × Message) := do
  let (info, body) ← Request.header frame
  match info.cmd with
  | .Negotiate => do
    let ctx ← Request.sections false info body
    let msg ← Request.negotiate ctx
    .ok (info, .negotiate msg)
  | .SessionSetup => do
    let ctx ← Request.sections true info body
    let msg ← Request.sessionSetup ctx
    .ok (info, .sessionSetup msg)
  | .TreeConnect => do
    let ctx ← Request.sections true info body
    let msg ← Request.treeConnect ctx
    .ok (info, .treeConnect msg)
  | .TreeDisconnect => do
    let _ ← Request.sections false info body
    .ok (info, .treeDisconnect ⟨info.tid⟩)
  | .Create => do
    let ctx ← Request.sections true info body
    let msg ← Request.openFile ctx
    .ok (info, .openFile msg)
  | .Close => do
    let ctx ← Request.sections false info body
    let msg ← Request.close ctx
    .ok (info, .close msg)
  | .Read => do
    let ctx ← Request.sections true info body
    let msg ← Request.read ctx
    .ok (info, .read msg)
  | .Transact2 => do
    let ctx ← Request.sections false info body
    let ((setup, count, offset), _) ← Request.transactWords ctx.parameter
    let parameter ← slice ctx.data (offset - ctx.dataOffset) (offset - ctx.dataOffset + count)
    if setup = 0x0001 then do
      let (subcmd, _) ← Request.findFirst parameter
      .ok (info, .findFirst ⟨info.tid, subcmd⟩)
    else if setup = 0x0002 then do
      let (subcmd, _) ← Request.findNext parameter
      .ok (info, .findNext ⟨info.tid, subcmd⟩)
    else .error (.error (.Unsupported "sub-command"))
  | .NoCommand => .error (.error (.InvalidCommand info.cmd.code))

namespace Request

theorem ok_bind {α β : Type} (a : α) (f : α → Except (Fault Error) β) : (.ok a >>= f) = f a := rfl

/-! ### The frame -/

theorem header_write (info : Info) (hstatus : info.status.Canonical) (body : Bytes) :
    header (info.write ++ body) = .ok (info, body) := by
  simp only [header, Info.write, List.append_assoc]
  rw [copyToBytes_bind SMB_MAGIC _ 4 _ rfl, if_neg (by simp), getU8_bind, Cmd.tryFrom_code]
  dsimp only
  rw [getU32Le_bind, getU8_bind, getU16Le_bind, getU16Le_bind,
    advance_bind (putBytes 0 8) _ 8 _ rfl, advance_bind (putBytes 0 2) _ 2 _ rfl,
    getU16Le_bind, getU16Le_bind, getU16Le_bind, getU16Le_bind, Status.ofCode_code _ hstatus,
    Info.pid_halves]
  rfl

theorem sections_framed (andx : Bool) (info : Info) (p d : Bytes)
    (heven : ((if andx then AndX.write ⟨.NoCommand, 0⟩ else []) ++ p).length % 2 = 0)
    (hwords : ((if andx then AndX.write ⟨.NoCommand, 0⟩ else []) ++ p).length < 512)
    (hdata : d.length < 65536) :
    sections andx info (framed ((if andx then AndX.write ⟨.NoCommand, 0⟩ else []) ++ p) d []) =
      .ok ⟨info, p, d, SMB_HEADER_LEN + 1 +
        ((if andx then AndX.write ⟨.NoCommand, 0⟩ else []) ++ p).length + 2⟩ := by
  rw [sections, Smb.sections_framed _ d [] heven hwords hdata]
  change (Reply.stripAndX andx _ >>= _) = _
  rw [stripAndX_write]
  rfl

/-! ### Texts -/

theorem text_encode {s : String} (h : '\x00' ∉ s.toList) (rest : Bytes) :
    text (encodeUtf16Le0 s ++ rest) = .ok (s, rest) := by
  rw [text, parseUtf16Le0_encode h]
  rfl

theorem text_bind {α : Type} {s : String} (h : '\x00' ∉ s.toList) (rest : Bytes)
    (f : String → Reader Error α) : (text >>= f) (encodeUtf16Le0 s ++ rest) = f s rest := by
  rw [bind_apply, text_encode h]

theorem align_odd {α : Type} {offset : ℕ} (h : offset % 2 = 1) (x : UInt8) (rest : Bytes)
    (f : Unit → Reader Error α) : (align offset >>= f) (x :: rest) = f () rest := by
  rw [align, h]
  exact advance_bind [x] rest 1 f rfl

theorem align_even {α : Type} {offset : ℕ} (h : offset % 2 = 0) (rest : Bytes)
    (f : Unit → Reader Error α) : (align offset >>= f) rest = f () rest := by
  rw [align, h]
  exact advance_bind [] rest 0 f rfl

/-! ### The message types -/

theorem dialects_offered (ds : List String) (h : ∀ d ∈ ds, '\x00' ∉ d.toList) (n : ℕ)
    (hn : ds.length ≤ n) :
    dialects n (ds.flatMap fun d => [0x02] ++ asBytes d ++ [0x00]) = .ok (ds, []) := by
  induction ds generalizing n with
  | nil =>
    cases n with
    | zero => rfl
    | succ n => rfl
  | cons d ds ih =>
    rw [List.length_cons] at hn
    obtain ⟨n, rfl⟩ : ∃ k, n = k + 1 := ⟨n - 1, by omega⟩
    have hsplit : ((d :: ds).flatMap fun d => [0x02] ++ asBytes d ++ [0x00]) =
        putU8 0x02 ++ (asBytes d ++ 0 :: ds.flatMap fun d => [0x02] ++ asBytes d ++ [0x00]) := by
      simp [putU8]
    have hascii : asciiText (asBytes d ++ 0 :: ds.flatMap fun d => [0x02] ++ asBytes d ++ [0x00]) =
        .ok (d, ds.flatMap fun d => [0x02] ++ asBytes d ++ [0x00]) := by
      rw [asciiText, TreeConnectReply.parseStr0_asBytes (h d List.mem_cons_self)]
      rfl
    rw [hsplit, dialects, remaining_bind, if_neg (by simp [putU8]), getU8_bind, if_neg (by simp),
      bind_apply, hascii]
    dsimp only
    rw [bind_apply, ih (fun d hd => h d (List.mem_cons_of_mem _ hd)) n (by omega)]
    rfl

theorem negotiate_read (ctx : ReplyCtx) {m : Msg.Negotiate} {info : Info}
    (h : Msg.body m info = .ok (ctx.parameter, ctx.data)) : negotiate ctx = .ok m := by
  obtain ⟨-, hdata⟩ := Prod.mk.inj (Except.ok.inj h)
  have hnul : ∀ d ∈ SMB_SUPPORTED_DIALECTS, '\x00' ∉ d.toList := by decide
  have hlen : SMB_SUPPORTED_DIALECTS.length ≤ ctx.data.length := by
    rw [← hdata]
    simp [SMB_SUPPORTED_DIALECTS]
  rw [negotiate, ← hdata] at *
  rw [dialects_offered _ hnul _ hlen]
  rfl

theorem close_read (ctx : ReplyCtx) {m : Msg.Close} {info : Info} (htid : ctx.info.tid = m.tid)
    (h : Msg.body m info = .ok (ctx.parameter, ctx.data)) : close ctx = .ok m := by
  obtain ⟨hparameter, -⟩ := Prod.mk.inj (Except.ok.inj h)
  rw [close, ← hparameter, getU16Le_put, htid]
  rfl

theorem halves64 (x : UInt64) :
    UInt64.ofNat ((x >>> 32).toUInt32.toNat * 2 ^ 32 + (x &&& 0xffffffff).toUInt32.toNat) = x := by
  apply UInt64.toNat_inj.mp
  have hx := x.toNat_lt
  have hlow : (x &&& 0xffffffff).toUInt32.toNat = x.toNat % 2 ^ 32 := by
    have hand := Nat.and_two_pow_sub_one_eq_mod (x.toNat % 2 ^ 32) 32
    simpa using hand
  have hhigh : (x >>> 32).toUInt32.toNat = x.toNat / 2 ^ 32 := by
    simp [Nat.shiftRight_eq_div_pow]
    omega
  rw [hlow, hhigh, UInt64.toNat_ofNat']
  omega

theorem halves32 (x : UInt32) :
    UInt32.ofNat (((x >>> 16) &&& 0xffff).toUInt16.toNat * 2 ^ 16 +
      (x &&& 0xffff).toUInt16.toNat) = x := by
  apply UInt32.toNat_inj.mp
  have hx := x.toNat_lt
  have hhigh : ((x >>> 16) &&& 0xffff).toUInt16.toNat = x.toNat / 2 ^ 16 := by
    rw [Info.low_toNat]
    simp [Nat.shiftRight_eq_div_pow]
    omega
  rw [hhigh, Info.low_toNat, UInt32.toNat_ofNat']
  omega

theorem read_read (ctx : ReplyCtx) {m : Msg.Read} {info : Info} (htid : ctx.info.tid = m.tid)
    (h : Msg.body m info = .ok (ctx.parameter, ctx.data)) : read ctx = .ok m := by
  obtain ⟨hparameter, -⟩ := Prod.mk.inj (Except.ok.inj h)
  have hwords : readWords ctx.info.tid ctx.parameter = .ok (m, []) := by
    rw [← hparameter, readWords]
    simp only [List.append_assoc]
    rw [getU16Le_bind, getU32Le_bind, getU16Le_bind, advance_bind (putU16Le _) _ 2 _ rfl,
      getU16Le_bind, advance_bind (putU16Le _) _ 2 _ rfl, advance_bind (putU16Le _) _ 2 _ rfl]
    have hlast := getU32Le_bind (ε := Error) (β := Msg.Read) (m.offset >>> 32).toUInt32 []
    simp only [List.append_nil] at hlast
    rw [hlast, halves64, halves32, htid]
    rfl
  rw [read, hwords]
  rfl

theorem openFile_read (ctx : ReplyCtx) {m : Msg.Open} {info : Info} (htid : ctx.info.tid = m.tid)
    (hname : '\x00' ∉ m.filename.toList) (hodd : ctx.dataOffset % 2 = 1)
    (h : Msg.body m info = .ok (ctx.parameter, ctx.data)) : openFile ctx = .ok m := by
  change Msg.Open.body m info = _ at h
  unfold Msg.Open.body at h
  obtain ⟨nameLength, hlength, h⟩ := except_bind_ok.mp h
  obtain ⟨hfits, rfl⟩ := tryU16_ok hlength
  obtain ⟨hparameter, hdata⟩ := Prod.mk.inj (Except.ok.inj h)
  have hwords : openWords m.tid (putU32Le m.createFlags ++ (putU32Le m.directory ++
      (putU32Le m.access ++ (putU64Le m.allocationSize ++ (putU32Le m.attributes ++
      (putU32Le m.shareAccess ++ (putU32Le m.disposition ++ (putU32Le m.options ++
      (putU32Le m.impersonation ++ putU8 m.security))))))))) =
      .ok (fun filename => { m with filename }, []) := by
    have hlast := getU8_bind (ε := Error) (β := String → Msg.Open) m.security []
    simp only [List.append_nil] at hlast
    rw [openWords, getU32Le_bind, getU32Le_bind, getU32Le_bind, getU64Le_bind, getU32Le_bind,
      getU32Le_bind, getU32Le_bind, getU32Le_bind, getU32Le_bind, hlast]
    rfl
  have halign : align ctx.dataOffset ctx.data = .ok ((), encodeUtf16Le0 m.filename) := by
    have hskip := align_odd (α := Unit) hodd 0 (encodeUtf16Le0 m.filename) pure
    rw [bind_pure] at hskip
    rw [← hdata]
    exact hskip
  have hcopy := copyToBytes_append (ε := Error) (encodeUtf16Le0 m.filename) []
    (UInt16.ofNat (encodeUtf16Le0 m.filename).length).toNat (ofNat16_toNat hfits).symm
  have htext := text_encode hname []
  rw [List.append_nil] at hcopy htext
  rw [openFile, ← hparameter]
  simp only [List.append_assoc]
  rw [advance_append (putU8 0) _ 1 rfl]
  simp only [ok_bind, getU16Le_put, halign, hcopy, htext, htid, hwords]

/-! ### Session setup -/

theorem credentials_read (user domain : String) (secret : Vector UInt8 24) (dataOffset : ℕ)
    (huser : '\x00' ∉ user.toList) (hdomain : '\x00' ∉ domain.toList)
    (hodd : dataOffset % 2 = 1) (names : Bytes) :
    credentials dataOffset 24 24
        (Msg.SessionSetup.modeData (.classic user domain secret) ++ names) =
      .ok (.classic user domain secret, names) := by
  have hsecret : secret.toList.length = 24 := by simp
  have hpad : (if (secret.toList ++ secret.toList).length % 2 = 0
      then secret.toList ++ secret.toList ++ [0] else secret.toList ++ secret.toList) =
      secret.toList ++ secret.toList ++ [0] := by
    rw [if_pos (by simp)]
  rw [credentials, Msg.SessionSetup.modeData, hpad]
  simp only [List.append_assoc]
  rw [advance_bind secret.toList _ 24 _ hsecret, copyToBytes_bind secret.toList _ 24 _ hsecret,
    List.singleton_append, align_odd (by omega), text_bind huser, text_bind hdomain,
    dif_pos (by simp)]
  rfl

theorem sessionSetup_read (ctx : ReplyCtx) {m : Msg.SessionSetup} {info : Info}
    (hnames : ∀ user domain secret, m.mode = .classic user domain secret →
      '\x00' ∉ user.toList ∧ '\x00' ∉ domain.toList)
    (hodd : ctx.dataOffset % 2 = 1) (h : Msg.body m info = .ok (ctx.parameter, ctx.data)) :
    sessionSetup ctx = .ok m := by
  change Msg.SessionSetup.body m info = _ at h
  unfold Msg.SessionSetup.body at h
  obtain ⟨lengths, hlengths, h⟩ := except_bind_ok.mp h
  obtain ⟨hparameter, hdata⟩ := Prod.mk.inj (Except.ok.inj h)
  have hhead (rest : Bytes) : sessionSetupHead (putU16Le m.maxBufferSize ++
      (putU16Le m.maxMpxCount ++ (putU16Le m.vcNumber ++ (putU32Le m.sessionKey ++ rest)))) =
      .ok ((m.maxBufferSize, m.maxMpxCount, m.vcNumber, m.sessionKey), rest) := by
    rw [sessionSetupHead, getU16Le_bind, getU16Le_bind, getU16Le_bind, getU32Le_bind]
    rfl
  have hcapabilities := getU32Le_put (ε := Error) m.capabilities []
  rw [List.append_nil] at hcapabilities
  rw [sessionSetup, ← hparameter, ← hdata]
  simp only [List.append_assoc]
  rw [hhead]
  obtain ⟨maxBufferSize, maxMpxCount, vcNumber, sessionKey, capabilities, mode⟩ := m
  cases mode with
  | classic user domain secret =>
    obtain ⟨huser, hdomain⟩ := hnames user domain secret rfl
    obtain ⟨secretLen, hlen, hlengths⟩ := except_bind_ok.mp hlengths
    obtain ⟨-, rfl⟩ := tryU16_ok hlen
    have hsize : (UInt16.ofNat secret.toList.length).toNat = 24 := by simp
    cases hlengths
    simp only [ok_bind]
    rw [if_pos (by simp [putU16Le, putU32Le])]
    simp only [List.append_assoc, getU16Le_put, ok_bind]
    rw [advance_append (putU32Le 0) _ 4 rfl]
    simp only [ok_bind, hcapabilities, hsize]
    rw [credentials_read user domain secret ctx.dataOffset huser hdomain hodd]
    rfl
  | extended blob =>
    obtain ⟨blobLen, hlen, hlengths⟩ := except_bind_ok.mp hlengths
    obtain ⟨hfits, rfl⟩ := tryU16_ok hlen
    cases hlengths
    have hblob : ∃ names, Msg.SessionSetup.modeData (.extended blob) ++
        (if contains info.flags2 Flags2.UNICODE = true then putU16Le 0 ++ putU16Le 0
          else putBytes 0 2) = blob ++ names := by
      rw [Msg.SessionSetup.modeData]
      split
      · exact ⟨_, List.append_assoc ..⟩
      · exact ⟨_, rfl⟩
    obtain ⟨names, hblob⟩ := hblob
    simp only [ok_bind]
    rw [if_neg (by simp [putU16Le, putU32Le]), hblob]
    simp only [getU16Le_put, ok_bind]
    rw [advance_append (putU32Le 0) _ 4 rfl]
    simp only [ok_bind, hcapabilities]
    rw [copyToBytes_append blob names _ (ofNat16_toNat hfits).symm]
    rfl

/-! ### Tree connect -/

theorem asBytes_eq_zero {s : String} : asBytes s = [0] ↔ s = "\x00" := by
  have hzero : asBytes "\x00" = [0] := by rw [asBytes_eq]; rfl
  constructor
  · intro h
    have hread := fromUtf8_asBytes s
    rw [h, ← hzero, fromUtf8_asBytes] at hread
    exact (Option.some.inj hread).symm
  · rintro rfl
    exact hzero

theorem password_read (s : String) (h : s ≠ "\x00") :
    password (if s.isEmpty then [0x00] else asBytes s) = .ok s := by
  by_cases hempty : s.isEmpty
  · rw [if_pos hempty, password, if_pos rfl, String.isEmpty_iff.mp hempty]
  · have hzero : asBytes s ≠ [0] := fun hraw => h (asBytes_eq_zero.mp hraw)
    rw [if_neg hempty, password, if_neg hzero, fromUtf8_asBytes]

theorem treeConnect_read (ctx : ReplyCtx) {m : Msg.TreeConnect} {info : Info}
    (hunicode : contains info.flags2 Flags2.UNICODE) (hpath : '\x00' ∉ m.path.toList)
    (hpassword : m.password ≠ "\x00") (hodd : ctx.dataOffset % 2 = 1)
    (h : Msg.body m info = .ok (ctx.parameter, ctx.data)) : treeConnect ctx = .ok m := by
  change Msg.TreeConnect.body m info = _ at h
  unfold Msg.TreeConnect.body at h
  obtain ⟨passwordLength, hlength, h⟩ := except_bind_ok.mp h
  obtain ⟨hfits, rfl⟩ := tryU16_ok hlength
  obtain ⟨hparameter, hdata⟩ := Prod.mk.inj (Except.ok.inj h)
  rw [if_pos hunicode] at hdata
  have hread := password_read m.password hpassword
  generalize hraw : (if m.password.isEmpty then [0x00] else asBytes m.password) = raw at *
  have hcount := ofNat16_toNat hfits
  have hlast := getU16Le_put (ε := Error) (UInt16.ofNat raw.length) []
  rw [List.append_nil] at hlast
  -- the padding is there when the path would start at an odd offset
  have halign (rest : Bytes) : align (ctx.dataOffset + raw.length)
      ((if raw.length % 2 = 0 then [0] else []) ++ rest) = .ok ((), rest) := by
    by_cases heven : raw.length % 2 = 0
    · have hpadded : (ctx.dataOffset + raw.length) % 2 = 1 := by omega
      have hskip := align_odd hpadded 0 rest (pure : Unit → Reader Error Unit)
      rw [bind_pure] at hskip
      rw [if_pos heven]
      exact hskip
    · have haligned : (ctx.dataOffset + raw.length) % 2 = 0 := by omega
      have hskip := align_even haligned rest (pure : Unit → Reader Error Unit)
      rw [bind_pure] at hskip
      rw [if_neg heven]
      exact hskip
  have htext : encodeUtf16Le m.path ++ (putU16Le 0 ++ (putBytes 0x3f 5 ++ [0])) =
      encodeUtf16Le0 m.path ++ (putBytes 0x3f 5 ++ [0]) := by
    rw [encodeUtf16Le0, List.append_assoc]
    rfl
  rw [treeConnect, ← hparameter, ← hdata]
  simp only [List.append_assoc, getU16Le_put, ok_bind, hlast, hcount]
  rw [copyToBytes_append raw _ _ rfl]
  simp only [ok_bind, hread, halign]
  rw [htext, text_encode hpath]
  rfl

/-! ### Transactions -/

theorem findFirst_read (c : SubCmd.FindFirst2) (h : '\x00' ∉ c.filename.toList) :
    findFirst (SubCmd.parameter c) = .ok (c, []) := by
  have htext := text_bind (α := SubCmd.FindFirst2) h []
  simp only [List.append_nil] at htext
  simp only [findFirst, SubCmd.parameter, List.append_assoc]
  rw [getU16Le_bind, getU16Le_bind, getU16Le_bind, advance_bind (putU16Le _) _ 2 _ rfl,
    advance_bind (putU32Le 0) _ 4 _ rfl, htext]
  rfl

theorem findNext_read (c : SubCmd.FindNext2) (h : '\x00' ∉ c.filename.toList) :
    findNext (SubCmd.parameter c) = .ok (c, []) := by
  have htext := text_bind (α := SubCmd.FindNext2) h []
  simp only [List.append_nil] at htext
  simp only [findNext, SubCmd.parameter, List.append_assoc]
  rw [getU16Le_bind, getU16Le_bind, advance_bind (putU16Le _) _ 2 _ rfl,
    advance_bind (putU32Le 0) _ 4 _ rfl, getU16Le_bind, htext]
  rfl

theorem transactWords_read (C : Type) [SubCmd C] (n k : ℕ) (hn : n < 65536) :
    transactWords (requestWords C n k) = .ok ((SubCmd.SETUP C, n, 68), []) := by
  have hlast := getU16Le_bind (ε := Error) (β := UInt16 × ℕ × ℕ) (SubCmd.SETUP C) []
  simp only [List.append_nil] at hlast
  have hsplit : requestWords C n k =
      (putU16Le (UInt16.ofNat n) ++ putU16Le (UInt16.ofNat k) ++
        putU16Le (SubCmd.MAX_PARAM_COUNT C) ++ putU16Le (SubCmd.MAX_DATA_COUNT C) ++
        putU8 (SubCmd.MAX_SETUP_COUNT C) ++ putU8 0 ++ putU16Le 0 ++ putU32Le 0 ++ putU16Le 0) ++
      (putU16Le (UInt16.ofNat n) ++ (putU16Le (UInt16.ofNat 68) ++
        ((putU16Le (UInt16.ofNat k) ++ putU16Le (UInt16.ofNat (roundUp4n (68 + n))) ++ putU8 1 ++
          putU8 0) ++ putU16Le (SubCmd.SETUP C)))) := by
    simp only [requestWords, List.append_assoc]
  rw [hsplit, transactWords, advance_bind _ _ 18 _ (by simp [putU8, putU16Le, putU32Le]),
    getU16Le_bind, getU16Le_bind, advance_bind _ _ 6 _ (by simp [putU8, putU16Le]), hlast]
  simp only [pure_apply, ofNat16_toNat hn]
  rfl

/-- The parameters of a sub-command are cut out of the data where the words have them. -/
theorem transact2_read {C : Type} [SubCmd C] (m : Msg.Transact2 C) {info : Info} {p d : Bytes}
    (h : Msg.body m info = .ok (p, d)) :
    transactWords p = .ok ((SubCmd.SETUP C, (SubCmd.parameter m.subcmd).length, 68), []) ∧
      (slice d (68 - 65) (68 - 65 + (SubCmd.parameter m.subcmd).length) :
        Except (Fault Error) Bytes) = .ok (SubCmd.parameter m.subcmd) := by
  obtain ⟨-, hround, rfl, rfl⟩ := transact2_ok h
  have hlt : (SubCmd.parameter m.subcmd).length < 65536 := by
    unfold roundUp4n at hround
    omega
  refine ⟨transactWords_read C _ _ hlt, ?_⟩
  have hinside : 3 + (SubCmd.parameter m.subcmd).length ≤
      (requestData (SubCmd.parameter m.subcmd) (SubCmd.data m.subcmd)).length := by
    rw [requestData_length]
    omega
  have hfront : ([0, 0, 0] ++ SubCmd.parameter m.subcmd : Bytes).length =
      3 + (SubCmd.parameter m.subcmd).length := by
    rw [List.length_append]
    rfl
  rw [slice, if_pos ⟨by omega, hinside⟩, requestData, ← List.append_assoc, List.take_left' hfront]
  rfl

end Request

end CifsClientStream.Smb
