import CifsClientStream.Smb.Request

/-!
# Every request is read back (src/smb/msg.rs, src/smb/trans2/msg.rs)

Whole frames of all message types. A server gets back the message and its
header exactly when no text in it holds the character that ends it
(`requests_read_back`), so such frames are never ambiguous.
-/

namespace CifsClientStream.Smb
open Cursor Win Utils

namespace Message

def cmd (m : Message) : Cmd := m.fold fun {M} _ _ => Msg.CMD M

def fixHeader (m : Message) (info : Info) : Info := m.fold fun msg => Msg.fixHeader msg info

/-- The strings that go out up to a zero. -/
def texts : Message → List String
  | sessionSetup m => match m.mode with
    | .classic user domain _ => [user, domain]
    | .extended _ => []
  | treeConnect m => [m.path]
  | openFile m => [m.filename]
  | findFirst m => [m.subcmd.filename]
  | findNext m => [m.subcmd.filename]
  | _ => []

/-- The strings that go out with their length, where one zero byte stands for none. -/
def passwords : Message → List String
  | treeConnect m => [m.password]
  | _ => []

/-- No text of the message holds the character that ends it, and a password is not what stands
for none. -/
structure Plain (m : Message) : Prop where
  texts : ∀ s ∈ m.texts, '\x00' ∉ s.toList
  passwords : ∀ s ∈ m.passwords, s ≠ "\x00"

/-- A header of the message, with UTF-16 announced. -/
structure Heads (m : Message) (info : Info) : Prop where
  cmd : info.cmd = m.cmd
  fixed : m.fixHeader info = info
  status : info.status.Canonical
  unicode : contains info.flags2 Flags2.UNICODE

variable {m : Message} {info : Info} {frame : Bytes}

/-- What a server has of a message before it looks into the blocks. -/
structure Sectioned {M : Type} [Msg M] (msg : M) (info : Info) (ctx : ReplyCtx) : Prop where
  header : ctx.info = info
  body : Msg.body msg info = .ok (ctx.parameter, ctx.data)
  offset : ctx.dataOffset = SMB_HEADER_LEN + 1 + (Msg.andx M ++ ctx.parameter).length + 2
  odd : ctx.dataOffset % 2 = 1

theorem write_sections {M : Type} [Msg M] {msg : M}
    (heven : ∀ p d, Msg.body msg info = .ok (p, d) → (Msg.andx M ++ p).length % 2 = 0)
    (h : Msg.write msg info info.write = .ok frame) :
    ∃ ctx body, Sectioned msg info ctx ∧ frame = info.write ++ body ∧
      Request.sections (Msg.ANDX M) info body = .ok ctx := by
  cases hbody : Msg.body msg info with
  | error f => cases (Msg.write_error hbody info.write).symm.trans h
  | ok blocks =>
    obtain ⟨p, d⟩ := blocks
    by_cases hlong : TooLong M p d
    · obtain ⟨e, he⟩ := Msg.write_refused hbody hlong
      cases he.symm.trans h
    · cases (Msg.write_accepted hbody hlong).symm.trans h
      unfold TooLong at hlong
      have hwords : (Msg.andx M ++ p).length < 512 := by omega
      have hwhole := heven p d hbody
      have hodd : (SMB_HEADER_LEN + 1 + (Msg.andx M ++ p).length + 2) % 2 = 1 := by
        unfold SMB_HEADER_LEN
        omega
      exact ⟨_, _, ⟨rfl, hbody, rfl, hodd⟩, rfl,
        Request.sections_framed (Msg.ANDX M) info p d hwhole hwords (by omega)⟩

/-- A transaction is read up to its sub-command. -/
theorem parse_transact {C : Type} [SubCmd C] {m : Msg.Transact2 C}
    (hcmd : info.cmd = .Transact2) (hstatus : info.status.Canonical)
    (h : Msg.write m info info.write = .ok frame) :
    Message.parse frame =
      if SubCmd.SETUP C = 0x0001 then do
        let (subcmd, _) ← Request.findFirst (SubCmd.parameter m.subcmd)
        .ok (info, .findFirst ⟨info.tid, subcmd⟩)
      else if SubCmd.SETUP C = 0x0002 then do
        let (subcmd, _) ← Request.findNext (SubCmd.parameter m.subcmd)
        .ok (info, .findNext ⟨info.tid, subcmd⟩)
      else .error (.error (.Unsupported "sub-command")) := by
  obtain ⟨ctx, body, hctx, rfl, hsections⟩ := write_sections (transact2_even m info) h
  obtain ⟨hwords, hslice⟩ := Request.transact2_read m hctx.body
  obtain ⟨-, -, hparameter, -⟩ := transact2_ok hctx.body
  have hoffset : ctx.dataOffset = 65 := by
    rw [hctx.offset, hparameter, List.length_append, requestWords_length]
    rfl
  have handx : Msg.ANDX (Msg.Transact2 C) = false := rfl
  rw [handx] at hsections
  simp only [Message.parse, Request.header_write info hstatus, Request.ok_bind, hcmd, hsections,
    hwords, hoffset, hslice]

/-- What is written is read: a server gets back the header and the whole message. -/
theorem parse_write (hplain : m.Plain) (hheads : m.Heads info)
    (h : m.write info info.write = .ok frame) : Message.parse frame = .ok (info, m) := by
  have heven := body_even m info
  have hheader := Request.header_write info hheads.status
  obtain ⟨hcmd, hfixed, hstatus, hunicode⟩ := hheads
  cases m with
  | negotiate m =>
    obtain ⟨ctx, body, hctx, rfl, hsections⟩ := write_sections heven h
    have hread := Request.negotiate_read ctx hctx.body
    have hcmd : info.cmd = .Negotiate := hcmd
    have handx : Msg.ANDX Msg.Negotiate = false := rfl
    rw [handx] at hsections
    simp only [Message.parse, hheader, Request.ok_bind, hcmd, hsections, hread]
  | sessionSetup m =>
    obtain ⟨ctx, body, hctx, rfl, hsections⟩ := write_sections heven h
    have hnames : ∀ user domain secret, m.mode = .classic user domain secret →
        '\x00' ∉ user.toList ∧ '\x00' ∉ domain.toList := by
      intro user domain secret hmode
      have htexts : (sessionSetup m).texts = [user, domain] := by simp only [texts, hmode]
      have hnul := hplain.texts
      rw [htexts] at hnul
      exact ⟨hnul user (by simp), hnul domain (by simp)⟩
    have hread := Request.sessionSetup_read ctx hnames hctx.odd hctx.body
    have hcmd : info.cmd = .SessionSetup := hcmd
    have handx : Msg.ANDX Msg.SessionSetup = true := rfl
    rw [handx] at hsections
    simp only [Message.parse, hheader, Request.ok_bind, hcmd, hsections, hread]
  | treeConnect m =>
    obtain ⟨ctx, body, hctx, rfl, hsections⟩ := write_sections heven h
    have hread := Request.treeConnect_read ctx hunicode (hplain.texts m.path (by simp [texts]))
      (hplain.passwords m.password (by simp [passwords])) hctx.odd hctx.body
    have hcmd : info.cmd = .TreeConnect := hcmd
    have handx : Msg.ANDX Msg.TreeConnect = true := rfl
    rw [handx] at hsections
    simp only [Message.parse, hheader, Request.ok_bind, hcmd, hsections, hread]
  | treeDisconnect m =>
    obtain ⟨ctx, body, hctx, rfl, hsections⟩ := write_sections heven h
    have hcmd : info.cmd = .TreeDisconnect := hcmd
    have htid : m.tid = info.tid := congrArg Info.tid hfixed
    have handx : Msg.ANDX Msg.TreeDisconnect = false := rfl
    rw [handx] at hsections
    simp only [Message.parse, hheader, Request.ok_bind, hcmd, hsections, ← htid]
  | openFile m =>
    obtain ⟨ctx, body, hctx, rfl, hsections⟩ := write_sections heven h
    have htid : ctx.info.tid = m.tid := by
      rw [hctx.header]
      exact (congrArg Info.tid hfixed).symm
    have hread := Request.openFile_read ctx htid (hplain.texts m.filename (by simp [texts])) hctx.odd
      hctx.body
    have hcmd : info.cmd = .Create := hcmd
    have handx : Msg.ANDX Msg.Open = true := rfl
    rw [handx] at hsections
    simp only [Message.parse, hheader, Request.ok_bind, hcmd, hsections, hread]
  | close m =>
    obtain ⟨ctx, body, hctx, rfl, hsections⟩ := write_sections heven h
    have htid : ctx.info.tid = m.tid := by
      rw [hctx.header]
      exact (congrArg Info.tid hfixed).symm
    have hread := Request.close_read ctx htid hctx.body
    have hcmd : info.cmd = .Close := hcmd
    have handx : Msg.ANDX Msg.Close = false := rfl
    rw [handx] at hsections
    simp only [Message.parse, hheader, Request.ok_bind, hcmd, hsections, hread]
  | read m =>
    obtain ⟨ctx, body, hctx, rfl, hsections⟩ := write_sections heven h
    have htid : ctx.info.tid = m.tid := by
      rw [hctx.header]
      exact (congrArg Info.tid hfixed).symm
    have hread := Request.read_read ctx htid hctx.body
    have hcmd : info.cmd = .Read := hcmd
    have handx : Msg.ANDX Msg.Read = true := rfl
    rw [handx] at hsections
    simp only [Message.parse, hheader, Request.ok_bind, hcmd, hsections, hread]
  | findFirst m =>
    have htid : m.tid = info.tid := congrArg Info.tid hfixed
    have hread := Request.findFirst_read m.subcmd (hplain.texts m.subcmd.filename (by simp [texts]))
    have hsetup : SubCmd.SETUP SubCmd.FindFirst2 = 0x0001 := rfl
    rw [parse_transact hcmd hstatus h, if_pos hsetup]
    simp only [hread, Request.ok_bind, ← htid]
  | findNext m =>
    have htid : m.tid = info.tid := congrArg Info.tid hfixed
    have hread := Request.findNext_read m.subcmd (hplain.texts m.subcmd.filename (by simp [texts]))
    have hother : SubCmd.SETUP SubCmd.FindNext2 ≠ 0x0001 := by decide
    have hsetup : SubCmd.SETUP SubCmd.FindNext2 = 0x0002 := rfl
    rw [parse_transact hcmd hstatus h, if_neg hother, if_pos hsetup]
    simp only [hread, Request.ok_bind, ← htid]

/-- The header of a request that is read. -/
theorem parse_header (h : Message.parse frame = .ok (info, m)) :
    ∃ body, Request.header frame = .ok (info, body) := by
  unfold Message.parse at h
  obtain ⟨⟨info', body⟩, hheader, h⟩ := except_bind_ok.mp h
  have hsame : info' = info := by
    dsimp only at h
    split at h <;> grind [except_bind_ok]
  exact ⟨body, hsame ▸ hheader⟩

theorem write_header (hstatus : info.status.Canonical) (h : m.write info info.write = .ok frame) :
    ∃ body, Request.header frame = .ok (info, body) := by
  have hbuffer : info.write.length < 2 ^ 32 := by
    rw [info.write_length]
    decide
  cases body_cases m info with
  | built p d hbody parameter data fits =>
    have hp : (m.andx ++ p).length < 512 := by
      rw [parameter]
      exact m.parameterLength_lt
    by_cases hd : d.length < 65536
    · rw [write_ok hbody hp hd _ hbuffer] at h
      rw [← Except.ok.inj h]
      simp only [List.append_assoc]
      exact ⟨_, Request.header_write info hstatus _⟩
    · rw [write_long hbody hp (Nat.not_lt.mp hd) _ hbuffer] at h
      cases h
  | refused what hbody other long fits =>
    rw [write_error hbody] at h
    cases h
  | overrun hbody overruns =>
    rw [write_error hbody] at h
    cases h
/-! ### What is read is plain -/

theorem splitNul16_nonzero {b rest : Bytes} {us : List UInt16} (h : splitNul16 b = some (us, rest)) :
    0 ∉ us := by
  fun_induction splitNul16 b generalizing us with
  | case1 x y more hzero =>
    cases h
    exact List.not_mem_nil
  | case2 x y more hunit ih =>
    obtain ⟨⟨us', rest'⟩, hmore, heq⟩ := Option.map_eq_some_iff.mp h
    cases heq
    rw [List.mem_cons, not_or]
    exact ⟨Ne.symm hunit, ih hmore⟩
  | case3 => cases h

/-- A text that was read ends before the first zero. -/
theorem text_plain {b rest : Bytes} {s : String} (h : Request.text b = .ok (s, rest)) :
    '\x00' ∉ s.toList := by
  unfold Request.text parseUtf16Le0 at h
  cases hsplit : splitNul16 b with
  | none =>
    rw [hsplit] at h
    cases h
  | some found =>
    obtain ⟨us, more⟩ := found
    rw [hsplit] at h
    cases hdecode : decodeUtf16 us with
    | none =>
      simp only [hdecode] at h
      cases h
    | some cs =>
      simp only [hdecode] at h
      cases h
      intro hnul
      rw [String.toList_ofList] at hnul
      refine splitNul16_nonzero hsplit ?_
      rw [← encode_decodeUtf16 hdecode]
      exact List.mem_flatMap.mpr ⟨_, hnul, List.mem_singleton_self 0⟩

/-- `P` of all that a reader can return. -/
def Yields {α : Type} (P : α → Prop) (r : Reader Error α) : Prop :=
  ∀ b a rest, r b = .ok (a, rest) → P a

theorem Yields.bind {α β : Type} {P : β → Prop} {r : Reader Error α} {f : α → Reader Error β}
    (h : ∀ b a rest, r b = .ok (a, rest) → Yields P (f a)) : Yields P (r >>= f) := by
  intro b c rest hc
  rw [bind_apply] at hc
  cases hr : r b with
  | error e =>
    rw [hr] at hc
    cases hc
  | ok found =>
    obtain ⟨a, more⟩ := found
    rw [hr] at hc
    exact h b a more hr more c rest hc

theorem Yields.pure {α : Type} {P : α → Prop} {a : α} (h : P a) :
    Yields P (pure a : Reader Error α) := by
  intro b a' rest ha
  cases ha
  exact h

theorem credentials_plain (dataOffset oem unicode : ℕ) :
    Yields (fun mode => ∀ user domain secret, mode = .classic user domain secret →
      '\x00' ∉ user.toList ∧ '\x00' ∉ domain.toList)
      (Request.credentials dataOffset oem unicode) := by
  unfold Request.credentials
  refine .bind fun _ _ _ _ => .bind fun _ secret _ _ => .bind fun _ _ _ _ =>
    .bind fun _ user _ huser => .bind fun _ domain _ hdomain => ?_
  split
  · refine .pure fun user' domain' secret' heq => ?_
    cases heq
    exact ⟨text_plain huser, text_plain hdomain⟩
  · intro b a rest h
    cases h

theorem findFirst_plain : Yields (fun c => '\x00' ∉ c.filename.toList) Request.findFirst := by
  unfold Request.findFirst
  exact .bind fun _ _ _ _ => .bind fun _ _ _ _ => .bind fun _ _ _ _ => .bind fun _ _ _ _ =>
    .bind fun _ _ _ _ => .bind fun _ _ _ hname => .pure (text_plain hname)

theorem findNext_plain : Yields (fun c => '\x00' ∉ c.filename.toList) Request.findNext := by
  unfold Request.findNext
  exact .bind fun _ _ _ _ => .bind fun _ _ _ _ => .bind fun _ _ _ _ => .bind fun _ _ _ _ =>
    .bind fun _ _ _ _ => .bind fun _ _ _ hname => .pure (text_plain hname)

theorem sessionSetup_plain {ctx : ReplyCtx} {m : Msg.SessionSetup}
    (h : Request.sessionSetup ctx = .ok m) : (sessionSetup m).Plain := by
  refine ⟨?_, fun s hs => absurd hs List.not_mem_nil⟩
  unfold Request.sessionSetup at h
  obtain ⟨⟨_, words⟩, -, h⟩ := except_bind_ok.mp h
  dsimp only at h
  split at h
  · obtain ⟨⟨_, _⟩, -, h⟩ := except_bind_ok.mp h
    obtain ⟨⟨_, _⟩, -, h⟩ := except_bind_ok.mp h
    obtain ⟨⟨_, _⟩, -, h⟩ := except_bind_ok.mp h
    obtain ⟨⟨_, _⟩, -, h⟩ := except_bind_ok.mp h
    obtain ⟨⟨mode, _⟩, hmode, h⟩ := except_bind_ok.mp h
    cases h
    have hplain := credentials_plain _ _ _ _ _ _ hmode
    cases mode with
    | classic user domain secret =>
      obtain ⟨huser, hdomain⟩ := hplain user domain secret rfl
      intro s hs
      simp only [texts, List.mem_cons, List.not_mem_nil, or_false] at hs
      rcases hs with rfl | rfl
      · exact huser
      · exact hdomain
    | extended blob => exact fun s hs => absurd hs List.not_mem_nil
  · obtain ⟨⟨_, _⟩, -, h⟩ := except_bind_ok.mp h
    obtain ⟨⟨_, _⟩, -, h⟩ := except_bind_ok.mp h
    obtain ⟨⟨_, _⟩, -, h⟩ := except_bind_ok.mp h
    obtain ⟨⟨_, _⟩, -, h⟩ := except_bind_ok.mp h
    cases h
    exact fun s hs => absurd hs List.not_mem_nil

theorem asBytes_fromUtf8 {raw : Bytes} {s : String} (h : fromUtf8 raw = some s) :
    asBytes s = raw := by
  unfold fromUtf8 String.fromUTF8? at h
  split at h
  · cases h
    rfl
  · cases h

theorem password_plain {raw : Bytes} {s : String} (h : Request.password raw = .ok s) :
    s ≠ "\x00" := by
  unfold Request.password at h
  split at h
  · cases h
    decide
  · rename_i hraw
    split at h
    · rename_i hutf8
      cases h
      rintro rfl
      rw [← asBytes_fromUtf8 hutf8] at hraw
      exact hraw (Request.asBytes_eq_zero.mpr rfl)
    · cases h

theorem treeConnect_plain {ctx : ReplyCtx} {m : Msg.TreeConnect}
    (h : Request.treeConnect ctx = .ok m) : (treeConnect m).Plain := by
  unfold Request.treeConnect at h
  obtain ⟨⟨_, _⟩, -, h⟩ := except_bind_ok.mp h
  obtain ⟨⟨_, _⟩, -, h⟩ := except_bind_ok.mp h
  obtain ⟨⟨raw, _⟩, -, h⟩ := except_bind_ok.mp h
  obtain ⟨password, hpassword, h⟩ := except_bind_ok.mp h
  obtain ⟨⟨_, _⟩, -, h⟩ := except_bind_ok.mp h
  obtain ⟨⟨path, _⟩, hpath, h⟩ := except_bind_ok.mp h
  cases h
  refine ⟨fun s hs => ?_, fun s hs => ?_⟩
  · rw [List.mem_singleton.mp hs]
    exact text_plain hpath
  · rw [List.mem_singleton.mp hs]
    exact password_plain hpassword

theorem openFile_plain {ctx : ReplyCtx} {m : Msg.Open} (h : Request.openFile ctx = .ok m) :
    (openFile m).Plain := by
  refine ⟨?_, fun s hs => absurd hs List.not_mem_nil⟩
  unfold Request.openFile at h
  obtain ⟨⟨_, _⟩, -, h⟩ := except_bind_ok.mp h
  obtain ⟨⟨_, _⟩, -, h⟩ := except_bind_ok.mp h
  obtain ⟨⟨open', _⟩, hwords, h⟩ := except_bind_ok.mp h
  obtain ⟨⟨_, _⟩, -, h⟩ := except_bind_ok.mp h
  obtain ⟨⟨_, _⟩, -, h⟩ := except_bind_ok.mp h
  obtain ⟨⟨filename, _⟩, hname, h⟩ := except_bind_ok.mp h
  have hopen : (open' filename).filename = filename := by
    have hyields : Yields (fun o : String → Msg.Open => ∀ name, (o name).filename = name)
        (Request.openWords ctx.info.tid) := by
      unfold Request.openWords
      exact .bind fun _ _ _ _ => .bind fun _ _ _ _ => .bind fun _ _ _ _ => .bind fun _ _ _ _ =>
        .bind fun _ _ _ _ => .bind fun _ _ _ _ => .bind fun _ _ _ _ => .bind fun _ _ _ _ =>
        .bind fun _ _ _ _ => .bind fun _ _ _ _ => .pure fun _ => rfl
    exact hyields _ _ _ hwords filename
  cases h
  intro s hs
  rw [List.mem_singleton.mp hs, hopen]
  exact text_plain hname

/-- A server returns no text with its terminator in it, whatever the frame is. -/
theorem parse_plain (h : Message.parse frame = .ok (info, m)) : m.Plain := by
  unfold Message.parse at h
  obtain ⟨⟨info', body⟩, -, h⟩ := except_bind_ok.mp h
  have hnone {m : Message} (htexts : m.texts = []) (hpasswords : m.passwords = []) : m.Plain := by
    refine ⟨?_, ?_⟩
    · rw [htexts]
      exact fun s hs => absurd hs List.not_mem_nil
    · rw [hpasswords]
      exact fun s hs => absurd hs List.not_mem_nil
  dsimp only at h
  split at h
  · obtain ⟨ctx, -, h⟩ := except_bind_ok.mp h
    obtain ⟨msg, -, h⟩ := except_bind_ok.mp h
    cases h
    exact hnone rfl rfl
  · obtain ⟨ctx, -, h⟩ := except_bind_ok.mp h
    obtain ⟨msg, hmsg, h⟩ := except_bind_ok.mp h
    cases h
    exact sessionSetup_plain hmsg
  · obtain ⟨ctx, -, h⟩ := except_bind_ok.mp h
    obtain ⟨msg, hmsg, h⟩ := except_bind_ok.mp h
    cases h
    exact treeConnect_plain hmsg
  · obtain ⟨ctx, -, h⟩ := except_bind_ok.mp h
    cases h
    exact hnone rfl rfl
  · obtain ⟨ctx, -, h⟩ := except_bind_ok.mp h
    obtain ⟨msg, hmsg, h⟩ := except_bind_ok.mp h
    cases h
    exact openFile_plain hmsg
  · obtain ⟨ctx, -, h⟩ := except_bind_ok.mp h
    obtain ⟨msg, -, h⟩ := except_bind_ok.mp h
    cases h
    exact hnone rfl rfl
  · obtain ⟨ctx, -, h⟩ := except_bind_ok.mp h
    obtain ⟨msg, -, h⟩ := except_bind_ok.mp h
    cases h
    exact hnone rfl rfl
  · obtain ⟨ctx, -, h⟩ := except_bind_ok.mp h
    obtain ⟨⟨⟨setup, count, offset⟩, _⟩, -, h⟩ := except_bind_ok.mp h
    obtain ⟨parameter, -, h⟩ := except_bind_ok.mp h
    split at h
    · obtain ⟨⟨subcmd, _⟩, hsubcmd, h⟩ := except_bind_ok.mp h
      cases h
      refine ⟨fun s hs => ?_, fun s hs => absurd hs List.not_mem_nil⟩
      rw [List.mem_singleton.mp hs]
      exact findFirst_plain _ _ _ hsubcmd
    · split at h
      · obtain ⟨⟨subcmd, _⟩, hsubcmd, h⟩ := except_bind_ok.mp h
        cases h
        refine ⟨fun s hs => ?_, fun s hs => absurd hs List.not_mem_nil⟩
        rw [List.mem_singleton.mp hs]
        exact findNext_plain _ _ _ hsubcmd
      · cases h
  · cases h

/-- A frame that goes out with UTF-16 announced is read back as the message it was, with its
header, exactly when no text holds its terminator; so no two such messages are written the
same. -/
theorem requests_read_back :
    (∀ (m : Message) (info : Info) (frame : Bytes), m.Heads info →
      m.write info info.write = .ok frame →
        (Message.parse frame = .ok (info, m) ↔ m.Plain)) ∧
    ∀ (m m' : Message) (info info' : Info) (frame : Bytes), m.Heads info → m'.Heads info' →
      m.Plain → m'.Plain → m.write info info.write = .ok frame →
        m'.write info' info'.write = .ok frame → m = m' ∧ info = info' := by
  have hread (m : Message) (info : Info) (frame : Bytes) (hheads : m.Heads info)
      (h : m.write info info.write = .ok frame) :
      Message.parse frame = .ok (info, m) ↔ m.Plain :=
    ⟨parse_plain, fun hplain => parse_write hplain hheads h⟩
  refine ⟨hread, fun m m' info info' frame hheads hheads' hplain hplain' h h' => ?_⟩
  have hfirst := (hread m info frame hheads h).mpr hplain
  rw [(hread m' info' frame hheads' h').mpr hplain'] at hfirst
  obtain ⟨hinfo, hm⟩ := Prod.mk.inj (Except.ok.inj hfirst)
  exact ⟨hm.symm, hinfo.symm⟩

theorem requests_read_back_share : ∃ frame,
    (treeConnect (.new "//h/s" "pw")).write (Info.default .TreeConnect)
      (Info.default .TreeConnect).write = .ok frame ∧
    Message.parse frame = .ok (Info.default .TreeConnect, treeConnect (.new "//h/s" "pw")) := by
  have hheads : (treeConnect (.new "//h/s" "pw")).Heads (Info.default .TreeConnect) :=
    ⟨rfl, rfl, trivial, by decide⟩
  have hplain : (treeConnect (.new "//h/s" "pw")).Plain := ⟨by decide, by decide⟩
  exact ⟨_, rfl, (requests_read_back.1 _ _ _ hheads rfl).mpr hplain⟩

end Message

end CifsClientStream.Smb
