import CifsClientStream.Smb.Trans2

/-!
# Which bodies the reply parsers can read

Nothing in `Reply::parse` asks how many bytes are left before it reads. For
each reply type this file states the layout a body has to have so that every
read stays inside the buffer, and shows that the parser panics on exactly the
other bodies. The layouts speak of the bytes only, not of what the parser
makes of them.
-/

namespace CifsClientStream.Smb
open Cursor Win Utils

/-! ### Words and bytes of a body -/

def wordBytes (body : Bytes) : ℕ := 2 * (u8At body 0).toNat

def byteCount (body : Bytes) : ℕ := (u16At body (1 + wordBytes body)).toNat

def wordsOf (body : Bytes) : Bytes := (body.drop 1).take (wordBytes body)

def dataOf (body : Bytes) : Bytes := (body.drop (3 + wordBytes body)).take (byteCount body)

def CountsFit (body : Bytes) : Prop := 3 + wordBytes body + byteCount body ≤ body.length

theorem sections_eq (body : Bytes) (h : CountsFit body) :
    ∃ rest, Reply.sections body = .ok ((wordsOf body, dataOf body), rest) := by
  unfold CountsFit at h
  refine ⟨body.drop (3 + wordBytes body + byteCount body), ?_⟩
  rw [Reply.sections, getU8_first body _ (by omega)]
  change (copyToBytes (wordBytes body) >>= _) (body.drop 1) = _
  rw [copyToBytes_at body 1 (wordBytes body) _ (by omega),
    getU16Le_at body (1 + wordBytes body) _ (by omega)]
  change (copyToBytes (byteCount body) >>= _) (body.drop (1 + wordBytes body + 2)) = _
  rw [copyToBytes_at body _ (byteCount body) _ (by omega)]
  have hadd : 1 + wordBytes body + 2 = 3 + wordBytes body := by omega
  rw [hadd]
  rfl

theorem sections_short (body : Bytes) (h : ¬CountsFit body) :
    Reply.sections body = .error .panic := by
  unfold CountsFit at h
  by_cases h1 : 1 ≤ body.length
  · rw [Reply.sections, getU8_first body _ h1]
    change (copyToBytes (wordBytes body) >>= _) (body.drop 1) = _
    by_cases h2 : 1 + wordBytes body ≤ body.length
    · rw [copyToBytes_at body 1 (wordBytes body) _ h2]
      by_cases h3 : 3 + wordBytes body ≤ body.length
      · rw [getU16Le_at body (1 + wordBytes body) _ (by omega)]
        refine bind_short (copyToBytes_fixed _) _ _ ?_
        rw [List.length_drop]
        change _ < byteCount body
        omega
      · exact bind_short getU16Le_fixed _ _ (by rw [List.length_drop]; omega)
    · exact bind_short (copyToBytes_fixed _) _ _ (by rw [List.length_drop]; omega)
  · exact bind_short getU8_fixed _ _ (by omega)

/-- A body with the given words and data bytes; whatever comes behind is not looked at. -/
def framed (words data rest : Bytes) : Bytes :=
  putU8 (UInt8.ofNat (words.length / 2)) ++ (words ++ (putU16Le (UInt16.ofNat data.length) ++
    (data ++ rest)))

theorem sections_framed (words data rest : Bytes) (heven : words.length % 2 = 0)
    (hwords : words.length < 512) (hdata : data.length < 65536) :
    Reply.sections (framed words data rest) = .ok ((words, data), rest) := by
  have hcount : words.length = 2 * (UInt8.ofNat (words.length / 2)).toNat := by
    rw [ofNat8_toNat (by omega)]
    omega
  have hbytes : data.length = (UInt16.ofNat data.length).toNat := (ofNat16_toNat hdata).symm
  rw [Reply.sections, framed, getU8_bind, copyToBytes_bind _ _ _ _ hcount, getU16Le_bind,
    copyToBytes_bind _ _ _ _ hbytes]
  rfl

theorem framed_fits (words data rest : Bytes) (heven : words.length % 2 = 0)
    (hwords : words.length < 512) (hdata : data.length < 65536) :
    CountsFit (framed words data rest) ∧ wordsOf (framed words data rest) = words ∧
      dataOf (framed words data rest) = data := by
  have hframed := sections_framed words data rest heven hwords hdata
  have hfit : CountsFit (framed words data rest) := by
    by_contra hshort
    cases hframed.symm.trans (sections_short _ hshort)
  obtain ⟨rest', h⟩ := sections_eq _ hfit
  have heq := hframed.symm.trans h
  simp only [Except.ok.injEq, Prod.mk.injEq] at heq
  exact ⟨hfit, heq.1.1.symm, heq.1.2.symm⟩

/-! ### The AndX block -/

/-- The words `w` can be read up to the parameters of the type, which satisfy `fits`;
a chained command is refused before they are looked at. -/
def WordsFit (andx : Bool) (w : Bytes) (fits : Bytes → Prop) : Prop :=
  if andx then 4 ≤ w.length ∧ (u8At w 0 = 0xff → fits (w.drop 4)) else fits w

theorem andx_eq (w : Bytes) (h : 4 ≤ w.length) :
    (AndX.parse : Reader Error _) w =
      if u8At w 0 = 0xff then .ok (none, w.drop 4)
      else match Cmd.tryFrom (u8At w 0) with
        | none => .error (.error (.InvalidCommand (u8At w 0)))
        | some c => .ok (some { cmd := c, offset := u16At w 2 }, w.drop 4) := by
  rw [AndX.parse, getU8_first w _ (by omega), advance_at w 1 1 _ (by omega),
    getU16Le_at w 2 _ (by omega)]
  split
  · rfl
  · cases Cmd.tryFrom (u8At w 0) with
    | none => rfl
    | some c => rfl

/-- A block that names no further command is taken off. -/
theorem stripAndX_none (chain parameter : Bytes) (hchain : chain.length = 3) :
    Reply.stripAndX true (0xff :: chain ++ parameter) = .ok parameter := by
  have hfirst : u8At (0xff :: chain ++ parameter) 0 = 0xff := rfl
  have hlength : (0xff :: chain).length = 4 := by rw [List.length_cons, hchain]
  have hdrop : (0xff :: chain ++ parameter).drop 4 = parameter := by
    rw [← hlength, List.drop_left]
  have hlong : 4 ≤ (0xff :: chain ++ parameter).length := by simp [hchain]
  unfold Reply.stripAndX
  rw [if_pos rfl, andx_eq _ hlong, if_pos hfirst, hdrop]
  rfl

theorem andx_short : Short (AndX.parse : Reader Error _) 4 :=
  Short.bind (m := 3) getU8_fixed fun _ =>
    Short.bind (m := 2) (advance_fixed 1) fun _ =>
      Short.bind (m := 0) getU16Le_fixed fun _ => Short.zero _

theorem stripAndX_fits (andx : Bool) (w : Bytes) {α : Type} (k : Bytes → Except (Fault Error) α)
    (fits : Bytes → Prop) (hk : ∀ p, NoPanic (k p) ↔ fits p) :
    NoPanic (Reply.stripAndX andx w >>= k) ↔ WordsFit andx w fits := by
  cases andx with
  | false => exact hk w
  | true =>
    unfold Reply.stripAndX WordsFit
    simp only [if_true]
    by_cases h : 4 ≤ w.length
    · rw [andx_eq w h]
      by_cases hc : u8At w 0 = 0xff
      · simp only [hc, if_true, h, true_and, forall_const]
        exact hk (w.drop 4)
      · simp only [hc, if_false, h, true_and, false_implies, iff_true]
        cases Cmd.tryFrom (u8At w 0) with
        | none => exact noPanic_error _
        | some c => exact noPanic_error _
    · rw [andx_short.apply (Nat.not_le.mp h)]
      simp only [h, false_and, iff_false]
      exact not_noPanic_panic

/-- `fits` is the layout of type `R`: what its `create` needs to stay inside the buffers.
It sees the header flags, the parameters, the data and where the data start. -/
def Lays (R : Type) [Reply R] (fits : UInt16 → Bytes → Bytes → ℕ → Prop) : Prop :=
  ∀ ctx : ReplyCtx, NoPanic (Reply.create ctx : Except (Fault Error) R) ↔
    fits ctx.info.flags2 ctx.parameter ctx.data ctx.dataOffset

def BodyFits (R : Type) [Reply R] (fits : UInt16 → Bytes → Bytes → ℕ → Prop) (flags2 : UInt16)
    (body : Bytes) : Prop :=
  CountsFit body ∧ WordsFit (Reply.ANDX R) (wordsOf body) fun p =>
    fits flags2 p (dataOf body) (SMB_HEADER_LEN + 1 + wordBytes body + 2)

theorem wordsOf_length (body : Bytes) (h : CountsFit body) :
    (wordsOf body).length = wordBytes body := by
  unfold CountsFit at h
  rw [wordsOf, List.length_take, List.length_drop]
  omega

theorem dataOf_length (body : Bytes) (h : CountsFit body) :
    (dataOf body).length = byteCount body := by
  unfold CountsFit at h
  rw [dataOf, List.length_take, List.length_drop]
  omega

theorem reply_parse_fits (R : Type) [Reply R] (fits : UInt16 → Bytes → Bytes → ℕ → Prop)
    (hfits : Lays R fits) (info : Info) (body : Bytes) :
    NoPanic (Reply.parse R info body) ↔ BodyFits R fits info.flags2 body := by
  unfold BodyFits
  by_cases h : CountsFit body
  · obtain ⟨rest, hs⟩ := sections_eq body h
    have hlen := wordsOf_length body h
    rw [Reply.parse, hs]
    simp only [h, true_and]
    refine stripAndX_fits _ _ _ _ fun p => ?_
    rw [← hlen]
    exact hfits _
  · rw [Reply.parse, sections_short body h]
    simp only [h, false_and, iff_false]
    exact not_noPanic_panic

/-! ### The reply types -/

def Close.fits (_flags2 : UInt16) (_p _d : Bytes) (_dataOffset : ℕ) : Prop := True

def TreeDisconnect.fits (_flags2 : UInt16) (_p _d : Bytes) (_dataOffset : ℕ) : Prop := True

/-- A length word, if there is one, announces no more bytes than there are. -/
def SessionSetup.fits (_flags2 : UInt16) (p d : Bytes) (_dataOffset : ℕ) : Prop :=
  2 ≤ p.length ∧ (4 ≤ p.length → (u16At p 2).toNat ≤ d.length)

/-- The data end right behind the terminator of a service name of odd length. -/
def ServiceEndsOdd (d : Bytes) : Prop :=
  ∃ service : Bytes, d = service ++ [0] ∧ 0 ∉ service ∧ (fromUtf8 service).isSome ∧
    service.length % 2 = 1

def Share.fits (flags2 : UInt16) (p d : Bytes) (_dataOffset : ℕ) : Prop :=
  2 ≤ p.length ∧ (contains flags2 Flags2.UNICODE → ¬ServiceEndsOdd d)

def Handle.fits (_flags2 : UInt16) (p _d : Bytes) (_dataOffset : ℕ) : Prop := 64 ≤ p.length

def Read.fits (_flags2 : UInt16) (p _d : Bytes) (_dataOffset : ℕ) : Prop := 8 ≤ p.length

/-- A section of `count` bytes at `offset` of the frame lies inside the data. -/
def SectionFits (d : Bytes) (dataOffset count offset : ℕ) : Prop :=
  offset - dataOffset + count ≤ d.length

/-- An offset before the data is refused, and what would be read behind it is not. -/
def Transact2.fits (_flags2 : UInt16) (p d : Bytes) (dataOffset : ℕ) : Prop :=
  10 ≤ p.length ∧ (dataOffset ≤ (u16At p 8).toNat →
    16 ≤ p.length ∧ (dataOffset ≤ (u16At p 14).toNat →
      18 ≤ p.length ∧ SectionFits d dataOffset (u16At p 6).toNat (u16At p 8).toNat ∧
        SectionFits d dataOffset (u16At p 12).toNat (u16At p 14).toNat))

theorem close_lays : Lays Reply.Close Close.fits := fun _ => by
  simp only [Close.fits, iff_true]
  exact noPanic_ok _

theorem treeDisconnect_lays : Lays Reply.TreeDisconnect TreeDisconnect.fits := fun _ => by
  simp only [TreeDisconnect.fits, iff_true]
  exact noPanic_ok _

theorem sessionSetup_parameters (p : Bytes) (h : 2 ≤ p.length) :
    ∃ rest, Reply.SessionSetup.parameters p =
      .ok ((u16At p 0, if 4 ≤ p.length then (u16At p 2).toNat else 0), rest) := by
  rw [Reply.SessionSetup.parameters, getU16Le_first p _ h, remaining_bind, List.length_drop]
  by_cases h4 : 4 ≤ p.length
  · refine ⟨p.drop 4, ?_⟩
    have h2 : 2 ≤ p.length - 2 := by omega
    simp only [h2, h4, if_true]
    exact getU16Le_at p 2 _ (by omega)
  · refine ⟨p.drop 2, ?_⟩
    have h2 : ¬2 ≤ p.length - 2 := by omega
    simp only [h2, h4, if_false]
    rfl

theorem copyToBytes_noPanic {ε α : Type} (n : ℕ) (d : Bytes)
    (k : Bytes × Bytes → Except (Fault ε) α) (hk : ∀ x, NoPanic (k x)) :
    NoPanic ((copyToBytes n : Reader ε Bytes) d >>= k) ↔ n ≤ d.length := by
  by_cases h : n ≤ d.length
  · rw [copyToBytes_eq d n h]
    simp only [h, iff_true]
    exact hk _
  · rw [(copyToBytes_fixed n).short d (by omega)]
    simp only [h, iff_false]
    exact not_noPanic_panic

theorem sessionSetup_lays : Lays Reply.SessionSetup SessionSetup.fits := by
  intro ctx
  unfold SessionSetup.fits
  change NoPanic (Reply.SessionSetup.create ctx) ↔ _
  unfold Reply.SessionSetup.create
  by_cases h : 2 ≤ ctx.parameter.length
  · obtain ⟨rest, hp⟩ := sessionSetup_parameters ctx.parameter h
    rw [hp]
    refine Iff.trans (copyToBytes_noPanic _ ctx.data _ fun _ => noPanic_ok _) ?_
    simp only [h, true_and]
    by_cases h4 : 4 ≤ ctx.parameter.length
    · simp only [h4, if_true, forall_const]
    · simp only [h4, if_false, Nat.zero_le, false_implies]
  · rw [Reply.SessionSetup.parameters, bind_short getU16Le_fixed _ _ (by omega)]
    simp only [h, false_and, iff_false]
    exact not_noPanic_panic

theorem share_rights (b : Bytes) :
    Share.rights b = .ok (if 4 ≤ b.length then (some (u32At b 0 &&& DirAccessMask.all), b.drop 4)
      else (none, b)) := by
  rw [Share.rights, remaining_bind]
  by_cases h : 4 ≤ b.length
  · rw [if_pos h, if_pos h, getU32Le_first b _ h]
    rfl
  · rw [if_neg h, if_neg h]
    rfl

theorem share_parameters (p : Bytes) (h : 2 ≤ p.length) :
    ∃ a rest, Share.parameters p = .ok (a, rest) := by
  rw [Share.parameters, advance_first p 2 _ h, bind_apply, share_rights]
  dsimp only
  rw [bind_apply, share_rights]
  exact ⟨_, _, rfl⟩

theorem liftStr_noPanic {α : Type} (x : Except ParseStrError α) : NoPanic (liftStr x) := by
  cases x with
  | ok a => exact noPanic_ok _
  | error e => exact noPanic_error _

theorem filesystemName_noPanic (unicode : Bool) (service : String) (data : Bytes) :
    NoPanic (Share.filesystemName unicode service data) ↔
      (unicode → ¬(service.utf8ByteSize % 2 = 1 ∧ data = [])) := by
  unfold Share.filesystemName
  cases unicode with
  | false => simp only [Bool.false_eq_true, if_false, liftStr_noPanic, false_implies]
  | true =>
    simp only [if_true, forall_const]
    by_cases hodd : service.utf8ByteSize % 2 = 1
    · simp only [hodd, if_true, true_and]
      cases data with
      | nil =>
        rw [(advance_fixed 1).short [] (by simp)]
        simp only [not_true_eq_false, iff_false]
        exact not_noPanic_panic
      | cons c rest =>
        obtain ⟨u, hu⟩ := (advance_fixed (ε := Error) 1).enough (c :: rest) (by simp)
        rw [hu]
        simp only [reduceCtorEq, not_false_eq_true, iff_true]
        exact liftStr_noPanic _
    · simp only [hodd, if_false, false_and, not_false_eq_true, iff_true]
      exact liftStr_noPanic _

theorem serviceEndsOdd_iff (d : Bytes) :
    ServiceEndsOdd d ↔ ∃ s, parseStr0 d = .ok (s, []) ∧ s.utf8ByteSize % 2 = 1 := by
  constructor
  · rintro ⟨service, hd, h0, hs, hodd⟩
    obtain ⟨s, hs⟩ := Option.isSome_iff_exists.mp hs
    have hsplit := (splitNul_eq_some d service []).mpr ⟨hd, h0⟩
    refine ⟨s, ?_, ?_⟩
    · simp only [parseStr0, hsplit, hs]
    · rw [fromUtf8_len service s hs]
      exact hodd
  · rintro ⟨s, hp, hodd⟩
    unfold parseStr0 at hp
    split at hp
    · cases hp
    · rename_i service rest hsplit
      split at hp
      · cases hp
      · rename_i s' hs
        cases hp
        obtain ⟨hd, h0⟩ := (splitNul_eq_some d service []).mp hsplit
        refine ⟨service, hd, h0, by rw [hs]; rfl, ?_⟩
        rw [← fromUtf8_len service s hs]
        exact hodd

theorem share_lays : Lays Share Share.fits := by
  intro ctx
  change NoPanic (Share.create ctx) ↔ _
  unfold Share.create Share.fits
  by_cases h : 2 ≤ ctx.parameter.length
  · obtain ⟨a, rest, hp⟩ := share_parameters ctx.parameter h
    rw [hp]
    simp only [h, true_and]
    rw [serviceEndsOdd_iff]
    change NoPanic (liftStr (parseStr0 ctx.data) >>= _) ↔ _
    cases hs : parseStr0 ctx.data with
    | error e =>
      simp only [reduceCtorEq, false_and, exists_false, not_false_eq_true, implies_true, iff_true]
      exact noPanic_error _
    | ok r =>
      obtain ⟨service, data⟩ := r
      change NoPanic (Share.filesystemName _ service data >>= _) ↔ _
      rw [noPanic_bind]
      have hk : ∀ x, Share.filesystemName (contains ctx.info.flags2 Flags2.UNICODE) service data =
          .ok x → NoPanic (Except.ok (ε := Fault Error)
            ({ accessRights := a.1, guestRights := a.2, service, filesystem := x.1
               tid := ctx.info.tid } : Share)) := fun _ _ => noPanic_ok _
      rw [filesystemName_noPanic]
      refine ⟨fun hn hu hex => ?_, fun hn => ⟨fun hu hbad => ?_, hk⟩⟩
      · obtain ⟨s, hok, hodd⟩ := hex
        simp only [Except.ok.injEq, Prod.mk.injEq] at hok
        obtain ⟨rfl, rfl⟩ := hok
        exact hn.1 hu ⟨hodd, rfl⟩
      · exact hn hu ⟨service, by rw [hbad.2], hbad.1⟩
  · rw [Share.parameters, bind_short (advance_fixed 2) _ _ (by omega)]
    simp only [h, false_and, iff_false]
    exact not_noPanic_panic

theorem handle_parameters_fixed (tid : UInt16) : Fixed (Handle.parameters tid) 64 := by
  unfold Handle.parameters
  refine getU8_fixed.bind (m := 63) fun _ => ?_
  refine getU16Le_fixed.bind (m := 61) fun _ => ?_
  refine getU32Le_fixed.bind (m := 57) fun _ => ?_
  refine getU64Le_fixed.bind (m := 49) fun _ => ?_
  refine getU64Le_fixed.bind (m := 41) fun _ => ?_
  refine getU64Le_fixed.bind (m := 33) fun _ => ?_
  refine getU64Le_fixed.bind (m := 25) fun _ => ?_
  refine getU32Le_fixed.bind (m := 21) fun _ => ?_
  refine getU64Le_fixed.bind (m := 13) fun _ => ?_
  refine getU64Le_fixed.bind (m := 5) fun _ => ?_
  refine getU16Le_fixed.bind (m := 3) fun _ => ?_
  refine (advance_fixed 2).bind (m := 1) fun _ => ?_
  refine getU8_fixed.bind (m := 0) fun _ => ?_
  exact Fixed.pure _

theorem handle_lays : Lays Handle Handle.fits := by
  intro ctx
  change NoPanic (Handle.create ctx) ↔ 64 ≤ ctx.parameter.length
  unfold Handle.create
  have hf := handle_parameters_fixed ctx.info.tid
  by_cases h : 64 ≤ ctx.parameter.length
  · obtain ⟨⟨handle, directory⟩, hp⟩ := hf.enough ctx.parameter h
    rw [hp]
    simp only [h, iff_true]
    change NoPanic (if directory = 0 then _ else _)
    split
    · exact noPanic_ok _
    · split
      · exact noPanic_ok _
      · exact noPanic_error _
  · rw [hf.short ctx.parameter (by omega)]
    simp only [h, iff_false]
    exact not_noPanic_panic

theorem read_parameters_fixed : Fixed Reply.Read.parameters 8 := by
  unfold Reply.Read.parameters
  refine (advance_fixed 2).bind (m := 6) fun _ => ?_
  refine (advance_fixed 2).bind (m := 4) fun _ => ?_
  refine (advance_fixed 2).bind (m := 2) fun _ => ?_
  refine getU16Le_fixed.bind (m := 0) fun _ => ?_
  exact Fixed.pure _

/-- What the length check leaves: data of the announced length, behind one byte at most. -/
theorem read_payload_eq (length : ℕ) (data : Bytes) :
    Reply.Read.payload length data =
      if data.length = length ∨ data.length = length + 1 then
        .ok (data.drop (data.length - length))
      else .error (.error .InvalidData) := by
  have htake : ∀ d : Bytes, (if d.length ≠ length then .error (.error .InvalidData)
      else (copyToBytes length : Reader Error Bytes) d >>= fun r => .ok r.1) =
        if d.length = length then .ok d else .error (.error .InvalidData) := by
    intro d
    by_cases hd : d.length = length
    · rw [if_neg (not_not.mpr hd), if_pos hd, copyToBytes_eq d length (by omega), ← hd,
        List.take_length]
      rfl
    · rw [if_pos hd, if_neg hd]
  unfold Reply.Read.payload
  dsimp only
  by_cases hmore : length < data.length
  · obtain ⟨u, hu⟩ := (advance_fixed (ε := Error) 1).enough data (by omega)
    rw [if_pos hmore, hu]
    refine (htake (data.drop 1)).trans ?_
    rw [List.length_drop]
    by_cases hone : data.length = length + 1
    · rw [if_pos (by omega), if_pos (Or.inr hone), hone, Nat.add_sub_cancel_left]
    · rw [if_neg (by omega), if_neg (by omega)]
  · rw [if_neg hmore]
    refine (htake data).trans ?_
    by_cases hlen : data.length = length
    · rw [if_pos hlen, if_pos (Or.inl hlen), hlen, Nat.sub_self, List.drop_zero]
    · rw [if_neg hlen, if_neg (by omega)]

theorem read_payload_noPanic (length : ℕ) (data : Bytes) :
    NoPanic (Reply.Read.payload length data) := by
  rw [read_payload_eq]
  split
  · exact noPanic_ok _
  · exact noPanic_error _

theorem read_lays : Lays Reply.Read Read.fits := by
  intro ctx
  change NoPanic (Reply.Read.create ctx) ↔ 8 ≤ ctx.parameter.length
  unfold Reply.Read.create
  by_cases h : 8 ≤ ctx.parameter.length
  · obtain ⟨length, hp⟩ := read_parameters_fixed.enough ctx.parameter h
    rw [hp]
    simp only [h, iff_true]
    change NoPanic (Reply.Read.payload length ctx.data >>= _)
    exact (noPanic_bind _ _).mpr ⟨read_payload_noPanic length ctx.data, fun _ _ => noPanic_ok _⟩
  · rw [read_parameters_fixed.short ctx.parameter (by omega)]
    simp only [h, iff_false]
    exact not_noPanic_panic

theorem readSection_short (dataOffset : ℕ) : Short (Reply.readSection dataOffset) 4 :=
  Short.bind (m := 2) getU16Le_fixed fun _ =>
    Short.bind (m := 0) getU16Le_fixed fun _ => Short.zero _

theorem readSection_at (p : Bytes) (i dataOffset : ℕ) {β : Type}
    (f : Reply.Section → Reader Error β) (h : i + 4 ≤ p.length) :
    (Reply.readSection dataOffset >>= f) (p.drop i) =
      if (u16At p (i + 2)).toNat < dataOffset then .error (.error .InvalidData)
      else (getU16Le >>= fun displacement : UInt16 =>
        f ⟨(u16At p i).toNat, (u16At p (i + 2)).toNat - dataOffset, displacement.toNat⟩)
          (p.drop (i + 4)) := by
  unfold Reply.readSection
  simp only [bind_assoc]
  rw [getU16Le_at p i _ (by omega), getU16Le_at p (i + 2) _ (by omega)]
  unfold trySub
  by_cases hlt : (u16At p (i + 2)).toNat < dataOffset
  · simp only [hlt, if_true]
    rfl
  · simp only [hlt, if_false, bind_assoc, pure_bind]

theorem slices_noPanic (d : Bytes) (a n b m : ℕ) {α : Type} (k : Bytes → Bytes → α) :
    NoPanic (do
      let x ← (slice d a (a + n) : Except (Fault Error) Bytes)
      let y ← slice d b (b + m)
      .ok (k x y)) ↔ a + n ≤ d.length ∧ b + m ≤ d.length := by
  have hs : ∀ a n : ℕ, (slice d a (a + n) : Except (Fault Error) Bytes) =
      if a + n ≤ d.length then .ok ((d.take (a + n)).drop a) else .error .panic := by
    intro a n
    simp only [slice, Nat.le_add_right, true_and]
  rw [hs, hs]
  by_cases h1 : a + n ≤ d.length
  · by_cases h2 : b + m ≤ d.length
    · simp only [h1, h2, if_true, true_and, iff_true]
      exact noPanic_ok _
    · simp only [h1, h2, if_true, if_false, and_false, iff_false]
      exact not_noPanic_panic
  · simp only [h1, if_false, false_and, iff_false]
    exact not_noPanic_panic

theorem transact2_lays : Lays Reply.Transact2 Transact2.fits := by
  intro ctx
  change NoPanic (Reply.Transact2.create ctx) ↔ _
  obtain ⟨info, p, d, dataOffset⟩ := ctx
  unfold Reply.Transact2.create Reply.Transact2.parameters Transact2.fits SectionFits
  dsimp only
  by_cases h10 : 10 ≤ p.length
  · rw [getU16Le_first p _ (by omega), getU16Le_at p 2 _ (by omega),
      advance_at p 4 2 _ (by omega), readSection_at p 6 _ _ (by omega)]
    simp only [h10, true_and]
    by_cases h8 : (u16At p 8).toNat < dataOffset
    · simp only [h8, if_true, Nat.not_le.mpr h8, false_implies, iff_true]
      exact noPanic_error _
    · simp only [h8, if_false, Nat.not_lt.mp h8, forall_const]
      by_cases h16 : 16 ≤ p.length
      · rw [getU16Le_at p 10 _ (by omega), readSection_at p 12 _ _ (by omega)]
        simp only [h16, true_and]
        by_cases h14 : (u16At p 14).toNat < dataOffset
        · simp only [h14, if_true, Nat.not_le.mpr h14, false_implies, iff_true]
          exact noPanic_error _
        · simp only [h14, if_false, Nat.not_lt.mp h14, forall_const]
          by_cases h18 : 18 ≤ p.length
          · rw [getU16Le_at p 16 _ (by omega)]
            simp only [h18, true_and]
            exact slices_noPanic d _ _ _ _ _
          · rw [bind_short getU16Le_fixed _ _ (by rw [List.length_drop]; omega)]
            simp only [h18, false_and, iff_false]
            exact not_noPanic_panic
      · have hs : Short (getU16Le >>= fun displacement : UInt16 =>
            Reply.readSection dataOffset >>= _) 6 :=
          Short.bind (m := 4) getU16Le_fixed fun displacement =>
            (readSection_short dataOffset).before fun data => pure ((u16At p 0).toNat,
              (u16At p 2).toNat, (⟨(u16At p 6).toNat, (u16At p 8).toNat - dataOffset,
                displacement.toNat⟩ : Reply.Section), data)
        rw [hs.apply (by rw [List.length_drop]; omega)]
        simp only [h16, false_and, iff_false]
        exact not_noPanic_panic
  · have hs := Short.bind (m := 8) (getU16Le_fixed (ε := Error)) fun total =>
      Short.bind (m := 6) getU16Le_fixed fun totalData =>
        Short.bind (m := 4) (advance_fixed 2) fun _ =>
          (readSection_short dataOffset).before fun parameter =>
            (Reply.readSection dataOffset >>= fun data =>
              pure (total.toNat, totalData.toNat, parameter, data))
    rw [hs.apply (by omega)]
    simp only [h10, false_and, iff_false]
    exact not_noPanic_panic

end CifsClientStream.Smb
