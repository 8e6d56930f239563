import CifsClientStream.Ntlm
import CifsClientStream.Utf16

/-!
# The challenge of the server (src/ntlm/challenge.rs, src/ntlm/buffer.rs)

The parser reads a header of 48 bytes without asking for their number and cuts
two buffers out of the message by the server's offsets. Wherever they are in
it, it finds them (`challenge_decoded`). The DES step of the older response
takes a challenge of eight bytes only (`ntlmv1_block`, `ntlmv1_other`).
-/

namespace CifsClientStream.Ntlm
open Cursor Utils Win Smb

/-! ### Buffers -/

/-- The descriptor at a place of the message. -/
def Buffer.ofBytes (msg : Bytes) (i : ℕ) : Buffer where
  length := (u16At msg i).toNat
  capacity := (u16At msg (i + 2)).toNat
  position := (u32At msg (i + 4)).toNat

def Buffer.Inside (buffer : Buffer) (msg : Bytes) : Prop :=
  buffer.position + buffer.length ≤ msg.length

def Buffer.content (buffer : Buffer) (msg : Bytes) : Bytes :=
  (msg.take (buffer.position + buffer.length)).drop buffer.position

theorem Buffer.parse_at {β : Type} (msg : Bytes) (i : ℕ) (f : Buffer → Reader Error β)
    (h : i + 8 ≤ msg.length) :
    (Buffer.parse >>= f) (msg.drop i) = f (Buffer.ofBytes msg i) (msg.drop (i + 8)) := by
  unfold Buffer.parse
  simp only [bind_assoc, pure_bind]
  rw [getU16Le_at msg i _ (by omega), getU16Le_at msg (i + 2) _ (by omega),
    getU32Le_at msg (i + 4) _ (by omega)]
  rfl

theorem Buffer.parse_short : Short (Buffer.parse : Reader Error Buffer) 8 :=
  Short.bind (m := 6) getU16Le_fixed fun _ =>
    Short.bind (m := 4) getU16Le_fixed fun _ =>
      Short.bind (m := 0) getU32Le_fixed fun _ => Short.zero _

theorem Buffer.extract_inside {buffer : Buffer} {msg : Bytes} (h : buffer.Inside msg) :
    buffer.extract msg = .ok (buffer.content msg) :=
  if_pos ⟨Nat.le_add_right _ _, h⟩

theorem Buffer.extract_outside {buffer : Buffer} {msg : Bytes} (h : ¬buffer.Inside msg) :
    buffer.extract msg = .error .panic :=
  if_neg fun hin => h hin.2

/-- Length, capacity and position, as `Buffer::write` writes them. -/
def Buffer.descriptor (length capacity : UInt16) (position : UInt32) : Bytes :=
  putU16Le length ++ putU16Le capacity ++ putU32Le position

theorem Buffer.parse_bind {β : Type} (length capacity : UInt16) (position : UInt32) (b : Bytes)
    (f : Buffer → Reader Error β) :
    (Buffer.parse >>= f) (Buffer.descriptor length capacity position ++ b) =
      f ⟨length.toNat, capacity.toNat, position.toNat⟩ b := by
  unfold Buffer.parse Buffer.descriptor
  simp only [bind_assoc, pure_bind, List.append_assoc]
  rw [getU16Le_bind, getU16Le_bind, getU32Le_bind]

/-- The bytes are part of the message, from `position` on. -/
def Placed (msg : Bytes) (position : ℕ) (raw : Bytes) : Prop :=
  ∃ before behind, msg = before ++ (raw ++ behind) ∧ before.length = position

theorem Buffer.placed_content {buffer : Buffer} {msg raw : Bytes}
    (h : Placed msg buffer.position raw) (hlen : buffer.length = raw.length) :
    buffer.Inside msg ∧ buffer.content msg = raw := by
  obtain ⟨before, behind, rfl, hposition⟩ := h
  have hend : buffer.position + buffer.length = (before ++ raw).length := by
    rw [List.length_append, hposition, hlen]
  constructor
  · have hall : (before ++ raw ++ behind).length = (before ++ raw).length + behind.length :=
      List.length_append
    rw [Buffer.Inside, hend, ← List.append_assoc, hall]
    exact Nat.le_add_right _ _
  · rw [Buffer.content, hend, ← List.append_assoc, List.take_left, ← hposition, List.drop_left]

theorem Buffer.extract_placed {buffer : Buffer} {msg raw : Bytes}
    (h : Placed msg buffer.position raw) (hlen : buffer.length = raw.length) :
    buffer.extract msg = .ok raw := by
  obtain ⟨hinside, hcontent⟩ := Buffer.placed_content h hlen
  rw [Buffer.extract_inside hinside, hcontent]

/-- The bytes are the text of a name, in the encoding the flags announce. -/
def IsText (unicode : Bool) (raw : Bytes) : Prop :=
  if unicode then raw.length % 2 = 0 ∧ (decodeUtf16 (units raw)).isSome
  else (fromUtf8 raw).isSome

/-- The bytes of a Unicode name end in half a unit, and the units before begin a text. -/
def EndsOdd (unicode : Bool) (raw : Bytes) : Prop :=
  unicode = true ∧ raw.length % 2 = 1 ∧ StartsUtf16 (units raw)

theorem Buffer.extractString_eq {buffer : Buffer} {msg : Bytes} (h : buffer.Inside msg)
    (unicode : Bool) :
    buffer.extractString msg unicode =
      if unicode then
        match decodeUtf16Le (buffer.content msg) with
        | .ok cs => .ok (String.ofList cs)
        | .error (.error _) => .error (.error .InvalidPacket)
        | .error .panic => .error .panic
      else
        match fromUtf8 (buffer.content msg) with
        | some s => .ok s
        | none => .error (.error .InvalidPacket) := by
  unfold Buffer.extractString
  rw [Buffer.extract_inside h]
  rfl

/-- A string inside the message is returned, refused or a panic by its bytes alone. -/
theorem Buffer.extractString_cases {buffer : Buffer} {msg : Bytes} (h : buffer.Inside msg)
    (unicode : Bool) :
    (IsText unicode (buffer.content msg) ∧ ¬EndsOdd unicode (buffer.content msg) ∧
      ∃ s, buffer.extractString msg unicode = .ok s) ∨
    (EndsOdd unicode (buffer.content msg) ∧
      buffer.extractString msg unicode = .error .panic) ∨
    (¬IsText unicode (buffer.content msg) ∧ ¬EndsOdd unicode (buffer.content msg) ∧
      buffer.extractString msg unicode = .error (.error .InvalidPacket)) := by
  rw [Buffer.extractString_eq h]
  unfold IsText EndsOdd
  cases unicode with
  | false =>
    cases hs : fromUtf8 (buffer.content msg) with
    | some s => exact Or.inl ⟨by simp, by simp, s, rfl⟩
    | none => exact Or.inr (Or.inr ⟨by simp, by simp, rfl⟩)
  | true =>
    have hok := decodeUtf16Le_ok (buffer.content msg)
    have hpanic := decodeUtf16Le_panic (buffer.content msg)
    cases hd : decodeUtf16Le (buffer.content msg) with
    | ok cs =>
      obtain ⟨heven, hcs⟩ := (hok cs).mp hd
      refine Or.inl ⟨⟨heven, by rw [hcs]; rfl⟩, ?_, String.ofList cs, rfl⟩
      intro hodd
      omega
    | error e =>
      cases e with
      | panic => exact Or.inr (Or.inl ⟨⟨rfl, hpanic.mp hd⟩, rfl⟩)
      | error u =>
        refine Or.inr (Or.inr ⟨?_, ?_, rfl⟩)
        · intro htext
          obtain ⟨cs, hcs⟩ := Option.isSome_iff_exists.mp htext.2
          rw [(hok cs).mpr ⟨htext.1, hcs⟩] at hd
          cases hd
        · intro hodd
          rw [hpanic.mpr hodd.2] at hd
          cases hd

/-! ### The message -/

/-- The parser returns a value or refuses the packet. -/
def Settles {α : Type} (x : Except (Fault Error) α) : Prop :=
  (∃ a, x = .ok a) ∨ x = .error (.error .InvalidPacket)

theorem settles_ok {α : Type} (a : α) : Settles (.ok a : Except (Fault Error) α) := Or.inl ⟨a, rfl⟩

theorem settles_refused {α : Type} :
    Settles (.error (.error .InvalidPacket) : Except (Fault Error) α) := Or.inr rfl

theorem not_settles_panic {α : Type} : ¬Settles (.error .panic : Except (Fault Error) α) := by
  intro h
  rcases h with ⟨a, ha⟩ | h
  · cases ha
  · cases h

namespace ChallengeMsg

/-- Whether the target is announced as Unicode. -/
def unicode (msg : Bytes) : Bool := contains (u32At msg 20 &&& Flags.all) Flags.UNICODE

def targetBuffer (msg : Bytes) : Buffer := Buffer.ofBytes msg 12

def infoBuffer (msg : Bytes) : Buffer := Buffer.ofBytes msg 40

/-- The target lies inside the message and does not end in half a unit; the target info is not
looked at behind a target that is no text. -/
structure BuffersFit (msg : Bytes) : Prop where
  target : (targetBuffer msg).Inside msg
  whole : ¬EndsOdd (unicode msg) ((targetBuffer msg).content msg)
  info : IsText (unicode msg) ((targetBuffer msg).content msg) → (infoBuffer msg).Inside msg

/-- The header is there as far as it is read: up to a wrong magic or a wrong type, or whole. -/
def BlobFits (msg : Bytes) : Prop :=
  8 ≤ msg.length ∧ (msg.take 8 = NTLMSSP_MAGIC →
    12 ≤ msg.length ∧ (u32At msg 8 = NTLM_MSG_CHALLENGE → 48 ≤ msg.length ∧ BuffersFit msg))

theorem fields_short {msg : Bytes} (h : ¬8 ≤ msg.length) : fields msg = .error .panic :=
  bind_short (copyToBytes_fixed 8) _ _ (Nat.not_le.mp h)

theorem fields_otherMagic {msg : Bytes} (h : 8 ≤ msg.length) (hmagic : msg.take 8 ≠ NTLMSSP_MAGIC) :
    fields msg = .error (.error .InvalidPacket) := by
  have hlen : NTLMSSP_MAGIC.length = 8 := rfl
  rw [fields, hlen, copyToBytes_first msg 8 _ h, if_pos hmagic]
  rfl

theorem fields_noType {msg : Bytes} (h : 8 ≤ msg.length) (hmagic : msg.take 8 = NTLMSSP_MAGIC)
    (h12 : ¬12 ≤ msg.length) : fields msg = .error .panic := by
  have hlen : NTLMSSP_MAGIC.length = 8 := rfl
  rw [fields, hlen, copyToBytes_first msg 8 _ h, if_neg (not_not.mpr hmagic)]
  exact bind_short getU32Le_fixed _ _ (by rw [List.length_drop]; omega)

theorem fields_otherType {msg : Bytes} (hmagic : msg.take 8 = NTLMSSP_MAGIC)
    (h12 : 12 ≤ msg.length) (htype : u32At msg 8 ≠ NTLM_MSG_CHALLENGE) :
    fields msg = .error (.error .InvalidPacket) := by
  have hlen : NTLMSSP_MAGIC.length = 8 := rfl
  rw [fields, hlen, copyToBytes_first msg 8 _ (by omega), if_neg (not_not.mpr hmagic),
    getU32Le_at msg 8 _ h12, if_pos htype]
  rfl

theorem fields_noBuffers {msg : Bytes} (hmagic : msg.take 8 = NTLMSSP_MAGIC)
    (h12 : 12 ≤ msg.length) (htype : u32At msg 8 = NTLM_MSG_CHALLENGE) (h48 : ¬48 ≤ msg.length) :
    fields msg = .error .panic := by
  have hlen : NTLMSSP_MAGIC.length = 8 := rfl
  rw [fields, hlen, copyToBytes_first msg 8 _ (by omega), if_neg (not_not.mpr hmagic),
    getU32Le_at msg 8 _ h12, if_neg (not_not.mpr htype)]
  by_cases h20 : 20 ≤ msg.length
  · rw [Buffer.parse_at msg 12 _ h20]
    refine Short.apply (n := 28) ?_ (by rw [List.length_drop]; omega)
    exact Short.bind (m := 24) getU32Le_fixed fun _ =>
      Short.bind (m := 16) (copyToBytes_fixed 8) fun _ =>
        Short.bind (m := 8) (advance_fixed 8) fun _ => Buffer.parse_short.before _
  · exact (Buffer.parse_short.before _).apply (by rw [List.length_drop]; omega)

theorem fields_whole {msg : Bytes} (hmagic : msg.take 8 = NTLMSSP_MAGIC)
    (htype : u32At msg 8 = NTLM_MSG_CHALLENGE) (h48 : 48 ≤ msg.length) :
    fields msg = .ok ((targetBuffer msg, u32At msg 20 &&& Flags.all, (msg.drop 24).take 8,
      infoBuffer msg), msg.drop 48) := by
  have hlen : NTLMSSP_MAGIC.length = 8 := rfl
  rw [fields, hlen, copyToBytes_first msg 8 _ (by omega), if_neg (not_not.mpr hmagic),
    getU32Le_at msg 8 _ (by omega), if_neg (not_not.mpr htype), Buffer.parse_at msg 12 _ (by omega),
    getU32Le_at msg 20 _ (by omega), copyToBytes_at msg 24 8 _ (by omega),
    advance_at msg 32 8 _ (by omega), Buffer.parse_at msg 40 _ (by omega)]
  rfl

theorem parse_whole {msg : Bytes} (hmagic : msg.take 8 = NTLMSSP_MAGIC)
    (htype : u32At msg 8 = NTLM_MSG_CHALLENGE) (h48 : 48 ≤ msg.length) :
    parse msg = (targetBuffer msg).extractString msg (unicode msg) >>= fun target =>
      (infoBuffer msg).extract msg >>= fun info =>
        .ok ⟨target, u32At msg 20 &&& Flags.all, (msg.drop 24).take 8, info⟩ := by
  rw [parse, fields_whole hmagic htype h48]
  rfl

theorem buffers_settle_iff {msg : Bytes} (hmagic : msg.take 8 = NTLMSSP_MAGIC)
    (htype : u32At msg 8 = NTLM_MSG_CHALLENGE) (h48 : 48 ≤ msg.length) :
    Settles (parse msg) ↔ BuffersFit msg := by
  rw [parse_whole hmagic htype h48]
  by_cases htarget : (targetBuffer msg).Inside msg
  · rcases Buffer.extractString_cases htarget (unicode msg) with
      ⟨htext, hwhole, s, hs⟩ | ⟨hodd, hs⟩ | ⟨htext, hwhole, hs⟩
    · rw [hs]
      by_cases hinfo : (infoBuffer msg).Inside msg
      · rw [Buffer.extract_inside hinfo]
        exact iff_of_true (settles_ok _) ⟨htarget, hwhole, fun _ => hinfo⟩
      · rw [Buffer.extract_outside hinfo]
        exact iff_of_false not_settles_panic fun h => hinfo (h.info htext)
    · rw [hs]
      exact iff_of_false not_settles_panic fun h => h.whole hodd
    · rw [hs]
      exact iff_of_true settles_refused ⟨htarget, hwhole, fun h => absurd h htext⟩
  · unfold Buffer.extractString
    rw [Buffer.extract_outside htarget]
    exact iff_of_false not_settles_panic fun h => htarget h.target

/-- Which messages the parser gets through. -/
theorem settles_iff (msg : Bytes) : Settles (parse msg) ↔ BlobFits msg := by
  unfold BlobFits
  by_cases h8 : 8 ≤ msg.length
  · by_cases hmagic : msg.take 8 = NTLMSSP_MAGIC
    · by_cases h12 : 12 ≤ msg.length
      · by_cases htype : u32At msg 8 = NTLM_MSG_CHALLENGE
        · by_cases h48 : 48 ≤ msg.length
          · rw [buffers_settle_iff hmagic htype h48]
            simp [h8, hmagic, h12, htype, h48]
          · rw [parse, fields_noBuffers hmagic h12 htype h48]
            exact iff_of_false not_settles_panic fun h => h48 ((h.2 hmagic).2 htype).1
        · rw [parse, fields_otherType hmagic h12 htype]
          exact iff_of_true settles_refused ⟨h8, fun _ => ⟨h12, fun h => absurd h htype⟩⟩
      · rw [parse, fields_noType h8 hmagic h12]
        exact iff_of_false not_settles_panic fun h => h12 (h.2 hmagic).1
    · rw [parse, fields_otherMagic h8 hmagic]
      exact iff_of_true settles_refused ⟨h8, fun h => absurd h hmagic⟩
  · rw [parse, fields_short h8]
    exact iff_of_false not_settles_panic fun h => h8 h.1

end ChallengeMsg

/-! ### Decoding inverts encoding -/

def encodeText (unicode : Bool) (text : String) : Bytes :=
  if unicode then encodeUtf16Le text else asBytes text

theorem Buffer.extractString_placed {buffer : Buffer} {msg : Bytes} (unicode : Bool) (text : String)
    (h : Placed msg buffer.position (encodeText unicode text))
    (hlen : buffer.length = (encodeText unicode text).length) :
    buffer.extractString msg unicode = .ok text := by
  obtain ⟨hinside, hcontent⟩ := Buffer.placed_content h hlen
  rw [Buffer.extractString_eq hinside, hcontent, encodeText]
  cases unicode with
  | true =>
    rw [if_pos rfl, if_pos rfl, decodeUtf16Le_encode]
    exact congrArg Except.ok String.ofList_toList
  | false =>
    rw [if_neg Bool.false_ne_true, if_neg Bool.false_ne_true, fromUtf8_asBytes]

/-- What a server puts into a challenge, and where it puts the two payloads. -/
structure Challenge where
  target : String
  flags : UInt32
  challenge : Vector UInt8 8
  context : Vector UInt8 8
  info : Bytes
  targetCapacity : UInt16
  targetPosition : UInt32
  infoCapacity : UInt16
  infoPosition : UInt32
  target_length : (encodeText (contains flags Flags.UNICODE) target).length ≤ 65535
  info_length : info.length ≤ 65535

namespace Challenge

def rawTarget (c : Challenge) : Bytes := encodeText (contains c.flags Flags.UNICODE) c.target

/-- The part of the message in front of the payloads. -/
def fixedPart (c : Challenge) : Bytes :=
  NTLMSSP_MAGIC ++ (putU32Le NTLM_MSG_CHALLENGE ++
    (Buffer.descriptor (UInt16.ofNat c.rawTarget.length) c.targetCapacity c.targetPosition ++
      (putU32Le c.flags ++ (c.challenge.toList ++ (c.context.toList ++
        Buffer.descriptor (UInt16.ofNat c.info.length) c.infoCapacity c.infoPosition)))))

theorem fields_eq (c : Challenge) (rest : Bytes) :
    ChallengeMsg.fields (c.fixedPart ++ rest) =
      .ok ((⟨c.rawTarget.length, c.targetCapacity.toNat, c.targetPosition.toNat⟩,
        c.flags &&& Flags.all, c.challenge.toList,
        ⟨c.info.length, c.infoCapacity.toNat, c.infoPosition.toNat⟩), rest) := by
  have htarget := ofNat16_toNat (Nat.lt_succ_of_le c.target_length)
  have hinfo := ofNat16_toNat (Nat.lt_succ_of_le c.info_length)
  unfold ChallengeMsg.fields fixedPart
  simp only [List.append_assoc]
  rw [copyToBytes_bind _ _ _ _ rfl, if_neg (not_not.mpr rfl), getU32Le_bind,
    if_neg (not_not.mpr rfl), Buffer.parse_bind, getU32Le_bind,
    copyToBytes_bind _ _ _ _ c.challenge.length_toList, advance_bind _ _ _ _ c.context.length_toList,
    Buffer.parse_bind, hinfo]
  rw [← rawTarget] at htarget
  rw [htarget]
  rfl

end Challenge

/-- The flags that are kept decide like the flags that were sent. -/
theorem contains_truncated (flags : UInt32) :
    contains (flags &&& Flags.all) Flags.UNICODE = contains flags Flags.UNICODE := by
  have hall : Flags.all &&& Flags.UNICODE = Flags.UNICODE := rfl
  unfold contains
  rw [UInt32.and_assoc, hall]

/-- Wherever the two payloads are in the message, the parser finds them: it returns the target,
the challenge and the info that were sent, and the flags that it knows. -/
theorem challenge_decoded (c : Challenge) (msg : Bytes) (hfixed : c.fixedPart <+: msg)
    (htarget : Placed msg c.targetPosition.toNat c.rawTarget)
    (hinfo : Placed msg c.infoPosition.toNat c.info) :
    ChallengeMsg.parse msg =
      .ok ⟨c.target, c.flags &&& Flags.all, c.challenge.toList, c.info⟩ := by
  obtain ⟨rest, hmsg⟩ := hfixed
  have hfields := c.fields_eq rest
  rw [hmsg] at hfields
  rw [ChallengeMsg.parse, hfields]
  change (Buffer.extractString _ msg (contains (c.flags &&& Flags.all) Flags.UNICODE) >>= _) = _
  rw [contains_truncated, Buffer.extractString_placed _ c.target htarget rfl]
  change (Buffer.extract _ msg >>= _) = _
  rw [Buffer.extract_placed hinfo rfl]
  rfl

def smallChallenge : Challenge where
  target := "A"
  flags := Flags.UNICODE ||| 0x00000008
  challenge := ⟨#[1, 2, 3, 4, 5, 6, 7, 8], rfl⟩
  context := ⟨#[0, 0, 0, 0, 0, 0, 0, 0], rfl⟩
  info := [7, 7, 7]
  targetCapacity := 64
  targetPosition := 52
  infoCapacity := 0
  infoPosition := 49
  target_length := by decide
  info_length := by decide

/-- The info in front of the target, a byte of gap before it and one behind, and a flag that the
client does not know. -/
theorem challenge_decoded_small :
    ChallengeMsg.parse (smallChallenge.fixedPart ++ [0xff, 7, 7, 7, 0x41, 0, 0xff]) =
      .ok ⟨"A", Flags.UNICODE, [1, 2, 3, 4, 5, 6, 7, 8], [7, 7, 7]⟩ :=
  challenge_decoded smallChallenge _ (List.prefix_append _ _)
    ⟨smallChallenge.fixedPart ++ [0xff, 7, 7, 7], [0xff], rfl, rfl⟩
    ⟨smallChallenge.fixedPart ++ [0xff], [0x41, 0, 0xff], rfl, rfl⟩

/-! ### The DES step -/

theorem expandDesKey_fits {secret : Bytes} (h : secret.length ≤ 7) :
    ∃ key, expandDesKey secret = .ok key := by
  unfold expandDesKey
  rw [if_pos h]
  exact ⟨_, rfl⟩

namespace Auth

variable (crypto : Crypto)

theorem desOneshot_block (secret : Bytes) {input : Bytes} (hsecret : secret.length ≤ 7)
    (h : input.length = 8) : ∃ out, desOneshot crypto secret input = .ok out := by
  obtain ⟨key, hkey⟩ := expandDesKey_fits hsecret
  unfold desOneshot
  rw [hkey]
  exact ⟨_, dif_pos h⟩

theorem desOneshot_other {secret input : Bytes} (hsecret : secret.length ≤ 7)
    (h : input.length ≠ 8) : desOneshot crypto secret input = .error .panic := by
  obtain ⟨key, hkey⟩ := expandDesKey_fits hsecret
  unfold desOneshot
  rw [hkey]
  exact dif_neg h

theorem ntlmv1_block (auth : Auth) {challenge : Bytes} (h : challenge.length = 8) :
    ∃ secret, auth.ntlmv1Authenticate crypto challenge = .ok secret := by
  have hhash : (auth.ntlmHash crypto).toList.length = 16 := Vector.length_toList
  obtain ⟨first, h1⟩ := desOneshot_block crypto ((auth.ntlmHash crypto).toList.take 7)
    (by rw [List.length_take]; omega) h
  obtain ⟨second, h2⟩ := desOneshot_block crypto
    (((auth.ntlmHash crypto).toList.drop 7).take 7) (by rw [List.length_take]; omega) h
  obtain ⟨third, h3⟩ := desOneshot_block crypto ((auth.ntlmHash crypto).toList.drop 14)
    (by rw [List.length_drop]; omega) h
  unfold ntlmv1Authenticate
  dsimp only
  rw [h1, h2, h3]
  exact ⟨_, rfl⟩

theorem ntlmv1_other (auth : Auth) {challenge : Bytes} (h : challenge.length ≠ 8) :
    auth.ntlmv1Authenticate crypto challenge = .error .panic := by
  unfold ntlmv1Authenticate
  dsimp only
  rw [desOneshot_other crypto (by rw [List.length_take]; omega) h]
  rfl

end Auth

end CifsClientStream.Ntlm
