import CifsClientStream.Cifs.BufferSize

/-!
# The character set of a message (src/lib.rs, src/smb/msg.rs, src/smb/trans2/subcmd)

`send` announces in the header whether the strings of a message are UTF-16 or
single bytes; the encoders of the message types each write their strings in a
way of their own. What they write is compared with what is announced, at the
place where the message has its strings.
-/

namespace CifsClientStream.Cifs
open Cursor Async Smb Win Utils

/-! ### Texts -/

/-- One byte for each character and a zero; characters of ASCII are their own code. -/
def SingleByte (s : String) (b : Bytes) : Prop :=
  ∃ text, b = text ++ [0] ∧
    List.Forall₂ (fun (c : Char) (x : UInt8) => c.toNat < 128 → x.toNat = c.toNat) s.toList text

/-- `b` is `s` in the character set that the header announces. -/
def Announced (unicode : Bool) (s : String) (b : Bytes) : Prop :=
  if unicode then b = encodeUtf16Le0 s else SingleByte s b

def Ascii (s : String) : Prop := ∀ c ∈ s.toList, c.toNat < 128

instance (s : String) : Decidable (Ascii s) :=
  List.decidableBAll (fun c : Char => c.toNat < 128) s.toList

theorem utf8_length (cs : List Char) :
    cs.length ≤ (cs.flatMap String.utf8EncodeChar).length ∧
      ((cs.flatMap String.utf8EncodeChar).length = cs.length → ∀ c ∈ cs, c.toNat < 128) := by
  induction cs with
  | nil => exact ⟨le_rfl, fun _ _ h => nomatch h⟩
  | cons c cs ih =>
    have hpos := c.utf8Size_pos
    have hlen := String.length_utf8EncodeChar c
    rw [List.flatMap_cons, List.length_append, List.length_cons]
    refine ⟨by omega, fun h => ?_⟩
    have hc : c.toNat < 128 := (utf8_single c).mp (by omega)
    have hrest := ih.2 (by omega)
    intro x hx
    rcases List.mem_cons.mp hx with rfl | hx
    · exact hc
    · exact hrest x hx

theorem utf8_ascii (cs : List Char) (h : ∀ c ∈ cs, c.toNat < 128) :
    List.Forall₂ (fun (c : Char) (x : UInt8) => c.toNat < 128 → x.toNat = c.toNat) cs
      (cs.flatMap String.utf8EncodeChar) := by
  induction cs with
  | nil => exact .nil
  | cons c cs ih =>
    have hc := h c List.mem_cons_self
    have hsize : c.utf8Size = 1 := by
      rw [← String.length_utf8EncodeChar]
      exact (utf8_single c).mpr hc
    rw [List.flatMap_cons, String.utf8EncodeChar_eq_singleton hsize]
    refine .cons (fun _ => ?_) (ih fun x hx => h x (List.mem_cons_of_mem c hx))
    have hval : c.val.toNat < 128 := hc
    have hmod : c.val.toUInt8.toNat = c.val.toNat % 256 := UInt32.toNat_toUInt8 c.val
    rw [hmod]
    exact Nat.mod_eq_of_lt (by omega)

/-- UTF-8 is a single-byte text exactly as long as it is ASCII. -/
theorem singleByte_utf8 (s : String) : SingleByte s (asBytes s ++ [0]) ↔ Ascii s := by
  rw [asBytes_eq]
  constructor
  · intro h
    obtain ⟨text, htext, hall⟩ := h
    have heq := List.append_cancel_right htext
    apply (utf8_length s.toList).2
    rw [heq]
    exact hall.length_eq.symm
  · intro h
    exact ⟨_, rfl, utf8_ascii s.toList h⟩

theorem singleByte_length {s : String} {b : Bytes} (h : SingleByte s b) :
    b.length = s.toList.length + 1 := by
  obtain ⟨text, rfl, hall⟩ := h
  rw [List.length_append, List.length_singleton, hall.length_eq]

theorem utf16_length (s : String) : 2 * s.toList.length + 2 ≤ (encodeUtf16Le0 s).length := by
  have hchars : ∀ cs : List Char, 2 * cs.length ≤
      (cs.flatMap fun c => (encodeUtf16Char c).flatMap putU16Le).length := by
    intro cs
    induction cs with
    | nil => exact le_rfl
    | cons c cs ih =>
      have hc : 2 ≤ ((encodeUtf16Char c).flatMap putU16Le).length := by
        unfold encodeUtf16Char
        split
        · simp [putU16Le]
        · simp [putU16Le]
      rw [List.flatMap_cons, List.length_append, List.length_cons]
      omega
  have h := hchars s.toList
  rw [encodeUtf16Le0, encodeUtf16Le, List.length_append]
  simp only [List.length_cons, List.length_nil]
  omega

/-! ### Where a message has its strings -/

def strings : Message → List String
  | .sessionSetup m => match m.mode with
    | .classic user domain _ => [user, domain]
    | .extended _ => []
  | .treeConnect m => [m.path]
  | .openFile m => [m.filename]
  | .findFirst m => [m.subcmd.filename]
  | .findNext m => [m.subcmd.filename]
  | _ => []

/-- The parameters of a transaction, found in the data block by the count and the offset in
the words. -/
def located (p d : Bytes) : Bytes :=
  (d.drop ((u16At p 20).toNat - 65)).take (u16At p 18).toNat

/-- The part of the message that begins with its strings: behind the two passwords and the
padding, behind the password of the share and its padding, behind the padding of the name, or
behind the twelve bytes of a search. -/
def fromStrings (unicode : Bool) (m : Message) (p d : Bytes) : Bytes :=
  match m with
  | .sessionSetup m => match m.mode with
    | .classic _ _ _ => d.drop 49
    | .extended _ => []
  | .treeConnect m => d.drop (Message.passwordLength m.password +
      if unicode && Message.passwordLength m.password % 2 == 0 then 1 else 0)
  | .openFile _ => d.drop 1
  | .findFirst _ => (located p d).drop 12
  | .findNext _ => (located p d).drop 12
  | _ => []

/-- What follows the strings: the names of the client's system, or the service. -/
def behindStrings (unicode : Bool) (m : Message) : Bytes :=
  match m with
  | .sessionSetup m => match m.mode with
    | .classic _ _ _ => if unicode then putU16Le 0 ++ putU16Le 0 else putBytes 0 2
    | .extended _ => []
  | .treeConnect _ => putBytes 0x3f 5 ++ [0]
  | _ => []

/-- The strings of the message stand at their place in the character set announced. -/
def Written (unicode : Bool) (m : Message) (p d : Bytes) : Prop :=
  ∃ blocks, List.Forall₂ (Announced unicode) (strings m) blocks ∧
    fromStrings unicode m p d = blocks.flatten ++ behindStrings unicode m

/-- What the encoders write for the strings. -/
def encoded (unicode : Bool) (m : Message) : List Bytes :=
  match m with
  | .treeConnect m => if unicode then [encodeUtf16Le0 m.path] else [asBytes m.path ++ [0]]
  | m => (strings m).map encodeUtf16Le0

theorem sessionSetup_strings {m : Msg.SessionSetup} {info : Info} {p d : Bytes}
    (h : Msg.SessionSetup.body m info = .ok (p, d)) :
    fromStrings (contains info.flags2 Flags2.UNICODE) (.sessionSetup m) p d =
      (encoded (contains info.flags2 Flags2.UNICODE) (.sessionSetup m)).flatten ++
        behindStrings (contains info.flags2 Flags2.UNICODE) (.sessionSetup m) := by
  obtain ⟨maxBufferSize, maxMpxCount, vcNumber, sessionKey, capabilities, mode⟩ := m
  cases mode with
  | extended blob => rfl
  | classic user domain secret =>
    obtain ⟨lengths, _, hok⟩ := except_bind_ok.mp h
    cases hok
    have hsecret : secret.toList.length = 24 := secret.length_toList
    have hpasswords : (secret.toList ++ secret.toList ++ [0]).length = 49 := by
      simp only [List.length_append, hsecret, List.length_singleton]
    have hdrop : ∀ rest, (secret.toList ++ secret.toList ++ [0] ++ rest).drop 49 = rest :=
      fun rest => List.drop_left' hpasswords
    have heven : (secret.toList ++ secret.toList).length % 2 = 0 := by
      rw [List.length_append, hsecret]
    simp only [List.append_assoc] at hdrop
    simp only [fromStrings, encoded, strings, behindStrings, Msg.SessionSetup.modeData, heven,
      if_true, List.append_assoc, List.map_cons, List.map_nil, List.flatten_cons,
      List.flatten_nil, List.nil_append]
    rw [hdrop]

theorem treeConnect_strings {m : Msg.TreeConnect} {info : Info} {p d : Bytes}
    (h : Msg.TreeConnect.body m info = .ok (p, d)) :
    fromStrings (contains info.flags2 Flags2.UNICODE) (.treeConnect m) p d =
      (encoded (contains info.flags2 Flags2.UNICODE) (.treeConnect m)).flatten ++
        behindStrings (contains info.flags2 Flags2.UNICODE) (.treeConnect m) := by
  obtain ⟨path, password, flags⟩ := m
  obtain ⟨passwordLength, _, hok⟩ := except_bind_ok.mp h
  cases hok
  have hlen := treeConnect_password password
  unfold fromStrings encoded behindStrings
  rw [hlen]
  cases contains info.flags2 Flags2.UNICODE with
  | false =>
    simp only [Bool.false_and, Bool.false_eq_true, if_false, Nat.add_zero, List.append_assoc]
    rw [← hlen, List.drop_left]
    simp
  | true =>
    by_cases heven : Message.passwordLength password % 2 = 0
    · simp only [heven, Bool.true_and, beq_self_eq_true, if_true, List.append_assoc]
      rw [← hlen, ← List.drop_drop, List.drop_left]
      simp [encodeUtf16Le0, putU16Le, leBytes]
    · simp only [heven, Bool.true_and, beq_iff_eq, if_false, if_true, Nat.add_zero,
        List.append_assoc, List.nil_append]
      rw [← hlen, List.drop_left]
      simp [encodeUtf16Le0, putU16Le, leBytes]

/-- A transaction announces where its parameters are. -/
theorem located_request (C : Type) [SubCmd C] (parameter data : Bytes)
    (h : parameter.length < 65536) :
    located (requestWords C parameter.length data.length) (requestData parameter data) = parameter := by
  have hcount : u16At (requestWords C parameter.length data.length) 18 =
      UInt16.ofNat parameter.length := by
    rw [requestWords]
    simp only [List.append_assoc]
    exact u16At_put (putU16Le (UInt16.ofNat parameter.length) ++ (putU16Le (UInt16.ofNat data.length) ++
      (putU16Le (SubCmd.MAX_PARAM_COUNT C) ++ (putU16Le (SubCmd.MAX_DATA_COUNT C) ++
        (putU8 (SubCmd.MAX_SETUP_COUNT C) ++ (putU8 0 ++ (putU16Le 0 ++ (putU32Le 0 ++
          putU16Le 0)))))))) _ _
  have hoffset : u16At (requestWords C parameter.length data.length) 20 = UInt16.ofNat 68 := by
    rw [requestWords]
    simp only [List.append_assoc]
    exact u16At_put (putU16Le (UInt16.ofNat parameter.length) ++ (putU16Le (UInt16.ofNat data.length) ++
      (putU16Le (SubCmd.MAX_PARAM_COUNT C) ++ (putU16Le (SubCmd.MAX_DATA_COUNT C) ++
        (putU8 (SubCmd.MAX_SETUP_COUNT C) ++ (putU8 0 ++ (putU16Le 0 ++ (putU32Le 0 ++
          (putU16Le 0 ++ putU16Le (UInt16.ofNat parameter.length)))))))))) _ _
  rw [located, hcount, hoffset, ofNat16_toNat h, requestData]
  change ((parameter ++ _).take parameter.length) = parameter
  exact List.take_left

theorem transact2_located {C : Type} [SubCmd C] {m : Msg.Transact2 C} {info : Info} {p d : Bytes}
    (h : Msg.body m info = .ok (p, d)) : located p d = SubCmd.parameter m.subcmd := by
  obtain ⟨-, hround, rfl, rfl⟩ := transact2_ok h
  unfold roundUp4n at hround
  exact located_request C _ _ (by omega)

/-- The strings stand at their place, each in the set its encoder has chosen. -/
theorem fromStrings_eq {m : Message} {info : Info} {p d : Bytes} (h : m.body info = .ok (p, d)) :
    fromStrings (contains info.flags2 Flags2.UNICODE) m p d =
      (encoded (contains info.flags2 Flags2.UNICODE) m).flatten ++
        behindStrings (contains info.flags2 Flags2.UNICODE) m := by
  cases m with
  | sessionSetup m => exact sessionSetup_strings h
  | treeConnect m => exact treeConnect_strings h
  | openFile m =>
    obtain ⟨filenameLength, _, hok⟩ := except_bind_ok.mp (h : Msg.Open.body m info = .ok (p, d))
    cases hok
    simp [fromStrings, encoded, strings, behindStrings]
  | findFirst m =>
    have hloc := transact2_located (m := m) h
    unfold fromStrings
    dsimp only
    rw [hloc]
    simp [SubCmd.parameter, encoded, strings, behindStrings, putU16Le, putU32Le, leBytes]
  | findNext m =>
    have hloc := transact2_located (m := m) h
    unfold fromStrings
    dsimp only
    rw [hloc]
    simp [SubCmd.parameter, encoded, strings, behindStrings, putU16Le, putU32Le, leBytes]
  | negotiate m => rfl
  | treeDisconnect m => rfl
  | close m => rfl
  | read m => rfl

/-! ### What is announced and what is written -/

theorem announced_true (s : String) (b : Bytes) : Announced true s b ↔ b = encodeUtf16Le0 s := by
  simp [Announced]

theorem announced_false (s : String) (b : Bytes) : Announced false s b ↔ SingleByte s b := by
  simp [Announced]

theorem encoded_unicode (m : Message) : encoded true m = (strings m).map encodeUtf16Le0 := by
  cases m with
  | treeConnect m => rfl
  | _ => rfl

theorem encoded_announced (m : Message) :
    List.Forall₂ (Announced true) (strings m) (encoded true m) := by
  rw [encoded_unicode]
  induction strings m with
  | nil => exact .nil
  | cons s rest ih => exact .cons ((announced_true s _).mpr rfl) ih

theorem written_iff {m : Message} {info : Info} {p d : Bytes} (h : m.body info = .ok (p, d)) :
    Written (contains info.flags2 Flags2.UNICODE) m p d ↔
      ∃ blocks, List.Forall₂ (Announced (contains info.flags2 Flags2.UNICODE)) (strings m) blocks ∧
        (encoded (contains info.flags2 Flags2.UNICODE) m).flatten = blocks.flatten := by
  unfold Written
  rw [fromStrings_eq h]
  simp only [List.append_left_inj]

theorem singleBytes_length {names : List String} {blocks : List Bytes}
    (h : List.Forall₂ (Announced false) names blocks) :
    blocks.flatten.length = (names.map fun s => s.toList.length + 1).sum := by
  induction h with
  | nil => rfl
  | cons hs _ ih =>
    rw [announced_false] at hs
    rw [List.flatten_cons, List.length_append, ih, singleByte_length hs, List.map_cons,
      List.sum_cons]

theorem utf16s_length (names : List String) :
    (names.map fun s => s.toList.length + 1).sum + names.length ≤
      (names.map encodeUtf16Le0).flatten.length := by
  induction names with
  | nil => exact le_rfl
  | cons s rest ih =>
    have hs := utf16_length s
    simp only [List.map_cons, List.sum_cons, List.flatten_cons, List.length_append,
      List.length_cons]
    omega

/-- UTF-16 is never taken for single bytes: it is longer. -/
theorem utf16_not_announced {names : List String} {blocks : List Bytes} (hne : names ≠ [])
    (h : List.Forall₂ (Announced false) names blocks) :
    (names.map encodeUtf16Le0).flatten ≠ blocks.flatten := by
  intro heq
  have hlong := utf16s_length names
  have hlen := singleBytes_length h
  have hpos := List.length_pos_of_ne_nil hne
  rw [heq] at hlong
  omega

theorem encoded_other {m : Message} (h : ∀ t, m ≠ .treeConnect t) (unicode : Bool) :
    encoded unicode m = (strings m).map encodeUtf16Le0 := by
  cases m with
  | treeConnect t => exact absurd rfl (h t)
  | _ => rfl

/-- Strings are sent in the announced set in a Unicode session, and in any other one only where
there is none and in the path of a share that is ASCII: all encoders but that of `TreeConnect`
write UTF-16 whatever the header says, and that one writes UTF-8. -/
theorem written_announced_iff (m : Message) (c : Cifs) (p d : Bytes)
    (h : m.body (messageHeader m c) = .ok (p, d)) :
    Written (contains (messageHeader m c).flags2 Flags2.UNICODE) m p d ↔
      c.useUnicode = true ∨ strings m = [] ∨ ∃ t, m = .treeConnect t ∧ Ascii t.path := by
  rw [written_iff h, messageHeader_unicode]
  cases hu : c.useUnicode with
  | true =>
    simp only [true_or, iff_true]
    exact ⟨_, encoded_announced m, rfl⟩
  | false =>
    simp only [Bool.false_eq_true, false_or]
    by_cases hconnect : ∃ t, m = .treeConnect t
    · obtain ⟨t, rfl⟩ := hconnect
      have hencoded : (encoded false (.treeConnect t)).flatten = asBytes t.path ++ [0] := by
        simp [encoded]
      rw [hencoded]
      simp only [strings, List.cons_ne_self, false_or, Message.treeConnect.injEq,
        exists_eq_left']
      rw [← singleByte_utf8]
      constructor
      · intro h
        obtain ⟨blocks, hall, heq⟩ := h
        cases hall with
        | cons hs hrest =>
          cases hrest
          rw [announced_false] at hs
          rw [heq]
          simpa using hs
      · intro hs
        exact ⟨[asBytes t.path ++ [0]], .cons ((announced_false _ _).mpr hs) .nil, by simp⟩
    · have hother : ∀ t, m ≠ .treeConnect t := fun t ht => hconnect ⟨t, ht⟩
      rw [encoded_other hother]
      constructor
      · intro h
        obtain ⟨blocks, hall, heq⟩ := h
        left
        by_contra hne
        exact utf16_not_announced hne hall heq
      · intro h
        rcases h with hnil | ⟨t, ht, _⟩
        · rw [hnil]
          exact ⟨[], .nil, rfl⟩
        · exact absurd ht (hother t)

/-- A server without Unicode is sent the name of a file in UTF-16. -/
theorem filename_not_announced :
    ∃ p d, (Message.openFile (.fileRo 1 "a.mkv")).body
        (messageHeader (.openFile (.fileRo 1 "a.mkv")) { fresh noAuth with useUnicode := false }) =
          .ok (p, d) ∧
      d = [0, 0x61, 0, 0x2e, 0, 0x6d, 0, 0x6b, 0, 0x76, 0, 0, 0] ∧
      ¬Written (contains (messageHeader (.openFile (.fileRo 1 "a.mkv"))
        { fresh noAuth with useUnicode := false }).flags2 Flags2.UNICODE)
          (.openFile (.fileRo 1 "a.mkv")) p d := by
  obtain ⟨p, d, hbody, hd⟩ : ∃ p d, (Message.openFile (.fileRo 1 "a.mkv")).body
      (messageHeader (.openFile (.fileRo 1 "a.mkv")) { fresh noAuth with useUnicode := false }) =
        .ok (p, d) ∧ d = [0, 0x61, 0, 0x2e, 0, 0x6d, 0, 0x6b, 0, 0x76, 0, 0, 0] :=
    ⟨_, _, rfl, by decide⟩
  refine ⟨p, d, hbody, hd, fun h => ?_⟩
  rw [written_iff hbody, messageHeader_unicode] at h
  obtain ⟨blocks, hall, heq⟩ := h
  exact utf16_not_announced (by simp [strings]) hall heq

/-- The path of a share is ASCII, and is sent in single bytes. -/
theorem written_announced_share :
    ∃ p d, Written (contains (messageHeader (.treeConnect (.new "\\\\nas\\media" ""))
      { fresh noAuth with useUnicode := false }).flags2 Flags2.UNICODE)
        (.treeConnect (.new "\\\\nas\\media" "")) p d := by
  obtain ⟨p, d, hbody⟩ : ∃ p d, (Message.treeConnect (.new "\\\\nas\\media" "")).body
      (messageHeader (.treeConnect (.new "\\\\nas\\media" ""))
        { fresh noAuth with useUnicode := false }) = .ok (p, d) := ⟨_, _, rfl⟩
  refine ⟨p, d, (written_announced_iff _ _ p d hbody).mpr (Or.inr (Or.inr ⟨_, rfl, ?_⟩))⟩
  decide

end CifsClientStream.Cifs
