import CifsClientStream.Ntlm.Challenge

/-!
# Packets (src/ntlm/packet.rs, src/ntlm/buffer.rs)

A packet is put together by any sequence of calls. A call that appends a
payload leaves a descriptor in the fixed part, which counts from the first
payload as long as the fixed part grows; `to_bytes` moves all of them behind
the fixed part. Every descriptor then points at its payload.
-/

namespace CifsClientStream.Ntlm
open Cursor Utils Win Smb

/-- A call that appends to a packet. -/
inductive Append where
  | binary (data : Bytes)
  | u32 (value : UInt32)
  | buffer (data : Bytes)
  | string (msg : String) (unicode : Bool)

namespace Append

def apply (p : Packet) : Append → Packet
  | binary data => p.appendBinary data
  | u32 value => p.appendU32 value
  | buffer data => p.appendBuffer data
  | string msg unicode => p.appendString msg unicode

/-- What stands in the fixed part itself. -/
def inPlace : Append → Option Bytes
  | binary data => some data
  | u32 value => some (putU32Le value)
  | _ => none

/-- What stands behind the fixed part. -/
def payload : Append → Option Bytes
  | buffer data => some data
  | string msg unicode => some (encodeText unicode msg)
  | _ => none

/-- The bytes in the fixed part; a descriptor has 8. -/
def fixedLength (call : Append) : ℕ := (call.inPlace.map List.length).getD 8

def behind (call : Append) : Bytes := call.payload.getD []

/-- The entry of a call that finds `extra` bytes of payloads. -/
def entry (extra : ℕ) (call : Append) : PacketEntry :=
  match call.inPlace with
  | some data => .Binary data
  | none => .Buffer ⟨call.behind.length, call.behind.length, extra⟩

theorem entry_len (extra : ℕ) (call : Append) : (call.entry extra).len = call.fixedLength := by
  cases call with
  | binary data => rfl
  | u32 value => rfl
  | buffer data => rfl
  | string msg unicode => rfl

theorem apply_eq (p : Packet) (call : Append) :
    apply p call = ⟨p.entries ++ [call.entry p.extra.length], p.extra ++ call.behind⟩ := by
  cases call with
  | binary data =>
    change (⟨_, p.extra⟩ : Packet) = ⟨_, p.extra ++ []⟩
    rw [List.append_nil]
    rfl
  | u32 value =>
    change (⟨_, p.extra⟩ : Packet) = ⟨_, p.extra ++ []⟩
    rw [List.append_nil]
    rfl
  | buffer data => rfl
  | string msg unicode =>
    cases unicode with
    | true => rfl
    | false => rfl

/-- What a call writes into the fixed part, its payload being at `position` of the output. -/
def written (position : ℕ) (call : Append) : Bytes :=
  match call.inPlace with
  | some data => data
  | none => Buffer.descriptor (UInt16.ofNat call.behind.length) (UInt16.ofNat call.behind.length)
      (UInt32.ofNat position)

theorem written_length (position : ℕ) (call : Append) :
    (call.written position).length = call.fixedLength := by
  cases call with
  | binary data => rfl
  | u32 value => rfl
  | buffer data => rfl
  | string msg unicode => rfl

/-- A call appends in place or behind the fixed part. -/
theorem payload_cases (call : Append) :
    (call.payload = none ∧ ∃ data, call.inPlace = some data ∧ call.behind = []) ∨
      (call.inPlace = none ∧ call.payload = some call.behind) := by
  cases call with
  | binary data => exact Or.inl ⟨rfl, data, rfl, rfl⟩
  | u32 value => exact Or.inl ⟨rfl, _, rfl, rfl⟩
  | buffer data => exact Or.inr ⟨rfl, rfl⟩
  | string msg unicode => exact Or.inr ⟨rfl, rfl⟩

theorem payload_behind {call : Append} {raw : Bytes} (h : call.payload = some raw) :
    call.behind = raw := by
  rw [behind, h]
  rfl

/-- Length and position fit into the fields of the descriptor, if there is one. -/
def Fits (position : ℕ) (call : Append) : Prop :=
  ∀ raw, call.payload = some raw → raw.length < 2 ^ 16 ∧ position < 2 ^ 32

theorem write_fits {call : Append} {offset extra : ℕ} (h : call.Fits (offset + extra))
    (rest : List PacketEntry) :
    Packet.writeEntries offset (call.entry extra :: rest) =
      (Packet.writeEntries offset rest >>= fun out =>
        .ok (call.written (offset + extra) ++ out)) := by
  rcases call.payload_cases with ⟨_, data, hplace, _⟩ | ⟨hplace, hpayload⟩
  · rw [entry, written, hplace]
    rfl
  · obtain ⟨hlen, hposition⟩ := h _ hpayload
    have hwrite : (⟨call.behind.length, call.behind.length, extra⟩ : Buffer).write offset =
        .ok (Buffer.descriptor (UInt16.ofNat call.behind.length)
          (UInt16.ofNat call.behind.length) (UInt32.ofNat (offset + extra))) :=
      if_pos ⟨hlen, hlen, hposition⟩
    rw [entry, written, hplace]
    dsimp only
    rw [Packet.writeEntries, hwrite]
    rfl

theorem write_refused {call : Append} {offset extra : ℕ} (h : ¬call.Fits (offset + extra))
    (rest : List PacketEntry) :
    Packet.writeEntries offset (call.entry extra :: rest) = .error numericConversion := by
  rcases call.payload_cases with ⟨hpayload, _⟩ | ⟨hplace, hpayload⟩
  · refine absurd (fun raw hraw => ?_) h
    rw [hpayload] at hraw
    cases hraw
  · have hnot : ¬(call.behind.length < 2 ^ 16 ∧ call.behind.length < 2 ^ 16 ∧
        offset + extra < 2 ^ 32) := by
      intro ⟨hlen, _, hposition⟩
      refine h fun raw hraw => ?_
      rw [hpayload] at hraw
      cases hraw
      exact ⟨hlen, hposition⟩
    have hwrite : (⟨call.behind.length, call.behind.length, extra⟩ : Buffer).write offset =
        .error numericConversion := if_neg hnot
    rw [entry, hplace]
    dsimp only
    rw [Packet.writeEntries, hwrite]
    rfl

end Append

/-! ### The entries of a packet -/

/-- The packet of a sequence of calls. -/
def Packet.build (calls : List Append) : Packet := calls.foldl Append.apply .new

def entries : ℕ → List Append → List PacketEntry
  | _, [] => []
  | extra, call :: rest => call.entry extra :: entries (extra + call.behind.length) rest

def payloads (calls : List Append) : Bytes := calls.flatMap Append.behind

theorem payloads_append (xs ys : List Append) :
    payloads (xs ++ ys) = payloads xs ++ payloads ys := List.flatMap_append

def fixedLength (calls : List Append) : ℕ := (calls.map Append.fixedLength).sum

/-- The fixed parts of the calls, the first payload being at `position` of the output. -/
def fixedPart : ℕ → List Append → Bytes
  | _, [] => []
  | position, call :: rest =>
    call.written position ++ fixedPart (position + call.behind.length) rest

theorem foldl_apply (calls : List Append) (p : Packet) :
    calls.foldl Append.apply p =
      ⟨p.entries ++ entries p.extra.length calls, p.extra ++ payloads calls⟩ := by
  induction calls generalizing p with
  | nil => simp [entries, payloads]
  | cons call rest ih =>
    rw [List.foldl_cons, ih, Append.apply_eq, List.append_assoc, List.append_assoc,
      List.length_append]
    rfl

theorem build_eq (calls : List Append) :
    Packet.build calls = ⟨entries 0 calls, payloads calls⟩ := foldl_apply calls .new

theorem entries_len (extra : ℕ) (calls : List Append) :
    ((entries extra calls).map PacketEntry.len).sum = fixedLength calls := by
  induction calls generalizing extra with
  | nil => rfl
  | cons call rest ih =>
    rw [entries, List.map_cons, List.sum_cons, ih, Append.entry_len]
    rfl

theorem fixedPart_length (position : ℕ) (calls : List Append) :
    (fixedPart position calls).length = fixedLength calls := by
  induction calls generalizing position with
  | nil => rfl
  | cons call rest ih =>
    rw [fixedPart, List.length_append, ih, Append.written_length]
    rfl

/-! ### Places -/

/-- Where the part of the call `i` in the fixed part starts. -/
def placeOf (calls : List Append) (i : ℕ) : ℕ := fixedLength (calls.take i)

/-- Where the payload of the call `i` starts, counted from the first payload. -/
def extraOf (calls : List Append) (i : ℕ) : ℕ := (payloads (calls.take i)).length

/-- Where the payload of the call `i` starts in the output. -/
def positionOf (calls : List Append) (i : ℕ) : ℕ := fixedLength calls + extraOf calls i

theorem placeOf_succ (call : Append) (rest : List Append) (i : ℕ) :
    placeOf (call :: rest) (i + 1) = call.fixedLength + placeOf rest i := by
  rw [placeOf, List.take_succ_cons]
  rfl

theorem extraOf_succ (call : Append) (rest : List Append) (i : ℕ) :
    extraOf (call :: rest) (i + 1) = call.behind.length + extraOf rest i := by
  rw [extraOf, List.take_succ_cons, payloads, List.flatMap_cons, List.length_append]
  rfl

theorem placeOf_le (calls : List Append) (i : ℕ) : placeOf calls i ≤ fixedLength calls := by
  have hsplit := congrArg fixedLength (List.take_append_drop i calls)
  rw [fixedLength, List.map_append, List.sum_append] at hsplit
  rw [← hsplit]
  exact Nat.le_add_right _ _

theorem fixedPart_at {calls : List Append} {i : ℕ} {call : Append} (h : calls[i]? = some call)
    (position : ℕ) :
    call.written (position + extraOf calls i) <+: (fixedPart position calls).drop
      (placeOf calls i) := by
  induction calls generalizing i position with
  | nil => cases h
  | cons first rest ih =>
    cases i with
    | zero =>
      cases h
      exact List.prefix_append _ _
    | succ i =>
      have hrest := ih h (position + first.behind.length)
      rw [extraOf_succ, placeOf_succ, ← Nat.add_assoc, fixedPart, ← List.drop_drop,
        List.drop_left' (Append.written_length position first)]
      exact hrest

theorem payloads_at {calls : List Append} {i : ℕ} {call : Append} (h : calls[i]? = some call) :
    Placed (payloads calls) (extraOf calls i) call.behind := by
  refine ⟨payloads (calls.take i), payloads (calls.drop (i + 1)), ?_, rfl⟩
  obtain ⟨hi, hcall⟩ := List.getElem?_eq_some_iff.mp h
  have hsplit : calls = calls.take i ++ call :: calls.drop (i + 1) := by
    rw [← hcall, ← List.drop_eq_getElem_cons hi, List.take_append_drop]
  exact (congrArg payloads hsplit).trans (payloads_append _ _)

/-- A payload ends where the payloads of the later calls start, or before. -/
theorem extraOf_apart {calls : List Append} {i j : ℕ} {call : Append} (h : calls[i]? = some call)
    (hij : i < j) : extraOf calls i + call.behind.length ≤ extraOf calls j := by
  have hnext : extraOf calls (i + 1) = extraOf calls i + call.behind.length := by
    rw [extraOf, List.take_add_one, h, payloads_append, List.length_append]
    simp [extraOf, payloads]
  have htake : calls.take j = (calls.take j).take (i + 1) ++ (calls.take j).drop (i + 1) :=
    (List.take_append_drop _ _).symm
  rw [List.take_take, Nat.min_eq_left hij] at htake
  rw [← hnext, extraOf, extraOf, htake, payloads_append, List.length_append]
  exact Nat.le_add_right _ _

/-! ### Writing -/

/-- Every payload can be declared, the first one being at `position` of the output. -/
def Declares (position : ℕ) (calls : List Append) : Prop :=
  ∀ i raw, (calls[i]?).bind Append.payload = some raw →
    raw.length < 2 ^ 16 ∧ position + extraOf calls i < 2 ^ 32

theorem declares_nil (position : ℕ) : Declares position [] := by
  intro i raw h
  cases h

theorem declares_cons (position : ℕ) (call : Append) (rest : List Append) :
    Declares position (call :: rest) ↔
      call.Fits position ∧ Declares (position + call.behind.length) rest := by
  constructor
  · intro h
    refine ⟨fun raw hraw => h 0 raw hraw, fun i raw hraw => ?_⟩
    have hi := h (i + 1) raw hraw
    rw [extraOf_succ, ← Nat.add_assoc] at hi
    exact hi
  · intro ⟨hfirst, hrest⟩ i raw hraw
    cases i with
    | zero => exact hfirst raw hraw
    | succ i =>
      rw [extraOf_succ, ← Nat.add_assoc]
      exact hrest i raw hraw

theorem writeEntries_ok (offset extra : ℕ) (calls : List Append)
    (h : Declares (offset + extra) calls) :
    Packet.writeEntries offset (entries extra calls) = .ok (fixedPart (offset + extra) calls) := by
  induction calls generalizing extra with
  | nil => rfl
  | cons call rest ih =>
    obtain ⟨hfirst, hrest⟩ := (declares_cons _ _ _).mp h
    rw [entries, Append.write_fits hfirst, ih _ (by rw [← Nat.add_assoc]; exact hrest), fixedPart,
      ← Nat.add_assoc]
    rfl

theorem writeEntries_error (offset extra : ℕ) (calls : List Append)
    (h : ¬Declares (offset + extra) calls) :
    Packet.writeEntries offset (entries extra calls) = .error numericConversion := by
  induction calls generalizing extra with
  | nil => exact absurd (declares_nil _) h
  | cons call rest ih =>
    by_cases hfirst : call.Fits (offset + extra)
    · have hrest : ¬Declares (offset + (extra + call.behind.length)) rest := by
        rw [← Nat.add_assoc]
        exact fun hrest => h ((declares_cons _ _ _).mpr ⟨hfirst, hrest⟩)
      rw [entries, Append.write_fits hfirst, ih _ hrest]
      rfl
    · rw [entries, Append.write_refused hfirst]

theorem toBytes_eq (calls : List Append) : (Packet.build calls).toBytes =
    (Packet.writeEntries (fixedLength calls) (entries 0 calls) >>= fun out =>
      .ok (out ++ payloads calls)) := by
  rw [build_eq, Packet.toBytes, Packet.baseLen, entries_len]

theorem toBytes_ok {calls : List Append} (h : Declares (fixedLength calls) calls) :
    (Packet.build calls).toBytes =
      .ok (fixedPart (fixedLength calls) calls ++ payloads calls) := by
  rw [toBytes_eq, writeEntries_ok (fixedLength calls) 0 calls h]
  rfl

theorem toBytes_error {calls : List Append} (h : ¬Declares (fixedLength calls) calls) :
    (Packet.build calls).toBytes = .error numericConversion := by
  rw [toBytes_eq, writeEntries_error (fixedLength calls) 0 calls h]
  rfl

/-- Some payload is too long for its descriptor, or too far behind. -/
def Overruns (calls : List Append) : Prop :=
  ∃ i raw, (calls[i]?).bind Append.payload = some raw ∧
    (65535 < raw.length ∨ 2 ^ 32 ≤ positionOf calls i)

theorem declares_iff (calls : List Append) :
    Declares (fixedLength calls) calls ↔ ¬Overruns calls := by
  constructor
  · intro h ⟨i, raw, hraw, hover⟩
    obtain ⟨hlen, hposition⟩ := h i raw hraw
    unfold positionOf at hover
    omega
  · intro h i raw hraw
    by_contra hnot
    refine h ⟨i, raw, hraw, ?_⟩
    unfold positionOf
    omega

/-! ### Reading back -/

/-- The descriptor of the call `i`, read at its place, is a buffer that extracts `raw` from the
output; the payloads of later calls are behind it, and all behind the fixed part. -/
structure Described (out : Bytes) (calls : List Append) (i : ℕ) (raw : Bytes) : Prop where
  parsed : ∃ buffer rest, Buffer.parse (out.drop (placeOf calls i)) = .ok (buffer, rest) ∧
    buffer.position = positionOf calls i ∧ buffer.length = raw.length ∧
    buffer.extract out = .ok raw
  behind : fixedLength calls ≤ positionOf calls i
  apart : ∀ j, i < j → positionOf calls i + raw.length ≤ positionOf calls j

theorem described {calls : List Append} (h : Declares (fixedLength calls) calls) {i : ℕ}
    {raw : Bytes} (hi : (calls[i]?).bind Append.payload = some raw) :
    Described (fixedPart (fixedLength calls) calls ++ payloads calls) calls i raw := by
  obtain ⟨call, hcall, hpayload⟩ := Option.bind_eq_some_iff.mp hi
  obtain ⟨hlen, hposition⟩ := h i raw hi
  have hbehind := Append.payload_behind hpayload
  have hwritten : call.written (positionOf calls i) = Buffer.descriptor (UInt16.ofNat raw.length)
      (UInt16.ofNat raw.length) (UInt32.ofNat (positionOf calls i)) := by
    rcases call.payload_cases with ⟨hnone, _⟩ | ⟨hplace, _⟩
    · rw [hnone] at hpayload
      cases hpayload
    · rw [Append.written, hplace, hbehind]
  have hlength : (UInt16.ofNat raw.length).toNat = raw.length := ofNat16_toNat hlen
  have hvalue : (UInt32.ofNat (positionOf calls i)).toNat = positionOf calls i :=
    UInt32.toNat_ofNat_of_lt' hposition
  constructor
  case parsed =>
    obtain ⟨rest, hrest⟩ := fixedPart_at hcall (fixedLength calls)
    have hplace : placeOf calls i ≤ (fixedPart (fixedLength calls) calls).length := by
      rw [fixedPart_length]
      exact placeOf_le calls i
    refine ⟨⟨raw.length, raw.length, positionOf calls i⟩, rest ++ payloads calls, ?_, rfl, rfl, ?_⟩
    · have hparse := Buffer.parse_bind (UInt16.ofNat raw.length) (UInt16.ofNat raw.length)
        (UInt32.ofNat (positionOf calls i)) (rest ++ payloads calls)
        (fun buffer => (pure buffer : Reader Error Buffer))
      rw [hlength, hvalue, bind_pure] at hparse
      rw [List.drop_append_of_le_length hplace, ← hrest, List.append_assoc]
      change Buffer.parse (call.written (positionOf calls i) ++ _) = _
      rw [hwritten]
      exact hparse
    · refine Buffer.extract_placed ?_ rfl
      obtain ⟨before, after, hsplit, hbefore⟩ := payloads_at hcall
      rw [hbehind] at hsplit
      refine ⟨fixedPart (fixedLength calls) calls ++ before, after, ?_, ?_⟩
      · rw [hsplit, List.append_assoc]
      · rw [List.length_append, fixedPart_length, hbefore]
        rfl
  case behind => exact Nat.le_add_right _ _
  case apart =>
    intro j hij
    have hapart := extraOf_apart hcall hij
    rw [hbehind] at hapart
    unfold positionOf
    omega

/-- Whatever was appended in whatever order: `to_bytes` fails exactly for a payload that cannot be
declared. Otherwise it gives the fixed parts and the payloads, each in the order of the calls,
and every descriptor leads back to its payload. -/
theorem packet_points_at_payloads (calls : List Append) :
    ((∃ e, (Packet.build calls).toBytes = .error e) ↔ Overruns calls) ∧
    ∀ out, (Packet.build calls).toBytes = .ok out →
      out = fixedPart (fixedLength calls) calls ++ payloads calls ∧
      (fixedPart (fixedLength calls) calls).length = fixedLength calls ∧
      (∀ i data, (calls[i]?).bind Append.inPlace = some data →
        data <+: out.drop (placeOf calls i)) ∧
      ∀ i raw, (calls[i]?).bind Append.payload = some raw → Described out calls i raw := by
  by_cases h : Declares (fixedLength calls) calls
  · rw [toBytes_ok h]
    refine ⟨iff_of_false (fun ⟨e, he⟩ => ?_) ((declares_iff calls).mp h), fun out hout => ?_⟩
    · cases he
    · cases hout
      refine ⟨rfl, fixedPart_length _ calls, fun i data hi => ?_, fun i raw hi => described h hi⟩
      obtain ⟨call, hcall, hplace⟩ := Option.bind_eq_some_iff.mp hi
      have hwritten := fixedPart_at hcall (fixedLength calls)
      rw [Append.written, hplace] at hwritten
      rw [List.drop_append_of_le_length (by rw [fixedPart_length]; exact placeOf_le calls i)]
      exact hwritten.trans (List.prefix_append _ _)
  · rw [toBytes_error h]
    refine ⟨iff_of_true ⟨_, rfl⟩ ?_, fun out hout => ?_⟩
    · exact not_not.mp fun hover => h ((declares_iff calls).mpr hover)
    · cases hout

end CifsClientStream.Ntlm
