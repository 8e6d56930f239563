import CifsClientStream.Ffi.Listing
import CifsClientStream.Lib.Json

/-!
# The JSON of a listing (`format_list_json`, `push_json_string` of src/ffi.rs)

The text is put together by hand. It is a text of the JSON grammar for every
name and every number of entries, and decoding it gives back what went in
(`listing_faithful`). Control characters are escaped, so none is in the text.
-/

namespace CifsClientStream.Ffi
open Json Media Utils

/-! ### Strings -/

theorem hexVal_hexDigit (n : ℕ) (h : n < 16) : hexVal (hexDigit n) = some n := by
  have hall : ∀ k : Fin 16, hexVal (hexDigit k) = some k.val := by decide
  exact hall ⟨n, h⟩

theorem codeUnit_hex4 (n : ℕ) (h : n < 65536) (rest : Text) :
    codeUnit (hex4 n ++ rest) = some (n, rest) := by
  have hsum : n / 4096 % 16 * 4096 + n / 256 % 16 * 256 + n / 16 % 16 * 16 + n % 16 = n := by omega
  simp only [hex4, List.cons_append, List.nil_append, codeUnit,
    hexVal_hexDigit _ (Nat.mod_lt _ (Nat.succ_pos 15)), Option.bind_eq_bind, Option.bind_some, hsum]

/-- Every character is escaped as it is read. -/
theorem jsonChar_spells (ch : Char) : Spells (jsonChar ch) ch := by
  unfold jsonChar
  by_cases hquote : ch = '"'
  · rw [if_pos hquote, hquote]
    exact ⟨fun _ => rfl, by decide⟩
  · rw [if_neg hquote]
    by_cases hback : ch = '\\'
    · rw [if_pos hback, hback]
      exact ⟨fun _ => rfl, by decide⟩
    · rw [if_neg hback]
      by_cases hline : ch = '\n'
      · rw [if_pos hline, hline]
        exact ⟨fun _ => rfl, by decide⟩
      · rw [if_neg hline]
        by_cases hreturn : ch = '\r'
        · rw [if_pos hreturn, hreturn]
          exact ⟨fun _ => rfl, by decide⟩
        · rw [if_neg hreturn]
          by_cases htab : ch = '\t'
          · rw [if_pos htab, htab]
            exact ⟨fun _ => rfl, by decide⟩
          · rw [if_neg htab]
            by_cases hcontrol : ch.toNat ≤ 0x1f
            · rw [if_pos hcontrol]
              refine ⟨fun rest => ?_, fun hhead => absurd (Option.some.inj hhead) (by decide)⟩
              change unicodeEscape (hex4 ch.toNat ++ rest) = _
              rw [unicodeEscape, codeUnit_hex4 _ (by omega)]
              change (if ch.toNat < 0xd800 ∨ 0xdfff < ch.toNat then _ else _) = _
              rw [if_pos (by omega), Char.ofNat_toNat]
            · rw [if_neg hcontrol]
              refine ⟨fun rest => ?_, fun hhead => hquote (Option.some.inj hhead)⟩
              change (if ch = '\\' then _ else if ch.toNat < 0x20 then none else some (ch, rest)) = _
              rw [if_neg hback, if_neg (by omega)]

theorem jsonString_toList (value : String) :
    (jsonString value).toList = '"' :: (value.toList.flatMap jsonChar ++ ['"']) := by
  simp [jsonString]

theorem jsonString_quotes (value : String) : Quotes (jsonString value).toList value := by
  rw [jsonString_toList]
  exact spelled_quotes jsonChar_spells value

theorem jsonString_denotes (value : String) : Denotes (jsonString value).toList (.string value) :=
  (jsonString_quotes value).denotes

theorem toString_denotes (n : ℕ) : Denotes (toString n).toList (.number n 0) := by
  rw [Nat.toString_eq_repr, Nat.toList_repr]
  exact nat_denotes n

theorem uint64_denotes (n : UInt64) : Denotes (toString n).toList (.number n.toNat 0) :=
  toString_denotes n.toNat

/-! ### Entries -/

/-- A member of an object, as the serializer writes it. -/
def memberText (key : String) (text : String) : Text := (jsonString key).toList ++ ':' :: text.toList

theorem memberText_names (key : String) {text : String} {v : Value} (h : Denotes text.toList v) :
    Names (memberText key text) (key, v) :=
  ⟨_, _, rfl, jsonString_quotes key, h⟩

def kindText : MediaKind → String
  | .Folder => "folder"
  | .Audio => "audio"
  | .Video => "video"

theorem entryKind_eq (entry : MediaEntry) : entryKind entry = kindText entry.kind := by
  obtain ⟨name, size, kind⟩ := entry
  cases kind with
  | Folder => rfl
  | Audio => rfl
  | Video => rfl

/-- An entry as a JSON value. -/
def entryValue (entry : MediaEntry) : Value :=
  .object [("name", .string entry.name), ("kind", .string (kindText entry.kind)),
    ("size", .number entry.size.toNat 0)]

theorem jsonEntry_toList (entry : MediaEntry) :
    (jsonEntry entry).toList = '\x7b' :: ([','].intercalate
      [memberText "name" (jsonString entry.name), memberText "kind" (jsonString (entryKind entry)),
        memberText "size" (toString entry.size)] ++ ['\x7d']) := by
  have hkeys : (jsonString "name").toList = ['"', 'n', 'a', 'm', 'e', '"'] ∧
      (jsonString "kind").toList = ['"', 'k', 'i', 'n', 'd', '"'] ∧
      (jsonString "size").toList = ['"', 's', 'i', 'z', 'e', '"'] := by decide
  simp [jsonEntry, memberText, List.intercalate, hkeys]

theorem jsonEntry_denotes (entry : MediaEntry) :
    Denotes (jsonEntry entry).toList (entryValue entry) := by
  rw [jsonEntry_toList, entryKind_eq]
  exact object_denotes (.cons (memberText_names _ (jsonString_denotes _))
    (.cons (memberText_names _ (jsonString_denotes _))
      (.cons (memberText_names _ (uint64_denotes _)) .nil)))

def entriesText (entries : List MediaEntry) : String :=
  "[" ++ ",".intercalate (entries.map jsonEntry) ++ "]"

theorem entriesText_toList (entries : List MediaEntry) :
    (entriesText entries).toList =
      '[' :: ((",".intercalate (entries.map jsonEntry)).toList ++ [']']) := by
  simp [entriesText]

theorem entriesText_items (entries : List MediaEntry) :
    (entriesText entries).toList =
      '[' :: ([','].intercalate (entries.map fun entry => (jsonEntry entry).toList) ++ [']']) := by
  simp [entriesText_toList, String.toList_intercalate, Function.comp_def]

theorem entries_denote (entries : List MediaEntry) :
    Denotes (entriesText entries).toList (.array (entries.map entryValue)) := by
  rw [entriesText_items]
  refine array_denotes ?_
  rw [List.forall₂_map_left_iff, List.forall₂_map_right_iff]
  exact List.forall₂_same.mpr fun entry _ => jsonEntry_denotes entry

/-! ### The listing -/

/-- The text of an optional number or string, and what it stands for. -/
def optionalMember {α : Type} (key : String) (text : α → String) (a : Option α) : List Text :=
  a.toList.map fun a => memberText key (text a)

def optionalValue {α : Type} (key : String) (v : α → Value) (a : Option α) :
    List (String × Value) :=
  a.toList.map fun a => (key, v a)

theorem optionalMember_names {α : Type} (key : String) {text : α → String} {v : α → Value}
    (h : ∀ a, Denotes (text a).toList (v a)) (a : Option α) :
    List.Forall₂ Names (optionalMember key text a) (optionalValue key v a) := by
  cases a with
  | none => exact .nil
  | some a => exact .cons (memberText_names key (h a)) .nil

def listNames (host share path : String) (entries : List MediaEntry) (maxEntries : ℕ)
    (umountWarning : Option String) (elapsedMs : Option UInt64) : List (String × Value) :=
  [("status", .string "ok"), ("host", .string host), ("share", .string share),
      ("path", .string (normalizeDisplayPath path)), ("entries_total", .number entries.length 0),
      ("entries_returned", .number (entries.take maxEntries).length 0)] ++
    (optionalValue "elapsed_ms" (fun n : UInt64 => .number n.toNat 0) elapsedMs ++
      (optionalValue "umount_warning" .string umountWarning ++
        [("entries", .array ((entries.take maxEntries).map entryValue))]))

/-- What is shown of a path: the path without the whitespace at its ends, or the root. -/
def Displays (path shown : String) : Prop :=
  ∃ trimmed, Trimmed path trimmed ∧ shown = if trimmed = "" then "/" else trimmed

theorem normalizeDisplayPath_displays (path : String) : Displays path (normalizeDisplayPath path) := by
  refine ⟨trim path, trim_trimmed path, ?_⟩
  simp only [normalizeDisplayPath, String.isEmpty_iff]

/-- A listing as a JSON value. -/
def listValue (host share path : String) (entries : List MediaEntry) (maxEntries : ℕ)
    (umountWarning : Option String) (elapsedMs : Option UInt64) : Value :=
  .object (listNames host share path entries maxEntries umountWarning elapsedMs)

def listMembers (host share path : String) (entries : List MediaEntry) (maxEntries : ℕ)
    (umountWarning : Option String) (elapsedMs : Option UInt64) : List Text :=
  [memberText "status" (jsonString "ok"), memberText "host" (jsonString host),
      memberText "share" (jsonString share),
      memberText "path" (jsonString (normalizeDisplayPath path)),
      memberText "entries_total" (toString entries.length),
      memberText "entries_returned" (toString (min entries.length maxEntries))] ++
    (optionalMember "elapsed_ms" toString elapsedMs ++
      (optionalMember "umount_warning" jsonString umountWarning ++
        [memberText "entries" (entriesText (entries.take maxEntries))]))

theorem intercalate_members (first : Text) (rest : List Text) :
    [','].intercalate (first :: rest) = first ++ rest.flatMap (',' :: ·) := by
  induction rest generalizing first with
  | nil => rw [List.intercalate_singleton, List.flatMap_nil, List.append_nil]
  | cons second rest ih => rw [intercalate_cons, ih, List.flatMap_cons, List.cons_append]

/-- The text has no control character. -/
def Printable (text : Text) : Prop := ∀ c ∈ text, 0x20 ≤ c.toNat

instance (text : Text) : Decidable (Printable text) :=
  List.decidableBAll (fun c : Char => 0x20 ≤ c.toNat) text

theorem Printable.append {xs ys : Text} (hx : Printable xs) (hy : Printable ys) :
    Printable (xs ++ ys) :=
  List.forall_mem_append.mpr ⟨hx, hy⟩

theorem Printable.cons {c : Char} {cs : Text} (hc : 0x20 ≤ c.toNat) (hcs : Printable cs) :
    Printable (c :: cs) :=
  List.forall_mem_cons.mpr ⟨hc, hcs⟩

theorem hexDigit_printable (n : ℕ) (h : n < 16) : 0x20 ≤ (hexDigit n).toNat := by
  have hall : ∀ k : Fin 16, 0x20 ≤ (hexDigit k).toNat := by decide
  exact hall ⟨n, h⟩

theorem hex4_printable (n : ℕ) : Printable (hex4 n) := by
  have hdigit : ∀ k, 0x20 ≤ (hexDigit (k % 16)).toNat := fun k =>
    hexDigit_printable _ (Nat.mod_lt _ (Nat.succ_pos 15))
  exact .cons (hdigit _) (.cons (hdigit _) (.cons (hdigit _) (.cons (hdigit _)
    (List.forall_mem_nil _))))

theorem jsonChar_printable (ch : Char) : Printable (jsonChar ch) := by
  unfold jsonChar
  split_ifs with hquote hback hline hreturn htab hcontrol
  · decide
  · decide
  · decide
  · decide
  · decide
  · exact .append (by decide) (hex4_printable ch.toNat)
  · exact .cons (by omega) (List.forall_mem_nil _)

theorem jsonString_printable (value : String) : Printable (jsonString value).toList := by
  rw [jsonString_toList]
  apply Printable.cons (by decide)
  apply Printable.append
  · intro c hc
    obtain ⟨ch, _, hmem⟩ := List.mem_flatMap.mp hc
    exact jsonChar_printable ch c hmem
  · exact .cons (by decide) (List.forall_mem_nil _)

theorem toString_printable (n : ℕ) : Printable (toString n).toList := by
  intro c hc
  rw [Nat.toString_eq_repr, Nat.toList_repr] at hc
  have hdigit := Nat.isDigit_of_mem_toDigits (by decide) (by decide) hc
  simp only [Char.isDigit, Bool.and_eq_true, decide_eq_true_eq] at hdigit
  have hzero : '0'.toNat ≤ c.toNat := hdigit.1
  exact Nat.le_trans (by decide) hzero

theorem memberText_printable (key : String) {text : String} (h : Printable text.toList) :
    Printable (memberText key text) :=
  (jsonString_printable key).append (.cons (by decide) h)

/-- Parts between commas, in brackets of some kind. -/
theorem printable_bracketed (l r : Char) (hl : 0x20 ≤ l.toNat) (hr : 0x20 ≤ r.toNat)
    {texts : List Text} (h : ∀ text ∈ texts, Printable text) :
    Printable (l :: ([','].intercalate texts ++ [r])) := by
  apply Printable.cons hl
  apply Printable.append _ (.cons hr (List.forall_mem_nil _))
  cases texts with
  | nil => exact List.forall_mem_nil _
  | cons first rest =>
    rw [intercalate_members]
    apply Printable.append (h first List.mem_cons_self)
    intro c hc
    obtain ⟨text, htext, hmem⟩ := List.mem_flatMap.mp hc
    exact Printable.cons (by decide) (h text (List.mem_cons_of_mem _ htext)) c hmem

theorem jsonEntry_printable (entry : MediaEntry) : Printable (jsonEntry entry).toList := by
  rw [jsonEntry_toList]
  apply printable_bracketed _ _ (by decide) (by decide)
  simp only [List.forall_mem_cons]
  exact ⟨memberText_printable _ (jsonString_printable _),
    memberText_printable _ (jsonString_printable _),
    memberText_printable _ (toString_printable entry.size.toNat), List.forall_mem_nil _⟩

theorem entriesText_printable (entries : List MediaEntry) :
    Printable (entriesText entries).toList := by
  rw [entriesText_items]
  apply printable_bracketed _ _ (by decide) (by decide)
  intro text htext
  obtain ⟨entry, _, rfl⟩ := List.mem_map.mp htext
  exact jsonEntry_printable entry

theorem optionalMember_printable {α : Type} (key : String) {text : α → String}
    (h : ∀ a, Printable (text a).toList) (a : Option α) :
    ∀ t ∈ optionalMember key text a, Printable t := by
  intro t ht
  obtain ⟨a, _, rfl⟩ := List.mem_map.mp ht
  exact memberText_printable key (h a)

section

variable (host share path : String) (entries : List MediaEntry) (maxEntries : ℕ)
variable (umountWarning : Option String) (elapsedMs : Option UInt64)

theorem listJsonHead_toList : (listJsonHead host share path).toList =
    '\x7b' :: (memberText "status" (jsonString "ok") ++
      [memberText "host" (jsonString host), memberText "share" (jsonString share),
        memberText "path" (jsonString (normalizeDisplayPath path))].flatMap (',' :: ·)) := by
  have hstatus : "\x7b\"status\":\"ok\"".toList = '\x7b' :: memberText "status" (jsonString "ok") := by
    decide
  have hhost : ",\"host\":".toList = ',' :: ((jsonString "host").toList ++ [':']) := by decide
  have hshare : ",\"share\":".toList = ',' :: ((jsonString "share").toList ++ [':']) := by decide
  have hpath : ",\"path\":".toList = ',' :: ((jsonString "path").toList ++ [':']) := by decide
  unfold listJsonHead
  simp only [String.toList_append, hstatus, hhost, hshare, hpath, memberText, List.flatMap_cons,
    List.flatMap_nil, List.append_nil, List.cons_append, List.append_assoc, List.nil_append]

theorem listJsonTail_toList : (listJsonTail entries maxEntries umountWarning elapsedMs).toList =
    (memberText "entries_returned" (toString (min entries.length maxEntries)) ::
      (optionalMember "elapsed_ms" toString elapsedMs ++
        (optionalMember "umount_warning" jsonString umountWarning ++
          [memberText "entries" (entriesText (entries.take maxEntries))]))).flatMap (',' :: ·) ++
      ['\x7d'] := by
  have hreturned : ",\"entries_returned\":".toList =
      ',' :: ((jsonString "entries_returned").toList ++ [':']) := by decide
  have helapsed : ",\"elapsed_ms\":".toList =
      ',' :: ((jsonString "elapsed_ms").toList ++ [':']) := by decide
  have hwarning : ",\"umount_warning\":".toList =
      ',' :: ((jsonString "umount_warning").toList ++ [':']) := by decide
  have hentries : ",\"entries\":[".toList =
      ',' :: ((jsonString "entries").toList ++ [':', '[']) := by decide
  have hclose : "]\x7d".toList = [']', '\x7d'] := by decide
  unfold listJsonTail
  cases elapsedMs <;> cases umountWarning <;>
    simp only [String.toList_append, String.toList_empty, hreturned, helapsed, hwarning, hentries,
      hclose, entriesText_toList, optionalMember, Option.toList_none, Option.toList_some,
      List.map_nil, List.map_cons, memberText, List.flatMap_cons, List.flatMap_nil, List.append_nil,
      List.cons_append, List.append_assoc, List.nil_append]

/-- The text is the members of an object. -/
theorem formatListJson_toList :
    (formatListJson host share path entries maxEntries umountWarning elapsedMs).toList =
      '\x7b' :: ([','].intercalate
        (listMembers host share path entries maxEntries umountWarning elapsedMs) ++ ['\x7d']) := by
  have htotal : ",\"entries_total\":".toList =
      ',' :: ((jsonString "entries_total").toList ++ [':']) := by decide
  have hmember : (",\"entries_total\":" ++ toString entries.length).toList =
      ',' :: memberText "entries_total" (toString entries.length) := by
    simp only [String.toList_append, htotal, memberText, List.cons_append, List.append_assoc,
      List.nil_append]
  unfold formatListJson listMembers
  rw [String.toList_append, String.toList_append, listJsonHead_toList, hmember,
    listJsonTail_toList]
  simp only [List.flatMap_cons, List.flatMap_append, List.flatMap_nil, List.append_nil,
    List.cons_append, List.append_assoc, List.nil_append, intercalate_members]

theorem listMembers_names : List.Forall₂ Names
    (listMembers host share path entries maxEntries umountWarning elapsedMs)
    (listNames host share path entries maxEntries umountWarning elapsedMs) := by
  have hreturned : min entries.length maxEntries = (entries.take maxEntries).length := by
    rw [List.length_take, Nat.min_comm]
  unfold listMembers listNames
  rw [hreturned]
  apply List.rel_append
  · exact .cons (memberText_names _ (jsonString_denotes _))
      (.cons (memberText_names _ (jsonString_denotes _))
        (.cons (memberText_names _ (jsonString_denotes _))
          (.cons (memberText_names _ (jsonString_denotes _))
            (.cons (memberText_names _ (toString_denotes _))
              (.cons (memberText_names _ (toString_denotes _)) .nil)))))
  · apply List.rel_append (optionalMember_names _ uint64_denotes elapsedMs)
    apply List.rel_append (optionalMember_names _ jsonString_denotes umountWarning)
    exact .cons (memberText_names _ (entries_denote _)) .nil

theorem listMembers_printable :
    ∀ text ∈ listMembers host share path entries maxEntries umountWarning elapsedMs,
      Printable text := by
  unfold listMembers
  have hstring : ∀ key value, Printable (memberText key (jsonString value)) := fun key value =>
    memberText_printable key (jsonString_printable value)
  have hnumber : ∀ key (n : ℕ), Printable (memberText key (toString n)) := fun key n =>
    memberText_printable key (toString_printable n)
  have helapsed : ∀ text ∈ optionalMember "elapsed_ms" toString elapsedMs, Printable text :=
    optionalMember_printable _ (fun n : UInt64 => toString_printable n.toNat) elapsedMs
  have hwarning := optionalMember_printable "umount_warning" jsonString_printable umountWarning
  have hentries := memberText_printable "entries" (entriesText_printable (entries.take maxEntries))
  simp only [List.forall_mem_append, List.forall_mem_cons]
  exact ⟨⟨hstring _ _, hstring _ _, hstring _ _, hstring _ _, hnumber _ _, hnumber _ _,
    List.forall_mem_nil _⟩, helapsed, hwarning, hentries, List.forall_mem_nil _⟩

/-- Whatever is listed, the text is JSON for it, with the trimmed path, and has no control
character. -/
theorem listing_faithful :
    decode (formatListJson host share path entries maxEntries umountWarning elapsedMs) =
        some (listValue host share path entries maxEntries umountWarning elapsedMs) ∧
      Displays path (normalizeDisplayPath path) ∧
      ∀ c ∈ (formatListJson host share path entries maxEntries umountWarning elapsedMs).toList,
        0x20 ≤ c.toNat := by
  have hnames := listMembers_names host share path entries maxEntries umountWarning elapsedMs
  have hprintable :=
    listMembers_printable host share path entries maxEntries umountWarning elapsedMs
  have htext := formatListJson_toList host share path entries maxEntries umountWarning elapsedMs
  refine ⟨?_, normalizeDisplayPath_displays path, ?_⟩
  · apply decode_denotes
    rw [htext]
    exact object_denotes hnames
  · rw [htext]
    exact printable_bracketed '\x7b' '\x7d' (by decide) (by decide) hprintable

end

end CifsClientStream.Ffi
