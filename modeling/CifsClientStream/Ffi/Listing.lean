import CifsClientStream.Cifs.Enumeration
import CifsClientStream.Media.Entry

/-!
# Listing a directory for the app (src/ffi.rs, `next_media_entries` of src/lib.rs)

The app gets the media entries of a directory as JSON. They come from one
reader, which is asked for one batch: a directory that the server sends in
several batches is listed in full only if the later ones have nothing to show
(`listing_complete_iff`). A call that times out is a dropped call.
-/

namespace CifsClientStream.Ffi
open Cursor Async Smb Utils Media
open Cifs hiding list

section

variable (toLowercase : String → String) (server : SearchServer)

/-- `DirectoryReader::next_media`. -/
def nextMedia : Fut Error Browsing (Option (List DirInfo)) := do
  match ← Cifs.next server with
  | none => pure none
  | some entries => pure (some (sortDirEntries toLowercase (retainMediaEntries entries)))

def nextMediaEntries : Fut Error Browsing (Option (List MediaEntry)) := do
  let entries ← nextMedia toLowercase server
  pure (entries.map fun entries => entries.map MediaEntry.fromDirInfo)

/-- A call on a reader that is not used any more. -/
def withReader {α : Type} (reader : DirectoryReader) (x : Fut Error Browsing α) :
    Fut Error Search α := fun s =>
  match x ⟨reader, s⟩ with
  | .ok a b => .ok a b.search
  | .error e b => .error e b.search

def listPattern (path : String) : String :=
  let path := trim path
  if path.isEmpty ∨ path = "/" then "*" else trimEndMatches (· = '/') path ++ "/*"

def listMediaEntries (share : Share) (path : String) : Fut Error Search (List MediaEntry) := do
  let reader ← openDirReader server share (listPattern path)
  let entries ← withReader reader (nextMediaEntries toLowercase server)
  pure (entries.getD [])

end

/-! ### The text -/

def normalizeDisplayPath (path : String) : String :=
  let path := trim path
  if path.isEmpty then "/" else path

def entryKind (entry : MediaEntry) : String :=
  if entry.isFolder then "folder"
  else if entry.isAudio then "audio"
  else if entry.isVideo then "video"
  else "media"

def hexDigit (n : ℕ) : Char := Nat.digitChar n

/-- `{:04x}`. -/
def hex4 (n : ℕ) : List Char :=
  [hexDigit (n / 4096 % 16), hexDigit (n / 256 % 16), hexDigit (n / 16 % 16), hexDigit (n % 16)]

def jsonChar (ch : Char) : List Char :=
  if ch = '"' then ['\\', '"']
  else if ch = '\\' then ['\\', '\\']
  else if ch = '\n' then ['\\', 'n']
  else if ch = '\r' then ['\\', 'r']
  else if ch = '\t' then ['\\', 't']
  else if ch.toNat ≤ 0x1f then ['\\', 'u'] ++ hex4 ch.toNat
  else [ch]

/-- What `push_json_string` appends. -/
def jsonString (value : String) : String :=
  "\"" ++ String.ofList (value.toList.flatMap jsonChar) ++ "\""

def jsonEntry (entry : MediaEntry) : String :=
  "\x7b" ++ "\"name\":" ++ jsonString entry.name ++ ",\"kind\":" ++ jsonString (entryKind entry) ++
    ",\"size\":" ++ toString entry.size ++ "\x7d"

/-- The text of `format_list_json` up to the number of entries, and behind it. -/
def listJsonHead (host share path : String) : String :=
  "\x7b\"status\":\"ok\"" ++ ",\"host\":" ++ jsonString host ++ ",\"share\":" ++ jsonString share ++
    ",\"path\":" ++ jsonString (normalizeDisplayPath path)

def listJsonTail (entries : List MediaEntry) (maxEntries : ℕ) (umountWarning : Option String)
    (elapsedMs : Option UInt64) : String :=
  ",\"entries_returned\":" ++ toString (min entries.length maxEntries) ++
    (match elapsedMs with
      | some elapsedMs => ",\"elapsed_ms\":" ++ toString elapsedMs
      | none => "") ++
    (match umountWarning with
      | some warning => ",\"umount_warning\":" ++ jsonString warning
      | none => "") ++
    ",\"entries\":[" ++ ",".intercalate ((entries.take maxEntries).map jsonEntry) ++ "]\x7d"

def formatListJson (host share path : String) (entries : List MediaEntry) (maxEntries : ℕ)
    (umountWarning : Option String) (elapsedMs : Option UInt64) : String :=
  listJsonHead host share path ++ (",\"entries_total\":" ++ toString entries.length) ++
    listJsonTail entries maxEntries umountWarning elapsedMs

/-! ### What is listed -/

def mediaOf (entries : List DirInfo) : List MediaEntry :=
  (entries.filter isMediaEntry).map MediaEntry.fromDirInfo

/-- The batches that came between two states of a search. -/
def batchesBetween (s t : Search) : List (List DirInfo) :=
  batches (replies (t.log.drop s.log.length))

theorem mediaOf_append (xs ys : List DirInfo) : mediaOf (xs ++ ys) = mediaOf xs ++ mediaOf ys := by
  simp [mediaOf]

theorem mediaOf_nil_iff (entries : List DirInfo) :
    mediaOf entries = [] ↔ ∀ e ∈ entries, isMediaEntry e = false := by
  simp [mediaOf, List.filter_eq_nil_iff]

variable {toLowercase : String → String} {server : SearchServer}

variable (toLowercase) in
theorem listMediaEntries_eq {share : Share} {path : String} {s t : Search}
    {r : SubReply.FindFirst2}
    (h : findFirst server share (listPattern path) s = .ok r t) :
    listMediaEntries toLowercase server share path s =
      .ok ((sortDirEntries toLowercase (retainMediaEntries r.info)).map
        MediaEntry.fromDirInfo) t := by
  have hopen : openDirReader server share (listPattern path) s =
      .ok (DirectoryReader.new share.tid r) t := by
    unfold openDirReader
    rw [fut_bind, h]
    rfl
  unfold listMediaEntries
  rw [fut_bind, hopen]
  rfl

variable (toLowercase) in
/-- The app gets what is to be shown of the first batch. -/
theorem listMediaEntries_first {share : Share} {path : String} {s t : Search}
    {r : SubReply.FindFirst2}
    (h : findFirst server share (listPattern path) s = .ok r t) :
    ∃ entries, listMediaEntries toLowercase server share path s = .ok entries t ∧
      entries.Perm (mediaOf r.info) :=
  ⟨_, listMediaEntries_eq toLowercase h, (sortDirEntries_perm toLowercase _).map _⟩

theorem batchesBetween_eq {s t : Search} {request : SearchRequest} {reply : SearchReply}
    {es : List Exchange} (h : t.log = s.log ++ ⟨request, some reply⟩ :: es) :
    batchesBetween s t = reply.info :: batches (replies es) := by
  rw [batchesBetween, h, List.drop_left]
  rfl

/-- Of a directory that the server sends in full, the app gets all media entries, and their
number, exactly when there are none in the batches behind the first. -/
theorem listing_complete_iff (toLowercase : String → String) (server : SearchServer)
    (share : Share) (path : String) (rounds : ℕ) (s t : Search) (all : List DirInfo)
    (hall : Cifs.list server rounds share (listPattern path) s = .ok all t) :
    all = (batchesBetween s t).flatten ∧
    ∃ entries t', listMediaEntries toLowercase server share path s = .ok entries t' ∧
      (entries.Perm (mediaOf all) ↔
        ∀ batch ∈ (batchesBetween s t).tail, ∀ e ∈ batch, isMediaEntry e = false) ∧
      (entries.length = (mediaOf all).length ↔
        ∀ batch ∈ (batchesBetween s t).tail, ∀ e ∈ batch, isMediaEntry e = false) ∧
      ∀ host shareName maxEntries umountWarning elapsedMs,
        formatListJson host shareName path entries maxEntries umountWarning elapsedMs =
          listJsonHead host shareName path ++
            (",\"entries_total\":" ++ toString entries.length) ++
            listJsonTail entries maxEntries umountWarning elapsedMs := by
  obtain ⟨r, c, es, hfirst, hlog, hentries⟩ := list_batches hall
  have hbatches := batchesBetween_eq hlog
  obtain ⟨entries, hmedia, hperm⟩ := listMediaEntries_first toLowercase hfirst
  have hsplit : mediaOf all = mediaOf r.info ++ mediaOf (batches (replies es)).flatten := by
    rw [hentries, mediaOf_append]
  have hlater : (∀ batch ∈ (batchesBetween s t).tail, ∀ e ∈ batch, isMediaEntry e = false) ↔
      mediaOf (batches (replies es)).flatten = [] := by
    rw [hbatches, List.tail_cons, mediaOf_nil_iff]
    simp only [List.mem_flatten]
    constructor
    · rintro h e ⟨batch, hbatch, he⟩
      exact h batch hbatch e he
    · intro h batch hbatch e he
      exact h e ⟨batch, hbatch, he⟩
  have hcount : entries.length = (mediaOf all).length ↔
      mediaOf (batches (replies es)).flatten = [] := by
    rw [hsplit, List.length_append, hperm.length_eq, ← List.length_eq_zero_iff]
    omega
  refine ⟨?_, entries, _, hmedia, ?_, ?_, fun _ _ _ _ _ => rfl⟩
  · rw [hentries, hbatches]
    rfl
  · rw [hlater]
    constructor
    · exact fun h => hcount.mp h.length_eq
    · intro h
      rw [hsplit, h, List.append_nil]
      exact hperm
  · rw [hlater]
    exact hcount

/-! ### A directory in two batches -/

def movieEntry (name : String) : Bytes :=
  putBytes 0 56 ++ putU32Le (UInt32.ofNat (encodeUtf16Le name).length) ++ encodeUtf16Le name

def movieInfo (name : String) : DirInfo := { infoA with filename := name }

/-- A server with one file in each of two batches. -/
def twoFiles (first second : String) : SearchServer := fun _ cifs request =>
  match request with
  | .first _ _ => ([.frame 0 (.Message (transactReply cifs.mid
      (firstParameter 5 1 0 (putBytes 0 4)) (chain [movieEntry first] [])))], [])
  | .next _ _ => ([.frame 0 (.Message (transactReply cifs.mid
      (nextParameter 1 1 (putBytes 0 4)) (chain [movieEntry second] [])))], [])

/-- What the second batch has is a subtitle, so nothing is missing. -/
theorem listing_complete_subtitle :
    ∃ t, Cifs.list (twoFiles "a.mkv" "a.srt") 1 mediaShare (listPattern "/") ⟨fresh noAuth, []⟩ =
        .ok [movieInfo "a.mkv", movieInfo "a.srt"] t ∧
      ∃ entries t', listMediaEntries id (twoFiles "a.mkv" "a.srt") mediaShare "/"
          ⟨fresh noAuth, []⟩ = .ok entries t' ∧
        (entries.Perm (mediaOf [movieInfo "a.mkv", movieInfo "a.srt"]) ↔
          ∀ batch ∈ (batchesBetween ⟨fresh noAuth, []⟩ t).tail, ∀ e ∈ batch,
            isMediaEntry e = false) ∧
        entries.Perm (mediaOf [movieInfo "a.mkv", movieInfo "a.srt"]) := by
  obtain ⟨t, ht⟩ := returned_some (r := Cifs.list (twoFiles "a.mkv" "a.srt") 1 mediaShare
    (listPattern "/") ⟨fresh noAuth, []⟩) (a := [movieInfo "a.mkv", movieInfo "a.srt"])
    (by decide +kernel)
  obtain ⟨_, entries, t', h, hiff, _⟩ := listing_complete_iff id (twoFiles "a.mkv" "a.srt")
    mediaShare "/" 1 ⟨fresh noAuth, []⟩ t _ ht
  obtain ⟨t1, h1⟩ := returned_some (r := listMediaEntries id (twoFiles "a.mkv" "a.srt") mediaShare
    "/" ⟨fresh noAuth, []⟩) (a := [⟨"a.mkv", 0, .Video⟩]) (by decide +kernel)
  cases h1.symm.trans h
  have hmedia : mediaOf [movieInfo "a.mkv", movieInfo "a.srt"] = [⟨"a.mkv", 0, .Video⟩] := by
    decide +kernel
  exact ⟨t, ht, _, _, h, hiff, by rw [hmedia]⟩

/-- The second of two films is missing. -/
theorem listing_incomplete :
    ∃ t entries t', Cifs.list (twoFiles "a.mkv" "b.mkv") 1 mediaShare (listPattern "/")
        ⟨fresh noAuth, []⟩ = .ok [movieInfo "a.mkv", movieInfo "b.mkv"] t ∧
      listMediaEntries id (twoFiles "a.mkv" "b.mkv") mediaShare "/" ⟨fresh noAuth, []⟩ =
        .ok entries t' ∧
      ¬entries.Perm (mediaOf [movieInfo "a.mkv", movieInfo "b.mkv"]) := by
  obtain ⟨t, ht⟩ := returned_some (r := Cifs.list (twoFiles "a.mkv" "b.mkv") 1 mediaShare
    (listPattern "/") ⟨fresh noAuth, []⟩) (a := [movieInfo "a.mkv", movieInfo "b.mkv"])
    (by decide +kernel)
  obtain ⟨t', ht'⟩ := returned_some (r := listMediaEntries id (twoFiles "a.mkv" "b.mkv") mediaShare
    "/" ⟨fresh noAuth, []⟩) (a := [⟨"a.mkv", 0, .Video⟩]) (by decide +kernel)
  refine ⟨t, _, t', ht, ht', fun h => ?_⟩
  have hlen := h.length_eq
  have htwo : (mediaOf [movieInfo "a.mkv", movieInfo "b.mkv"]).length = 2 := by decide +kernel
  rw [htwo] at hlen
  cases hlen

end CifsClientStream.Ffi
