import CifsClientStream.Smb.Trans2

/-!
# Media entries of a directory (src/lib.rs)

Which directory entries the player shows, as what, and in which order. The
table of lowercase letters is a parameter (`toLowercase`).
-/

namespace CifsClientStream.Media
open Win Smb Utils

inductive MediaKind where
  | Folder
  | Audio
  | Video
  deriving DecidableEq, Repr

structure MediaEntry where
  name : String
  size : UInt64
  kind : MediaKind
  deriving DecidableEq, Repr

def MediaEntry.isFolder (e : MediaEntry) : Bool := e.kind = .Folder

def MediaEntry.isAudio (e : MediaEntry) : Bool := e.kind = .Audio

def MediaEntry.isVideo (e : MediaEntry) : Bool := e.kind = .Video

def AUDIO_EXTENSIONS : List String :=
  ["aac", "aiff", "alac", "flac", "m4a", "mp3", "ogg", "opus", "wav"]

def SUBTITLE_EXTENSIONS : List String :=
  ["ass", "idx", "smi", "srt", "ssa", "sub", "sup", "ttml", "vtt"]

def VIDEO_EXTENSIONS : List String :=
  ["avi", "divx", "m2ts", "m4v", "mkv", "mov", "mp4", "mpeg", "mpg", "mts", "ts", "webm", "wmv"]

def toAsciiLowercase (s : String) : String := s.map Char.toLower

/-- `bits.intersects(flags)`. -/
def intersects (bits flags : UInt32) : Bool := bits &&& flags != 0

def fileExtension (filename : String) : Option String :=
  match rsplitOnce '.' filename.toList with
  | none => none
  | some (_, extension) => if extension = [] then none else some (String.ofList extension)

def isAudioExtension (extension : String) : Bool :=
  AUDIO_EXTENSIONS.contains (toAsciiLowercase extension)

def isMediaExtension (extension : String) : Bool :=
  AUDIO_EXTENSIONS.contains (toAsciiLowercase extension) ||
    VIDEO_EXTENSIONS.contains (toAsciiLowercase extension)

def isSubtitleExtension (extension : String) : Bool :=
  SUBTITLE_EXTENSIONS.contains (toAsciiLowercase extension)

def ignoredSystemNames : List String :=
  [".ds_store", ".trashes", ".spotlight-v100", ".fseventsd", "@eadir", "$recycle.bin",
    "system volume information", "temporary items", "network trash folder",
    "thevolumesettingsfolder"]

def isIgnoredSystemName (name : String) : Bool :=
  let name := trim name
  if name.isEmpty then true else ignoredSystemNames.contains (toAsciiLowercase name)

def isDirectory (entry : DirInfo) : Bool := contains entry.attributes ExtFileAttr.DIRECTORY

def isHiddenEntry (entry : DirInfo) : Bool :=
  isIgnoredSystemName entry.filename || entry.filename.toList.head? == some '.' ||
    intersects entry.attributes (ExtFileAttr.HIDDEN ||| ExtFileAttr.SYSTEM)

def isMediaEntry (entry : DirInfo) : Bool :=
  if isHiddenEntry entry then false
  else if isDirectory entry then true
  else
    match fileExtension entry.filename with
    | none => false
    | some extension => isMediaExtension extension && !isSubtitleExtension extension

def retainMediaEntries (entries : List DirInfo) : List DirInfo := entries.filter isMediaEntry

def mediaKind (entry : DirInfo) : MediaKind :=
  if isDirectory entry then .Folder
  else
    match fileExtension entry.filename with
    | some extension => if isAudioExtension extension then .Audio else .Video
    | none => .Video

/-- `From<DirInfo> for MediaEntry`. -/
def MediaEntry.fromDirInfo (entry : DirInfo) : MediaEntry where
  name := entry.filename
  size := entry.filesize
  kind := mediaKind entry

/-! ### The order of a listing -/

inductive NaturalToken where
  | Number (significantLen : ℕ) (significant : String) (rawLen : ℕ)
  | Text (text : String)
  deriving DecidableEq, Repr

def NaturalToken.cmp : NaturalToken → NaturalToken → Ordering
  | .Number len significant raw, .Number len' significant' raw' =>
    (compare len len').then ((compare significant significant').then (compare raw raw'))
  | .Number _ _ _, .Text _ => .lt
  | .Text _, .Number _ _ _ => .gt
  | .Text text, .Text text' => compare text text'

abbrev NaturalNameKey := List NaturalToken

def NaturalNameKey.cmp : NaturalNameKey → NaturalNameKey → Ordering :=
  List.compareLex NaturalToken.cmp

structure DirectorySortKey where
  file : Bool
  name : NaturalNameKey
  deriving DecidableEq, Repr

def DirectorySortKey.cmp (a b : DirectorySortKey) : Ordering :=
  (compare a.file b.file).then (a.name.cmp b.name)

def numberToken (raw : List Char) : NaturalToken :=
  let significant := raw.dropWhile (· = '0')
  .Number (max significant.length 1)
    (if significant = [] then "0" else String.ofList significant) raw.length

section

variable (toLowercase : String → String)

/-- The loop of `natural_name_key`: one run of digits or of other characters a round, so the
length of the name bounds the rounds. -/
def naturalTokens : ℕ → List Char → NaturalNameKey
  | 0, _ => []
  | _ + 1, [] => []
  | rounds + 1, next :: chars =>
    if next.isDigit then
      numberToken ((next :: chars).takeWhile Char.isDigit) ::
        naturalTokens rounds ((next :: chars).dropWhile Char.isDigit)
    else
      .Text (toLowercase (String.ofList ((next :: chars).takeWhile fun c => !c.isDigit))) ::
        naturalTokens rounds ((next :: chars).dropWhile fun c => !c.isDigit)

def naturalNameKey (name : String) : NaturalNameKey :=
  naturalTokens toLowercase name.length name.toList

def directorySortKey (entry : DirInfo) : DirectorySortKey where
  file := !isDirectory entry
  name := naturalNameKey toLowercase entry.filename

/-- `sort_by_cached_key`, a stable sort. -/
def sortDirEntries (entries : List DirInfo) : List DirInfo :=
  entries.insertionSort fun a b =>
    (directorySortKey toLowercase a).cmp (directorySortKey toLowercase b) ≠ .gt

theorem sortDirEntries_perm (entries : List DirInfo) :
    (sortDirEntries toLowercase entries).Perm entries := List.perm_insertionSort _ _

end

end CifsClientStream.Media
