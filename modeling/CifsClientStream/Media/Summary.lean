import CifsClientStream.Media.Entry
import Mathlib.Data.List.Nodup
import Mathlib.Data.List.Range

/-!
# Folder summaries and presentations (src/lib.rs)

What a folder's summary lists, when it says that the folder is one movie, and
how the entries of a directory are presented.
-/

namespace CifsClientStream.Media
open Win Smb Utils

inductive MediaExtraKind where
  | Extra
  | Bonus
  | DeletedScene
  | Short
  | Trailer
  | Teaser
  | Featurette
  | BehindTheScenes
  | Interview
  | Sample
  deriving DecidableEq, Repr

/-- The flags that `media_extra_kind` looks for, in its order. -/
def extraFlags : List (String × MediaExtraKind) :=
  [("--deleted-scenes", .DeletedScene), ("--deleted-scene", .DeletedScene),
    ("--deleted", .DeletedScene), ("--behind-the-scenes", .BehindTheScenes),
    ("--behind", .BehindTheScenes), ("--featurette", .Featurette), ("--interview", .Interview),
    ("--trailer", .Trailer), ("--teaser", .Teaser), ("--sample", .Sample), ("--short", .Short),
    ("--bonus", .Bonus), ("--extra", .Extra)]

/-- The words that it looks for after them. -/
def extraMarkers : List (String × MediaExtraKind) :=
  [("behind", .BehindTheScenes), ("deleted", .DeletedScene), ("extras", .Extra),
    ("extra", .Extra), ("featurette", .Featurette), ("interview", .Interview),
    ("sample", .Sample), ("teaser", .Teaser), ("trailer", .Trailer)]

def normalizedMediaName (name : String) : String := toAsciiLowercase name

/-- `str::contains` of a string: some tail of the text starts with it. -/
def containsText (text part : String) : Bool := text.toList.tails.any part.toList.isPrefixOf

def mediaExtraKind (name : String) : Option MediaExtraKind :=
  let normalized := normalizedMediaName name
  match extraFlags.find? fun (flag, _) => containsText normalized flag with
  | some (_, kind) => some kind
  | none =>
    match extraMarkers.find? fun (marker, _) => containsText normalized marker with
    | some (_, kind) => some kind
    | none => none

def isLikelyExtraName (name : String) : Bool := (mediaExtraKind name).isSome

def isLikelyExtraVideo (entry : MediaEntry) : Bool := entry.isVideo && isLikelyExtraName entry.name

/-- `iter().enumerate().filter(..).map(|(index, _)| index)`. -/
def indicesWhere (p : MediaEntry → Bool) (entries : List MediaEntry) : List ℕ :=
  (entries.zipIdx.filter fun (entry, _) => p entry).map Prod.snd

def primaryVideoIndices (entries : List MediaEntry) : List ℕ :=
  indicesWhere (fun entry => entry.isVideo && !isLikelyExtraVideo entry) entries

def larger (best next : UInt64 × ℕ) : UInt64 × ℕ := if next.1 < best.1 then best else next

/-- `max_by_key` over items that carry their key: the last of the greatest. -/
def maxByKey : List (UInt64 × ℕ) → Option (UInt64 × ℕ)
  | [] => none
  | item :: items => some (items.foldl larger item)

/-- `none` where `entries[*index]` panics. -/
def largestVideoIndex (entries : List MediaEntry) (indices : List ℕ) : Option (Option ℕ) := do
  let keyed ← indices.mapM fun index => (entries[index]?).map fun entry => (entry.size, index)
  return (maxByKey keyed).map Prod.snd

def mainVideoIndex (entries : List MediaEntry) : Option (Option ℕ) :=
  largestVideoIndex entries (primaryVideoIndices entries)

structure MediaFolderSummary where
  mainVideo : Option ℕ
  primaryVideos : List ℕ
  extras : List ℕ
  audioTracks : List ℕ
  deriving DecidableEq, Repr

def MediaFolderSummary.fromEntries (entries : List MediaEntry) : Option MediaFolderSummary := do
  let primaryVideos := primaryVideoIndices entries
  let mainVideo ← largestVideoIndex entries primaryVideos
  let extras := indicesWhere isLikelyExtraVideo entries
  let audioTracks := indicesWhere MediaEntry.isAudio entries
  return { mainVideo, primaryVideos, extras, audioTracks }

def MediaFolderSummary.canCollapseToMovie (summary : MediaFolderSummary) : Bool :=
  summary.primaryVideos.length == 1

inductive MediaPresentation where
  | Folder (index : ℕ)
  | MovieFolder (index : ℕ) (summary : MediaFolderSummary)
  | PlayableFile (index : ℕ)
  deriving DecidableEq, Repr

def MediaPresentation.fromEntry (index : ℕ) (entry : MediaEntry)
    (folderSummary : Option MediaFolderSummary) : MediaPresentation :=
  match entry.kind, folderSummary with
  | .Folder, some summary =>
    if summary.canCollapseToMovie then .MovieFolder index summary else .Folder index
  | .Folder, none => .Folder index
  | .Audio, _ => .PlayableFile index
  | .Video, _ => .PlayableFile index

def folderSummary (folderSummaries : List (ℕ × MediaFolderSummary)) (index : ℕ) :
    Option MediaFolderSummary :=
  (folderSummaries.find? fun (folderIndex, _) => folderIndex == index).map Prod.snd

def mediaPresentations (entries : List MediaEntry) : List MediaPresentation :=
  entries.zipIdx.map fun (entry, index) => .fromEntry index entry none

def mediaPresentationsWithSummaries (entries : List MediaEntry)
    (folderSummaries : List (ℕ × MediaFolderSummary)) : List MediaPresentation :=
  entries.zipIdx.map fun (entry, index) =>
    .fromEntry index entry (folderSummary folderSummaries index)

/-! ### The lists of a summary -/

theorem mem_indicesWhere {p : MediaEntry → Bool} {entries : List MediaEntry} {index : ℕ} :
    index ∈ indicesWhere p entries ↔ ∃ entry, entries[index]? = some entry ∧ p entry = true := by
  unfold indicesWhere
  simp only [List.mem_map, List.mem_filter, List.mem_zipIdx_iff_getElem?, Prod.exists]
  constructor
  · rintro ⟨entry, i, ⟨hget, hp⟩, rfl⟩
    exact ⟨entry, hget, hp⟩
  · rintro ⟨entry, hget, hp⟩
    exact ⟨entry, index, ⟨hget, hp⟩, rfl⟩

theorem indicesWhere_nodup (p : MediaEntry → Bool) (entries : List MediaEntry) :
    (indicesWhere p entries).Nodup := by
  have hsub : (indicesWhere p entries).Sublist (entries.zipIdx.map Prod.snd) :=
    List.Sublist.map _ List.filter_sublist
  rw [List.zipIdx_map_snd] at hsub
  exact List.Nodup.sublist hsub List.nodup_range'

theorem count_indicesWhere {p : MediaEntry → Bool} {entries : List MediaEntry} {index : ℕ}
    {entry : MediaEntry} (h : entries[index]? = some entry) :
    (indicesWhere p entries).count index = if p entry = true then 1 else 0 := by
  rw [List.Nodup.count (indicesWhere_nodup p entries)]
  simp only [mem_indicesWhere, h, Option.some.injEq, exists_eq_left']

theorem indicesWhere_lt {p : MediaEntry → Bool} {entries : List MediaEntry} {index : ℕ}
    (h : index ∈ indicesWhere p entries) : index < entries.length := by
  obtain ⟨entry, hget, -⟩ := mem_indicesWhere.mp h
  exact (List.getElem?_eq_some_iff.mp hget).1

/-! ### The largest video -/

theorem larger_spec (best next : UInt64 × ℕ) :
    (larger best next = best ∨ larger best next = next) ∧
      best.1 ≤ (larger best next).1 ∧ next.1 ≤ (larger best next).1 := by
  unfold larger
  by_cases h : next.1 < best.1
  · rw [if_pos h]
    exact ⟨Or.inl rfl, UInt64.le_refl _, UInt64.le_of_lt h⟩
  · rw [if_neg h]
    exact ⟨Or.inr rfl, UInt64.not_lt.mp h, UInt64.le_refl _⟩

theorem foldl_larger (item : UInt64 × ℕ) (items : List (UInt64 × ℕ)) :
    items.foldl larger item ∈ item :: items ∧
      ∀ other ∈ item :: items, other.1 ≤ (items.foldl larger item).1 := by
  induction items generalizing item with
  | nil => simp
  | cons next items ih =>
    have hstep := larger_spec item next
    have hbest := ih (larger item next)
    have hhead := hbest.2 _ List.mem_cons_self
    rw [List.foldl_cons]
    constructor
    · rcases List.mem_cons.mp hbest.1 with heq | hmem
      · rw [heq]
        rcases hstep.1 with hitem | hnext
        · simp [hitem]
        · simp [hnext]
      · exact List.mem_cons_of_mem _ (List.mem_cons_of_mem _ hmem)
    · intro other hother
      rcases List.mem_cons.mp hother with rfl | hother
      · exact UInt64.le_trans hstep.2.1 hhead
      · rcases List.mem_cons.mp hother with rfl | hother
        · exact UInt64.le_trans hstep.2.2 hhead
        · exact hbest.2 other (List.mem_cons_of_mem _ hother)

theorem maxByKey_spec {items : List (UInt64 × ℕ)} {best : UInt64 × ℕ}
    (h : maxByKey items = some best) :
    best ∈ items ∧ ∀ other ∈ items, other.1 ≤ best.1 := by
  cases items with
  | nil => cases h
  | cons item items =>
    simp only [maxByKey, Option.some.injEq] at h
    rw [← h]
    exact foldl_larger item items

theorem mapM_keyed {entries : List MediaEntry} {indices : List ℕ}
    (h : ∀ index ∈ indices, index < entries.length) :
    ∃ keyed : List (UInt64 × ℕ),
      indices.mapM (fun index => (entries[index]?).map fun entry => (entry.size, index)) =
        some keyed ∧ keyed.map Prod.snd = indices ∧
      ∀ item ∈ keyed, ∃ entry, entries[item.2]? = some entry ∧ item.1 = entry.size := by
  induction indices with
  | nil => exact ⟨[], rfl, rfl, fun item hitem => by cases hitem⟩
  | cons index indices ih =>
    obtain ⟨keyed, hmap, hsnd, hsize⟩ := ih fun i hi => h i (List.mem_cons_of_mem _ hi)
    have hlt := h index List.mem_cons_self
    have hget := List.getElem?_eq_getElem hlt
    refine ⟨(entries[index].size, index) :: keyed, ?_, ?_, ?_⟩
    · rw [List.mapM_cons, hget, hmap]
      rfl
    · rw [List.map_cons, hsnd]
    · intro item hitem
      rcases List.mem_cons.mp hitem with rfl | hitem
      · exact ⟨entries[index], hget, rfl⟩
      · exact hsize item hitem

/-- `index` is among `indices`, and no entry at one of them is larger than its own. -/
def Largest (entries : List MediaEntry) (indices : List ℕ) (index : ℕ) : Prop :=
  index ∈ indices ∧ ∀ other ∈ indices, ∀ x y : MediaEntry,
    entries[other]? = some x → entries[index]? = some y → x.size ≤ y.size

/-- With indices in range the search does not panic, and finds a largest entry if there is one. -/
theorem largestVideoIndex_spec {entries : List MediaEntry} {indices : List ℕ}
    (h : ∀ index ∈ indices, index < entries.length) :
    ∃ main, largestVideoIndex entries indices = some main ∧ (main = none ↔ indices = []) ∧
      ∀ index, main = some index → Largest entries indices index := by
  obtain ⟨keyed, hmap, hsnd, hsize⟩ := mapM_keyed h
  refine ⟨(maxByKey keyed).map Prod.snd, ?_, ?_, ?_⟩
  · unfold largestVideoIndex
    rw [hmap]
    rfl
  · rw [← hsnd, Option.map_eq_none_iff, List.map_eq_nil_iff]
    cases keyed with
    | nil => simp [maxByKey]
    | cons item keyed => simp [maxByKey]
  · intro index hmain
    obtain ⟨best, hbest, rfl⟩ := Option.map_eq_some_iff.mp hmain
    obtain ⟨hmem, hgreatest⟩ := maxByKey_spec hbest
    constructor
    · rw [← hsnd]
      exact List.mem_map_of_mem hmem
    · intro other hother x y hx hy
      rw [← hsnd] at hother
      obtain ⟨item, hitem, rfl⟩ := List.mem_map.mp hother
      obtain ⟨entry, hentry, hkey⟩ := hsize item hitem
      obtain ⟨entry', hentry', hkey'⟩ := hsize best hmem
      have hle := hgreatest item hitem
      rw [hx, Option.some.injEq] at hentry
      rw [hy, Option.some.injEq] at hentry'
      rw [hkey, hkey', ← hentry, ← hentry'] at hle
      exact hle

/-! ### What a summary accounts for -/

def MediaFolderSummary.listed (summary : MediaFolderSummary) : List ℕ :=
  summary.primaryVideos ++ summary.extras ++ summary.audioTracks

theorem fromEntries_eq (entries : List MediaEntry) :
    ∃ main, MediaFolderSummary.fromEntries entries =
        some ⟨main, primaryVideoIndices entries, indicesWhere isLikelyExtraVideo entries,
          indicesWhere MediaEntry.isAudio entries⟩ ∧
      (main = none ↔ primaryVideoIndices entries = []) ∧
      ∀ index, main = some index → Largest entries (primaryVideoIndices entries) index := by
  have hrange : ∀ index ∈ primaryVideoIndices entries, index < entries.length := by
    intro index hindex
    exact indicesWhere_lt hindex
  obtain ⟨main, hlargest, hnone, hspec⟩ := largestVideoIndex_spec hrange
  refine ⟨main, ?_, hnone, hspec⟩
  simp only [MediaFolderSummary.fromEntries, hlargest]
  rfl

theorem count_listed {entries : List MediaEntry} {summary : MediaFolderSummary}
    (h : MediaFolderSummary.fromEntries entries = some summary) {index : ℕ} {entry : MediaEntry}
    (hget : entries[index]? = some entry) :
    summary.listed.count index = if entry.isFolder = true then 0 else 1 := by
  obtain ⟨main, heq, -⟩ := fromEntries_eq entries
  rw [h, Option.some.injEq] at heq
  unfold MediaFolderSummary.listed primaryVideoIndices at *
  rw [heq, List.count_append, List.count_append]
  simp only [count_indicesWhere hget]
  obtain ⟨name, size, kind⟩ := entry
  cases kind with
  | Folder => rfl
  | Audio => rfl
  | Video =>
    cases hextra : isLikelyExtraName name with
    | true => simp [isLikelyExtraVideo, MediaEntry.isVideo, MediaEntry.isAudio,
        MediaEntry.isFolder, hextra]
    | false => simp [isLikelyExtraVideo, MediaEntry.isVideo, MediaEntry.isAudio,
        MediaEntry.isFolder, hextra]

theorem listed_lt {entries : List MediaEntry} {summary : MediaFolderSummary}
    (h : MediaFolderSummary.fromEntries entries = some summary) :
    ∀ index ∈ summary.listed, index < entries.length := by
  obtain ⟨main, heq, -⟩ := fromEntries_eq entries
  rw [h, Option.some.injEq] at heq
  intro index hmem
  simp only [MediaFolderSummary.listed, heq, List.mem_append] at hmem
  rcases hmem with (hmem | hmem) | hmem
  · exact indicesWhere_lt hmem
  · exact indicesWhere_lt hmem
  · exact indicesWhere_lt hmem

theorem mainVideo_largest {entries : List MediaEntry} {summary : MediaFolderSummary}
    (h : MediaFolderSummary.fromEntries entries = some summary) {main : ℕ}
    (hmain : summary.mainVideo = some main) : Largest entries summary.primaryVideos main := by
  obtain ⟨found, heq, -, hspec⟩ := fromEntries_eq entries
  rw [h, Option.some.injEq] at heq
  rw [heq] at hmain ⊢
  exact hspec main hmain

theorem mainVideo_of_collapse {entries : List MediaEntry} {summary : MediaFolderSummary}
    (h : MediaFolderSummary.fromEntries entries = some summary)
    (hcollapse : summary.canCollapseToMovie = true) :
    ∃ main, summary.mainVideo = some main ∧ summary.primaryVideos = [main] := by
  obtain ⟨found, heq, hnone, hspec⟩ := fromEntries_eq entries
  rw [h, Option.some.injEq] at heq
  have hone : summary.primaryVideos.length = 1 := by
    simpa [MediaFolderSummary.canCollapseToMovie] using hcollapse
  obtain ⟨only, honly⟩ := List.length_eq_one_iff.mp hone
  cases hfound : found with
  | none =>
    have hempty := hnone.mp hfound
    rw [heq] at honly
    rw [hempty] at honly
    cases honly
  | some main =>
    have hmem := (hspec main hfound).1
    rw [heq] at honly ⊢
    simp only at honly
    rw [honly, List.mem_singleton] at hmem
    exact ⟨main, hfound, by rw [honly, hmem]⟩

/-! ### Presentations -/

theorem fromEntry_movieFolder {index found : ℕ} {entry : MediaEntry}
    {given : Option MediaFolderSummary} {summary : MediaFolderSummary}
    (h : MediaPresentation.fromEntry index entry given = .MovieFolder found summary) :
    entry.isFolder = true ∧ index = found ∧ given = some summary ∧
      summary.canCollapseToMovie = true := by
  obtain ⟨name, size, kind⟩ := entry
  cases kind with
  | Audio => cases h
  | Video => cases h
  | Folder =>
    cases given with
    | none => cases h
    | some given =>
      simp only [MediaPresentation.fromEntry] at h
      split at h
      next hcollapse =>
        simp only [MediaPresentation.MovieFolder.injEq] at h
        exact ⟨rfl, h.1, congrArg some h.2, h.2 ▸ hcollapse⟩
      next => cases h

theorem folderSummary_mem {folderSummaries : List (ℕ × MediaFolderSummary)} {index : ℕ}
    {summary : MediaFolderSummary} (h : folderSummary folderSummaries index = some summary) :
    (index, summary) ∈ folderSummaries := by
  unfold folderSummary at h
  obtain ⟨⟨found, given⟩, hfind, rfl⟩ := Option.map_eq_some_iff.mp h
  have hindex : found = index := by simpa using List.find?_some hfind
  rw [← hindex]
  exact List.mem_of_find?_eq_some hfind

theorem movieFolder_mem {entries : List MediaEntry}
    {folderSummaries : List (ℕ × MediaFolderSummary)} {index : ℕ} {summary : MediaFolderSummary}
    (h : .MovieFolder index summary ∈ mediaPresentationsWithSummaries entries folderSummaries) :
    (index, summary) ∈ folderSummaries ∧ summary.canCollapseToMovie = true := by
  unfold mediaPresentationsWithSummaries at h
  obtain ⟨⟨entry, i⟩, -, hentry⟩ := List.mem_map.mp h
  obtain ⟨-, rfl, hgiven, hcollapse⟩ := fromEntry_movieFolder hentry
  exact ⟨folderSummary_mem hgiven, hcollapse⟩

/-- A summary lists every video and audio track once and no folder, so a movie folder can
hide folders only. -/
theorem movieFolder_accounts :
    (∀ entries : List MediaEntry, ∃ summary,
      MediaFolderSummary.fromEntries entries = some summary ∧
      (∀ index entry, entries[index]? = some entry →
        summary.listed.count index = if entry.isFolder = true then 0 else 1) ∧
      (∀ index ∈ summary.listed, index < entries.length) ∧
      (∀ main, summary.mainVideo = some main → Largest entries summary.primaryVideos main) ∧
      (summary.canCollapseToMovie = true →
        ∃ main, summary.mainVideo = some main ∧ summary.primaryVideos = [main])) ∧
    ∀ (entries : List MediaEntry) (children : ℕ → List MediaEntry)
      (folderSummaries : List (ℕ × MediaFolderSummary)),
      (∀ index summary, (index, summary) ∈ folderSummaries →
        MediaFolderSummary.fromEntries (children index) = some summary) →
      ∀ index summary,
        .MovieFolder index summary ∈ mediaPresentationsWithSummaries entries folderSummaries →
        ∀ i child, (children index)[i]? = some child → i ∉ summary.listed →
          child.isFolder = true := by
  constructor
  · intro entries
    obtain ⟨main, hsummary, -⟩ := fromEntries_eq entries
    refine ⟨_, hsummary, ?_, listed_lt hsummary, ?_, mainVideo_of_collapse hsummary⟩
    · intro index entry hget
      exact count_listed hsummary hget
    · intro main hmain
      exact mainVideo_largest hsummary hmain
  · intro entries children folderSummaries hchildren index summary hmem i child hget hhidden
    have hsummary := hchildren index summary (movieFolder_mem hmem).1
    have hcount := count_listed hsummary hget
    rw [List.count_eq_zero_of_not_mem hhidden] at hcount
    by_contra hfolder
    rw [if_neg hfolder] at hcount
    cases hcount

/-- A film and a subfolder. -/
def season : List MediaEntry := [⟨"Show.mkv", 10000, .Video⟩, ⟨"Season 2", 0, .Folder⟩]

def seasonSummary : MediaFolderSummary := ⟨some 0, [0], [], []⟩

theorem movieFolder_accounts_season :
    seasonSummary.canCollapseToMovie = true ∧ seasonSummary.listed.count 0 = 1 ∧
      seasonSummary.listed.count 1 = 0 ∧ Largest season seasonSummary.primaryVideos 0 ∧
      .MovieFolder 0 seasonSummary ∈
        mediaPresentationsWithSummaries [⟨"Show", 0, .Folder⟩] [(0, seasonSummary)] ∧
      ∀ i child, season[i]? = some child → i ∉ seasonSummary.listed → child.isFolder = true := by
  obtain ⟨summary, hsummary, hcount, -, hlargest, -⟩ := movieFolder_accounts.1 season
  have hvalue : MediaFolderSummary.fromEntries season = some seasonSummary := by decide +kernel
  cases hvalue.symm.trans hsummary
  have hgiven : ∀ index summary, (index, summary) ∈ [(0, seasonSummary)] →
      MediaFolderSummary.fromEntries season = some summary := by
    intro index summary h
    rw [List.mem_singleton, Prod.mk.injEq] at h
    rw [h.2]
    exact hvalue
  have hmovie : .MovieFolder 0 seasonSummary ∈
      mediaPresentationsWithSummaries [⟨"Show", 0, .Folder⟩] [(0, seasonSummary)] := by decide
  exact ⟨by decide, hcount 0 _ rfl, hcount 1 _ rfl, hlargest 0 rfl, hmovie,
    movieFolder_accounts.2 _ (fun _ => season) _ hgiven 0 _ hmovie⟩

/-- A folder with one video and a subfolder is presented as a movie, the subfolder unlisted. -/
theorem collapse_hides_subfolder :
    ∃ summary,
      MediaFolderSummary.fromEntries season = some summary ∧
      summary.canCollapseToMovie = true ∧ 1 ∉ summary.listed ∧
      mediaPresentationsWithSummaries [⟨"Show", 0, .Folder⟩] [(0, summary)] =
        [.MovieFolder 0 summary] :=
  ⟨⟨some 0, [0], [], []⟩, by decide +kernel, by decide, by decide, by decide⟩

end CifsClientStream.Media
