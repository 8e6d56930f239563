import CifsClientStream.ErrorText
import CifsClientStream.Ffi.Json

/-!
# Texts for C (`run_smb_list`, `run_smb_list_json` and `string_into_raw` of src/ffi.rs)

What a call gives back goes to C as the bytes of a text and a zero behind them.
The conversion stands outside of `catch_unwind` and panics at a zero among the
bytes. The JSON of a listing has none. The plain text writes the names of a
directory as they are, so it has one if a name that is shown has
(`list_text_safe_iff`).
-/

namespace CifsClientStream.Ffi
open Cursor Async Smb Win Utils Media Json
open Cifs hiding list

/-! ### C strings -/

/-- `CString::new(value).expect(..)`. -/
def stringIntoRaw (value : String) : Except (Fault Empty) Bytes :=
  if 0 ∈ asBytes value then .error .panic else .ok (asBytes value ++ [0])

theorem zero_mem_text (s : String) : 0 ∈ asBytes s ↔ ¬NulFree s := by
  rw [zero_mem_asBytes, NulFree, not_not]

theorem stringIntoRaw_noPanic (value : String) : NoPanic (stringIntoRaw value) ↔ NulFree value := by
  unfold stringIntoRaw
  by_cases h : NulFree value
  · rw [if_neg (fun hzero => (zero_mem_text value).mp hzero h)]
    exact iff_of_true (noPanic_ok _) h
  · rw [if_pos ((zero_mem_text value).mpr h)]
    exact iff_of_false not_noPanic_panic h

/-- A string that came from C. -/
structure CText where
  text : String
  nulFree : NulFree text

/-! ### The plain text -/

def formatEntryLine (entry : MediaEntry) : String :=
  let kind := entryKind entry
  if entry.isFolder then "[" ++ kind ++ "] " ++ entry.name
  else "[" ++ kind ++ "] " ++ entry.name ++ " size=" ++ toString entry.size

/-- The message of `run_smb_list` before the share is left. -/
def listMessage (host share path : String) (entries : List MediaEntry) (maxEntries : ℕ) : String :=
  "SMB list ok: host=" ++ host ++ " share=" ++ share ++ " path=" ++ normalizeDisplayPath path ++
    " entries=" ++ toString entries.length ++ " showing=" ++
    toString (min entries.length maxEntries) ++ "\n" ++
    String.join ((entries.take maxEntries).map fun entry => formatEntryLine entry ++ "\n") ++
    if maxEntries < entries.length then
      "... " ++ toString (entries.length - maxEntries) ++ " more entries\n"
    else ""

def formatError (io : IoText) (error : Error) : String :=
  error.display io ++ " [kind=" ++ error.kind.debug ++ ", retryable=" ++
    toString error.isRetryable ++ ", timeout=" ++ toString error.isTimeout ++
    ", connection_lost=" ++ toString error.isConnectionLost ++ "]"

/-- The argument is `none` for a timeout. -/
def appendUmountWarning (io : IoText) (message : String) :
    Option (Except Error Unit) → String
  | some (.ok ()) => message
  | some (.error error) => message ++ ("; umount warning: " ++ formatError io error)
  | none => message ++ "; umount warning: timeout"

def umountWarning (io : IoText) : Option (Except Error Unit) → Option String
  | some (.ok ()) => none
  | some (.error error) => some (formatError io error)
  | none => some "timeout"

theorem entryKind_nulFree (entry : MediaEntry) : NulFree (entryKind entry) := by
  rw [entryKind_eq]
  cases entry.kind with
  | Folder => decide
  | Audio => decide
  | Video => decide

theorem formatEntryLine_nulFree (entry : MediaEntry) :
    NulFree (formatEntryLine entry) ↔ NulFree entry.name := by
  have hkind := entryKind_nulFree entry
  have hsize : NulFree (toString entry.size) := toString_nulFree entry.size.toNat
  have hopen : NulFree "[" := by decide
  have hclose : NulFree "] " := by decide
  have hlabel : NulFree " size=" := by decide
  unfold formatEntryLine
  dsimp only
  split
  · simp only [nulFree_append, hkind, hopen, hclose, true_and]
  · simp only [nulFree_append, hkind, hopen, hclose, hlabel, hsize, true_and, and_true]

theorem join_nulFree (texts : List String) :
    NulFree (String.join texts) ↔ ∀ text ∈ texts, NulFree text := by
  simp only [NulFree, String.toList_join, List.mem_flatMap, not_exists, not_and]

theorem trim_nulFree {s : String} (h : NulFree s) : NulFree (trim s) := by
  unfold NulFree trim trimEndMatches
  simp only [String.toList_ofList, List.mem_reverse]
  intro hmem
  have hback := (List.dropWhile_suffix _).subset hmem
  exact h ((List.dropWhile_suffix _).subset (List.mem_reverse.mp hback))

theorem normalizeDisplayPath_nulFree {path : String} (h : NulFree path) :
    NulFree (normalizeDisplayPath path) := by
  unfold normalizeDisplayPath
  dsimp only
  split
  · decide
  · exact trim_nulFree h

/-- Everything but the names in it is free of NUL. -/
theorem listMessage_nulFree (host share path : CText) (entries : List MediaEntry)
    (maxEntries : ℕ) : NulFree (listMessage host.text share.text path.text entries maxEntries) ↔
      ∀ entry ∈ entries.take maxEntries, NulFree entry.name := by
  have hlines : NulFree (String.join ((entries.take maxEntries).map
      fun entry => formatEntryLine entry ++ "\n")) ↔
        ∀ entry ∈ entries.take maxEntries, NulFree entry.name := by
    have hbreak : NulFree "\n" := by decide
    simp only [join_nulFree, List.forall_mem_map, nulFree_append, formatEntryLine_nulFree, hbreak,
      and_true]
  have hmore : NulFree (if maxEntries < entries.length then
      "... " ++ toString (entries.length - maxEntries) ++ " more entries\n" else "") := by
    split
    · exact (NulFree.append (by decide) (toString_nulFree _)).append (by decide)
    · decide
  have hhead : NulFree ("SMB list ok: host=" ++ host.text ++ " share=" ++ share.text ++ " path=" ++
      normalizeDisplayPath path.text ++ " entries=" ++ toString entries.length ++ " showing=" ++
      toString (min entries.length maxEntries) ++ "\n") := by
    have hhost := NulFree.append (s := "SMB list ok: host=") (by decide) host.nulFree
    have hshare := (hhost.append (t := " share=") (by decide)).append share.nulFree
    have hpath := (hshare.append (t := " path=") (by decide)).append
      (normalizeDisplayPath_nulFree path.nulFree)
    have htotal := (hpath.append (t := " entries=") (by decide)).append
      (toString_nulFree entries.length)
    exact ((htotal.append (by decide)).append (toString_nulFree _)).append (by decide)
  unfold listMessage
  rw [nulFree_append, nulFree_append, hlines]
  exact ⟨fun h => h.1.2, fun h => ⟨⟨hhead, h⟩, hmore⟩⟩

theorem toString_bool_nulFree (b : Bool) : NulFree (toString b) := by
  cases b with
  | false => decide
  | true => decide

theorem formatError_nulFree (io : IoText) {error : Error} (h : error.Plain) :
    NulFree (formatError io error) := by
  have hkind := ((Error.display_nulFree io h).append (t := " [kind=") (by decide)).append
    error.kind.debug_nulFree
  have hretry := (hkind.append (t := ", retryable=") (by decide)).append
    (toString_bool_nulFree error.isRetryable)
  have htimeout := (hretry.append (t := ", timeout=") (by decide)).append
    (toString_bool_nulFree error.isTimeout)
  exact ((htimeout.append (by decide)).append (toString_bool_nulFree _)).append (by decide)

/-- What is said about leaving the share, behind a message. -/
theorem appendUmountWarning_nulFree (io : IoText) (message : String)
    {result : Option (Except Error Unit)} (h : ∀ e, result = some (.error e) → e.Plain) :
    NulFree (appendUmountWarning io message result) ↔ NulFree message := by
  have hbehind : ∀ text, NulFree text → (NulFree (message ++ text) ↔ NulFree message) := by
    intro text htext
    rw [nulFree_append]
    exact and_iff_left htext
  rcases result with _ | (e | _)
  · exact hbehind _ (by decide)
  · exact hbehind _ (NulFree.append (by decide) (formatError_nulFree io (h e rfl)))
  · rfl

/-! ### The calls -/

/-- What the server sends for the requests of a call. -/
structure ListServer where
  mount : Cifs → List Arrival × List WriteStep
  search : SearchServer
  umount : Cifs → List Arrival × List WriteStep

def mountPassword (path password : String) : Fut Error Cifs Share :=
  Cifs.command Share (Msg.TreeConnect.new (sanitizePath path) password)

def mount (path : String) : Fut Error Cifs Share := mountPassword path ""

def umount (share : Share) : Fut Error Cifs Unit := do
  let _ ← Cifs.command Reply.TreeDisconnect (Msg.TreeDisconnect.mk share.tid)
  pure ()

/-- An operation on the connection, with what arrives while it runs. -/
def exchange {α : Type} (sent : Cifs → List Arrival × List WriteStep) (x : Fut Error Cifs α) :
    Fut Error Search α := fun s =>
  match x (s.cifs.arrive (sent s.cifs).1 (sent s.cifs).2) with
  | .ok a c => .ok a { s with cifs := c }
  | .error e c => .error e { s with cifs := c }

/-- `tokio::time::timeout` and `format_error`; an operation that is dropped ran out of time. -/
def within {α : Type} (io : IoText) (timeout : String) (x : Fut Error Search α) :
    EStateM (Fault String) Search α := fun s =>
  match x s with
  | .ok a s => .ok a s
  | .error (.error e) s => .error (.error (formatError io e)) s
  | .error .dropped s => .error (.error timeout) s
  | .error .panic s => .error .panic s

def umountResult (server : ListServer) (share : Share) :
    EStateM (Fault String) Search (Option (Except Error Unit)) := fun s =>
  match exchange server.umount (umount share) s with
  | .ok () s => .ok (some (.ok ())) s
  | .error (.error e) s => .ok (some (.error e)) s
  | .error .dropped s => .ok none s
  | .error .panic s => .error .panic s

def mountPath (host shareName : String) : String := "\\\\" ++ host ++ "\\" ++ shareName

section

variable (toLowercase : String → String) (io : IoText) (server : ListServer)
variable (host shareName path : CText) (maxEntries : ℕ)

def mountShare : EStateM (Fault String) Search Share :=
  within io "timeout while mounting SMB share"
    (exchange server.mount (mount (mountPath host.text shareName.text)))

def listEntries (share : Share) : EStateM (Fault String) Search (List MediaEntry) :=
  within io (formatError io (.Timeout "operation timed out"))
    (listMediaEntries toLowercase server.search share path.text)

/-- `run_smb_list` from `Cifs::open_timeout` on, which gives the connection it starts with. -/
def runSmbList : EStateM (Fault String) Search String := do
  let share ← mountShare io server host shareName
  let entries ← listEntries toLowercase io server path share
  let message := listMessage host.text shareName.text path.text entries maxEntries
  let result ← umountResult server share
  pure (appendUmountWarning io message result)

/-- `run_smb_list_json`; the listing took `elapsedMs`. -/
def runSmbListJson (elapsedMs : UInt64) : EStateM (Fault String) Search String := do
  let share ← mountShare io server host shareName
  let entries ← listEntries toLowercase io server path share
  let result ← umountResult server share
  pure (formatListJson host.text shareName.text path.text entries maxEntries
    (umountWarning io result) (some elapsedMs))

/-- `cifs_client_stream_smb_list` with the arguments it has read and the connection. -/
def smbList (s : Search) : Except (Fault Empty) Bytes :=
  match runSmbList toLowercase io server host shareName path maxEntries s with
  | .ok message _ => stringIntoRaw message
  | .error (.error message) _ => stringIntoRaw ("SMB list failed: " ++ message)
  | .error .panic _ => stringIntoRaw "SMB list failed: Rust panic was caught"

end

def jsonError (operation message : String) : String :=
  "\x7b\"status\":\"error\"" ++ ",\"operation\":" ++ jsonString operation ++ ",\"message\":" ++
    jsonString message ++ "\x7d"

/-- `cifs_client_stream_smb_list_json`, likewise. -/
def smbListJson (toLowercase : String → String) (io : IoText) (server : ListServer)
    (host shareName path : CText) (maxEntries : ℕ) (elapsedMs : UInt64) (s : Search) :
    Except (Fault Empty) Bytes :=
  match runSmbListJson toLowercase io server host shareName path maxEntries elapsedMs s with
  | .ok message _ => stringIntoRaw message
  | .error (.error message) _ => stringIntoRaw (jsonError "smb_list_json" message)
  | .error .panic _ => stringIntoRaw (jsonError "smb_list_json" "Rust panic was caught")

/-! ### JSON goes to C whatever happens -/

theorem nulFree_of_printable {s : String} (h : Printable s.toList) : NulFree s := by
  intro hmem
  exact absurd (h _ hmem) (by decide)

theorem formatListJson_nulFree (host share path : String) (entries : List MediaEntry)
    (maxEntries : ℕ) (warning : Option String) (elapsedMs : Option UInt64) :
    NulFree (formatListJson host share path entries maxEntries warning elapsedMs) := by
  apply nulFree_of_printable
  rw [formatListJson_toList]
  exact printable_bracketed '\x7b' '\x7d' (by decide) (by decide)
    (listMembers_printable host share path entries maxEntries warning elapsedMs)

theorem jsonError_nulFree (operation message : String) : NulFree (jsonError operation message) := by
  have hoperation := NulFree.append (s := "\x7b\"status\":\"error\"" ++ ",\"operation\":")
    (by decide) (nulFree_of_printable (jsonString_printable operation))
  have hmessage := (hoperation.append (t := ",\"message\":") (by decide)).append
    (nulFree_of_printable (jsonString_printable message))
  exact hmessage.append (by decide)

/-! ### What leaving a share can fail with -/

theorem plain_nothing {e : Error} (h : e.carried = []) : e.Plain := by
  intro what hwhat
  rw [h] at hwhat
  cases hwhat

theorem liftSmb_error {α : Type} {x : Except (Fault Smb.Error) α} {e : Error}
    (h : liftSmb x = .error (.error e)) : ∃ e', x = .error (.error e') ∧ e = .SMBError e' := by
  rcases x with (e' | _) | a
  · cases h
    exact ⟨e', rfl, rfl⟩
  · cases h
  · cases h

theorem infoParse_plain {frame : Bytes} {e : Smb.Error}
    (h : Info.parse frame = .error (.error e)) : (Error.SMBError e).Plain := by
  by_cases hlen : SMB_HEADER_LEN ≤ frame.length
  · rw [Info.parse_eq frame hlen] at h
    split at h
    · cases h
      exact plain_nothing rfl
    · split at h
      · cases h
        exact plain_nothing rfl
      · split at h
        · cases h
          exact plain_nothing rfl
        · cases h
  · rw [Info.parse_short frame (Nat.not_le.mp hlen)] at h
    cases h
    exact plain_nothing rfl

theorem parseFrame_plain {frame : Bytes} {e : Error}
    (h : parseFrame frame = .error (.error e)) : e.Plain := by
  unfold parseFrame at h
  cases hinfo : liftSmb (Info.parse frame) with
  | ok parsed =>
    rw [hinfo] at h
    cases h
  | error fault =>
    rw [hinfo] at h
    cases h
    obtain ⟨e', hparse, rfl⟩ := liftSmb_error hinfo
    exact infoParse_plain hparse

theorem duplicateReply_plain (mid : UInt16) : (duplicateReply mid).Plain := by
  intro what hwhat
  rw [List.mem_singleton.mp hwhat]
  exact NulFree.append (by decide) (toString_nulFree mid.toNat)

theorem sendMessage_plain (frame : Bytes) (mid : UInt16) :
    Raises Error.Plain (sendMessage frame mid) := by
  intro c e c' h
  unfold sendMessage at h
  split at h
  · cases h
    exact plain_nothing rfl
  · split at h
    · cases h
      exact plain_nothing rfl
    · cases h
    · cases h

theorem recvFrame_plain : Raises Error.Plain recvFrame := by
  intro c e c' h
  unfold recvFrame at h
  split at h
  · rename_i stop incoming hmessage
    cases stop with
    | error e' =>
      cases h
      exact plain_nothing rfl
    | panic => cases h
    | dropped => cases h
  · split at h
    · cases h
    · rename_i e' hparse
      cases h
      exact parseFrame_plain hparse
    · cases h

theorem putAside_plain (d : Delivery) : Raises Error.Plain (putAside d) := by
  unfold putAside
  refine Raises.bind Raises.get fun c => Raises.bind (Raises.modify _) fun _ => ?_
  exact (Raises.raise (duplicateReply_plain d.mid)).ite (Raises.pure _)

section

variable {R : Type} [Reply R]
variable (hR : ∀ pending e, parseReply R pending = .error (.error e) → e.Plain)
include hR

theorem hand_plain (ticket : Ticket) (d : Delivery) : Raises Error.Plain (hand R ticket d) :=
  (Raises.modify _).bind fun _ => Raises.lift fun e => hR d.reply e

theorem recvLoop_plain (ticket : Ticket) (fuel : ℕ) :
    Raises Error.Plain (recvLoop R ticket fuel) := by
  induction fuel with
  | zero => exact Raises.drop
  | succ fuel ih =>
    rw [recvLoop]
    refine Raises.bind recvFrame_plain fun d => ?_
    exact (hand_plain hR ticket d).ite ((putAside_plain d).bind fun _ => ih)

theorem recv_plain (ticket : Ticket) : Raises Error.Plain (recv R ticket) := by
  unfold recv
  refine Raises.bind Raises.get fun c => ?_
  cases c.pendingReplies ticket.mid with
  | some d => exact (Raises.modify _).bind fun _ => hand_plain hR ticket d
  | none => exact recvLoop_plain hR ticket _

end

theorem treeDisconnect_parse (info : Info) (body : Bytes) :
    Reply.parse Reply.TreeDisconnect info body = .ok {} ∨
      Reply.parse Reply.TreeDisconnect info body = .error .panic := by
  by_cases h : CountsFit body
  · obtain ⟨rest, hsections⟩ := sections_eq body h
    exact Or.inl (by rw [Reply.parse, hsections]; rfl)
  · exact Or.inr (by rw [Reply.parse, sections_short body h]; rfl)

theorem disconnected_plain (pending : PendingReply) (e : Error)
    (h : parseReply Reply.TreeDisconnect pending = .error (.error e)) : e.Plain := by
  by_cases hcmd : pending.info.cmd = Reply.CMD Reply.TreeDisconnect
  · rw [parseReply_cmd _ _ hcmd, checkStatus_eq] at h
    split at h
    · obtain ⟨e', hparse, _⟩ := liftSmb_error h
      rcases treeDisconnect_parse pending.info pending.body with hok | hpanic
      · cases hok.symm.trans hparse
      · cases hpanic.symm.trans hparse
    · cases h
      exact plain_nothing rfl
  · rw [parseReply_otherCmd _ _ hcmd] at h
    cases h
    exact plain_nothing rfl

/-- The request has neither words nor bytes, so it can be written. -/
theorem send_plain (tid : UInt16) : Raises Error.Plain (send (Msg.TreeDisconnect.mk tid)) := by
  unfold send
  refine Raises.bind Raises.get fun c => Raises.bind (Raises.modify _) fun _ => Raises.bind ?_ ?_
  · apply Raises.lift
    intro e h
    obtain ⟨e', hwrite, _⟩ := liftSmb_error h
    cases hwrite
  · intro frame
    exact sendMessage_plain frame c.mid

theorem umount_plain (share : Share) : Raises Error.Plain (umount share) := by
  unfold umount Cifs.command
  apply Raises.bind
  · exact (send_plain share.tid).bind (recv_plain disconnected_plain)
  · intro _
    exact Raises.pure _

/-! ### What goes to C -/

theorem ran_ok {ε σ α β : Type} {x : EStateM ε σ α} {f : α → EStateM ε σ β} {s s' : σ} {b : β} :
    (x >>= f) s = .ok b s' ↔ ∃ a s1, x s = .ok a s1 ∧ f a s1 = .ok b s' := by
  change EStateM.bind x f s = _ ↔ _
  unfold EStateM.bind
  cases hx : x s with
  | ok a s1 =>
    constructor
    · exact fun h => ⟨a, s1, rfl, h⟩
    · rintro ⟨_, _, h, hf⟩
      cases h
      exact hf
  | error e s1 =>
    constructor
    · intro h
      cases h
    · rintro ⟨_, _, h, _⟩
      cases h

theorem within_ok {α : Type} {x : Fut Error Search α} {s t : Search} {a : α} (h : x s = .ok a t)
    (io : IoText) (timeout : String) : within io timeout x s = .ok a t := by
  unfold within
  rw [h]

theorem umountResult_ok {server : ListServer} {share : Share} {t : Search}
    (h : Safe (exchange server.umount (umount share)) t) :
    ∃ result s2, umountResult server share t = .ok result s2 ∧
      ∀ e, result = some (.error e) → e.Plain := by
  unfold umountResult
  cases hleft : exchange server.umount (umount share) t with
  | ok a s2 =>
    refine ⟨_, _, rfl, fun e he => ?_⟩
    cases he
  | error stop s2 =>
    cases stop with
    | error e =>
      refine ⟨_, _, rfl, fun e' he => ?_⟩
      cases he
      unfold exchange at hleft
      split at hleft
      · cases hleft
      · rename_i hcifs
        cases hleft
        exact umount_plain share _ _ _ hcifs
    | panic => exact absurd hleft (h s2)
    | dropped =>
      refine ⟨_, _, rfl, fun e he => ?_⟩
      cases he

/-- What a call shows of a directory. -/
def shown (toLowercase : String → String) (info : List DirInfo) (maxEntries : ℕ) :
    List DirInfo :=
  (sortDirEntries toLowercase (retainMediaEntries info)).take maxEntries

section

variable (toLowercase : String → String) (io : IoText) (server : ListServer)
variable (host shareName path : CText) (maxEntries : ℕ) (elapsedMs : UInt64)

theorem smbListJson_noPanic (s : Search) : NoPanic
    (smbListJson toLowercase io server host shareName path maxEntries elapsedMs s) := by
  unfold smbListJson
  cases hrun : runSmbListJson toLowercase io server host shareName path maxEntries elapsedMs s with
  | ok json t =>
    simp only [runSmbListJson, ran_ok] at hrun
    obtain ⟨share, s1, _, entries, s2, _, result, s3, _, hjson⟩ := hrun
    cases hjson
    exact (stringIntoRaw_noPanic _).mpr (formatListJson_nulFree _ _ _ _ _ _ _)
  | error fault t =>
    cases fault with
    | error message => exact (stringIntoRaw_noPanic _).mpr (jsonError_nulFree _ _)
    | panic => exact (stringIntoRaw_noPanic _).mpr (jsonError_nulFree _ _)

/-- Both texts go to C for every directory without NUL in the names that are shown, and
otherwise only the JSON does. -/
theorem list_text_safe_iff {s s1 t : Search} {share : Share} {r : SubReply.FindFirst2}
    (hmount : exchange server.mount (mount (mountPath host.text shareName.text)) s = .ok share s1)
    (hlisted : findFirst server.search share (listPattern path.text) s1 = .ok r t)
    (humount : Safe (exchange server.umount (umount share)) t) :
    ∃ message json s2,
      runSmbList toLowercase io server host shareName path maxEntries s = .ok message s2 ∧
      runSmbListJson toLowercase io server host shareName path maxEntries elapsedMs s =
        .ok json s2 ∧
      NulFree json ∧
      NoPanic (smbListJson toLowercase io server host shareName path maxEntries elapsedMs s) ∧
      (NulFree message ↔ ∀ e ∈ shown toLowercase r.info maxEntries, NulFree e.filename) ∧
      (NoPanic (smbList toLowercase io server host shareName path maxEntries s) ↔
        ∀ e ∈ shown toLowercase r.info maxEntries, NulFree e.filename) := by
  obtain ⟨result, s2, hresult, hplain⟩ := umountResult_ok humount
  have hentries := listMediaEntries_eq toLowercase hlisted
  have hshare : mountShare io server host shareName s = .ok share s1 := within_ok hmount io _
  have hlist : listEntries toLowercase io server path share s1 = .ok _ t :=
    within_ok hentries io _
  have hmessage : runSmbList toLowercase io server host shareName path maxEntries s = .ok _ s2 :=
    ran_ok.mpr ⟨_, _, hshare, ran_ok.mpr ⟨_, _, hlist, ran_ok.mpr ⟨_, _, hresult, rfl⟩⟩⟩
  have hjson : runSmbListJson toLowercase io server host shareName path maxEntries elapsedMs s =
      .ok _ s2 :=
    ran_ok.mpr ⟨_, _, hshare, ran_ok.mpr ⟨_, _, hlist, ran_ok.mpr ⟨_, _, hresult, rfl⟩⟩⟩
  have hnames : NulFree (appendUmountWarning io (listMessage host.text shareName.text path.text
      ((sortDirEntries toLowercase (retainMediaEntries r.info)).map MediaEntry.fromDirInfo)
      maxEntries) result) ↔ ∀ e ∈ shown toLowercase r.info maxEntries, NulFree e.filename := by
    rw [appendUmountWarning_nulFree io _ hplain, listMessage_nulFree, ← List.map_take,
      List.forall_mem_map]
    rfl
  refine ⟨_, _, s2, hmessage, hjson, formatListJson_nulFree _ _ _ _ _ _ _,
    smbListJson_noPanic _ _ _ _ _ _ _ _ _, hnames, ?_⟩
  unfold smbList
  rw [hmessage]
  exact (stringIntoRaw_noPanic _).trans hnames

end

/-! ### A server with one film -/

def shareReply (mid : UInt16) : Bytes :=
  Info.write { Info.default .TreeConnect with flags1 := Flags1.REPLY, mid } ++
    framed [0xff, 0, 0, 0, 0, 0] (asBytes "A:" ++ [0, 0, 0]) []

def leftReply (mid : UInt16) : Bytes :=
  Info.write { Info.default .TreeDisconnect with flags1 := Flags1.REPLY, mid } ++ framed [] [] []

def oneFile (name : String) : ListServer where
  mount c := ([.frame 0 (.Message (shareReply c.mid))], [])
  search := twoFiles name name
  umount c := ([.frame 0 (.Message (leftReply c.mid))], [])

def plainIo : IoText := ⟨fun _ => "failed", fun _ => by decide⟩

def nas : CText := ⟨"nas", by decide⟩

/-- The requests of a call, one after the other. -/
def visit (server : ListServer) : Fut Error Search (List DirInfo) := do
  let share ← exchange server.mount (mount (mountPath "nas" "nas"))
  let reply ← findFirst server.search share (listPattern "nas")
  exchange server.umount (umount share)
  pure reply.info

theorem list_text_safe_film :
    ∃ message json s2, runSmbList id plainIo (oneFile "a.mkv") nas nas nas 20 ⟨fresh noAuth, []⟩ =
        .ok message s2 ∧
      runSmbListJson id plainIo (oneFile "a.mkv") nas nas nas 20 7 ⟨fresh noAuth, []⟩ =
        .ok json s2 ∧
      NoPanic (smbList id plainIo (oneFile "a.mkv") nas nas nas 20 ⟨fresh noAuth, []⟩) := by
  obtain ⟨s3, hvisit⟩ := returned_some (r := visit (oneFile "a.mkv") ⟨fresh noAuth, []⟩)
    (a := [movieInfo "a.mkv"]) (by decide +kernel)
  simp only [visit, bind_ok] at hvisit
  obtain ⟨share, s1, hmount, r, t, hlisted, _, s2, humount, hinfo⟩ := hvisit
  have hnames : ∀ e ∈ shown id r.info 20, NulFree e.filename := by
    rw [(EStateM.Result.ok.inj hinfo).1]
    decide +kernel
  obtain ⟨message, json, s2, hmessage, hjson, _, _, _, hcall⟩ := list_text_safe_iff id plainIo
    (oneFile "a.mkv") nas nas nas 20 7 hmount hlisted (safe_ok humount)
  exact ⟨message, json, s2, hmessage, hjson, hcall.mpr hnames⟩

/-- The name of a film has a NUL: so has the text, and it does not get to C. -/
theorem list_text_has_nul :
    ∃ message t, runSmbList id plainIo (oneFile "a\x00.mkv") nas nas nas 20 ⟨fresh noAuth, []⟩ =
        .ok message t ∧
      ¬NulFree message ∧
      ¬NoPanic (smbList id plainIo (oneFile "a\x00.mkv") nas nas nas 20 ⟨fresh noAuth, []⟩) := by
  have hmessage : (match runSmbList id plainIo (oneFile "a\x00.mkv") nas nas nas 20
      ⟨fresh noAuth, []⟩ with
    | .ok message _ => some message
    | .error _ _ => none) =
      some "SMB list ok: host=nas share=nas path=nas entries=1 showing=1\n[video] a\x00.mkv size=0\n" := by
    decide +kernel
  unfold smbList
  cases hrun : runSmbList id plainIo (oneFile "a\x00.mkv") nas nas nas 20 ⟨fresh noAuth, []⟩ with
  | ok message t =>
    rw [hrun] at hmessage
    have hnul : ¬NulFree message := by
      rw [Option.some.inj hmessage]
      decide +kernel
    exact ⟨message, t, rfl, hnul, fun hsafe => hnul ((stringIntoRaw_noPanic message).mp hsafe)⟩
  | error fault t =>
    rw [hrun] at hmessage
    cases hmessage

end CifsClientStream.Ffi
