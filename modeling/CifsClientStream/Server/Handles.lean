import CifsClientStream.Server.Link

/-!
# A handle stays good

The file that a handle stands for is the one that was opened under its name in
the share that was mounted, for as long as the handle and the share have not
been given back, whatever else is called meanwhile (`reads_of_open`).
-/

namespace CifsClientStream.Server
open Cursor hiding slice
open Async Smb Slice Utils TcpCifs
open Cifs (StreamingWorkerReadRequest)

variable {files : Files} {s s' : State} {m : Message} {a : Answer}

/-! ### What a request leaves as it is -/

theorem Serves.keeps_tree (h : Serves files s m a s') {tid : UInt16} {path : String}
    (hm : m ≠ .treeDisconnect ⟨tid⟩) (htree : s.trees tid = some path) : s'.trees tid = some path := by
  cases h with
  | refused => exact htree
  | connected m tid' reply hfree =>
    have hne : tid ≠ tid' := by
      rintro rfl
      rw [hfree] at htree
      cases htree
    simpa [State.connect, Function.update_of_ne hne] using htree
  | disconnected tid' path' htree' =>
    have hne : tid ≠ tid' := by
      rintro rfl
      exact hm rfl
    simpa [State.disconnect, Function.update_of_ne hne] using htree
  | opened => exact htree
  | closed => exact htree
  | data => exact htree

theorem Serves.keeps_file (h : Serves files s m a s') {fid : UInt16} {file : OpenFile}
    (hm : m ≠ .treeDisconnect ⟨file.tree⟩) (hclose : ∀ c : Msg.Close, m = .close c → c.fid ≠ fid)
    (hopen : s.opened fid = some file) : s'.opened fid = some file := by
  cases h with
  | refused => exact hopen
  | connected => exact hopen
  | disconnected tid path htree =>
    have hne : file.tree ≠ tid := by
      rintro rfl
      exact hm rfl
    simp [State.disconnect, hopen, hne]
  | opened m path content reply htree hfile hfree hsize =>
    have hne : fid ≠ reply.fid := by
      rintro rfl
      rw [hfree] at hopen
      cases hopen
    simpa [State.withOpen, Function.update_of_ne hne] using hopen
  | closed c file' hopen' htree =>
    have hne : fid ≠ c.fid := (hclose c rfl).symm
    simpa [State.close, Function.update_of_ne hne] using hopen
  | data => exact hopen

variable {P : State → Prop} {Q : Message → Prop} {l l' start : Link} {es : List Event} {e : Event}

theorem Served.keeps {ms : List Message} {answers : List Answer} (h : Served files s ms answers s')
    (hkeeps : ∀ s m a s', Serves files s m a s' → Q m → P s → P s') (hms : ∀ m ∈ ms, Q m) (hP : P s) :
    P s' := by
  induction h with
  | nil => exact hP
  | cons hserves _ ih =>
    exact ih (fun m hm => hms m (List.mem_cons_of_mem _ hm))
      (hkeeps _ _ _ _ hserves (hms _ List.mem_cons_self) hP)

/-- What every request of some calls keeps, a run of these calls keeps. -/
theorem Run.keeps {first : UInt16} {limit : ℕ} (h : Run files start es l)
    (hsound : start.Sound first limit) (hfew : limit + requests es ≤ 65536)
    (hkeeps : ∀ s m a s', Serves files s m a s' → Q m → P s → P s')
    (hms : ∀ e ∈ es, ∀ m ∈ e.call.messages, Q m) (hP : P start.server) : P l.server := by
  induction h with
  | nil => exact hP
  | @snoc es e l l' hrun hstep ih =>
    rw [requests_snoc] at hfew
    have htold := (hstep.told (hrun.sound hsound (by omega)) (by omega)).2
    have hP' := ih (by omega) fun e he => hms e (List.mem_append_left _ he)
    exact htold.served.keeps hkeeps
      (fun m hm => hms e (by simp) m (List.mem_of_mem_take hm)) hP'

/-! ### Calls that return -/

/-- A call that returned was answered. -/
theorem Told.returned (h : Told files l e l') {v : Value} (hv : e.result = .ok v) :
    Served files l.server e.call.messages e.answers l'.server ∧
      e.call.value (e.answers.map Answer.value) = .ok v := by
  rcases h.ends with hanswered | hcut
  · have hserved := h.served
    have hresult := hanswered.result
    rw [hanswered.all, List.take_length] at hserved
    refine ⟨hserved, ?_⟩
    rw [hv] at hresult
    exact (mapError_ok _ _ _).mp hresult.symm
  · obtain ⟨stop, hstop, -⟩ := hcut.stopped
    rw [hv] at hstop
    cases hstop

theorem Served.single {answers : List Answer} (h : Served files s [m] answers s') :
    ∃ a, answers = [a] ∧ Serves files s m a s' := by
  cases h with
  | cons hserves hmore =>
    cases hmore
    exact ⟨_, rfl, hserves⟩

theorem Told.mount_tree {path password : String} {share : Share} (h : Told files l e l')
    (hcall : e.call = .mountPassword path password) (hv : e.result = .ok (.share share)) :
    l'.server.trees share.tid = some (sanitizePath path) := by
  obtain ⟨hserved, hvalue⟩ := h.returned hv
  rw [hcall] at hserved hvalue
  obtain ⟨a, hanswers, hserves⟩ := hserved.single
  rw [hanswers] at hvalue
  generalize l'.server = s' at hserves ⊢
  cases hserves with
  | refused => cases hvalue
  | connected m tid reply hfree =>
    cases hvalue
    simp [State.connect, Msg.TreeConnect.new]

theorem Told.open_file {name : String} {share : Share} {file : Handle} (h : Told files l e l')
    (hcall : e.call = .openfile share name) (hv : e.result = .ok (.handle file)) :
    ∃ path content, l.server.trees share.tid = some path ∧
      files path (sanitizePath name) = some content ∧ file.size.toNat = content.length ∧
      file.tid = share.tid ∧ l'.server.opened file.fid = some ⟨share.tid, content⟩ := by
  obtain ⟨hserved, hvalue⟩ := h.returned hv
  rw [hcall] at hserved hvalue
  obtain ⟨a, hanswers, hserves⟩ := hserved.single
  rw [hanswers] at hvalue
  generalize l'.server = s' at hserves ⊢
  cases hserves with
  | refused => cases hvalue
  | opened m path content reply htree hfile hfree hsize =>
    cases hvalue
    refine ⟨path, content, htree, hfile, hsize, rfl, ?_⟩
    simp [State.withOpen, OpenReply.handle, Msg.Open.fileRo]

theorem Serves.read_prefix {file : Handle} {offset : UInt64} {count : UInt32} {content : Bytes}
    {tree : UInt16} {x : Value} (h : Serves files s (.read (.handle file offset count)) a s')
    (hopen : s.opened file.fid = some ⟨tree, content⟩) (hvalue : a.value = .ok x) :
    x.data <+: slice content offset.toNat count.toNat := by
  cases h with
  | refused => cases hvalue
  | data m file' reply hopen' htree hpayload =>
    have hsame : some file' = some ⟨tree, content⟩ := hopen'.symm.trans hopen
    cases hsame
    cases hvalue
    exact hpayload

theorem Told.read_prefix {file : Handle} {offset : UInt64} {count : UInt32} {content data : Bytes}
    {tree : UInt16} (h : Told files l e l')
    (hcall : e.call = .readAt file offset count) (hv : e.result = .ok (.bytes data))
    (hopen : l.server.opened file.fid = some ⟨tree, content⟩) :
    data <+: slice content offset.toNat count.toNat := by
  obtain ⟨hserved, hvalue⟩ := h.returned hv
  rw [hcall, Call.messages] at hserved
  rw [hcall] at hvalue
  generalize e.answers = answers at hserved hvalue
  generalize l'.server = s' at hserved
  split at hserved
  · cases hserved
    cases hvalue
    exact List.nil_prefix
  · obtain ⟨a, hanswers, hserves⟩ := hserved.single
    rw [hanswers] at hvalue
    exact hserves.read_prefix hopen hvalue

/-- Reads change nothing on the server, so each of a batch finds the file. -/
theorem Served.batch_prefix {file : Handle} {content : Bytes} {tree : UInt16}
    {requests : List StreamingWorkerReadRequest} {answers : List Answer} {xs : List Value}
    (h : Served files s (requests.map (readMessage file)) answers s')
    (hcounts : ∀ r ∈ requests, 0 < r.len ∧ r.len < 2 ^ 32)
    (hopen : s.opened file.fid = some ⟨tree, content⟩)
    (hvalues : (answers.map Answer.value).mapM id = .ok xs) :
    List.Forall₂ (fun (r : StreamingWorkerReadRequest) chunk =>
      chunk <+: slice content (UInt64.ofNat r.offset).toNat r.len) requests (xs.map Value.data) := by
  induction requests generalizing s answers xs with
  | nil =>
    cases h
    cases hvalues
    exact .nil
  | cons r rest ih =>
    rw [List.map_cons] at h
    generalize hm : readMessage file r = m at h
    cases h with
    | @cons _ s1 _ _ a _ answers hserves hmore =>
      subst hm
      rw [List.map_cons, List.mapM_cons] at hvalues
      obtain ⟨x, hx, hvalues⟩ := except_bind_ok.mp hvalues
      obtain ⟨more, hmore', hvalues⟩ := except_bind_ok.mp hvalues
      cases hvalues
      have hlen : (UInt32.ofNat r.len).toNat = r.len :=
        UInt32.toNat_ofNat_of_lt' (hcounts r List.mem_cons_self).2
      have hstill : s1.opened file.fid = some ⟨tree, content⟩ :=
        hserves.keeps_file (by simp [readMessage]) (by simp [readMessage]) hopen
      refine .cons ?_ (ih hmore (fun r hr => hcounts r (List.mem_cons_of_mem _ hr)) hstill hmore')
      have hread := hserves.read_prefix hopen hx
      rw [hlen] at hread
      exact hread

/-! ### From mounting to reading -/

/-- The call gives back the share with this tree id. -/
def GivesBackTree (tid : UInt16) : Call → Prop
  | .umountRef share => share.tid = tid
  | _ => False

/-- The call gives back the file, or the share it was opened in. -/
def GivesBack (file : Handle) : Call → Prop
  | .umountRef share => share.tid = file.tid
  | .closeRef other => other.fid = file.fid
  | _ => False

theorem keeps_tree_messages {tid : UInt16} {call : Call} (h : ¬GivesBackTree tid call) :
    ∀ m ∈ call.messages, m ≠ .treeDisconnect ⟨tid⟩ := by
  rintro m hm rfl
  cases call with
  | umountRef share =>
    have hsame : tid = share.tid := by simpa [Call.messages] using hm
    exact h hsame.symm
  | readAtPipelined file requests depth counts =>
    obtain ⟨r, -, hr⟩ := List.mem_map.mp hm
    cases hr
  | readAt file offset count =>
    rw [Call.messages] at hm
    split at hm <;> simp at hm
  | _ => simp [Call.messages] at hm

theorem keeps_file_messages {file : Handle} {call : Call} (h : ¬GivesBack file call) :
    ∀ m ∈ call.messages, m ≠ .treeDisconnect ⟨file.tid⟩ ∧
      ∀ c : Msg.Close, m = .close c → c.fid ≠ file.fid := by
  refine fun m hm => ⟨fun hdisconnect => ?_, fun c hclose hfid => ?_⟩
  · have htree : ¬GivesBackTree file.tid call := by
      cases call with
      | umountRef share => exact h
      | _ => exact id
    exact keeps_tree_messages htree m hm hdisconnect
  · subst hclose
    cases call with
    | closeRef other =>
      have hsame : c = Msg.Close.handle other := by simpa [Call.messages] using hm
      rw [hsame] at hfid
      exact h hfid
    | readAtPipelined file requests depth counts =>
      obtain ⟨r, -, hr⟩ := List.mem_map.mp hm
      cases hr
    | readAt file offset count =>
      rw [Call.messages] at hm
      split at hm <;> simp at hm
    | _ => simp [Call.messages] at hm

/-- Where a share was mounted and a file opened in it, and neither was given back, all that is read
through the handle are bytes of the file that has this name in this share, from the place that
was asked for. -/
theorem reads_of_open {l0 l1 l2 l3 l4 l5 : Link} {before between after : List Event}
    {mount opening reading : Event} {path password name : String} {share : Share} {file : Handle}
    (hready : Ready start) (hbefore : Run files start before l0) (hmount : Step files l0 mount l1)
    (hmountCall : mount.call = .mountPassword path password)
    (hmountResult : mount.result = .ok (.share share)) (hbetween : Run files l1 between l2)
    (hmounted : ∀ e ∈ between, ¬GivesBackTree share.tid e.call) (hopening : Step files l2 opening l3)
    (hopenCall : opening.call = .openfile share name)
    (hopenResult : opening.result = .ok (.handle file)) (hafter : Run files l3 after l4)
    (hopened : ∀ e ∈ after, ¬GivesBack file e.call) (hreading : Step files l4 reading l5)
    (hfew : requests (before ++ [mount]) + requests (between ++ [opening]) +
      requests (after ++ [reading]) ≤ 65536) :
    ∃ content, files (sanitizePath path) (sanitizePath name) = some content ∧
      file.size.toNat = content.length ∧
      (∀ offset count data, reading.call = .readAt file offset count →
        reading.result = .ok (.bytes data) → data <+: slice content offset.toNat count.toNat) ∧
      ∀ requests depth counts chunks, reading.call = .readAtPipelined file requests depth counts →
        reading.result = .ok (.chunks chunks) →
          List.Forall₂ (fun (r : StreamingWorkerReadRequest) chunk =>
            chunk <+: slice content (UInt64.ofNat r.offset).toNat r.len) requests chunks := by
  simp only [requests_snoc] at hfew
  have hsound0 := hbefore.sound hready.sound (by omega)
  obtain ⟨hsound1, htold1⟩ := hmount.told hsound0 (by omega)
  have hsound2 := hbetween.sound hsound1 (by omega)
  obtain ⟨hsound3, htold3⟩ := hopening.told hsound2 (by omega)
  have hsound4 := hafter.sound hsound3 (by omega)
  have htold5 := (hreading.told hsound4 (by omega)).2
  have htree2 := hbetween.keeps (P := fun s => s.trees share.tid = some (sanitizePath path)) hsound1
    (by omega) (fun _ _ _ _ hserves hm => hserves.keeps_tree hm)
    (fun e he => keeps_tree_messages (hmounted e he)) (htold1.mount_tree hmountCall hmountResult)
  obtain ⟨path', content, htree, hfile, hsize, htid, hopen3⟩ := htold3.open_file hopenCall hopenResult
  rw [htree2] at htree
  cases htree
  rw [← htid] at hopen3
  have hopen4 := hafter.keeps (P := fun s => s.opened file.fid = some ⟨file.tid, content⟩) hsound3
    (by omega) (fun _ _ _ _ hserves hm => hserves.keeps_file hm.1 hm.2)
    (fun e he => keeps_file_messages (hopened e he)) hopen3
  refine ⟨content, hfile, hsize, fun offset count data hcall hresult => ?_,
    fun requests depth counts chunks hcall hresult => ?_⟩
  · exact htold5.read_prefix hcall hresult hopen4
  · obtain ⟨hserved, hvalue⟩ := htold5.returned hresult
    rw [hcall] at hserved hvalue
    rw [Call.value] at hvalue
    cases hvalues : (reading.answers.map Answer.value).mapM id with
    | error err =>
      rw [hvalues] at hvalue
      cases hvalue
    | ok xs =>
      rw [hvalues] at hvalue
      cases hvalue
      exact hserved.batch_prefix counts hopen4 hvalues

def openReply : OpenReply where
  chain := [0, 0, 2]
  oplock := 0
  fid := 9
  disposition := 1
  createTime := 0
  accessTime := 0
  writeTime := 0
  changeTime := 0
  attributes := 0
  allocationSize := 3
  size := 3
  fileType := 0
  state := 0
  directory := false
  behind := [0, 0]
  chain_length := rfl
  behind_even := rfl
  behind_length := by decide

def readReply : ReadReply where
  block := [0, 0, 3]
  reserved := [0, 0, 0, 0, 0, 0]
  behind := []
  padding := [0]
  payload := [2, 3]
  block_length := rfl
  reserved_length := rfl
  behind_even := rfl
  behind_length := by decide
  padding_length := by decide
  payload_length := by decide

/-- The share as the mount gives it. -/
def mountedShare : Share where
  accessRights := shareReply.rights 2
  guestRights := shareReply.rights 6
  service := shareReply.service
  filesystem := shareReply.filesystem
  tid := 6

def openCall : Call := .openfile mountedShare "a"

/-- The call, as it is with this name. -/
def openRun : Fut CifsClientStream.Error TcpCifs Value :=
  command Handle (Msg.Open.fileRo 6 "a") >>= fun file => pure (.handle file)

def openEvent : Event :=
  event openCall (.opened 6 openReply) [(replied .Create 2 6).write ++ openReply.body [] []]
    ((Answer.opened 6 openReply).value.mapError .error)

def afterOpen : Link where
  client := (finish (openRun (afterMount.begin openEvent))).2
  server := afterMount.server.withOpen 9 ⟨6, [1, 2, 3]⟩
  transit := []

def readEvent : Event :=
  event (.readAt (openReply.handle 6) 1 2) (.data readReply)
    [(replied .Read 3 6).write ++ readReply.body []] ((Answer.data readReply).value.mapError .error)

def afterRead : Link where
  client := (finish (readEvent.call.run (afterOpen.begin readEvent))).2
  server := afterOpen.server
  transit := []

theorem open_path : sanitizePath "a" = "a" := by decide +kernel

set_option maxRecDepth 4000 in
theorem open_step : Step films afterMount openEvent afterOpen := by
  have hmessages : openCall.messages = [.openFile (.fileRo 6 "a")] := by
    rw [openCall, Call.messages, open_path]
    rfl
  have hrun : openCall.run = openRun := by
    rw [openCall, Call.run, TcpCifs.openfile, open_path]
    rfl
  have hheads : (Message.openFile (.fileRo 6 "a")).Heads
      { Info.default .Create with tid := 6, mid := 2 } := ⟨rfl, rfl, trivial, by decide⟩
  have hplain : (Message.openFile (.fileRo 6 "a")).Plain := ⟨by decide, by decide⟩
  refine event_step (n := 2) (replied .Create 2 6) (openReply.body [] []) hmessages hplain ?_ rfl (Message.parse_write hplain hheads rfl)
    (.opened (.fileRo 6 "a") "m" [1, 2, 3] openReply rfl rfl rfl rfl)
    ⟨⟨trivial, by decide, by decide⟩, rfl, rfl, rfl, ?_, ?_⟩ ?_ (.refl _)
  · rw [hrun]
    rfl
  · intro tid htid
    cases htid
    rfl
  · exact .opened 6 openReply [] [] (by decide)
  · rw [List.forall_mem_singleton]
    decide

set_option maxRecDepth 4000 in
theorem read_step : Step films afterOpen readEvent afterRead := by
  have hheads : (Message.read (.handle (openReply.handle 6) 1 2)).Heads
      { Info.default .Read with tid := 6, mid := 3 } := ⟨rfl, rfl, trivial, by decide⟩
  have hplain : (Message.read (.handle (openReply.handle 6) 1 2)).Plain := ⟨by decide, by decide⟩
  refine event_step (n := 3) (replied .Read 3 6) (readReply.body []) rfl hplain rfl rfl (Message.parse_write hplain hheads rfl)
    (.data (.handle (openReply.handle 6) 1 2) ⟨6, [1, 2, 3]⟩ readReply rfl rfl (by decide))
    ⟨⟨trivial, by decide, by decide⟩, rfl, rfl, rfl, ?_, ?_⟩ ?_ (.refl _)
  · intro tid htid
    cases htid
  · exact .data readReply []
  · rw [List.forall_mem_singleton]
    decide

/-- Behind a mount that was dropped. -/
theorem reads_of_open_film : ∃ content, films "m" "a" = some content ∧ [2, 3] <+: slice content 1 2 := by
  have hready : Ready unused := ⟨rfl, rfl, rfl, rfl⟩
  obtain ⟨content, hfile, -, hread, -⟩ := reads_of_open hready (.snoc .nil givenUp_step) mount_step rfl
    rfl .nil (by simp) open_step rfl rfl .nil (by simp) read_step (by decide)
  rw [mount_path, open_path] at hfile
  exact ⟨content, hfile, hread 1 2 [2, 3] rfl rfl⟩

end CifsClientStream.Server
