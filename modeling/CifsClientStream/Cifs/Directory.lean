import CifsClientStream.Cifs.Run

/-!
# Listing a directory (`find_first`, `find_next`, `list`, `DirectoryReader` of src/lib.rs)

A search is one transaction for the first entries and one for each further
batch. What a server sends for a transaction is given by a function of
everything before (`SearchServer`); `log` records the transactions, also those
that fail or are dropped.
-/

namespace CifsClientStream.Cifs
open Cursor Async Win Smb Utils

inductive SearchRequest where
  | first (tid : UInt16) (subcmd : SubCmd.FindFirst2)
  | next (tid : UInt16) (subcmd : SubCmd.FindNext2)
  deriving DecidableEq, Repr

inductive SearchReply where
  | first (reply : SubReply.FindFirst2)
  | next (reply : SubReply.FindNext2)
  deriving DecidableEq, Repr

def SearchReply.info : SearchReply → List DirInfo
  | .first reply => reply.info
  | .next reply => reply.info

def SearchReply.finished : SearchReply → Bool
  | .first reply => reply.finished
  | .next reply => reply.finished

/-- A transaction and its reply, if it succeeded. -/
structure Exchange where
  request : SearchRequest
  reply : Option SearchReply
  deriving DecidableEq, Repr

structure Search where
  cifs : Cifs
  log : List Exchange

/-- What arrives while a transaction runs, and what becomes of its frames. -/
abbrev SearchServer := List Exchange → Cifs → SearchRequest → List Arrival × List WriteStep

def searchFlags : UInt16 := FileAttr.HIDDEN ||| FileAttr.SYSTEM ||| FileAttr.DIRECTORY

def lastFilename (info : List DirInfo) : Option String := info.getLast?.map (·.filename)

section

variable (server : SearchServer)

/-- `transact2` on the connection, with a record of it. -/
def transact {C R : Type} [SubCmd C] [SubReply R] (tid : UInt16) (subcmd : C)
    (request : SearchRequest) (reply : R → SearchReply) : Fut Error Search R := fun s =>
  let sent := server s.log s.cifs request
  match transact2 R tid subcmd (s.cifs.arrive sent.1 sent.2) with
  | .ok r c => .ok r ⟨c, s.log ++ [⟨request, some (reply r)⟩]⟩
  | .error e c => .error e ⟨c, s.log ++ [⟨request, none⟩]⟩

def firstRequest (pattern : String) : SubCmd.FindFirst2 :=
  .new (sanitizePath pattern) searchFlags

def findFirst (share : Share) (pattern : String) : Fut Error Search SubReply.FindFirst2 :=
  transact server share.tid (firstRequest pattern)
    (.first share.tid (firstRequest pattern)) .first

def findNext (tid sid : UInt16) (lastfile : String) : Fut Error Search SubReply.FindNext2 :=
  transact server tid (SubCmd.FindNext2.new sid lastfile) (.next tid (.new sid lastfile)) .next

/-- The loop of `list`, for at most `rounds` batches. -/
def listLoop (tid sid : UInt16) : ℕ → List DirInfo → Fut Error Search (List DirInfo)
  | 0, _ => drop
  | rounds + 1, result =>
    match result.getLast? with
    | none => fun s => .error .panic s
    | some last => do
      let reply ← findNext server tid sid last.filename
      let result := result ++ reply.info
      if reply.finished then pure result else listLoop tid sid rounds result

def list (rounds : ℕ) (share : Share) (pattern : String) :
    Fut Error Search (List DirInfo) := do
  let reply ← findFirst server share pattern
  if reply.finished then pure reply.info
  else listLoop server share.tid reply.sid rounds reply.info

end

/-! ### The reader -/

structure DirectoryReader where
  tid : UInt16
  sid : UInt16
  pending : Option (List DirInfo)
  lastFile : Option String
  finished : Bool
  deriving DecidableEq, Repr

namespace DirectoryReader

def new (tid : UInt16) (reply : SubReply.FindFirst2) : DirectoryReader where
  tid
  sid := reply.sid
  pending := some reply.info
  lastFile := lastFilename reply.info
  finished := reply.finished

def isDone (r : DirectoryReader) : Bool := r.finished && r.pending.isNone

end DirectoryReader

/-- A reader and the connection it is used on. -/
structure Browsing where
  reader : DirectoryReader
  search : Search

def onSearch {α : Type} (x : Fut Error Search α) : Fut Error Browsing α := fun b =>
  match x b.search with
  | .ok a search => .ok a { b with search }
  | .error e search => .error e { b with search }

section

variable (server : SearchServer)

def openDirReader (share : Share) (pattern : String) : Fut Error Search DirectoryReader := do
  let reply ← findFirst server share pattern
  pure (DirectoryReader.new share.tid reply)

/-- `DirectoryReader::next`. -/
def next : Fut Error Browsing (Option (List DirInfo)) := do
  let reader := (← get).reader
  match reader.pending with
  | some info => do
    modify fun b => { b with reader := { b.reader with pending := none } }
    pure (some info)
  | none =>
    if reader.finished then pure none
    else
      match reader.lastFile with
      | none => raise (.InternalError "directory reader lost resume point")
      | some lastFile => do
        let reply ← onSearch (findNext server reader.tid reader.sid lastFile)
        modify fun b => { b with reader := { b.reader with finished := reply.finished } }
        modify fun b => { b with reader := { b.reader with lastFile := lastFilename reply.info } }
        pure (some reply.info)

/-! ### Calls -/

/-- What happens to a reader: it is asked for a batch, or its connection is used for something
else. -/
inductive BrowseCall where
  | next
  | elsewhere (cifs : Cifs)

inductive Browsed where
  | batch (info : Option (List DirInfo))
  | stopped (e : Stop Error)
  | elsewhere

def browse (b : Browsing) : BrowseCall → Browsed × Browsing
  | .next =>
    match next server b with
    | .ok info b' => (.batch info, b')
    | .error e b' => (.stopped e, b')
  | .elsewhere cifs => (.elsewhere, { b with search := { b.search with cifs } })

end

/-! ### What a transaction gives -/

theorem transact2_parsed {C R : Type} [SubCmd C] [SubReply R] {tid : UInt16} {subcmd : C} {r : R}
    {c c' : Cifs} (h : transact2 R tid subcmd c = .ok r c') :
    ∃ parameter data, SubReply.parse parameter data = .ok r := by
  obtain ⟨ticket, c1, -, h⟩ := (bind_ok _ _ _ _ _).mp h
  obtain ⟨_, c2, -, h⟩ := (bind_ok _ _ _ _ _).mp h
  obtain ⟨ctx, c3, -, h⟩ := (bind_ok _ _ _ _ _).mp h
  obtain ⟨h, -⟩ := (lift_ok _ _ _ _).mp h
  unfold CollectTrans2.getSubreply at h
  cases hp : ctx.parameter.get with
  | error e =>
    rw [hp] at h
    cases h
  | ok parameter =>
    cases hd : ctx.data.get with
    | error e =>
      rw [hp, hd] at h
      cases h
    | ok data =>
      rw [hp, hd] at h
      change liftSmb (SubReply.parse parameter data) = .ok r at h
      cases hr : (SubReply.parse parameter data : Except (Fault Smb.Error) R) with
      | error e =>
        rw [hr] at h
        cases h
      | ok r' =>
        rw [hr] at h
        cases h
        exact ⟨parameter, data, hr⟩

end CifsClientStream.Cifs
