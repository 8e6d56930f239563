import CifsClientStream.Error
import CifsClientStream.Lib.Backtrack

/-!
# Resolving an SMB URI (src/lib.rs)

The regular expression of `resolve_smb_uri`, group by group, as a pattern that
is matched with backtracking, and the conversion of the port.
-/

namespace CifsClientStream.Uri
open Backtrack Pattern

abbrev Text := List Char

/-- The classes `\w` and `\d` of the regex crate. They are those of Unicode; what the pattern
rests on is what they are on ASCII. -/
structure Classes where
  word : Char → Bool
  digit : Char → Bool
  word_ascii : ∀ c : Char, c.toNat < 128 → word c = (c.isAlphanum || c == '_')
  digit_ascii : ∀ c : Char, c.toNat < 128 → digit c = c.isDigit

structure CifsConfig where
  domain : Option String
  user : Option String
  password : Option String
  hostname : String
  port : Option UInt16
  share : Option String
  path : Option String
  deriving DecidableEq, Repr

/-- The named groups of the expression. -/
structure Captures where
  domain : Option Text
  user : Option Text
  passwd : Option Text
  host : Text
  port : Option Text
  share : Option Text
  path : Option Text
  deriving DecidableEq, Repr

/-! ### The expression -/

variable (cls : Classes)

/-- `[\w\.\+_-]` -/
def userChar (c : Char) : Bool := cls.word c || c == '.' || c == '+' || c == '_' || c == '-'

/-- `[\w\.-]` -/
def hostChar (c : Char) : Bool := cls.word c || c == '.' || c == '-'

/-- `[\w\._-]` -/
def shareChar (c : Char) : Bool := cls.word c || c == '.' || c == '_' || c == '-'

/-- `(?P<domain>\w+);` -/
def domainPart : Pattern Char Text := do
  let domain ← plus cls.word
  lit ';'
  pure domain

/-- `(?P<user>[\w\.\+_-]+)(:(?P<passwd>[^@]*))?@` -/
def userPart : Pattern Char (Text × Option Text) := do
  let user ← plus (userChar cls)
  let passwd ← option do
    lit ':'
    many fun c => c != '@'
  lit '@'
  pure (user, passwd)

/-- `(?P<host>\w[\w\.-]*)` -/
def hostPart : Pattern Char Text := do
  let c ← item cls.word
  let rest ← many (hostChar cls)
  pure (c :: rest)

/-- `:(?P<port>\d+)` -/
def portPart : Pattern Char Text := do
  lit ':'
  plus cls.digit

/-- `/(?P<path>.*)` -/
def pathPart : Pattern Char Text := do
  lit '/'
  many fun c => c != '\n'

/-- `/(?P<share>[\w\._-]+)(/(?P<path>.*))?` -/
def sharePart : Pattern Char (Text × Option Text) := do
  lit '/'
  let share ← plus (shareChar cls)
  let path ← option pathPart
  pure (share, path)

/-- The expression behind the user: host, port, share, `/?` and `$`. -/
def locationPart (domain : Option Text) (user : Option (Text × Option Text)) :
    Pattern Char Captures := do
  let host ← hostPart cls
  let port ← option (portPart cls)
  let share ← option (sharePart cls)
  let _ ← option (lit '/')
  atEnd
  pure {
    domain, host, port, user := user.map Prod.fst, passwd := user.bind Prod.snd
    share := share.map Prod.fst, path := share.bind Prod.snd }

/-- `URI_REGEX`. -/
def uriRegex : Pattern Char Captures := do
  literal ['s', 'm', 'b', ':', '/', '/']
  let domain ← option (domainPart cls)
  let user ← option (userPart cls)
  locationPart cls domain user

/-! ### `resolve_smb_uri` -/

def parseDigits : ℕ → Text → Option ℕ
  | acc, [] => some acc
  | acc, c :: cs =>
    if c.isDigit then
      if 10 * acc + (c.toNat - 48) < 65536 then parseDigits (10 * acc + (c.toNat - 48)) cs
      else none
    else none

/-- `parse::<u16>()`. -/
def parseU16 (s : Text) : Option UInt16 :=
  let digits := match s with
    | '+' :: rest => rest
    | s => s
  if digits = [] then none else (parseDigits 0 digits).map UInt16.ofNat

/-- The port of a match: none is given, or it must be a number of 16 bits. -/
def convertPort : Option Text → Except Error (Option UInt16)
  | none => .ok none
  | some text =>
    match parseU16 text with
    | none => .error .InvalidUri
    | some port => .ok (some port)

def resolveSmbUri (uri : String) : Except Error CifsConfig :=
  match first (uriRegex cls) uri.toList with
  | none => .error .InvalidUri
  | some m => do
    let port ← convertPort m.port
    .ok {
      domain := m.domain.map String.ofList
      user := m.user.map String.ofList
      password := m.passwd.map String.ofList
      hostname := String.ofList m.host
      port
      share := m.share.map String.ofList
      path := m.path.map String.ofList }

/-- The classes where all text is ASCII. -/
def asciiClasses : Classes where
  word c := c.isAlphanum || c == '_'
  digit c := c.isDigit
  word_ascii _ _ := rfl
  digit_ascii _ _ := rfl

end CifsClientStream.Uri
