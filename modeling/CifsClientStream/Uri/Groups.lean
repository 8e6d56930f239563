import CifsClientStream.Uri.Resolve
import CifsClientStream.Lib.Digits

/-!
# The groups of the URI expression (src/lib.rs)

What each group of the expression matches in a text whose parts are separated
by delimiters: the characters `;`, `:`, `@` and `/` are in none of the classes,
so a run of class characters ends at the delimiter that follows it. Only the
password and the path admit delimiters.
-/

namespace CifsClientStream.Uri
open Backtrack Pattern

variable (cls : Classes)

/-! ### Delimiters -/

/-- The characters that separate the parts. -/
def delimiters : Text := [';', ':', '@', '/']

/-- A delimiter is in no class of the expression. -/
theorem delimiter_foreign {c : Char} (h : c ∈ delimiters) :
    cls.word c = false ∧ userChar cls c = false ∧ hostChar cls c = false ∧
      shareChar cls c = false ∧ cls.digit c = false := by
  have hascii : c.toNat < 128 ∧ (c.isAlphanum || c == '_') = false ∧ c.isDigit = false ∧
      (c == '.') = false ∧ (c == '+') = false ∧ (c == '_') = false ∧ (c == '-') = false := by
    simp only [delimiters, List.mem_cons, List.not_mem_nil, or_false] at h
    rcases h with rfl | rfl | rfl | rfl <;> decide
  obtain ⟨hlt, hword, hdigit, hdot, hplus, hunder, hminus⟩ := hascii
  have hw := cls.word_ascii c hlt
  have hd := cls.digit_ascii c hlt
  rw [hword] at hw
  rw [hdigit] at hd
  simp [userChar, hostChar, shareChar, hw, hd, hdot, hplus, hunder, hminus]

theorem userChar_of_word {c : Char} (h : cls.word c) : userChar cls c := by
  simp [userChar, h]

theorem userChar_of_host {c : Char} (h : hostChar cls c) : userChar cls c := by
  simp only [hostChar, Bool.or_eq_true] at h
  rcases h with (h | h) | h
  · simp [userChar, h]
  · simp [userChar, h]
  · simp [userChar, h]

theorem userChar_not {c d : Char} (hc : c ∈ delimiters) (hd : userChar cls d) : d ≠ c := by
  intro h
  rw [h, (delimiter_foreign cls hc).2.1] at hd
  exact absurd hd (by decide)

/-- A text that is empty or begins with a delimiter. -/
def Delimited (s : Text) : Prop := ∀ c ∈ s.head?, c ∈ delimiters

theorem delimited_cons {c : Char} (h : c ∈ delimiters) (s : Text) : Delimited (c :: s) := by
  intro d hd
  cases hd
  exact h

theorem delimited_nil : Delimited [] := nofun

variable {cls}

theorem Delimited.word {s : Text} (h : Delimited s) : ∀ c ∈ s.head?, cls.word c = false :=
  fun c hc => (delimiter_foreign cls (h c hc)).1

theorem Delimited.user {s : Text} (h : Delimited s) : ∀ c ∈ s.head?, userChar cls c = false :=
  fun c hc => (delimiter_foreign cls (h c hc)).2.1

theorem Delimited.host {s : Text} (h : Delimited s) : ∀ c ∈ s.head?, hostChar cls c = false :=
  fun c hc => (delimiter_foreign cls (h c hc)).2.2.1

theorem Delimited.share {s : Text} (h : Delimited s) : ∀ c ∈ s.head?, shareChar cls c = false :=
  fun c hc => (delimiter_foreign cls (h c hc)).2.2.2.1

theorem Delimited.digit {s : Text} (h : Delimited s) : ∀ c ∈ s.head?, cls.digit c = false :=
  fun c hc => (delimiter_foreign cls (h c hc)).2.2.2.2

/-! ### The domain -/

theorem domainPart_some {domain s : Text} (hne : domain ≠ []) (hword : ∀ c ∈ domain, cls.word c) :
    domainPart cls (domain ++ ';' :: s) = [(domain, s)] := by
  have hsemi : ';' ∈ delimiters := by decide
  rw [domainPart, plus_bind_run cls.word hne hword (delimited_cons hsemi s).word]
  · rw [lit_bind]
    rfl
  · intro a c b hab
    have hc := userChar_of_word cls (hword c (by rw [hab]; simp))
    apply lit_bind_other
    intro h
    exact userChar_not cls hsemi hc (Option.some.inj h)

/-- No domain is seen in a text that begins with a user or a host. -/
theorem domainPart_none {run rest : Text} (hrun : ∀ c ∈ run, userChar cls c)
    (hrest : Delimited rest) (hsemi : rest.head? ≠ some ';') :
    domainPart cls (run ++ rest) = [] := by
  apply List.eq_nil_iff_forall_not_mem.mpr
  intro r hr
  obtain ⟨domain, s1, hplus, h1⟩ := mem_bind.mp hr
  obtain ⟨_, s2, hlit, _⟩ := mem_bind.mp h1
  obtain ⟨_, hsplit, hword⟩ := mem_plus.mp hplus
  rw [mem_lit.mp hlit] at hsplit
  have hforeign := (delimiter_foreign cls (c := ';') (by decide)).2.1
  obtain ⟨_, htail⟩ := run_unique hrun hrest.user (fun c hc => userChar_of_word cls (hword c hc))
    hforeign hsplit
  rw [htail] at hsemi
  exact hsemi rfl

/-! ### The user -/

section
variable {user s : Text} (hne : user ≠ []) (huser : ∀ c ∈ user, userChar cls c)
include hne huser

/-- Inside the name of the user neither a password nor the end of the group can follow. -/
theorem userPart_run (hs : Delimited s) :
    userPart cls (user ++ s) = (do
      let passwd ← option do
        lit ':'
        many fun c => c != '@'
      lit '@'
      pure (user, passwd)) s := by
  rw [userPart, plus_bind_run (userChar cls) hne huser hs.user]
  intro a c b hab
  have hc := huser c (by rw [hab]; simp)
  have hcolon : (c :: b ++ s).head? ≠ some ':' := fun h =>
    userChar_not cls (by decide) hc (Option.some.inj h)
  have hat : (c :: b ++ s).head? ≠ some '@' := fun h =>
    userChar_not cls (by decide) hc (Option.some.inj h)
  rw [option_bind_none (lit_bind_other hcolon _), lit_bind_other hat]

theorem userPart_at : userPart cls (user ++ '@' :: s) = [((user, none), s)] := by
  have hcolon : ('@' :: s).head? ≠ some ':' := by simp
  rw [userPart_run hne huser (delimited_cons (by decide) s),
    option_bind_none (lit_bind_other hcolon _), lit_bind]
  rfl

theorem userPart_neither (hs : Delimited s) (hcolon : s.head? ≠ some ':')
    (hat : s.head? ≠ some '@') : userPart cls (user ++ s) = [] := by
  rw [userPart_run hne huser hs, option_bind_none (lit_bind_other hcolon _), lit_bind_other hat]

/-- A password ends at the first `@`, wherever that is. -/
theorem userPart_password {passwd : Text} (hpasswd : '@' ∉ passwd) :
    userPart cls (user ++ ':' :: (passwd ++ '@' :: s)) = [((user, some passwd), s)] := by
  have hat : (':' :: (passwd ++ '@' :: s)).head? ≠ some '@' := by simp
  have hend : ∀ c ∈ ('@' :: s).head?, c = '@' := by simp
  rw [userPart_run hne huser (delimited_cons (by decide) _), option_bind, lit_bind_other hat,
    List.append_nil, bind_assoc, lit_bind, many_bind_lit hpasswd hend, lit_bind]
  rfl

theorem userPart_no_at (hs : '@' ∉ s) : userPart cls (user ++ ':' :: s) = [] := by
  have hat : (':' :: s).head? ≠ some '@' := by simp
  have hend : ∀ c ∈ ([] : Text).head?, c = '@' := nofun
  rw [userPart_run hne huser (delimited_cons (by decide) _), option_bind, lit_bind_other hat,
    List.append_nil, bind_assoc, lit_bind, ← List.append_nil s, many_bind_lit hs hend]
  rfl

end

/-! ### Host, port and share -/

/-- What can stand behind a user: a host, a port, a share and a path, and a slash. -/
def Location (cls : Classes) (s : Text) : Prop :=
  ∃ host port share slash, s = host ++ (port ++ (share ++ slash)) ∧
    (∃ c rest, host = c :: rest ∧ cls.word c ∧ ∀ d ∈ rest, hostChar cls d) ∧
    (port = [] ∨ ∃ digits, port = ':' :: digits ∧ digits ≠ [] ∧ ∀ d ∈ digits, cls.digit d) ∧
    (share = [] ∨ ∃ name path, share = '/' :: (name ++ path) ∧ name ≠ [] ∧
      (∀ d ∈ name, shareChar cls d) ∧ (path = [] ∨ ∃ p, path = '/' :: p ∧ '\n' ∉ p)) ∧
    (slash = [] ∨ slash = ['/'])

theorem mem_hostPart {host s rest : Text} : (host, rest) ∈ hostPart cls s ↔
    s = host ++ rest ∧ ∃ c tail, host = c :: tail ∧ cls.word c ∧ ∀ d ∈ tail, hostChar cls d := by
  simp only [hostPart, mem_bind, mem_item, mem_many, mem_pure]
  constructor
  · intro h
    obtain ⟨c, s1, ⟨hc, hs⟩, tail, s2, ⟨hs1, htail⟩, rfl, rfl⟩ := h
    exact ⟨by rw [hs, hs1]; rfl, c, tail, rfl, hc, htail⟩
  · intro h
    obtain ⟨rfl, c, tail, rfl, hc, htail⟩ := h
    exact ⟨c, tail ++ rest, ⟨hc, rfl⟩, tail, rest, ⟨rfl, htail⟩, rfl, rfl⟩

theorem mem_portPart {digits s rest : Text} : (digits, rest) ∈ portPart cls s ↔
    s = ':' :: digits ++ rest ∧ digits ≠ [] ∧ ∀ d ∈ digits, cls.digit d := by
  simp only [portPart, mem_bind, mem_lit, mem_plus]
  constructor
  · intro h
    obtain ⟨_, s1, hs, hne, hs1, hdigits⟩ := h
    exact ⟨by rw [hs, hs1]; rfl, hne, hdigits⟩
  · intro h
    obtain ⟨rfl, hne, hdigits⟩ := h
    exact ⟨(), digits ++ rest, rfl, hne, rfl, hdigits⟩

theorem mem_pathPart {path s rest : Text} : (path, rest) ∈ pathPart s ↔
    s = '/' :: path ++ rest ∧ '\n' ∉ path := by
  simp only [pathPart, mem_bind, mem_lit, mem_many, forall_other]
  constructor
  · intro h
    obtain ⟨_, s1, hs, hs1, hpath⟩ := h
    exact ⟨by rw [hs, hs1]; rfl, hpath⟩
  · intro h
    obtain ⟨rfl, hpath⟩ := h
    exact ⟨(), path ++ rest, rfl, rfl, hpath⟩

theorem mem_sharePart {name : Text} {path : Option Text} {s rest : Text} :
    ((name, path), rest) ∈ sharePart cls s ↔ ∃ tail, s = '/' :: (name ++ (tail ++ rest)) ∧
      name ≠ [] ∧ (∀ d ∈ name, shareChar cls d) ∧
      ((path = none ∧ tail = []) ∨ ∃ p, path = some p ∧ tail = '/' :: p ∧ '\n' ∉ p) := by
  simp only [sharePart, mem_bind, mem_lit, mem_plus, mem_option, mem_pathPart, mem_pure,
    Prod.mk.injEq]
  constructor
  · intro h
    obtain ⟨_, s1, hs, name', s2, ⟨hne, hs1, hname⟩, path', s3, hpath, ⟨rfl, rfl⟩, rfl⟩ := h
    rcases hpath with ⟨p, rfl, hs2, hp⟩ | ⟨rfl, rfl⟩
    · exact ⟨'/' :: p, by rw [hs, hs1, hs2], hne, hname, Or.inr ⟨p, rfl, rfl, hp⟩⟩
    · exact ⟨[], by rw [hs, hs1]; rfl, hne, hname, Or.inl ⟨rfl, rfl⟩⟩
  · intro h
    obtain ⟨tail, rfl, hne, hname, hpath⟩ := h
    rcases hpath with ⟨rfl, rfl⟩ | ⟨p, rfl, rfl, hp⟩
    · exact ⟨(), _, rfl, name, rest, ⟨hne, rfl, hname⟩, none, rest, Or.inr ⟨rfl, rfl⟩,
        ⟨rfl, rfl⟩, rfl⟩
    · exact ⟨(), _, rfl, name, '/' :: p ++ rest, ⟨hne, rfl, hname⟩, some p, rest,
        Or.inl ⟨p, rfl, rfl, hp⟩, ⟨rfl, rfl⟩, rfl⟩

section
variable {domain : Option Text} {user : Option (Text × Option Text)}

/-- The expression behind the user matches exactly the locations. -/
theorem locationPart_iff (s : Text) : locationPart cls domain user s ≠ [] ↔ Location cls s := by
  constructor
  · intro h
    obtain ⟨r, hr⟩ := List.exists_mem_of_ne_nil _ h
    simp only [locationPart, mem_bind, mem_option, mem_hostPart, mem_portPart, mem_lit,
      mem_atEnd] at hr
    obtain ⟨host, s1, ⟨hs, hhost⟩, port, s2, hport, share, s3, hshare, _, s4, hslash, _, s5,
      ⟨rfl, _⟩, _⟩ := hr
    obtain ⟨slash, rfl, hslash⟩ : ∃ slash, s3 = slash ∧ (slash = [] ∨ slash = ['/']) := by
      rcases hslash with ⟨_, _, hs3⟩ | ⟨_, hs3⟩
      · exact ⟨s3, rfl, Or.inr hs3⟩
      · exact ⟨s3, rfl, Or.inl hs3.symm⟩
    obtain ⟨shareText, hs2, hshare⟩ : ∃ text, s2 = text ++ s3 ∧ (text = [] ∨ ∃ name path,
        text = '/' :: (name ++ path) ∧ name ≠ [] ∧ (∀ d ∈ name, shareChar cls d) ∧
          (path = [] ∨ ∃ p, path = '/' :: p ∧ '\n' ∉ p)) := by
      rcases hshare with ⟨⟨name, path⟩, _, hmem⟩ | ⟨_, rfl⟩
      · obtain ⟨tail, hs2, hne, hname, hpath⟩ := mem_sharePart.mp hmem
        refine ⟨'/' :: (name ++ tail), by rw [hs2]; simp, Or.inr ⟨name, tail, rfl, hne, hname, ?_⟩⟩
        rcases hpath with ⟨_, htail⟩ | ⟨p, _, htail, hp⟩
        · exact Or.inl htail
        · exact Or.inr ⟨p, htail, hp⟩
      · exact ⟨[], rfl, Or.inl rfl⟩
    obtain ⟨portText, hs1, hport⟩ : ∃ text, s1 = text ++ s2 ∧ (text = [] ∨ ∃ digits,
        text = ':' :: digits ∧ digits ≠ [] ∧ ∀ d ∈ digits, cls.digit d) := by
      rcases hport with ⟨digits, _, hs1, hne, hdigits⟩ | ⟨_, rfl⟩
      · exact ⟨':' :: digits, hs1, Or.inr ⟨digits, rfl, hne, hdigits⟩⟩
      · exact ⟨[], rfl, Or.inl rfl⟩
    exact ⟨host, portText, shareText, s3, by rw [hs, hs1, hs2], hhost, hport, hshare, hslash⟩
  · intro h
    obtain ⟨host, portText, shareText, slash, rfl, hhost, hport, hshare, hslash⟩ := h
    obtain ⟨port, hport⟩ : ∃ port, (port, shareText ++ slash) ∈
        option (portPart cls) (portText ++ (shareText ++ slash)) := by
      rcases hport with rfl | ⟨digits, rfl, hne, hdigits⟩
      · exact ⟨none, mem_option.mpr (Or.inr ⟨rfl, rfl⟩)⟩
      · exact ⟨some digits, mem_option.mpr (Or.inl ⟨digits, rfl,
          mem_portPart.mpr ⟨rfl, hne, hdigits⟩⟩)⟩
    obtain ⟨share, hshare⟩ : ∃ share, (share, slash) ∈
        option (sharePart cls) (shareText ++ slash) := by
      rcases hshare with rfl | ⟨name, path, rfl, hne, hname, hpath⟩
      · exact ⟨none, mem_option.mpr (Or.inr ⟨rfl, rfl⟩)⟩
      · rcases hpath with rfl | ⟨p, rfl, hp⟩
        · exact ⟨some (name, none), mem_option.mpr (Or.inl ⟨_, rfl,
            mem_sharePart.mpr ⟨[], by simp, hne, hname, Or.inl ⟨rfl, rfl⟩⟩⟩)⟩
        · exact ⟨some (name, some p), mem_option.mpr (Or.inl ⟨_, rfl,
            mem_sharePart.mpr ⟨'/' :: p, by simp, hne, hname, Or.inr ⟨p, rfl, rfl, hp⟩⟩⟩)⟩
    obtain ⟨o, hslash⟩ : ∃ o, (o, []) ∈ option (lit '/') slash := by
      rcases hslash with rfl | rfl
      · exact ⟨none, mem_option.mpr (Or.inr ⟨rfl, rfl⟩)⟩
      · exact ⟨some (), mem_option.mpr (Or.inl ⟨(), rfl, mem_lit.mpr rfl⟩)⟩
    refine List.ne_nil_of_mem (mem_bind.mpr ⟨host, _, mem_hostPart.mpr ⟨rfl, hhost⟩,
      mem_bind.mpr ⟨port, _, hport, mem_bind.mpr ⟨share, _, hshare, mem_bind.mpr ⟨o, [], hslash,
        mem_bind.mpr ⟨(), [], mem_atEnd.mpr ⟨rfl, rfl⟩, mem_pure.mpr ⟨rfl, rfl⟩⟩⟩⟩⟩⟩)

theorem locationPart_user {s : Text} {r : Captures × Text}
    (h : r ∈ locationPart cls domain user s) : r.1.user = user.map Prod.fst := by
  simp only [locationPart, mem_bind] at h
  obtain ⟨_, _, _, _, _, _, _, _, _, _, _, _, _, _, _, hr⟩ := h
  rw [(mem_pure.mp hr).1]

/-! ### The preferred match of a location -/

def portText : Option Text → Text
  | none => []
  | some digits => ':' :: digits

def shareText : Option (Text × Option Text) → Text
  | none => []
  | some (name, none) => '/' :: name
  | some (name, some path) => '/' :: (name ++ '/' :: path)

theorem shareText_delimited (share : Option (Text × Option Text)) : Delimited (shareText share) := by
  cases share with
  | none => exact delimited_nil
  | some r =>
    obtain ⟨name, path⟩ := r
    cases path with
    | none => exact delimited_cons (by decide) _
    | some p => exact delimited_cons (by decide) _

theorem shareText_head (share : Option (Text × Option Text)) : (shareText share).head? ≠ some ':' := by
  cases share with
  | none => exact nofun
  | some r =>
    obtain ⟨name, path⟩ := r
    cases path with
    | none => simp [shareText]
    | some p => simp [shareText]

theorem portText_delimited (port : Option Text) (s : Text) (hs : Delimited s) :
    Delimited (portText port ++ s) := by
  cases port with
  | none => exact hs
  | some digits => exact delimited_cons (by decide) _

theorem portPart_other {s : Text} (h : s.head? ≠ some ':') : portPart cls s = [] :=
  lit_bind_other h _

theorem sharePart_nil : sharePart cls [] = [] := rfl

theorem pathPart_nil : pathPart [] = [] := rfl

theorem hostPart_head {c : Char} {rest s : Text} (hc : cls.word c)
    (hrest : ∀ d ∈ rest, hostChar cls d) (hs : Delimited s) :
    (hostPart cls (c :: rest ++ s)).head? = some (c :: rest, s) := by
  have hitem : item cls.word (c :: rest ++ s) = [(c, rest ++ s)] := if_pos hc
  rw [hostPart, bind_single hitem]
  exact bind_head (many_run (hostChar cls) hrest hs.host) rfl

theorem pathPart_head {path : Text} (h : '\n' ∉ path) :
    (pathPart ('/' :: path)).head? = some (path, []) := by
  rw [pathPart, lit_bind]
  exact many_all h

theorem sharePart_head {name : Text} {path : Option Text} (hne : name ≠ [])
    (hname : ∀ c ∈ name, shareChar cls c) (hpath : ∀ p ∈ path, '\n' ∉ p) :
    (sharePart cls (shareText (some (name, path)))).head? = some ((name, path), []) := by
  cases path with
  | none =>
    have hplus := plus_run (shareChar cls) hne hname delimited_nil.share
    rw [List.append_nil] at hplus
    rw [shareText, sharePart, lit_bind]
    refine bind_head hplus ?_
    rw [option_bind_none pathPart_nil]
    rfl
  | some p =>
    rw [shareText, sharePart, lit_bind]
    refine bind_head (plus_run (shareChar cls) hne hname
      (delimited_cons (by decide) p).share) ?_
    exact option_head (bind_head (pathPart_head (hpath p rfl)) rfl)

/-- What is left of the expression matches the empty text. -/
theorem ending_nil (m : Captures) :
    ((do
      let _ ← option (lit '/')
      atEnd
      pure m : Pattern Char Captures) []).head? = some (m, []) := by
  have hslash : lit '/' ([] : Text) = [] := rfl
  rw [option_bind_none hslash]
  rfl

theorem locationPart_head {c : Char} {rest : Text} (hc : cls.word c)
    (hrest : ∀ d ∈ rest, hostChar cls d) {port : Option Text}
    (hport : ∀ digits ∈ port, digits ≠ [] ∧ ∀ d ∈ digits, cls.digit d)
    {share : Option (Text × Option Text)} (hname : ∀ r ∈ share, r.1 ≠ [] ∧
      (∀ d ∈ r.1, shareChar cls d) ∧ ∀ p ∈ r.2, '\n' ∉ p) :
    (locationPart cls domain user (c :: rest ++ (portText port ++ shareText share))).head? =
      some ({
        domain, port, user := user.map Prod.fst, passwd := user.bind Prod.snd
        host := c :: rest, share := share.map Prod.fst, path := share.bind Prod.snd }, []) := by
  have hshare : ((do
      let share ← option (sharePart cls)
      let _ ← option (lit '/')
      atEnd
      pure {
        domain, port, user := user.map Prod.fst, passwd := user.bind Prod.snd
        host := c :: rest, share := share.map Prod.fst
        path := share.bind Prod.snd } : Pattern Char Captures) (shareText share)).head? =
      some ({
        domain, port, user := user.map Prod.fst, passwd := user.bind Prod.snd
        host := c :: rest, share := share.map Prod.fst, path := share.bind Prod.snd }, []) := by
    cases share with
    | none =>
      rw [shareText, option_bind_none sharePart_nil]
      exact ending_nil _
    | some r =>
      obtain ⟨hne, hchars, hpath⟩ := hname r rfl
      exact option_head (bind_head (sharePart_head hne hchars hpath) (ending_nil _))
  rw [locationPart]
  refine bind_head (hostPart_head hc hrest
    (portText_delimited port _ (shareText_delimited share))) ?_
  cases port with
  | none =>
    rw [portText, List.nil_append, option_bind_none (portPart_other (shareText_head share))]
    exact hshare
  | some digits =>
    obtain ⟨hne, hdigits⟩ := hport digits rfl
    refine option_head ?_
    rw [portText, portPart, bind_assoc, List.cons_append, lit_bind]
    exact bind_head (plus_run cls.digit hne hdigits (shareText_delimited share).digit) hshare

end

/-! ### The port -/

theorem parseDigits_append (acc : ℕ) (xs ys : Text) :
    parseDigits acc (xs ++ ys) = (parseDigits acc xs).bind fun n => parseDigits n ys := by
  induction xs generalizing acc with
  | nil => rfl
  | cons c xs ih =>
    rw [List.cons_append, parseDigits, parseDigits]
    split
    · split
      · exact ih _
      · rfl
    · rfl

theorem digitChar_value {d : ℕ} (h : d < 10) :
    (Nat.digitChar d).isDigit = true ∧ (Nat.digitChar d).toNat - 48 = d := by
  have hall : ∀ d < 10, (Nat.digitChar d).isDigit = true ∧ (Nat.digitChar d).toNat - 48 = d := by
    decide
  exact hall d h

theorem parseDigits_toDigits (n : ℕ) (h : n < 65536) :
    parseDigits 0 (Nat.toDigits 10 n) = some n := by
  induction n using Nat.strongRecOn with
  | ind n ih =>
    rw [Nat.toDigits_eq_if (by decide)]
    split
    · rename_i hn
      obtain ⟨hdigit, hvalue⟩ := digitChar_value hn
      simp [parseDigits, hdigit, hvalue, h]
    · rename_i hn
      obtain ⟨hdigit, hvalue⟩ := digitChar_value (Nat.mod_lt n (by decide : 0 < 10))
      have hdiv : 10 * (n / 10) + n % 10 = n := Nat.div_add_mod n 10
      rw [parseDigits_append, ih (n / 10) (by omega) (by omega)]
      simp [parseDigits, hdigit, hvalue, hdiv, h]

theorem toDigits_ne_nil (n : ℕ) : Nat.toDigits 10 n ≠ [] := by
  rw [Nat.toDigits_eq_if (by decide)]
  split
  · simp
  · simp

theorem toDigits_isDigit {n : ℕ} {c : Char} (h : c ∈ Nat.toDigits 10 n) : c.isDigit = true :=
  Nat.isDigit_of_mem_toDigits (by decide) (by decide) h

theorem parseU16_toDigits (port : UInt16) : parseU16 (Nat.toDigits 10 port.toNat) = some port := by
  have hvalue := parseDigits_toDigits port.toNat port.toNat_lt
  have hne := toDigits_ne_nil port.toNat
  have hdigits : ∀ c ∈ Nat.toDigits 10 port.toNat, c.isDigit = true := fun _ => toDigits_isDigit
  unfold parseU16
  cases hs : Nat.toDigits 10 port.toNat with
  | nil => exact absurd hs hne
  | cons c s =>
    rw [hs] at hvalue hdigits
    have hplus : c ≠ '+' := by
      intro h
      have hc := hdigits c List.mem_cons_self
      rw [h] at hc
      exact absurd hc (by decide)
    split
    · rename_i heq
      exact absurd (List.cons.inj heq).1 hplus
    · simp [hvalue]

theorem isDigit_ascii {c : Char} (h : c.isDigit = true) : c.toNat < 128 := by
  have hrange := Digits.isDigit_toNat h
  omega

variable (cls) in
theorem toDigits_digit {n : ℕ} {c : Char} (h : c ∈ Nat.toDigits 10 n) : cls.digit c := by
  have hdigit := toDigits_isDigit h
  rw [cls.digit_ascii c (isDigit_ascii hdigit)]
  exact hdigit

end CifsClientStream.Uri
