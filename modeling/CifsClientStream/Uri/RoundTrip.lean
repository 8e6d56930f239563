import CifsClientStream.Uri.Groups

/-!
# Reading a rendered URI back (src/lib.rs)

The parts of a rendered target are separated by delimiters, so each group of
the expression has one way to match at most, with one exception: the password
group takes what lies between a port and an `@` in the path when that leaves
something that looks like a host.
-/

namespace CifsClientStream.Uri
open Backtrack Pattern

variable {cls : Classes}

/-! ### Targets -/

/-- A target, each part of it in the class it is said to be in. -/
structure Target (cls : Classes) where
  domain : Option String
  user : Option String
  password : Option String
  host : String
  port : Option UInt16
  share : Option String
  path : Option String
  domain_chars : ∀ d ∈ domain, d.toList ≠ [] ∧ ∀ c ∈ d.toList, cls.word c
  user_chars : ∀ u ∈ user, u.toList ≠ [] ∧ ∀ c ∈ u.toList, userChar cls c
  password_chars : ∀ p ∈ password, user ≠ none ∧ '@' ∉ p.toList
  host_chars : ∃ c rest, host.toList = c :: rest ∧ cls.word c ∧ ∀ d ∈ rest, hostChar cls d
  share_chars : ∀ s ∈ share, s.toList ≠ [] ∧ ∀ c ∈ s.toList, shareChar cls c
  path_chars : ∀ p ∈ path, share ≠ none ∧ '\n' ∉ p.toList

def domainText : Option Text → Text
  | none => []
  | some domain => domain ++ [';']

def userText : Option (Text × Option Text) → Text
  | none => []
  | some (user, none) => user ++ ['@']
  | some (user, some passwd) => user ++ ':' :: (passwd ++ ['@'])

namespace Target
variable (t : Target cls)

def domainInfo : Option Text := t.domain.map String.toList

def userInfo : Option (Text × Option Text) :=
  t.user.map fun u => (u.toList, t.password.map String.toList)

def portInfo : Option Text := t.port.map fun p => Nat.toDigits 10 p.toNat

def shareInfo : Option (Text × Option Text) :=
  t.share.map fun s => (s.toList, t.path.map String.toList)

/-- `host[:port][/share[/path]]` -/
def locationText : Text := t.host.toList ++ (portText t.portInfo ++ shareText t.shareInfo)

/-- `smb://[domain;][user[:password]@]host[:port][/share[/path]]` -/
def render : String :=
  String.ofList (['s', 'm', 'b', ':', '/', '/'] ++
    (domainText t.domainInfo ++ (userText t.userInfo ++ t.locationText)))

def config : CifsConfig where
  domain := t.domain
  user := t.user
  password := t.password
  hostname := t.host
  port := t.port
  share := t.share
  path := t.path

/-- Without a user but with a port, the path has an `@` and behind the first one something that
looks like a host. -/
def Misread : Prop :=
  t.user = none ∧ t.port ≠ none ∧ ∃ path ∈ t.path, ∃ before after,
    path.toList = before ++ '@' :: after ∧ '@' ∉ before ∧ Location cls after

/-- The groups as they should match. -/
def captures : Captures where
  domain := t.domainInfo
  user := t.userInfo.map Prod.fst
  passwd := t.userInfo.bind Prod.snd
  host := t.host.toList
  port := t.portInfo
  share := t.shareInfo.map Prod.fst
  path := t.shareInfo.bind Prod.snd

theorem captures_user : t.captures.user.map String.ofList = t.user := by
  cases h : t.user <;> simp [captures, userInfo, h]

theorem captures_passwd : t.captures.passwd.map String.ofList = t.password := by
  cases hu : t.user with
  | none =>
    cases hp : t.password with
    | none => simp [captures, userInfo, hu]
    | some p => exact absurd hu (t.password_chars p hp).1
  | some u =>
    cases hp : t.password <;> simp [captures, userInfo, hu, hp]

theorem captures_share : t.captures.share.map String.ofList = t.share := by
  cases h : t.share <;> simp [captures, shareInfo, h]

theorem captures_path : t.captures.path.map String.ofList = t.path := by
  cases hs : t.share with
  | none =>
    cases hp : t.path with
    | none => simp [captures, shareInfo, hs]
    | some p => exact absurd hs (t.path_chars p hp).1
  | some s =>
    cases hp : t.path <;> simp [captures, shareInfo, hs, hp]

theorem captures_domain : t.captures.domain.map String.ofList = t.domain := by
  cases h : t.domain <;> simp [captures, domainInfo, h]

theorem captures_port : convertPort t.captures.port = .ok t.port := by
  cases h : t.port with
  | none => simp [captures, portInfo, h, convertPort]
  | some p => simp [captures, portInfo, h, convertPort, parseU16_toDigits]

theorem resolve_captures (h : first (uriRegex cls) t.render.toList = some t.captures) :
    resolveSmbUri cls t.render = .ok t.config := by
  rw [resolveSmbUri, h]
  dsimp only
  rw [t.captures_port, t.captures_user, t.captures_passwd, t.captures_domain, t.captures_share,
    t.captures_path]
  simp [captures, config]
  rfl

/-! ### The match of a rendered target -/

theorem location_head :
    (locationPart cls t.domainInfo t.userInfo t.locationText).head? = some (t.captures, []) := by
  obtain ⟨c, rest, hhost, hc, hrest⟩ := t.host_chars
  have hport : ∀ digits ∈ t.portInfo, digits ≠ [] ∧ ∀ d ∈ digits, cls.digit d := by
    intro digits hdigits
    obtain ⟨p, _, rfl⟩ := Option.map_eq_some_iff.mp hdigits
    exact ⟨toDigits_ne_nil _, fun d hd => toDigits_digit cls hd⟩
  have hshare : ∀ r ∈ t.shareInfo, r.1 ≠ [] ∧ (∀ d ∈ r.1, shareChar cls d) ∧
      ∀ p ∈ r.2, '\n' ∉ p := by
    intro r hr
    obtain ⟨s, hs, rfl⟩ := Option.map_eq_some_iff.mp hr
    obtain ⟨hne, hchars⟩ := t.share_chars s hs
    refine ⟨hne, hchars, fun p hp => ?_⟩
    obtain ⟨path, hpath, rfl⟩ := Option.map_eq_some_iff.mp hp
    exact (t.path_chars path hpath).2
  rw [locationText, captures, hhost]
  exact locationPart_head hc hrest hport hshare

theorem host_run : t.host.toList ≠ [] ∧ ∀ c ∈ t.host.toList, userChar cls c := by
  obtain ⟨c, rest, hhost, hc, hrest⟩ := t.host_chars
  rw [hhost]
  refine ⟨List.cons_ne_nil _ _, fun d hd => ?_⟩
  rcases List.mem_cons.mp hd with rfl | hd
  · exact userChar_of_word cls hc
  · exact userChar_of_host cls (hrest d hd)

/-- The expression behind the domain. -/
def userStage (cls : Classes) (domain : Option Text) : Pattern Char Captures := do
  let user ← option (userPart cls)
  locationPart cls domain user

theorem userStage_user (h : t.user ≠ none) :
    (userStage cls t.domainInfo (userText t.userInfo ++ t.locationText)).head? =
      some (t.captures, []) := by
  have hhead := t.location_head
  cases hu : t.user with
  | none => exact absurd hu h
  | some u =>
    obtain ⟨hne, hchars⟩ := t.user_chars u hu
    apply option_head
    cases hp : t.password with
    | none =>
      have hinfo : t.userInfo = some (u.toList, none) := by simp [userInfo, hu, hp]
      rw [hinfo] at hhead ⊢
      rw [userText, List.append_assoc, List.singleton_append,
        bind_single (userPart_at hne hchars)]
      exact hhead
    | some p =>
      have hinfo : t.userInfo = some (u.toList, some p.toList) := by simp [userInfo, hu, hp]
      rw [hinfo] at hhead ⊢
      rw [userText, List.append_assoc, List.cons_append, List.append_assoc,
        List.singleton_append,
        bind_single (userPart_password hne hchars (t.password_chars p hp).2)]
      exact hhead

/-- If no user can be seen in the location, none is. -/
theorem userStage_none (h : t.user = none)
    (hskip : (userPart cls >>= fun user => locationPart cls t.domainInfo (some user))
      t.locationText = []) :
    (userStage cls t.domainInfo (userText t.userInfo ++ t.locationText)).head? =
      some (t.captures, []) := by
  have hhead := t.location_head
  have hinfo : t.userInfo = none := by simp [userInfo, h]
  rw [hinfo] at hhead ⊢
  rw [userText, List.nil_append, userStage, option_bind, hskip, List.nil_append]
  exact hhead

theorem portless_skip (h : t.port = none) : userPart cls t.locationText = [] := by
  obtain ⟨hne, hchars⟩ := t.host_run
  have hinfo : t.portInfo = none := by simp [portInfo, h]
  have hat : (shareText t.shareInfo).head? ≠ some '@' := by
    cases t.shareInfo with
    | none => simp [shareText]
    | some r =>
      obtain ⟨name, path⟩ := r
      cases path <;> simp [shareText]
  rw [locationText, hinfo, portText, List.nil_append]
  exact userPart_neither hne hchars (shareText_delimited _) (shareText_head _) hat

/-- An `@` behind the host is in the path. -/
theorem at_in_path {digits : Text} (hdigits : ∀ d ∈ digits, cls.digit d)
    (h : '@' ∈ digits ++ shareText t.shareInfo) : ∃ path ∈ t.path, ∃ before after passwd,
      path.toList = before ++ '@' :: after ∧ '@' ∉ before ∧
      digits ++ shareText t.shareInfo = passwd ++ '@' :: after ∧ '@' ∉ passwd := by
  obtain ⟨_, _, _, hshareChar, hdigit⟩ := delimiter_foreign cls (c := '@') (by decide)
  have hnodigit : '@' ∉ digits := by
    intro hmem
    have hd := hdigits _ hmem
    rw [hdigit] at hd
    exact absurd hd (by decide)
  have hmem := (List.mem_append.mp h).resolve_left hnodigit
  cases hs : t.share with
  | none => simp [shareInfo, hs, shareText] at hmem
  | some s =>
    have hname : '@' ∉ s.toList := by
      intro hmem
      have hc := (t.share_chars s hs).2 _ hmem
      rw [hshareChar] at hc
      exact absurd hc (by decide)
    cases hp : t.path with
    | none => simp [shareInfo, hs, hp, shareText, hname] at hmem
    | some path =>
      have hinfo : shareText t.shareInfo = '/' :: (s.toList ++ '/' :: path.toList) := by
        simp [shareInfo, hs, hp, shareText]
      have hpath : '@' ∈ path.toList := by
        rw [hinfo] at hmem
        simpa [hname] using hmem
      obtain ⟨before, after, hsplit, hbefore⟩ := List.eq_append_cons_of_mem hpath
      refine ⟨path, rfl, before, after, digits ++ '/' :: (s.toList ++ '/' :: before), hsplit,
        hbefore, ?_, ?_⟩
      · rw [hinfo, hsplit]
        simp
      · simp [hnodigit, hname, hbefore]

/-- With a port and an `@` in the path, the host can be taken for a user in one way: the
password is what lies between them. -/
theorem userPart_path {port : UInt16} (hport : t.port = some port)
    {passwd after : Text} (hpasswd : '@' ∉ passwd)
    (hsplit : Nat.toDigits 10 port.toNat ++ shareText t.shareInfo = passwd ++ '@' :: after) :
    userPart cls t.locationText = [((t.host.toList, some passwd), after)] := by
  obtain ⟨hne, hchars⟩ := t.host_run
  have hinfo : t.portInfo = some (Nat.toDigits 10 port.toNat) := by simp [portInfo, hport]
  rw [locationText, hinfo, portText, List.cons_append, hsplit]
  exact userPart_password hne hchars hpasswd

theorem userStage_faithful (h : ¬t.Misread) :
    (userStage cls t.domainInfo (userText t.userInfo ++ t.locationText)).head? =
      some (t.captures, []) := by
  by_cases hu : t.user = none
  · apply t.userStage_none hu
    cases hport : t.port with
    | none => exact bind_nil (t.portless_skip hport) _
    | some port =>
      by_cases hat : '@' ∈ Nat.toDigits 10 port.toNat ++ shareText t.shareInfo
      · obtain ⟨path, hpath, before, after, passwd, hsplit, hbefore, htext, hpasswd⟩ :=
          t.at_in_path (fun d hd => toDigits_digit cls hd) hat
        have hnone : locationPart cls t.domainInfo (some (t.host.toList, some passwd)) after = [] := by
          by_contra hsome
          exact h ⟨hu, by rw [hport]; exact Option.some_ne_none _, path, hpath, before, after, hsplit, hbefore,
            (locationPart_iff after).mp hsome⟩
        rw [bind_single (t.userPart_path hport hpasswd htext)]
        exact hnone
      · obtain ⟨hne, hchars⟩ := t.host_run
        have hinfo : t.portInfo = some (Nat.toDigits 10 port.toNat) := by simp [portInfo, hport]
        rw [locationText, hinfo, portText, List.cons_append]
        exact bind_nil (userPart_no_at hne hchars hat) _
  · exact t.userStage_user hu

theorem userStage_misread (h : t.Misread) :
    ∃ r, (userStage cls t.domainInfo (userText t.userInfo ++ t.locationText)).head? = some r ∧
      r.1.user ≠ none := by
  obtain ⟨hu, hport, path, hpath, before, after, hsplit, hbefore, hlocation⟩ := h
  obtain ⟨port, hport⟩ := Option.ne_none_iff_exists'.mp hport
  have hshare : t.share ≠ none := (t.path_chars path hpath).1
  obtain ⟨share, hshare⟩ := Option.ne_none_iff_exists'.mp hshare
  have hpathInfo : shareText t.shareInfo = '/' :: (share.toList ++ '/' :: path.toList) := by
    simp [shareInfo, hshare, Option.mem_def.mp hpath, shareText]
  have hat : '@' ∈ Nat.toDigits 10 port.toNat ++ shareText t.shareInfo := by
    rw [hpathInfo, hsplit]
    simp
  obtain ⟨path', hpath', before', after', passwd, hsplit', hbefore', htext, hpasswd⟩ :=
    t.at_in_path (fun d hd => toDigits_digit cls hd) hat
  -- the first `@` of the path is one place
  have hsame : path' = path := Option.some.inj (hpath'.symm.trans hpath)
  rw [hsame, hsplit] at hsplit'
  have hunique := run_unique (forall_other.mpr hbefore) (by simp) (forall_other.mpr hbefore')
    (by simp) hsplit'
  have hafter : after' = after := (List.cons.inj hunique.2).2.symm
  rw [hafter] at htext
  have hsome : locationPart cls t.domainInfo (some (t.host.toList, some passwd)) after ≠ [] :=
    (locationPart_iff after).mpr hlocation
  obtain ⟨r, tail, hlist⟩ := List.exists_cons_of_ne_nil hsome
  have hinfo : t.userInfo = none := by simp [userInfo, hu]
  refine ⟨r, ?_, ?_⟩
  · rw [hinfo, userText, List.nil_append]
    apply option_head
    rw [bind_single (t.userPart_path hport hpasswd htext), hlist]
    rfl
  · rw [locationPart_user (by rw [hlist]; exact List.mem_cons_self)]
    exact Option.some_ne_none _

theorem domain_skip :
    domainPart cls (userText t.userInfo ++ t.locationText) = [] := by
  cases hu : t.user with
  | none =>
    have hinfo : t.userInfo = none := by simp [userInfo, hu]
    have hrest := portText_delimited t.portInfo _ (shareText_delimited t.shareInfo)
    have hsemi : (portText t.portInfo ++ shareText t.shareInfo).head? ≠ some ';' := by
      cases t.portInfo with
      | some digits => simp [portText]
      | none =>
        cases t.shareInfo with
        | none => simp [portText, shareText]
        | some r =>
          obtain ⟨name, path⟩ := r
          cases path <;> simp [portText, shareText]
    rw [hinfo, userText, List.nil_append, locationText]
    exact domainPart_none t.host_run.2 hrest hsemi
  | some u =>
    obtain ⟨_, hchars⟩ := t.user_chars u hu
    cases hp : t.password with
    | none =>
      have hinfo : t.userInfo = some (u.toList, none) := by simp [userInfo, hu, hp]
      rw [hinfo, userText, List.append_assoc]
      exact domainPart_none hchars (delimited_cons (by decide) _) (by simp)
    | some p =>
      have hinfo : t.userInfo = some (u.toList, some p.toList) := by simp [userInfo, hu, hp]
      rw [hinfo, userText, List.append_assoc]
      exact domainPart_none hchars (delimited_cons (by decide) _) (by simp)

theorem first_render {m : Captures} {s : Text}
    (h : (userStage cls t.domainInfo (userText t.userInfo ++ t.locationText)).head? =
      some (m, s)) : first (uriRegex cls) t.render.toList = some m := by
  have hdomain : ((do
      let domain ← option (domainPart cls)
      userStage cls domain : Pattern Char Captures)
        (domainText t.domainInfo ++ (userText t.userInfo ++ t.locationText))).head? =
      some (m, s) := by
    cases hd : t.domain with
    | none =>
      have hinfo : t.domainInfo = none := by simp [domainInfo, hd]
      rw [hinfo] at h ⊢
      rw [domainText, List.nil_append, option_bind_none t.domain_skip]
      exact h
    | some d =>
      have hinfo : t.domainInfo = some d.toList := by simp [domainInfo, hd]
      obtain ⟨hne, hchars⟩ := t.domain_chars d hd
      rw [hinfo] at h ⊢
      apply option_head
      rw [domainText, List.append_assoc, List.singleton_append,
        bind_single (domainPart_some hne hchars)]
      exact h
  rw [first, render, String.toList_ofList, uriRegex, literal_bind]
  change Option.map Prod.fst (((do
    let domain ← option (domainPart cls)
    userStage cls domain : Pattern Char Captures) _).head?) = _
  rw [hdomain]
  rfl

end Target

/-- A rendered target is read back exactly, unless it is one whose path is taken for a host: then
a user comes out that the target does not have, or an error. -/
theorem resolve_render_iff (t : Target cls) :
    resolveSmbUri cls t.render = .ok t.config ↔ ¬t.Misread := by
  constructor
  · intro h hmisread
    obtain ⟨r, hhead, huser⟩ := t.userStage_misread hmisread
    have hfirst := t.first_render (m := r.1) (s := r.2) hhead
    rw [resolveSmbUri, hfirst] at h
    obtain ⟨port, _, hok⟩ := Cursor.except_bind_ok.mp h
    have hconfig := congrArg CifsConfig.user (Except.ok.inj hok)
    have hnone : r.1.user.map String.ofList = none := hconfig.trans hmisread.1
    exact huser (Option.map_eq_none_iff.mp hnone)
  · intro h
    exact t.resolve_captures (t.first_render (t.userStage_faithful h))

/-- A file whose name has an `@`, on a server with a port. -/
def atInPath : Target asciiClasses where
  domain := none
  user := none
  password := none
  host := "host"
  port := some 445
  share := some "share"
  path := some "a@b"
  domain_chars := nofun
  user_chars := nofun
  password_chars := nofun
  host_chars := ⟨'h', ['o', 's', 't'], rfl, by decide, List.all_eq_true.mp (by decide)⟩
  share_chars := by
    intro s hs
    cases hs
    exact ⟨by decide, List.all_eq_true.mp (by decide)⟩
  path_chars := by
    intro p hp
    cases hp
    decide

/-- The client connects to `b` as the user `host`. -/
theorem atInPath_misread :
    atInPath.render = "smb://host:445/share/a@b" ∧
    resolveSmbUri asciiClasses atInPath.render = .ok {
      domain := none, user := some "host", password := some "445/share/a", hostname := "b"
      port := none, share := none, path := none } ∧
    resolveSmbUri asciiClasses atInPath.render ≠ .ok atInPath.config := by
  decide +kernel

end CifsClientStream.Uri
