import ComponentScan.Proofs.Remote

/-!
# Credentials

In the long form, what stands in front of the first `@` is left out as a user if the rest is an
address then. So the canonical form is that of the address without its user exactly if there is no
second `@` in the user, and the host is a name, with a port or without; for any other host or user
an `@` stays in front of the path (`canonicalRemote_withUser_iff`).
-/

namespace ComponentScan

open Text

namespace Remote

variable {scheme rest place s : List Char}

/-! ## Authorities -/

/-- The part of an address between its scheme and its path. -/
def authority (url : String) : List Char :=
  front ((schemes.firstM (dropStart? · url.toList)).getD [])

theorem authority_scheme (h : scheme ∈ schemes) (rest : List Char) :
    authority (String.ofList (scheme ++ rest)) = front rest := by
  rw [authority, String.toList_ofList, firstM_schemes h, Option.getD_some]

/-- The authority stays when closing slashes are taken away. -/
theorem authority_rdropWhile (h : scheme ∈ schemes) (hne : front rest ≠ []) :
    authority (String.ofList ((scheme ++ rest).rdropWhile (· == '/'))) = front rest := by
  have happend : front rest ++ rest.dropWhile (· ≠ '/') = rest := List.takeWhile_append_dropWhile
  have hlast : ∀ c, (scheme ++ front rest).getLast? = some c → (c == '/') = false := fun c hc => by
    rw [List.getLast?_append, Option.or_of_isSome (by simpa using hne)] at hc
    simpa using ne_slash_of_mem_front (List.mem_of_getLast? hc)
  have hbehind : front ((rest.dropWhile (· ≠ '/')).rdropWhile (· == '/')) = [] := by
    have hnot := List.head?_dropWhile_not (· ≠ '/') rest
    generalize rest.dropWhile (· ≠ '/') = t at hnot ⊢
    cases t with
    | nil => rfl
    | cons c t =>
      obtain rfl : c = '/' := by simpa using hnot
      rcases List.prefix_cons_iff.1 (List.rdropWhile_prefix (· == '/') ('/' :: t)) with
        hnil | ⟨r, hr, -⟩
      · rw [hnil]
        rfl
      · rw [hr]
        rfl
  conv_lhs => rw [← happend]
  rw [← List.append_assoc, rdropWhile_append hlast, List.append_assoc, authority_scheme h,
    front_append (fun hmem => ne_slash_of_mem_front hmem rfl), hbehind, List.append_nil]

/-- Reading a host and a path leaves an `@` where it is. -/
theorem at_mem_front_iff (h : hostAndPath? s = some place) : '@' ∈ front place ↔ '@' ∈ front s := by
  obtain ⟨host, port, path, p, rfl, hhost, hport, -, rfl⟩ := hostAndPath?_eq_some_iff.1 h
  have hslash : '/' ∉ host := by simpa using slash_notMem_host hhost .absent
  rw [front_append_slash hslash, front_append_slash (slash_notMem_host hhost hport), List.mem_append,
    or_iff_left (notMem_of_isPort hport (by decide) (by decide))]

/-- An `@` in front of the path stays there, unless a user that ends with it is left out and there
is no other one. -/
theorem at_mem_authority_iff (hscheme : scheme ∈ schemes) (hrest : ∀ c ∈ rest, isBlank c = false)
    (hne : front rest ≠ []) :
    '@' ∈ authority (canonicalRemote (String.ofList (scheme ++ rest))) ↔
      '@' ∈ front rest ∧
        ∀ r place, afterUser? rest = some r → hostAndPath? r = some place → '@' ∈ front r := by
  rw [canonicalRemote_scheme hscheme hrest]
  cases hafter : (afterUser? rest).bind hostAndPath? with
  | some place =>
    obtain ⟨r, hr, hplace⟩ := Option.bind_eq_some_iff.1 hafter
    obtain ⟨user, rfl, -, huser⟩ := afterUser?_eq_some_iff.1 hr
    have hfront : '@' ∈ front (user ++ '@' :: r) := by
      rw [front_append fun hmem => (huser _ hmem).1 rfl]
      exact List.mem_append_right _ List.mem_cons_self
    rw [Option.some_or]
    dsimp only
    rw [authority_scheme https_mem_schemes, at_mem_front_iff hplace, and_iff_right hfront]
    refine ⟨fun hmem r' place' hr' _ => ?_, fun h => h r place hr hplace⟩
    cases hr.symm.trans hr'
    exact hmem
  | none =>
    have hnone : ∀ r place, afterUser? rest = some r → hostAndPath? r = some place →
        '@' ∈ front r := fun r place hr hplace => by
      rw [hr, Option.bind_some, hplace] at hafter
      cases hafter
    rw [Option.none_or, and_iff_left hnone]
    cases hplace : hostAndPath? rest with
    | some place =>
      dsimp only
      rw [authority_scheme https_mem_schemes, at_mem_front_iff hplace]
    | none =>
      dsimp only
      rw [authority_rdropWhile hscheme hne]

/-! ## Addresses with a user -/

/-- An address in the long form. -/
structure Address where
  scheme : List Char
  host : List Char
  path : List Char
  scheme_mem : scheme ∈ schemes
  host_ne_nil : host ≠ []
  of_mem_host : ∀ c ∈ host, c ≠ '@' ∧ c ≠ '/' ∧ isBlank c = false
  path_ne_nil : path ≠ []
  of_mem_path : ∀ c ∈ path, isBlank c = false

namespace Address

/-- The address as it is written without a user. -/
def text (a : Address) : String :=
  String.ofList (a.scheme ++ (a.host ++ '/' :: a.path))

/-- The address as it is written with a user, who may have a password. -/
def withUser (a : Address) (user : List Char) : String :=
  String.ofList (a.scheme ++ (user ++ '@' :: (a.host ++ '/' :: a.path)))

/-- Whether the host is a name, perhaps with a port. A bracketed address is none. -/
def HasHostName (a : Address) : Prop :=
  ∃ name port, a.host = name ++ port ∧ IsHostName name ∧ IsPort port

variable {a : Address} {user : List Char}

theorem slash_notMem_host (a : Address) : '/' ∉ a.host :=
  fun hmem => (a.of_mem_host _ hmem).2.1 rfl

theorem at_notMem_host (a : Address) : '@' ∉ a.host :=
  fun hmem => (a.of_mem_host _ hmem).1 rfl

theorem not_isBlank_hostAndPath (a : Address) : ∀ c ∈ a.host ++ '/' :: a.path, isBlank c = false :=
  List.forall_mem_append.2 ⟨fun c hc => (a.of_mem_host c hc).2.2,
    List.forall_mem_cons.2 ⟨by decide, a.of_mem_path⟩⟩

theorem hasHostName_iff :
    a.HasHostName ↔ ∃ place, hostAndPath? (a.host ++ '/' :: a.path) = some place := by
  constructor
  · rintro ⟨name, port, hhost, hname, hport⟩
    have hfeed : '\n' ∉ a.path := fun hmem => absurd (a.of_mem_path _ hmem) (by decide)
    obtain ⟨p, hp⟩ := Option.isSome_iff_exists.1 (isSome_path? a.path_ne_nil hfeed)
    exact ⟨_, hostAndPath?_eq_some_iff.2
      ⟨name, port, a.path, p, by rw [hhost], hname, hport, hp, rfl⟩⟩
  · rintro ⟨place, hplace⟩
    obtain ⟨name, port, path, p, heq, hname, hport, -⟩ := hostAndPath?_eq_some_iff.1 hplace
    have hfront := congrArg front heq
    rw [front_append_slash a.slash_notMem_host,
      front_append_slash (Remote.slash_notMem_host hname hport)] at hfront
    exact ⟨name, port, hfront, hname, hport⟩

theorem afterUser?_text (a : Address) : afterUser? (a.host ++ '/' :: a.path) = none := by
  apply afterUser?_eq_none
  rw [front_append_slash a.slash_notMem_host]
  exact a.at_notMem_host

theorem afterUser?_withUser (hne : user ≠ []) (hslash : '/' ∉ user) (hat : '@' ∉ user) :
    afterUser? (user ++ '@' :: (a.host ++ '/' :: a.path)) = some (a.host ++ '/' :: a.path) :=
  afterUser?_eq_some_iff.2 ⟨user, rfl, hne, fun _ hc =>
    ⟨ne_of_mem_of_not_mem hc hslash, ne_of_mem_of_not_mem hc hat⟩⟩

theorem front_withUser (hslash : '/' ∉ user) :
    front (user ++ '@' :: (a.host ++ '/' :: a.path)) = user ++ '@' :: a.host := by
  rw [front_append hslash, ← List.cons_append,
    front_append_slash (by simpa using a.slash_notMem_host)]

theorem not_isBlank_withUser (h : ∀ c ∈ user, isBlank c = false) :
    ∀ c ∈ user ++ '@' :: (a.host ++ '/' :: a.path), isBlank c = false :=
  List.forall_mem_append.2 ⟨h, List.forall_mem_cons.2 ⟨by decide, a.not_isBlank_hostAndPath⟩⟩

/-- A user is left out, and no `@` stays behind it, exactly if there is none in the user and the
host is a name. -/
theorem exists_afterUser?_iff (hne : user ≠ []) (hslash : '/' ∉ user) :
    (∃ r place, afterUser? (user ++ '@' :: (a.host ++ '/' :: a.path)) = some r ∧
      hostAndPath? r = some place ∧ '@' ∉ front r) ↔ '@' ∉ user ∧ a.HasHostName := by
  rw [hasHostName_iff]
  constructor
  · rintro ⟨r, place, hr, hplace, hat⟩
    obtain ⟨user', heq, -, huser'⟩ := afterUser?_eq_some_iff.1 hr
    have hat' : '@' ∉ user' := fun hmem => (huser' _ hmem).2 rfl
    have hfront : user ++ '@' :: a.host = user' ++ '@' :: front r := by
      rw [← front_withUser hslash, heq, front_append fun hmem => (huser' _ hmem).1 rfl]
      rfl
    -- there is no other `@` on the right side, so both users end with the same one
    obtain ⟨rfl, -, -⟩ := (List.append_cons_inj_of_notMem hat' hat).1 hfront.symm
    obtain rfl : a.host ++ '/' :: a.path = r := by simpa using heq
    exact ⟨hat', place, hplace⟩
  · rintro ⟨hat, place, hplace⟩
    refine ⟨_, place, afterUser?_withUser hne hslash hat, hplace, ?_⟩
    rw [front_append_slash a.slash_notMem_host]
    exact a.at_notMem_host

/-! ## Canonical forms -/

theorem at_notMem_authority_text (a : Address) : '@' ∉ authority (canonicalRemote a.text) := by
  have hfront := front_append_slash a.slash_notMem_host a.path
  rw [text, at_mem_authority_iff a.scheme_mem a.not_isBlank_hostAndPath
    (by rw [hfront]; exact a.host_ne_nil), hfront]
  exact fun h => a.at_notMem_host h.1

/-- A user without an `@` in front of a host name does not count. -/
theorem canonicalRemote_withUser (hne : user ≠ [])
    (huser : ∀ c ∈ user, c ≠ '/' ∧ isBlank c = false) (hat : '@' ∉ user) (h : a.HasHostName) :
    canonicalRemote (a.withUser user) = canonicalRemote a.text := by
  obtain ⟨place, hplace⟩ := hasHostName_iff.1 h
  have hslash : '/' ∉ user := fun hmem => (huser _ hmem).1 rfl
  have hblank := a.not_isBlank_withUser fun c hc => (huser c hc).2
  rw [withUser, text, canonicalRemote_scheme a.scheme_mem hblank,
    canonicalRemote_scheme a.scheme_mem a.not_isBlank_hostAndPath,
    afterUser?_withUser hne hslash hat, afterUser?_text, Option.bind_some, hplace, Option.some_or,
    Option.bind_none, Option.none_or]

/-- The canonical form of an address with a user is that of the address without it exactly if there
is no `@` in the user and the host is a name, perhaps with a port. Otherwise an `@` is left in front
of the path. -/
theorem canonicalRemote_withUser_iff (a : Address) {user : List Char} (hne : user ≠ [])
    (huser : ∀ c ∈ user, c ≠ '/' ∧ isBlank c = false) :
    (canonicalRemote (a.withUser user) = canonicalRemote a.text ↔ '@' ∉ user ∧ a.HasHostName) ∧
    ('@' ∈ authority (canonicalRemote (a.withUser user)) ↔ ¬ ('@' ∉ user ∧ a.HasHostName)) := by
  have hslash : '/' ∉ user := fun hmem => (huser _ hmem).1 rfl
  have hblank := a.not_isBlank_withUser fun c hc => (huser c hc).2
  have hleft : '@' ∈ authority (canonicalRemote (a.withUser user)) ↔
      ¬ ('@' ∉ user ∧ a.HasHostName) := by
    have hmem : '@' ∈ user ++ '@' :: a.host := by simp
    rw [withUser, at_mem_authority_iff a.scheme_mem hblank (by simp [front_withUser hslash]),
      front_withUser hslash, and_iff_right hmem, ← exists_afterUser?_iff hne hslash]
    simp only [not_exists, not_and, not_not]
  refine ⟨⟨fun heq => ?_, fun h => canonicalRemote_withUser hne huser h.1 h.2⟩, hleft⟩
  by_contra hnot
  exact a.at_notMem_authority_text (heq ▸ hleft.2 hnot)

/-- A host in brackets. -/
def bracketed : Address where
  scheme := "https://".toList
  host := "[2001:db8::1]".toList
  path := "team/web-app.git".toList
  scheme_mem := https_mem_schemes
  host_ne_nil := by decide
  of_mem_host := by simp [isBlank]
  path_ne_nil := by decide
  of_mem_path := by simp [isBlank]

/-- The user and the password stay in front of a bracketed host. -/
theorem canonicalRemote_withUser_iff_bracketed :
    "bot:token".toList ≠ [] ∧ (∀ c ∈ "bot:token".toList, c ≠ '/' ∧ isBlank c = false) ∧
    (canonicalRemote (bracketed.withUser "bot:token".toList) = canonicalRemote bracketed.text ↔
      '@' ∉ "bot:token".toList ∧ bracketed.HasHostName) ∧
    ('@' ∈ authority (canonicalRemote (bracketed.withUser "bot:token".toList)) ↔
      ¬ ('@' ∉ "bot:token".toList ∧ bracketed.HasHostName)) ∧
    canonicalRemote (bracketed.withUser "bot:token".toList) =
      "https://bot:token@[2001:db8::1]/team/web-app.git" := by
  have hne : "bot:token".toList ≠ [] := by decide
  have huser : ∀ c ∈ "bot:token".toList, c ≠ '/' ∧ isBlank c = false := by
    simp [isBlank]
  obtain ⟨hsame, hat⟩ := canonicalRemote_withUser_iff bracketed hne huser
  exact ⟨hne, huser, hsame, hat, by decide +kernel⟩

end Address

end Remote

end ComponentScan
