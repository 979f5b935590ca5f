import ComponentScan.Proofs.Remote
import ComponentScan.Proofs.Text.Decimal

/-!
# Spellings of an address

One repository has many addresses: the short form with any user, and the long form with any scheme,
with a user or without, and with a port or without. Behind the path may stand `.git` and a slash,
and around all of it white space. They all have one canonical form, which is its own
(`canonicalRemote_write`).
-/

namespace ComponentScan

open Text

namespace Remote

/-! ## Names and paths -/

/-- A character of a user or host as it is usual. -/
def IsPlain (c : Char) : Prop :=
  isAsciiLetter c ∨ isAsciiDigit c ∨ c = '_' ∨ c = '-' ∨ c = '.'

instance (c : Char) : Decidable (IsPlain c) :=
  inferInstanceAs (Decidable (_ ∨ _))

theorem val_lt_of_ascii {c : Char} (h : isAsciiLetter c ∨ isAsciiDigit c) : c.val < 0x80 := by
  simp only [isAsciiLetter, isAsciiDigit, Bool.or_eq_true, Bool.and_eq_true, decide_eq_true_eq,
    Char.le_def, UInt32.le_iff_toNat_le, UInt32.lt_iff_toNat_lt, Char.reduceVal,
    UInt32.reduceToNat] at h ⊢
  omega

theorem IsPlain.isNameChar {c : Char} (h : IsPlain c) : isNameChar c := by
  rcases h with h | h | rfl | rfl | rfl
  · simp [Remote.isNameChar, isWordChar, val_lt_of_ascii (.inl h), h]
  · simp [Remote.isNameChar, isWordChar, val_lt_of_ascii (.inr h), h]
  all_goals decide

/-- A user or a host. -/
structure Name where
  chars : List Char
  ne_nil : chars ≠ []
  isPlain : ∀ c ∈ chars, IsPlain c

namespace Name

variable (name : Name)

theorem isShortName : IsShortName name.chars :=
  ⟨name.ne_nil, fun c hc => (name.isPlain c hc).isNameChar⟩

theorem notMem {c : Char} (hc : isNameChar c = false) : c ∉ name.chars := fun hmem => by
  rw [(name.isPlain c hmem).isNameChar] at hc
  cases hc

theorem isHostName : IsHostName name.chars :=
  ⟨name.ne_nil, fun _ hc => ⟨ne_of_mem_of_not_mem hc (name.notMem (by decide)),
    ne_of_mem_of_not_mem hc (name.notMem (by decide))⟩⟩

theorem not_isBlank : ∀ c ∈ name.chars, isBlank c = false :=
  fun c hc => not_isBlank_of_ascii (name.isPlain c hc)

end Name

/-- The path of a repository, without what may stand at its end. -/
structure Path where
  chars : List Char
  ne_nil : chars ≠ []
  not_isBlank : ∀ c ∈ chars, isBlank c = false
  not_slash : ¬ ['/'] <:+ chars
  not_git : ¬ ".git".toList <:+ chars

/-! ## Forms -/

/-- The form in which an address is written. -/
inductive Form
  | short (user : Name)
  | long (scheme : List Char) (h : scheme ∈ schemes) (user : Option Name) (port : Option Nat)

/-- What may be written behind a path: `.git`, and then a slash. -/
def ending (git slash : Bool) : List Char :=
  (if git then ".git".toList else []) ++ if slash then ['/'] else []

theorem ending_mem_pathEnds (git slash : Bool) : ending git slash ∈ pathEnds := by
  cases git <;> cases slash <;> decide

theorem not_isBlank_ending (git slash : Bool) : ∀ c ∈ ending git slash, isBlank c = false := by
  cases git <;> cases slash <;> simp [ending, isBlank]

namespace Form

/-- The user of the long form with its `@`. -/
def userPart : Option Name → List Char
  | none => []
  | some user => user.chars ++ ['@']

/-- The port of the long form with its colon. -/
def portPart : Option Nat → List Char
  | none => []
  | some n => ':' :: Decimal.digits n

/-- Writes an address: the host, the path and its ending in one of the forms. -/
def write (host : Name) (path : Path) (git slash : Bool) : Form → List Char
  | short user => user.chars ++ '@' :: host.chars ++ ':' :: (path.chars ++ ending git slash)
  | long scheme _ user port =>
    scheme ++
      (userPart user ++ (host.chars ++ portPart port ++ '/' :: (path.chars ++ ending git slash)))

theorem isAsciiDigit_of_mem_digits {n : Nat} {c : Char} (h : c ∈ Decimal.digits n) :
    isAsciiDigit c := by
  have hdigit := Decimal.isDigit_of_mem_digits h
  simpa [isAsciiDigit, Decimal.IsDigit] using hdigit

theorem isPort_portPart (port : Option Nat) : IsPort (portPart port) := by
  cases port with
  | none => exact .absent
  | some n =>
    refine .digits (Decimal.digits_ne_nil n) fun c hc => ?_
    have hascii := isAsciiDigit_of_mem_digits hc
    simp [isDecimalDigit, val_lt_of_ascii (.inr hascii), hascii]

theorem not_isBlank_portPart (port : Option Nat) : ∀ c ∈ portPart port, isBlank c = false := by
  cases port with
  | none => exact nofun
  | some n =>
    exact List.forall_mem_cons.2
      ⟨by decide, fun c hc => not_isBlank_of_ascii (.inr (.inl (isAsciiDigit_of_mem_digits hc)))⟩

theorem not_isBlank_userPart (user : Option Name) : ∀ c ∈ userPart user, isBlank c = false := by
  cases user with
  | none => exact nofun
  | some user =>
    exact List.forall_mem_append.2 ⟨user.not_isBlank, by simp [isBlank]⟩

variable (host : Name) (path : Path) (git slash : Bool)

theorem path?_write : path? (path.chars ++ ending git slash) = some path.chars :=
  path?_append path.ne_nil (fun hmem => absurd (path.not_isBlank _ hmem) (by decide)) path.not_git
    path.not_slash (ending_mem_pathEnds git slash)

theorem hostAndPath?_write (port : Option Nat) :
    hostAndPath? (host.chars ++ portPart port ++ '/' :: (path.chars ++ ending git slash)) =
      some (host.chars ++ '/' :: path.chars) :=
  hostAndPath?_eq_some_iff.2 ⟨_, _, _, _, rfl, host.isHostName, isPort_portPart port,
    path?_write path git slash, rfl⟩

theorem not_isBlank_long (user : Option Name) (port : Option Nat) :
    ∀ c ∈ userPart user ++ (host.chars ++ portPart port ++ '/' :: (path.chars ++ ending git slash)),
      isBlank c = false := by
  simp only [List.forall_mem_append, List.forall_mem_cons]
  exact ⟨not_isBlank_userPart user, ⟨host.not_isBlank, not_isBlank_portPart port⟩, by decide,
    path.not_isBlank, not_isBlank_ending git slash⟩

theorem not_isBlank_short (user : Name) :
    ∀ c ∈ (short user).write host path git slash, isBlank c = false := by
  simp only [write, List.forall_mem_append, List.forall_mem_cons]
  exact ⟨⟨user.not_isBlank, by decide, host.not_isBlank⟩, by decide, path.not_isBlank,
    not_isBlank_ending git slash⟩

/-- A user that is written is left out, and without one none is found. -/
theorem place_write (user : Option Name) (port : Option Nat) :
    let rest := host.chars ++ portPart port ++ '/' :: (path.chars ++ ending git slash)
    ((afterUser? (userPart user ++ rest)).bind hostAndPath?).or
      (hostAndPath? (userPart user ++ rest)) = some (host.chars ++ '/' :: path.chars) := by
  intro rest
  have hrest : hostAndPath? rest = some (host.chars ++ '/' :: path.chars) :=
    hostAndPath?_write host path git slash port
  cases user with
  | none =>
    have hat : '@' ∉ front rest := by
      have hslash := slash_notMem_host host.isHostName (isPort_portPart port)
      rw [front_append_slash hslash, List.mem_append, not_or]
      exact ⟨host.notMem (by decide), notMem_of_isPort (isPort_portPart port) (by decide) (by decide)⟩
    rw [userPart, List.nil_append, afterUser?_eq_none hat, Option.bind_none, Option.none_or, hrest]
  | some user =>
    have hafter : afterUser? (userPart (some user) ++ rest) = some rest :=
      afterUser?_eq_some_iff.2 ⟨user.chars, by simp [userPart], user.ne_nil, fun c hc =>
        ⟨ne_of_mem_of_not_mem hc (user.notMem (by decide)),
          ne_of_mem_of_not_mem hc (user.notMem (by decide))⟩⟩
    rw [hafter, Option.bind_some, hrest, Option.some_or]

end Form

/-- The canonical address of a path on a host. -/
def canonical (host : Name) (path : Path) : String :=
  String.ofList ("https://".toList ++ (host.chars ++ '/' :: path.chars))

theorem canonicalRemote_ofList_write (form : Form) (host : Name) (path : Path) (git slash : Bool) :
    canonicalRemote (String.ofList (form.write host path git slash)) = canonical host path := by
  cases form with
  | short user =>
    refine canonicalRemote_of_short? (Form.not_isBlank_short host path git slash user) ?_
    rw [Form.write, short?_append user.isShortName host.isShortName, Form.path?_write,
      Option.map_some]
  | long scheme h user port =>
    have hlong := canonicalRemote_scheme h (Form.not_isBlank_long host path git slash user port)
    rw [Form.place_write host path git slash user port] at hlong
    exact hlong

/-- The canonical address is one of the spellings. -/
theorem canonical_eq (host : Name) (path : Path) :
    canonical host path =
      String.ofList ((Form.long _ https_mem_schemes none none).write host path false false) := by
  have hending : ending false false = [] := rfl
  unfold canonical Form.write
  dsimp only
  rw [Form.userPart, Form.portPart, hending, List.nil_append, List.append_nil, List.append_nil]

/-- Every spelling of an address has the canonical address of its path on its host as its canonical
form, which is its own canonical form. -/
theorem canonicalRemote_write (form : Form) (host : Name) (path : Path) (git slash : Bool)
    {before after : List Char} (hbefore : ∀ c ∈ before, isBlank c)
    (hafter : ∀ c ∈ after, isBlank c) :
    canonicalRemote (String.ofList (before ++ form.write host path git slash ++ after)) =
      canonical host path ∧
    canonicalRemote (canonical host path) = canonical host path := by
  constructor
  · rw [canonicalRemote_blank hbefore hafter, canonicalRemote_ofList_write]
  · conv_lhs => rw [canonical_eq, canonicalRemote_ofList_write]

/-- A user with a dot. -/
def deploy : Name where
  chars := "ci.deploy".toList
  ne_nil := by decide
  isPlain := by simp [IsPlain, isAsciiLetter, isAsciiDigit]

/-- A host whose name ends like a path may. -/
def server : Name where
  chars := "code-1.example.git".toList
  ne_nil := by decide
  isPlain := by simp [IsPlain, isAsciiLetter, isAsciiDigit]

/-- A path that looks like a user, a host and a port, and holds both of what may stand at its end. -/
def project : Path where
  chars := "me@h:22/.git/x.git/y".toList
  ne_nil := by decide
  not_isBlank := by simp [isBlank]
  not_slash := by decide
  not_git := by decide

theorem canonicalRemote_write_project :
    (∀ c ∈ "\t ".toList, isBlank c) ∧ (∀ c ∈ "\r\n".toList, isBlank c) ∧
    canonicalRemote (String.ofList ("\t ".toList ++
      (Form.long _ https_mem_schemes (some deploy) (some 8443)).write server project true true ++
        "\r\n".toList)) = canonical server project ∧
    canonicalRemote (canonical server project) = canonical server project :=
  have hbefore : ∀ c ∈ "\t ".toList, isBlank c := by simp [isBlank]
  have hafter : ∀ c ∈ "\r\n".toList, isBlank c := by simp [isBlank]
  ⟨hbefore, hafter, canonicalRemote_write _ server project true true hbefore hafter⟩

example : canonicalRemote "ci.deploy@code-1.example.git:me@h:22/.git/x.git/y.git" =
    "https://code-1.example.git/me@h:22/.git/x.git/y" := by
  decide +kernel

end Remote

end ComponentScan
