import ComponentScan.Remote
import ComponentScan.Proofs.Text.Blank
import ComponentScan.Proofs.Text.Runs

/-!
# Forms of an address

An address in the short form is a user, a host and a path (`short?_append`); what follows the scheme
of the long form is read without a user exactly if it is a host, perhaps a port, and a path
(`hostAndPath?_eq_some_iff`), and with one if this stands behind a user (`afterUser?_eq_some_iff`).
Whatever stands on one line is a path (`isSome_path?`), but `.git` and a slash at its end are no part
of it (`path?_append`).
-/

namespace ComponentScan

open Text

namespace Remote

variable {p path place s : List Char}

theorem firstM_eq_findSome? {α β : Type} (f : α → Option β) (l : List α) :
    l.firstM f = l.findSome? f := by
  induction l with
  | nil => rfl
  | cons a l ih =>
    rw [List.firstM, List.findSome?_cons, ih]
    cases f a <;> rfl

/-! ## Paths -/

/-- What stands in front of one of the ends of a path, if there is anything. -/
def before? (s tail : List Char) : Option (List Char) :=
  (dropEnd? tail s).filter (!·.isEmpty)

theorem path?_eq (s : List Char) :
    path? s = (pathEnds.findSome? (before? s)).filter fun p => !p.contains '\n' := by
  rw [path?, firstM_eq_findSome?]
  rfl

theorem before?_append (h : p ≠ []) (tail : List Char) : before? (p ++ tail) tail = some p := by
  rw [before?, dropEnd?_eq_some_iff.2 rfl]
  exact if_pos (by simpa using h)

theorem before?_eq_none {tail : List Char} (h : ¬ tail <:+ s) : before? s tail = none := by
  rw [before?, dropEnd?_eq_none_iff.2 h]
  rfl

/-- A path that does not end with `.git` or a slash is found in front of both. -/
theorem path?_append (hne : p ≠ []) (hfeed : '\n' ∉ p) (hgit : ¬ ".git".toList <:+ p)
    (hslash : ¬ ['/'] <:+ p) {tail : List Char} (htail : tail ∈ pathEnds) :
    path? (p ++ tail) = some p := by
  have hlast {c d : Char} (hcd : c ≠ d) (r r' : List Char) : ¬ r ++ [c] <:+ p ++ (r' ++ [d]) := by
    rintro ⟨q, hq⟩
    have := congrArg List.getLast? hq
    simp only [← List.append_assoc, List.getLast?_concat, Option.some.injEq] at this
    exact hcd this
  have hboth : ¬ ".git/".toList <:+ p := fun h =>
    hslash ((List.suffix_append ".git".toList ['/']).trans h)
  have hgitSlash : ¬ ".git/".toList <:+ p ++ ['/'] := by
    rintro ⟨q, hq⟩
    have hsame : (q ++ ".git".toList) ++ ['/'] = p ++ ['/'] := (List.append_assoc ..).trans hq
    exact hgit ⟨q, List.append_cancel_right hsame⟩
  have hfind : pathEnds.findSome? (before? (p ++ tail)) = some p := by
    rw [pathEnds, List.findSome?_eq_some_iff]
    simp only [pathEnds, List.mem_cons, List.not_mem_nil, or_false] at htail
    rcases htail with rfl | rfl | rfl | rfl
    · exact ⟨[], _, _, rfl, before?_append hne _, nofun⟩
    · refine ⟨[_], _, _, rfl, before?_append hne _, List.forall_mem_singleton.2 ?_⟩
      exact before?_eq_none (hlast (by decide) ".git".toList ".gi".toList)
    · refine ⟨[_, _], _, _, rfl, before?_append hne _, List.forall_mem_cons.2
        ⟨before?_eq_none hgitSlash, List.forall_mem_singleton.2 ?_⟩⟩
      exact before?_eq_none (hlast (by decide) ".gi".toList [])
    · refine ⟨[_, _, _], _, _, rfl, before?_append hne _, ?_⟩
      rw [List.append_nil]
      exact List.forall_mem_cons.2 ⟨before?_eq_none hboth, List.forall_mem_cons.2
        ⟨before?_eq_none hgit, List.forall_mem_singleton.2 (before?_eq_none hslash)⟩⟩
  rw [path?_eq, hfind]
  exact if_pos (by simpa using hfeed)

/-- Something on one line is a path. -/
theorem isSome_path? (hne : s ≠ []) (hfeed : '\n' ∉ s) : (path? s).isSome := by
  have hwhole : before? s [] = some s := by
    have happend := before?_append hne []
    rwa [List.append_nil] at happend
  obtain ⟨p, hp⟩ := Option.isSome_iff_exists.1
    (List.findSome?_isSome_iff.2 ⟨[], by simp [pathEnds], hwhole ▸ rfl⟩ :
      (pathEnds.findSome? (before? s)).isSome)
  obtain ⟨tail, -, htail⟩ := List.exists_of_findSome?_eq_some hp
  have hs : s = p ++ tail := dropEnd?_eq_some_iff.1 (Option.filter_eq_some_iff.1 htail).1
  rw [path?_eq, hp, Option.filter_some, if_pos]
  · rfl
  · have : '\n' ∉ p := fun hmem => hfeed (hs ▸ List.mem_append_left tail hmem)
    simpa using this

/-! ## The long form -/

/-- The name of a host. -/
def IsHostName (s : List Char) : Prop :=
  s ≠ [] ∧ ∀ c ∈ s, c ≠ '/' ∧ c ≠ ':'

/-- A port with its colon, or nothing. -/
inductive IsPort : List Char → Prop
  | absent : IsPort []
  | digits {ds : List Char} (hne : ds ≠ []) (hds : ∀ c ∈ ds, isDecimalDigit c) : IsPort (':' :: ds)

theorem notMem_of_isPort {port : List Char} (h : IsPort port) {c : Char} (hcolon : c ≠ ':')
    (hdigit : isDecimalDigit c = false) : c ∉ port := by
  cases h with
  | absent => exact List.not_mem_nil
  | digits _ hds =>
    rw [List.mem_cons, not_or]
    exact ⟨hcolon, fun hmem => absurd (hds c hmem) (by simp [hdigit])⟩

theorem slash_notMem_host {host port : List Char} (hhost : IsHostName host) (hport : IsPort port) :
    '/' ∉ host ++ port := by
  rw [List.mem_append, not_or]
  exact ⟨fun hmem => (hhost.2 _ hmem).1 rfl, notMem_of_isPort hport (by decide) (by decide)⟩

/-- The path behind a host: a slash stands in front of it, and perhaps a port in front of that. -/
def pathAfterHost? : List Char → Option (List Char)
  | ':' :: r =>
    let (port, rest) := r.span isDecimalDigit
    if port.isEmpty then none else dropStart? ['/'] rest
  | s => dropStart? ['/'] s

theorem pathAfterHost?_eq_some_iff :
    pathAfterHost? s = some path ↔ ∃ port, IsPort port ∧ s = port ++ '/' :: path := by
  constructor
  · intro h
    unfold pathAfterHost? at h
    split at h
    · next r =>
      cases hspan : r.span isDecimalDigit with
      | mk ds rest =>
        rw [hspan] at h
        obtain ⟨hne, hrest⟩ := Option.ite_none_left_eq_some.1 h
        obtain ⟨rfl, hds, -⟩ := span_eq_iff.1 hspan
        obtain rfl := dropStart?_eq_some_iff.1 hrest
        exact ⟨':' :: ds, .digits (by simpa using hne) hds, rfl⟩
    · have hs : s = ['/'] ++ path := dropStart?_eq_some_iff.1 h
      exact ⟨[], .absent, hs⟩
  · rintro ⟨port, hport, rfl⟩
    cases hport with
    | absent => exact dropStart?_cons ..
    | @digits ds hne hds =>
      have hspan : (ds ++ '/' :: path).span isDecimalDigit = (ds, '/' :: path) :=
        span_append hds fun c hc => by
          cases hc
          decide
      rw [List.cons_append, pathAfterHost?, hspan]
      exact (if_neg (by simpa using hne)).trans (dropStart?_cons ..)

theorem hostAndPath?_eq (s : List Char) :
    hostAndPath? s =
      let (host, rest) := s.span fun c => c ≠ '/' && c ≠ ':'
      if host.isEmpty then none
      else (pathAfterHost? rest).bind fun path => (path? path).map (host ++ '/' :: ·) := by
  unfold hostAndPath?
  dsimp only
  generalize (s.span fun c => c ≠ '/' && c ≠ ':').1 = host
  generalize (s.span fun c => c ≠ '/' && c ≠ ':').2 = rest
  split
  · rfl
  · simp only [Option.pure_def, Option.bind_eq_bind, Option.bind_some, Option.map_eq_bind]
    split
    · next r =>
      rw [pathAfterHost?]
      dsimp only
      split <;> rfl
    · next hrest =>
      rw [pathAfterHost?.eq_2 _ hrest]
      rfl

/-- A host, perhaps a port, and a path, in that order, are all that is read without a user. -/
theorem hostAndPath?_eq_some_iff :
    hostAndPath? s = some place ↔
      ∃ host port path p, s = host ++ port ++ '/' :: path ∧ IsHostName host ∧ IsPort port ∧
        path? path = some p ∧ place = host ++ '/' :: p := by
  have hkind {c : Char} : (c ≠ '/' && c ≠ ':') = true ↔ c ≠ '/' ∧ c ≠ ':' := by simp
  rw [hostAndPath?_eq]
  constructor
  · intro h
    cases hspan : s.span fun c => c ≠ '/' && c ≠ ':' with
    | mk host rest =>
      rw [hspan] at h
      obtain ⟨hne, h⟩ := Option.ite_none_left_eq_some.1 h
      obtain ⟨path, hpath, h⟩ := Option.bind_eq_some_iff.1 h
      obtain ⟨p, hp, rfl⟩ := Option.map_eq_some_iff.1 h
      obtain ⟨port, hport, rfl⟩ := pathAfterHost?_eq_some_iff.1 hpath
      obtain ⟨rfl, hhost, -⟩ := span_eq_iff.1 hspan
      exact ⟨host, port, path, p, by rw [List.append_assoc],
        ⟨by simpa using hne, fun c hc => hkind.1 (hhost c hc)⟩, hport, hp, rfl⟩
  · rintro ⟨host, port, path, p, rfl, hhost, hport, hp, rfl⟩
    have hspan : (host ++ port ++ '/' :: path).span (fun c => c ≠ '/' && c ≠ ':') =
        (host, port ++ '/' :: path) := by
      rw [List.append_assoc]
      refine span_append (fun c hc => hkind.2 (hhost.2 c hc)) fun c hc => ?_
      cases hport <;> cases hc <;> rfl
    rw [hspan]
    refine (if_neg (by simpa using hhost.1)).trans ?_
    rw [pathAfterHost?_eq_some_iff.2 ⟨port, hport, rfl⟩, Option.bind_some, hp, Option.map_some]

theorem afterUser?_eq_some_iff {r : List Char} :
    afterUser? s = some r ↔
      ∃ user, s = user ++ '@' :: r ∧ user ≠ [] ∧ ∀ c ∈ user, c ≠ '/' ∧ c ≠ '@' := by
  have hkind {c : Char} : (c ≠ '/' && c ≠ '@') = true ↔ c ≠ '/' ∧ c ≠ '@' := by simp
  unfold afterUser?
  constructor
  · intro h
    cases hspan : s.span fun c => c ≠ '/' && c ≠ '@' with
    | mk user rest =>
      rw [hspan] at h
      obtain ⟨hne, hrest⟩ := Option.ite_none_left_eq_some.1 h
      obtain rfl := dropStart?_eq_some_iff.1 hrest
      obtain ⟨rfl, huser, -⟩ := span_eq_iff.1 hspan
      exact ⟨user, rfl, by simpa using hne, fun c hc => hkind.1 (huser c hc)⟩
  · rintro ⟨user, rfl, hne, huser⟩
    have hspan : (user ++ '@' :: r).span (fun c => c ≠ '/' && c ≠ '@') = (user, '@' :: r) :=
      span_append (fun c hc => hkind.2 (huser c hc)) fun c hc => by
        cases hc
        rfl
    rw [hspan]
    exact (if_neg (by simpa using hne)).trans (dropStart?_cons ..)

/-- What stands in front of the first slash. -/
def front (s : List Char) : List Char :=
  s.takeWhile (· ≠ '/')

theorem ne_slash_of_mem_front {c : Char} (h : c ∈ front s) : c ≠ '/' := by
  simpa using List.mem_takeWhile_imp h

theorem front_append {a : List Char} (h : '/' ∉ a) (t : List Char) :
    front (a ++ t) = a ++ front t :=
  List.takeWhile_append_of_pos fun _ hc => decide_eq_true (ne_of_mem_of_not_mem hc h)

theorem front_append_slash {a : List Char} (h : '/' ∉ a) (t : List Char) :
    front (a ++ '/' :: t) = a := by
  rw [front_append h]
  exact List.append_nil a

/-- A user ends in front of the first slash. -/
theorem afterUser?_eq_none (h : '@' ∉ front s) : afterUser? s = none := by
  rw [Option.eq_none_iff_forall_ne_some]
  intro r hr
  obtain ⟨user, rfl, -, huser⟩ := afterUser?_eq_some_iff.1 hr
  rw [front_append fun hmem => (huser _ hmem).1 rfl] at h
  exact h (List.mem_append_right _ List.mem_cons_self)

theorem https_mem_schemes : "https://".toList ∈ schemes := by
  decide

/-- A scheme is found as it stands: none of them begins with another one. -/
theorem firstM_schemes {scheme : List Char} (h : scheme ∈ schemes) (rest : List Char) :
    schemes.firstM (dropStart? · (scheme ++ rest)) = some rest := by
  simp only [schemes, List.mem_cons, List.not_mem_nil, or_false] at h
  rcases h with rfl | rfl | rfl | rfl <;> rfl

theorem long?_append {scheme : List Char} (h : scheme ∈ schemes) (rest : List Char) :
    long? (scheme ++ rest) =
      ((afterUser? rest).bind hostAndPath?).or (hostAndPath? rest) := by
  rw [long?, firstM_schemes h]
  exact Option.orElse_eq_or ..

/-! ## The short form -/

/-- A user or a host of the short form. -/
def IsShortName (s : List Char) : Prop :=
  s ≠ [] ∧ ∀ c ∈ s, isNameChar c

theorem span_isNameChar {name : List Char} (h : IsShortName name) {c : Char}
    (hc : isNameChar c = false) (rest : List Char) :
    (name ++ c :: rest).span isNameChar = (name, c :: rest) :=
  span_append h.2 fun _ hd => Option.some.inj hd ▸ hc

theorem short?_append {user host : List Char} (huser : IsShortName user) (hhost : IsShortName host)
    (path : List Char) :
    short? (user ++ '@' :: host ++ ':' :: path) = (path? path).map (host ++ '/' :: ·) := by
  have hfilled : ¬ (user.isEmpty || host.isEmpty) = true := by simpa using ⟨huser.1, hhost.1⟩
  have hhostSpan := span_isNameChar hhost (by decide : isNameChar ':' = false) path
  rw [List.append_assoc, List.cons_append, short?,
    span_isNameChar huser (by decide : isNameChar '@' = false)]
  simp only [dropStart?_cons, hhostSpan, if_neg hfilled, Option.bind_eq_bind, Option.bind_some,
    Option.pure_def, Option.map_eq_bind]
  rfl

/-- An address with a scheme is not one in the short form. -/
theorem short?_scheme {scheme : List Char} (h : scheme ∈ schemes) (rest : List Char) :
    short? (scheme ++ rest) = none := by
  simp only [schemes, List.mem_cons, List.not_mem_nil, or_false] at h
  rcases h with rfl | rfl | rfl | rfl <;> rfl

theorem not_isBlank_of_mem_schemes {scheme : List Char} (h : scheme ∈ schemes) :
    ∀ c ∈ scheme, isBlank c = false := by
  simp only [schemes, List.mem_cons, List.not_mem_nil, or_false] at h
  rcases h with rfl | rfl | rfl | rfl <;> simp [isBlank]

end Remote

/-! ## Canonical addresses -/

open Remote

variable {s place : List Char}

/-- White space around an address does not count. -/
theorem canonicalRemote_blank {before after : List Char} (hbefore : ∀ c ∈ before, isBlank c)
    (hafter : ∀ c ∈ after, isBlank c) (s : List Char) :
    canonicalRemote (String.ofList (before ++ s ++ after)) = canonicalRemote (String.ofList s) := by
  simp only [canonicalRemote, String.toList_ofList, trim_append_of_isBlank hafter,
    trim_append_left hbefore]

theorem canonicalRemote_of_short? (hs : ∀ c ∈ s, isBlank c = false) (h : short? s = some place) :
    canonicalRemote (String.ofList s) = String.ofList ("https://".toList ++ place) := by
  simp only [canonicalRemote, String.toList_ofList, trim_eq_self hs, h]
  rfl

theorem canonicalRemote_scheme {scheme rest : List Char} (hscheme : scheme ∈ schemes)
    (hrest : ∀ c ∈ rest, isBlank c = false) :
    canonicalRemote (String.ofList (scheme ++ rest)) =
      match ((afterUser? rest).bind hostAndPath?).or (hostAndPath? rest) with
      | some place => String.ofList ("https://".toList ++ place)
      | none => String.ofList ((scheme ++ rest).rdropWhile (· == '/')) := by
  have hblank : ∀ c ∈ scheme ++ rest, isBlank c = false :=
    List.forall_mem_append.2 ⟨not_isBlank_of_mem_schemes hscheme, hrest⟩
  simp only [canonicalRemote, String.toList_ofList, trim_eq_self hblank, short?_scheme hscheme,
    long?_append hscheme]
  rfl

end ComponentScan
