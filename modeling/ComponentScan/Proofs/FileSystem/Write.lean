import ComponentScan.FileSystem
import ComponentScan.Proofs.Except
import ComponentScan.Proofs.Text.Split

/-!
# Reading after writing

A write puts one entry at one place. What a path names afterwards is what it named before, or that
entry (`follow_put`); a path that named a file there before names the new entry (`locate_put`), and
so does a path at which a file can be written (`locate_put_of_target`).
-/

namespace ComponentScan.FileSystem

variable {fs fs' : FileSystem} {place q : Place} {e e' : Entry} {path : String}

@[simp] theorem current_put : (fs.put q e).current = fs.current := rfl

@[simp] theorem base_put : (fs.put q e).base path = fs.base path := rfl

theorem lookup_erased {l : List (Place × Entry)} (h : place ≠ q) :
    (l.filter (·.1 ≠ q)).lookup place = l.lookup place := by
  have hb : (place == q) = false := beq_false_of_ne h
  induction l with
  | nil => rfl
  | cons x l ih =>
    by_cases hp : x.1 = q
    · rw [List.filter_cons_of_neg (by simp [hp]), ih, List.lookup_cons, hp, hb]
    · rw [List.filter_cons_of_pos (by simp [hp]), List.lookup_cons, List.lookup_cons, ih]

theorem entry_put_self (hq : q ≠ []) : FileSystem.entry? (fs.put q e) q = some e := by
  simp [ entry?, put, hq]

theorem entry_put_of_ne (h : place ≠ q) : FileSystem.entry? (fs.put q e) place = fs.entry? place := by
  unfold entry? put
  split
  · rfl
  · rw [List.lookup_cons, beq_false_of_ne h]
    exact lookup_erased h

theorem entry_of_follow {names : List String} (h : fs.follow place names = .ok (q, e)) :
    fs.entry? q = some e := by
  induction names generalizing place with
  | nil =>
    rw [follow] at h
    split at h
    · next he =>
      cases h
      exact he
    · cases h
  | cons name rest ih =>
    rw [follow] at h
    split at h
    · exact ih h
    · cases h
    · cases h

/-- A path that leads to a file leads to what is put in its place. -/
theorem follow_put_self {names : List String} (he : e ≠ .directory)
    (h : fs.follow place names = .ok (q, e)) :
    (fs.put q e').follow place names = .ok (q, e') := by
  have hq := entry_of_follow h
  have hne : ∀ p, fs.entry? p = some .directory → p ≠ q := fun p hp hpq =>
    he (Option.some.inj (hq.symm.trans (hpq ▸ hp)))
  have hroot : q ≠ [] := (hne [] (if_pos rfl)).symm
  induction names generalizing place with
  | nil =>
    rw [follow] at h
    split at h
    · cases h
      rw [follow, entry_put_self hroot]
    · cases h
  | cons name rest ih =>
    rw [follow] at h
    split at h
    · next hdir =>
      rw [follow, entry_put_of_ne (hne place hdir), hdir]
      exact ih h
    · cases h
    · cases h

/-- After a file is put somewhere, a path leads there or where it led before. -/
theorem follow_put {names : List String} {r : Place} (he : e ≠ .directory) (hq : q ≠ [])
    (h : (fs.put q e).follow place names = .ok (r, e')) :
    r = q ∧ e' = e ∨ r ≠ q ∧ fs.follow place names = .ok (r, e') := by
  induction names generalizing place with
  | nil =>
    rw [follow] at h
    split at h
    · next x hx =>
      cases h
      by_cases hpq : r = q
      · subst hpq
        rw [entry_put_self hq] at hx
        exact .inl ⟨rfl, (Option.some.inj hx).symm⟩
      · rw [entry_put_of_ne hpq] at hx
        exact .inr ⟨hpq, by rw [follow, hx]⟩
    · cases h
  | cons name rest ih =>
    rw [follow] at h
    split at h
    · next hdir =>
      have hpq : place ≠ q := by
        rintro rfl
        rw [entry_put_self hq] at hdir
        exact he (Option.some.inj hdir)
      rw [entry_put_of_ne hpq] at hdir
      refine (ih h).imp_right fun ⟨hr, hf⟩ => ⟨hr, ?_⟩
      rw [follow, hdir]
      exact hf
    · cases h
    · cases h

theorem locate_put_self (he : e ≠ .directory) (h : fs.locate path = .ok (q, e)) :
    (fs.put q e').locate path = .ok (q, e') := by
  unfold locate at h ⊢
  split at h
  · cases h
  · next hp => rw [if_neg hp]; exact follow_put_self he h

theorem locate_put {r : Place} (he : e ≠ .directory) (hq : q ≠ [])
    (h : (fs.put q e).locate path = .ok (r, e')) :
    r = q ∧ e' = e ∨ r ≠ q ∧ fs.locate path = .ok (r, e') := by
  unfold locate at h ⊢
  split at h
  · cases h
  · next hp => rw [if_neg hp]; exact follow_put he hq h

/-- A path that leads elsewhere still does if what is put in place was no directory. -/
theorem follow_put_of_ne {names : List String} {r : Place} (hq : fs.entry? q ≠ some .directory)
    (hr : r ≠ q) (h : fs.follow place names = .ok (r, e')) :
    (fs.put q e).follow place names = .ok (r, e') := by
  induction names generalizing place with
  | nil =>
    rw [follow] at h ⊢
    split at h
    · next he =>
      cases h
      rw [entry_put_of_ne hr, he]
    · cases h
  | cons name rest ih =>
    rw [follow] at h ⊢
    split at h
    · next hdir =>
      have hplace : place ≠ q := fun heq => hq (heq ▸ hdir)
      rw [entry_put_of_ne hplace, hdir]
      exact ih h
    · cases h
    · cases h

theorem locate_put_of_ne {r : Place} (hq : fs.entry? q ≠ some .directory) (hr : r ≠ q)
    (h : fs.locate path = .ok (r, e')) : (fs.put q e).locate path = .ok (r, e') := by
  unfold locate at h ⊢
  split at h
  · cases h
  · next hp => rw [if_neg hp]; exact follow_put_of_ne hq hr h

/-- Writing to a file that exists puts the new content in its place. -/
theorem write_of_locate (he : e ≠ .directory) (h : fs.locate path = .ok (q, e)) :
    fs.write path e' = .ok (fs.put q e') := by
  unfold write target
  rw [h]
  cases e with
  | directory => exact absurd rfl he
  | text s => rfl
  | bytes b => rfl

theorem readText_eq_ok_iff {text : String} :
    fs.readText path = .ok text ↔ ∃ q, fs.locate path = .ok (q, .text text) := by
  unfold readText
  rcases fs.locate path with x | ⟨q, _ | _ | _⟩
  all_goals simp [bind, Except.bind, throw, throwThe, MonadExceptOf.throw, pure, Except.pure]

/-! ## Directories on the way -/

/-- A path leads to a name in a directory. -/
theorem follow_append_iff {names : List String} {name : String} :
    fs.follow place (names ++ [name]) = .ok (q, e) ↔
      ∃ parent, fs.follow place names = .ok (parent, .directory) ∧ q = step parent name ∧
        fs.entry? q = some e := by
  induction names generalizing place with
  | nil =>
    rw [List.nil_append, follow, follow]
    cases hplace : fs.entry? place with
    | none => simp
    | some d =>
      cases d with
      | directory =>
        rw [follow]
        cases hnext : fs.entry? (step place name) with
        | none =>
          refine ⟨nofun, ?_⟩
          rintro ⟨_, ⟨⟩, rfl, h⟩
          exact nomatch hnext.symm.trans h
        | some e' =>
          constructor
          · rintro ⟨⟩
            exact ⟨place, rfl, rfl, hnext⟩
          · rintro ⟨_, ⟨⟩, rfl, h⟩
            rw [Option.some.inj (hnext.symm.trans h)]
      | text => simp
      | bytes => simp
  | cons first names ih =>
    rw [List.cons_append, follow, follow]
    split
    · exact ih
    · simp
    · simp

theorem write_eq_ok_iff : fs.write path e = .ok fs' ↔ ∃ q, fs.target path = .ok q ∧
    fs' = fs.put q e := by
  unfold write
  cases fs.target path with
  | error x => simp [bind, Except.bind]
  | ok q => simp [bind, Except.bind, pure, Except.pure, eq_comm]

/-- A path of a new file ends in its name, behind a path of a directory. -/
theorem exists_directory_of_newTarget (h : fs.newTarget path = .ok q) :
    ∃ names name parent, pathNames path = names ++ [name] ∧
      fs.follow (fs.base path) names = .ok (parent, .directory) ∧
      step parent name = parent ++ [name] ∧ q = parent ++ [name] := by
  obtain ⟨names, name, hnames⟩ : ∃ names name, pathNames path = names ++ [name] := by
    have hne : pathNames path ≠ [] := by simpa [pathNames] using Text.splitWhere_ne_nil _ _
    exact ⟨_, _, (List.dropLast_concat_getLast hne).symm⟩
  unfold newTarget at h
  rw [hnames, List.dropLast_concat, List.getLast?_concat, Option.getD_some, ok_bind_iff] at h
  obtain ⟨⟨parent, d⟩, hfollow, h⟩ := h
  obtain ⟨directory, hdirectory, hparent, -⟩ := follow_append_iff.1 hfollow
  have hstep : step directory "" = directory := by rw [step, if_pos (.inl rfl)]
  rw [hstep] at hparent
  subst hparent
  dsimp only at h
  split at h
  · next hname => exact ⟨names, name, parent, hnames, hdirectory, hname, (ok_pure_iff.1 h).symm⟩
  · cases h

/-- What is put where a file can be written is what the path names. -/
theorem locate_put_of_target (h : fs.target path = .ok q) :
    (fs.put q e).locate path = .ok (q, e) := by
  unfold target at h
  split at h
  · cases h
  · next hfile hlocate =>
    cases h
    exact locate_put_self hfile hlocate
  · next hmissing =>
    obtain ⟨names, name, parent, hnames, hparent, hname, rfl⟩ := exists_directory_of_newTarget h
    have hpath : path ≠ "" := by
      rintro rfl
      have hempty : [] ++ [""] = names ++ [name] := hnames
      rw [← (List.append_singleton_inj.1 hempty).2, step, if_pos (.inl rfl)] at hname
      simp at hname
    have hentry : fs.entry? (parent ++ [name]) ≠ some .directory := by
      intro hdir
      unfold locate at hmissing
      rw [if_neg hpath, hnames, follow_append_iff.2 ⟨parent, hparent, hname.symm, hdir⟩] at hmissing
      cases hmissing
    rw [locate, if_neg hpath, hnames, base_put]
    exact follow_append_iff.2 ⟨parent, follow_put_of_ne hentry (by simp) hparent, hname.symm,
      entry_put_self (by simp)⟩
  · cases h

/-! ## Removal -/

theorem lookup_of_lookup_filter {l : List (Place × Entry)} {p : Place → Bool}
    (h : (l.filter fun x => p x.1).lookup place = some e) : l.lookup place = some e := by
  obtain ⟨before, after, hfilter, -⟩ := List.lookup_eq_some_iff.1 h
  have hmem : (place, e) ∈ l.filter fun x => p x.1 :=
    hfilter ▸ List.mem_append_right _ List.mem_cons_self
  have hkeep : p place = true := (List.mem_filter.1 hmem).2
  clear hfilter hmem
  induction l with
  | nil => cases h
  | cons x l ih =>
    by_cases hx : p x.1 = true
    · rw [List.filter_cons_of_pos (by exact hx), List.lookup_cons] at h
      rw [List.lookup_cons]
      split
      · next heq => rwa [heq] at h
      · next heq => exact ih (by rwa [heq] at h)
    · rw [List.filter_cons_of_neg (by exact hx)] at h
      have hne : (place == x.1) = false := beq_eq_false_iff_ne.2 fun heq => hx (heq ▸ hkeep)
      rw [List.lookup_cons, hne]
      exact ih h

theorem entry_of_entry_erase (h : FileSystem.entry? (fs.erase q) place = some e) :
    fs.entry? place = some e := by
  unfold entry? at h ⊢
  split
  · next hroot => rwa [if_pos hroot] at h
  · next hroot =>
    rw [if_neg hroot] at h
    exact lookup_of_lookup_filter (p := fun r => !q.isPrefixOf r) h

theorem follow_of_follow_erase {names : List String}
    (h : (fs.erase q).follow place names = .ok (r, e)) : fs.follow place names = .ok (r, e) := by
  induction names generalizing place with
  | nil =>
    rw [follow] at h
    split at h
    · next he =>
      cases h
      rw [follow, entry_of_entry_erase he]
    · cases h
  | cons name rest ih =>
    rw [follow] at h
    split at h
    · next hdir =>
      rw [follow, entry_of_entry_erase hdir]
      exact ih h
    · cases h
    · cases h

end ComponentScan.FileSystem
