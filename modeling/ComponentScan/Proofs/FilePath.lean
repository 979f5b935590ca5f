import ComponentScan.FilePath
import ComponentScan.Proofs.FileSystem.Write
import ComponentScan.Proofs.Text.Split

/-!
# Spellings of a path

A path names the same file when a part `.` is left out of it or a slash is written twice. Under a
root, the path under which a report files a source is a spelling of the path that was asked for, with
forward slashes, as long as what is left of it is not absolute (`FilePath.isSame_join_forReport`);
and then it leads to the same place of a file system (`FileSystem.locate_join_forReport`).
-/

namespace ComponentScan

open Text

namespace FilePath

/-! ## Spellings -/

/-- A path that stands for itself wherever it is joined. -/
def IsAbsolute (path : String) : Prop :=
  path.toList.head? = some '/'

/-- A path with a forward slash for each backslash. -/
def slashed (path : String) : String :=
  String.ofList (path.toList.map fun c => if c = '\\' then '/' else c)

/-- Whether two paths are the same but for parts `.` and repeated slashes. -/
structure IsSame (path path' : String) : Prop where
  isAbsolute_iff : IsAbsolute path ↔ IsAbsolute path'
  parts_eq : parts path = parts path'

/-- The pieces of a path between its slashes, empty ones included. -/
def pieces (path : String) : List (List Char) :=
  splitWhere (· == '/') path.toList

variable {root path rest : String}

theorem IsSame.refl (path : String) : IsSame path path :=
  ⟨.rfl, rfl⟩

theorem slashed_of_notMem (h : '\\' ∉ path.toList) : slashed path = path := by
  have hmap : path.toList.map (fun c => if c = '\\' then '/' else c) = path.toList := by
    refine (List.map_congr_left fun c hc => ?_).trans (List.map_id _)
    rw [if_neg (ne_of_mem_of_not_mem hc h), id]
  rw [slashed, hmap, String.ofList_toList]

/-! ## Report paths -/

theorem forReport_eq (path : String) :
    forReport path =
      String.ofList ((dropStart? "./".toList (slashed path).toList).getD (slashed path).toList) := by
  simp only [forReport, slashed, String.toList_ofList]
  rfl

/-- A report path is the path that was asked for, with forward slashes, or it follows `./` in it. -/
theorem forReport_cases (path : String) :
    (¬ "./".toList <+: (slashed path).toList ∧ forReport path = slashed path) ∨
      slashed path = "./" ++ forReport path := by
  by_cases h : "./".toList <+: (slashed path).toList
  · right
    obtain ⟨rest, hrest⟩ := h
    have hdrop : dropStart? "./".toList (slashed path).toList = some rest := by
      rw [← hrest, dropStart?, if_pos (List.isPrefixOf_iff_prefix.2 (List.prefix_append _ _))]
      exact congrArg some (List.drop_left)
    rw [forReport_eq, hdrop, ← String.toList_inj, ← hrest, String.toList_append]
    simp
  · refine .inl ⟨h, ?_⟩
    have hdrop : dropStart? "./".toList (slashed path).toList = none := by
      rw [dropStart?, if_neg (mt List.isPrefixOf_iff_prefix.1 h)]
    rw [forReport_eq, hdrop]
    exact String.ofList_toList

/-! ## Joined paths -/

theorem join_of_not_isAbsolute (h : ¬ IsAbsolute path) :
    join root path = if root.toList = [] ∨ root.toList.getLast? = some '/' then root ++ path
      else root ++ "/" ++ path := by
  rw [join, if_neg (show ¬ path.toList.head? = some '/' from h)]

theorem eq_empty_of_join (h : join root path = "") : root = "" ∧ path = "" := by
  have hlist : (join root path).toList = [] := by
    rw [h]
    rfl
  unfold join at hlist
  split at hlist
  · simp_all
  · split at hlist <;> simp_all

theorem isAbsolute_join (h : ¬ IsAbsolute path) : IsAbsolute (join root path) ↔ IsAbsolute root := by
  unfold IsAbsolute at h ⊢
  rw [join_of_not_isAbsolute h]
  by_cases hroot : root.toList = []
  · rw [if_pos (.inl hroot), String.toList_append, hroot]
    simpa using h
  · obtain ⟨c, rest, hcons⟩ := List.exists_cons_of_ne_nil hroot
    split <;> simp [hcons]

/-- The pieces of a joined path are some of the root, and those of the path. -/
theorem exists_pieces_join (root : String) :
    ∃ front, ∀ path, ¬ IsAbsolute path → pieces (join root path) = front ++ pieces path := by
  by_cases hroot : root.toList = []
  · refine ⟨[], fun path h => ?_⟩
    rw [join_of_not_isAbsolute h, if_pos (.inl hroot), pieces, String.toList_append, hroot]
    rfl
  · by_cases hlast : root.toList.getLast? = some '/'
    · obtain ⟨before, hbefore⟩ := List.getLast?_eq_some_iff.1 hlast
      refine ⟨splitWhere (· == '/') before, fun path h => ?_⟩
      rw [join_of_not_isAbsolute h, if_pos (.inr hlast), pieces, String.toList_append, hbefore,
        List.append_assoc]
      exact splitWhere_append rfl before path.toList
    · refine ⟨pieces root, fun path h => ?_⟩
      rw [join_of_not_isAbsolute h, if_neg (not_or.2 ⟨hroot, hlast⟩), pieces,
        String.toList_append, String.toList_append, List.append_assoc]
      exact splitWhere_append rfl root.toList path.toList

theorem pieces_dot (rest : String) : pieces ("./" ++ rest) = ['.'] :: pieces rest := by
  rw [pieces, String.toList_append]
  exact splitWhere_append rfl ['.'] rest.toList

theorem not_isAbsolute_dot (rest : String) : ¬ IsAbsolute ("./" ++ rest) := by
  rw [IsAbsolute, String.toList_append]
  exact nofun

/-- A leading part `.` does not matter in front of a path that is not absolute. -/
theorem isSame_join_dot (root : String) (h : ¬ IsAbsolute rest) :
    IsSame (join root rest) (join root ("./" ++ rest)) where
  isAbsolute_iff := (isAbsolute_join h).trans (isAbsolute_join (not_isAbsolute_dot rest)).symm
  parts_eq := by
    obtain ⟨front, hfront⟩ := exists_pieces_join root
    have hrest := hfront rest h
    have hdotted := hfront ("./" ++ rest) (not_isAbsolute_dot rest)
    rw [pieces] at hrest hdotted
    rw [parts, parts, hrest, hdotted, pieces_dot, List.filterMap_append, List.filterMap_append,
      List.filterMap_cons_none (by simp)]

theorem not_isAbsolute_of_dot (h : ¬ ".//".toList <+: (slashed path).toList)
    (hdot : slashed path = "./" ++ rest) : ¬ IsAbsolute rest := by
  intro habsolute
  obtain ⟨more, hmore⟩ := List.head?_eq_some_iff.1 habsolute
  rw [hdot, String.toList_append, hmore] at h
  exact h (List.prefix_append ".//".toList more)

/-- If the report path does not follow `./` as an absolute path, it names what was asked for. -/
theorem isSame_join_forReport (root : String) (h : ¬ ".//".toList <+: (slashed path).toList) :
    IsSame (join root (forReport path)) (join root (slashed path)) := by
  obtain ⟨-, hreport⟩ | hdot := forReport_cases path
  · rw [hreport]
    exact .refl (join root (slashed path))
  · have hsame := isSame_join_dot root (not_isAbsolute_of_dot h hdot)
    rwa [← hdot] at hsame

end FilePath

/-! ## Places of paths -/

namespace FileSystem

open FilePath

variable {root path rest : String} {fs : FileSystem} {place : Place}

theorem pathNames_eq (path : String) : pathNames path = (pieces path).map String.ofList := rfl

theorem base_congr {path path' : String} (h : IsAbsolute path ↔ IsAbsolute path') :
    fs.base path = fs.base path' :=
  ite_congr (propext h) (fun _ => rfl) fun _ => rfl

/-- A part `.` in front of another part does not matter. -/
theorem follow_dot (place : Place) (front : List String) (name : String) (names : List String) :
    fs.follow place (front ++ "." :: name :: names) = fs.follow place (front ++ name :: names) := by
  induction front generalizing place with
  | nil =>
    rw [List.nil_append, List.nil_append, follow]
    split
    · rfl
    · next hfile => simp [follow, hfile]
    · next hmissing => simp [follow, hmissing]
  | cons first front ih =>
    rw [List.cons_append, List.cons_append, follow, follow]
    split
    · exact ih _
    · rfl
    · rfl

theorem locate_join_dot (h : ¬ IsAbsolute rest) (hne : join root rest ≠ "") :
    fs.locate (join root ("./" ++ rest)) = fs.locate (join root rest) := by
  obtain ⟨front, hfront⟩ := exists_pieces_join root
  obtain ⟨piece, more, hrest⟩ : ∃ piece more, pieces rest = piece :: more :=
    List.exists_cons_of_ne_nil (splitWhere_ne_nil _ _)
  have hdotted := hfront ("./" ++ rest) (not_isAbsolute_dot rest)
  rw [pieces_dot, hrest] at hdotted
  have hne' : join root ("./" ++ rest) ≠ "" := by
    intro hempty
    rw [hempty] at hdotted
    cases front with
    | nil => cases hdotted
    | cons first front => cases front <;> cases hdotted
  have hbase : fs.base (join root ("./" ++ rest)) = fs.base (join root rest) :=
    base_congr (isSame_join_dot root h).isAbsolute_iff.symm
  rw [locate, locate, if_neg hne, if_neg hne', hbase, pathNames_eq, pathNames_eq, hdotted,
    hfront rest h, hrest, List.map_append, List.map_append]
  exact follow_dot _ _ _ _

/-- What is joined with nothing ends with a slash, so it names no file. -/
theorem locate_join_empty_ne {e : Entry} (he : e ≠ .directory) :
    fs.locate (join root "") ≠ .ok (place, e) := by
  intro h
  obtain ⟨front, hfront⟩ := exists_pieces_join root
  have hpieces : pieces (join root "") = front ++ [[]] := hfront "" nofun
  rw [locate] at h
  split at h
  · cases h
  · rw [pathNames_eq, hpieces, List.map_append] at h
    obtain ⟨parent, hparent, rfl, hentry⟩ := follow_append_iff.1 h
    cases hentry.symm.trans (entry_of_follow hparent)
    exact he rfl

/-- A file is at the place of its report path if that does not follow `./` as an absolute path. -/
theorem locate_join_forReport {e : Entry} (he : e ≠ .directory)
    (h : ¬ ".//".toList <+: (slashed path).toList)
    (hplace : fs.locate (join root (slashed path)) = .ok (place, e)) :
    fs.locate (join root (forReport path)) = .ok (place, e) := by
  obtain ⟨-, hreport⟩ | hdot := forReport_cases path
  · rwa [hreport]
  · rw [hdot] at hplace
    rw [← hplace]
    refine (locate_join_dot (not_isAbsolute_of_dot h hdot) fun hempty => ?_).symm
    obtain ⟨hroot, hpath⟩ := eq_empty_of_join hempty
    rw [hroot, hpath] at hplace
    have hempty : fs.locate (join "." "") ≠ .ok (place, e) := locate_join_empty_ne he
    exact hempty hplace

end FileSystem

end ComponentScan
