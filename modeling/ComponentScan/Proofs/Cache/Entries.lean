import ComponentScan.Cache
import ComponentScan.Proofs.FileSystem.Write
import ComponentScan.Proofs.Report.Json
import ComponentScan.Proofs.Text.Split

/-!
# Entries of a cache

The entry of a report is read back from its file if the report can be read back
(`CacheEntry.decodeText_text`). The files of entries lie side by side in one directory, each under
the name that its report path is turned into, so to keep a report (`ReportCache.readText_set`)
changes one of them and spares the others. Paths that are turned into the same name share a file.
-/

namespace ComponentScan

namespace CacheEntry

open Json Value

/-- The text of the file of an entry. -/
def text (e : CacheEntry) : String :=
  e.encode.text

theorem decodeText_text {e : CacheEntry} (h : e.report.IsWellFormed) (e' : CacheEntry) :
    Json.decodeText decode e.text = .ok e' ↔ e.report.IsWritable ∧ e' = e := by
  have hreport := ScanReport.decode_reread_encode reportDepth (by decide) h
  obtain ⟨hash, report⟩ := e
  rw [text, Json.decodeText_text, eq_comm (a := e')]
  simp [decode, encode, asFields, takeMember, schema, field, ok_bind_iff, ok_map_iff, asString,
    Fields.get, List.lookup_cons, pure, Except.pure, hreport]

end CacheEntry

/-! ## Names of entries -/

namespace ReportCache

/-- The name of the file for a report path. -/
def entryName (reportPath : String) : String :=
  String.ofList (reportPath.toList.map fileNameChar) ++ ".json"

theorem toList_entryName (reportPath : String) :
    (entryName reportPath).toList = reportPath.toList.map fileNameChar ++ ".json".toList := by
  rw [entryName, String.toList_append, String.toList_ofList]

theorem notMem_entryName (reportPath : String) : '/' ∉ (entryName reportPath).toList := by
  rw [toList_entryName, List.mem_append, List.mem_map]
  rintro (⟨c, -, hc⟩ | h)
  · unfold fileNameChar at hc
    split at hc
    · exact absurd hc (by decide)
    · next hne => exact hne (.inl hc)
  · exact absurd h (by decide)

/-- No entry has a name that stands for a directory. -/
theorem step_entryName (place : Place) (reportPath : String) :
    FileSystem.step place (entryName reportPath) = place ++ [entryName reportPath] := by
  have hlength : 5 ≤ (entryName reportPath).toList.length := by
    rw [toList_entryName, List.length_append]
    exact Nat.le_add_left _ _
  have hne (s : String) (hs : s.toList.length < 5) : entryName reportPath ≠ s := fun h =>
    absurd (h ▸ hlength) (Nat.not_le.2 hs)
  rw [FileSystem.step, if_neg (not_or.2 ⟨hne "" (by decide), hne "." (by decide)⟩),
    if_neg (hne ".." (by decide))]

/-- The names that lead to the directory of a cache. -/
def parentNames (cache : ReportCache) : List String :=
  (FileSystem.pathNames (FilePath.join cache.directory "")).dropLast

/-- The path of an entry is its name behind an empty text or a slash. -/
theorem entryPath_eq_append (cache : ReportCache) (reportPath : String) :
    cache.entryPath reportPath = FilePath.join cache.directory "" ++ entryName reportPath := by
  have hhead : (entryName reportPath).toList.head? ≠ some '/' := fun h =>
    notMem_entryName reportPath (List.mem_of_head? h)
  have hempty : "".toList.head? ≠ some '/' := by decide
  change FilePath.join cache.directory (entryName reportPath) = _
  unfold FilePath.join
  rw [if_neg hhead, if_neg hempty]
  split
  · rw [String.append_empty]
  · rw [String.append_empty]

theorem join_empty (directory : String) :
    FilePath.join directory "" = "" ∨ ∃ parent, FilePath.join directory "" = parent ++ "/" := by
  have hempty : "".toList.head? ≠ some '/' := by decide
  unfold FilePath.join
  rw [if_neg hempty, String.append_empty, String.append_empty]
  split
  · next h =>
    rcases h with h | h
    · exact .inl (String.toList_eq_nil_iff.1 h)
    · obtain ⟨parent, hparent⟩ := List.getLast?_eq_some_iff.1 h
      refine .inr ⟨String.ofList parent, String.toList_injective ?_⟩
      rw [String.toList_append, String.toList_ofList, hparent]
      rfl
  · exact .inr ⟨directory, rfl⟩

theorem pathNames_entryPath (cache : ReportCache) (reportPath : String) :
    FileSystem.pathNames (cache.entryPath reportPath) =
      cache.parentNames ++ [entryName reportPath] := by
  have hname : Text.splitWhere (· == '/') (entryName reportPath).toList =
      [(entryName reportPath).toList] :=
    Text.splitWhere_eq_singleton fun c hc =>
      beq_eq_false_iff_ne.2 fun h => notMem_entryName reportPath (h ▸ hc)
  rw [entryPath_eq_append, parentNames]
  unfold FileSystem.pathNames
  rcases join_empty cache.directory with h | ⟨parent, h⟩
  · rw [h, String.empty_append, hname]
    simp [Text.splitWhere]
  · rw [h, String.toList_append, String.toList_append, List.append_assoc]
    have hslash (s : List Char) : "/".toList ++ s = '/' :: s := rfl
    rw [hslash, ← List.append_nil "/".toList, hslash, Text.splitWhere_append rfl,
      Text.splitWhere_append rfl, hname]
    simp [Text.splitWhere]

theorem base_entryPath (cache : ReportCache) (reportPath : String) (fs : FileSystem) :
    fs.base (cache.entryPath reportPath) = fs.base (FilePath.join cache.directory "") := by
  have hname : (entryName reportPath).toList.head? ≠ some '/' := fun h =>
    notMem_entryName reportPath (List.mem_of_head? h)
  unfold FileSystem.base
  rw [entryPath_eq_append, String.toList_append]
  rcases join_empty cache.directory with h | ⟨parent, h⟩
  · rw [h, String.toList_empty, List.nil_append, if_neg hname, if_neg (by simp)]
  · rw [h, String.toList_append]
    cases parent.toList <;> rfl

/-! ## Files of entries -/

variable {cache : ReportCache} {fs fs' : FileSystem} {place q : Place} {e : Entry} {path : String}

/-- Whether the directory of a cache is at a place. -/
def IsAt (cache : ReportCache) (fs : FileSystem) (place : Place) : Prop :=
  fs.follow (fs.base (FilePath.join cache.directory "")) cache.parentNames = .ok (place, .directory)

theorem IsAt.unique {place' : Place} (h : cache.IsAt fs place) (h' : cache.IsAt fs place') :
    place = place' :=
  congrArg Prod.fst (Except.ok.inj (h.symm.trans h'))

theorem IsAt.of_put (he : e ≠ .directory) (hq : q ≠ []) (h : cache.IsAt (fs.put q e) place) :
    cache.IsAt fs place := by
  rcases FileSystem.follow_put he hq h with ⟨-, hdir⟩ | ⟨-, h⟩
  · exact absurd hdir.symm he
  · exact h

theorem locate_entryPath_iff (reportPath : String) :
    fs.locate (cache.entryPath reportPath) = .ok (q, e) ↔
      ∃ place, cache.IsAt fs place ∧ q = place ++ [entryName reportPath] ∧ fs.entry? q = some e := by
  have hne : cache.entryPath reportPath ≠ "" := fun h => by
    have hname := congrArg String.toList h
    rw [entryPath_eq_append, String.toList_append, toList_entryName] at hname
    simp at hname
  rw [FileSystem.locate, if_neg hne, base_entryPath, pathNames_entryPath,
    FileSystem.follow_append_iff]
  simp only [step_entryName]
  rfl

theorem readText_entryPath_iff (reportPath text : String) :
    fs.readText (cache.entryPath reportPath) = .ok text ↔ ∃ place, cache.IsAt fs place ∧
      fs.entry? (place ++ [entryName reportPath]) = some (.text text) := by
  rw [FileSystem.readText_eq_ok_iff]
  simp only [locate_entryPath_iff]
  constructor
  · rintro ⟨_, place, hat, rfl, he⟩
    exact ⟨place, hat, he⟩
  · rintro ⟨place, hat, he⟩
    exact ⟨_, place, hat, rfl, he⟩

theorem isAt_of_locate (h : fs.locate cache.directory = .ok (place, .directory)) :
    cache.IsAt fs place := by
  unfold FileSystem.locate at h
  split at h
  · cases h
  next hne =>
  have hempty : "".toList.head? ≠ some '/' := by decide
  unfold IsAt parentNames FilePath.join
  rw [if_neg hempty, String.append_empty, String.append_empty]
  split
  · next hslash =>
    rcases hslash with hslash | hslash
    · exact absurd (String.toList_eq_nil_iff.1 hslash) hne
    obtain ⟨parent, hparent⟩ := List.getLast?_eq_some_iff.1 hslash
    have hnames : FileSystem.pathNames cache.directory =
        (Text.splitWhere (· == '/') parent).map String.ofList ++ [""] := by
      unfold FileSystem.pathNames
      rw [hparent, Text.splitWhere_append rfl, List.map_append]
      rfl
    rw [hnames, FileSystem.follow_append_iff] at h
    obtain ⟨place', hplace, hstep, -⟩ := h
    rw [FileSystem.step, if_pos (.inl rfl)] at hstep
    rw [hnames, List.dropLast_concat, hplace, hstep]
  · next hslash =>
    have hnames : FileSystem.pathNames (cache.directory ++ "/") =
        FileSystem.pathNames cache.directory ++ [""] := by
      have hsplit := Text.splitWhere_append (p := (· == '/')) (c := '/') rfl
        cache.directory.toList []
      unfold FileSystem.pathNames
      rw [String.toList_append]
      exact (congrArg (List.map String.ofList) hsplit).trans List.map_append
    have hbase : fs.base (cache.directory ++ "/") = fs.base cache.directory := by
      unfold FileSystem.base
      rw [String.toList_append]
      cases hdirectory : cache.directory.toList with
      | nil => exact absurd (.inl hdirectory) hslash
      | cons c r => rfl
    rw [hnames, List.dropLast_concat, hbase]
    exact h

/-- An empty directory holds no entry that can be read. -/
theorem readText_ne_ok_of_list (h : fs.list cache.directory = .ok []) (reportPath text : String) :
    fs.readText (cache.entryPath reportPath) ≠ .ok text := by
  intro hread
  unfold FileSystem.list at h
  rw [ok_bind_iff] at h
  obtain ⟨⟨place, e⟩, hlocate, h⟩ := h
  cases e with
  | directory =>
    obtain ⟨place', hat, hentry⟩ := (readText_entryPath_iff reportPath text).1 hread
    obtain rfl := (isAt_of_locate hlocate).unique hat
    have hname : entryName reportPath ∈ fs.names place := by
      unfold FileSystem.entry? at hentry
      rw [if_neg (by simp)] at hentry
      obtain ⟨before, after, hentries, -⟩ := List.lookup_eq_some_iff.1 hentry
      unfold FileSystem.names
      rw [List.mem_mergeSort, hentries, List.mem_filterMap]
      exact ⟨_, List.mem_append_right _ List.mem_cons_self, by simp⟩
    rw [ok_pure_iff.1 h] at hname
    cases hname
  | text s => cases h
  | bytes b => cases h

/-- An entry is written into the directory of the cache. -/
theorem exists_isAt_of_target {reportPath : String}
    (h : fs.target (cache.entryPath reportPath) = .ok q) :
    ∃ place, cache.IsAt fs place ∧ q = place ++ [entryName reportPath] := by
  unfold FileSystem.target at h
  split at h
  · cases h
  · next hlocate =>
    cases h
    obtain ⟨place, hat, hq, -⟩ := (locate_entryPath_iff reportPath).1 hlocate
    exact ⟨place, hat, hq⟩
  · obtain ⟨names, name, place, hnames, hplace, -, rfl⟩ :=
      FileSystem.exists_directory_of_newTarget h
    rw [pathNames_entryPath] at hnames
    obtain ⟨rfl, rfl⟩ := List.append_singleton_inj.1 hnames
    rw [base_entryPath] at hplace
    exact ⟨place, hplace, rfl⟩
  · cases h

/-- Whether every entry that can be read after a change could be read before. -/
def Spares (cache : ReportCache) (fs fs' : FileSystem) : Prop :=
  ∀ reportPath text, fs'.readText (cache.entryPath reportPath) = .ok text →
    fs.readText (cache.entryPath reportPath) = .ok text

theorem Spares.refl (cache : ReportCache) (fs : FileSystem) : cache.Spares fs fs :=
  fun _ _ h => h

/-- A write to a file that is no entry spares the entries. -/
theorem spares_of_write {file : Entry} (hfile : file ≠ .directory)
    (h : fs.write path file = .ok fs') (hroot : fs.target path ≠ .ok [])
    (hplace : ∀ place, cache.IsAt fs place → ∀ reportPath,
      fs.target path ≠ .ok (place ++ [entryName reportPath])) : cache.Spares fs fs' := by
  obtain ⟨q, hq, rfl⟩ := FileSystem.write_eq_ok_iff.1 h
  have hne : q ≠ [] := fun h => hroot (h ▸ hq)
  intro reportPath text hread
  obtain ⟨r, hr⟩ := FileSystem.readText_eq_ok_iff.1 hread
  rcases FileSystem.locate_put hfile hne hr with ⟨rfl, -⟩ | ⟨-, hr⟩
  · obtain ⟨place, hat, hentry, -⟩ := (locate_entryPath_iff reportPath).1 hr
    exact absurd (hentry ▸ hq) (hplace place (hat.of_put hfile hne) reportPath)
  · exact FileSystem.readText_eq_ok_iff.2 ⟨r, hr⟩

theorem spares_of_remove (h : fs.remove path = .ok fs') : cache.Spares fs fs' := by
  unfold FileSystem.remove at h
  rw [ok_bind_iff] at h
  obtain ⟨⟨q, e⟩, -, h⟩ := h
  cases ok_pure_iff.1 h
  intro reportPath text hread
  obtain ⟨place, hat, hentry⟩ := (readText_entryPath_iff reportPath text).1 hread
  exact (readText_entryPath_iff reportPath text).2 ⟨place,
    FileSystem.follow_of_follow_erase hat, FileSystem.entry_of_entry_erase hentry⟩

/-- To look for a report spares the entries. -/
theorem spares_get (reportPath : String) (config : Config) (source : String) :
    cache.Spares fs (cache.get reportPath config source fs).2 := by
  unfold ReportCache.get
  dsimp only
  split
  · exact .refl cache fs
  · split
    · cases hremove : fs.remove (cache.entryPath reportPath) with
      | error => exact .refl cache fs
      | ok fs' => exact spares_of_remove hremove
    · exact .refl cache fs

/-- A report is kept if its entry can be written. -/
theorem set_eq_put {reportPath : String} (h : fs.target (cache.entryPath reportPath) = .ok q)
    (config : Config) (source : String) (report : ScanReport) :
    cache.set reportPath config source report fs =
      fs.put q (.text (CacheEntry.mk (entryHash config source) report).text) := by
  unfold ReportCache.set
  dsimp only
  rw [FileSystem.write_eq_ok_iff.2 ⟨q, h, rfl⟩]
  rfl

/-- What is read of the entries after a report is kept: its own entry in place of the one under the
same name, and the others. -/
theorem readText_set {reportPath reportPath' : String} {config : Config} {source text : String}
    {report : ScanReport}
    (h : (cache.set reportPath config source report fs).readText (cache.entryPath reportPath') =
      .ok text) :
    if entryName reportPath' = entryName reportPath then
      text = (CacheEntry.mk (entryHash config source) report).text
    else fs.readText (cache.entryPath reportPath') = .ok text := by
  let entry : CacheEntry := ⟨entryHash config source, report⟩
  change ((fs.write (cache.entryPath reportPath) (.text entry.text)).toOption.getD fs).readText _ =
    _ at h
  have hfile : Entry.text entry.text ≠ .directory := nofun
  cases hwrite : fs.write (cache.entryPath reportPath) (.text entry.text) with
  | error x =>
    rw [hwrite] at h
    replace h : fs.readText (cache.entryPath reportPath') = .ok text := h
    split
    · next hname =>
      -- A file that can be read can be written.
      have hpath : cache.entryPath reportPath' = cache.entryPath reportPath := by
        rw [entryPath_eq_append, entryPath_eq_append, hname]
      obtain ⟨q, hq⟩ := FileSystem.readText_eq_ok_iff.1 h
      rw [hpath] at hq
      have hread : Entry.text text ≠ .directory := nofun
      exact nomatch hwrite.symm.trans (FileSystem.write_of_locate hread hq)
    · exact h
  | ok fs' =>
    rw [hwrite] at h
    replace h : fs'.readText (cache.entryPath reportPath') = .ok text := h
    obtain ⟨q, hq, rfl⟩ := FileSystem.write_eq_ok_iff.1 hwrite
    obtain ⟨place, hat, rfl⟩ := exists_isAt_of_target hq
    have hne : place ++ [entryName reportPath] ≠ [] := by simp
    obtain ⟨place', hat', hentry⟩ := (readText_entryPath_iff reportPath' text).1 h
    obtain rfl := hat.unique (hat'.of_put hfile hne)
    split
    · next hname =>
      rw [hname, FileSystem.entry_put_self hne] at hentry
      exact (Entry.text.inj (Option.some.inj hentry)).symm
    · next hname =>
      have hplace : place ++ [entryName reportPath'] ≠ place ++ [entryName reportPath] := by
        simpa using hname
      rw [FileSystem.entry_put_of_ne hplace] at hentry
      exact (readText_entryPath_iff reportPath' text).2 ⟨place, hat, hentry⟩

end ReportCache

end ComponentScan
