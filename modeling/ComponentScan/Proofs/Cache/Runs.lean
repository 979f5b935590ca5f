import ComponentScan.Proofs.Cache.Entries
import ComponentScan.Proofs.Cache.Keys
import ComponentScan.Proofs.Scan.WellFormed
import ComponentScan.Workspace

/-!
# Runs with a cache

A run starts without entries; then files outside the cache change and files are scanned through the
cache, in any order and with any options. All along, what can be read of an entry is the report that
was kept last under its name (`Run.exists_lastFiling`). So a scan yields what it would yield without
the cache exactly if it is not answered by a report of another path, or of the same path but with
another outcome (`Run.forall_isTransparent_iff`).
-/

namespace ComponentScan

/-- A scan through a cache, and the files as it finds them. -/
structure CachedScan where
  config : Config
  relative : String
  fs : FileSystem

/-- A report that was kept, and what it was made from. -/
structure Filing where
  config : Config
  path : String
  source : String
  report : ScanReport
  deriving DecidableEq

def Filing.entry (f : Filing) : CacheEntry :=
  ⟨ReportCache.entryHash f.config f.source, f.report⟩

namespace CachedScan

variable (cache : ReportCache) (v : CachedScan)

/-- The path of the report. -/
def path : String :=
  FilePath.forReport v.relative

def repo : RepoMetadata :=
  repoMetadata v.config v.fs

def result : Except ScanError ScanReport :=
  (scanFileCached v.config cache v.relative v.fs).1

/-- The files that the scan leaves. -/
def after : FileSystem :=
  (scanFileCached v.config cache v.relative v.fs).2

/-- Whether the scan yields what it would yield without the cache. -/
def IsTransparent : Prop :=
  v.result cache = scanFile v.config v.relative v.fs

/-- The report that the scan keeps: the one that it makes, if it finds none. -/
def filing? : Option Filing :=
  match readSource v.config v.relative v.fs with
  | .error _ => none
  | .ok source =>
    match (cache.get v.path v.config source v.fs).1, scanSource v.config v.path source v.repo with
    | none, .ok report => some ⟨v.config, v.path, source, report⟩
    | _, _ => none

end CachedScan

namespace ReportCache

/-- The last report that scans have kept under the name for a report path. The latest scan comes
first. -/
def lastFiling? (cache : ReportCache) (scans : List CachedScan) (reportPath : String) :
    Option Filing :=
  (scans.filterMap (·.filing? cache)).find? fun f => entryName f.path == entryName reportPath

/-- The scans of a run, the latest first, and the files at its end. -/
inductive Run (cache : ReportCache) : List CachedScan → FileSystem → Prop
  | start {fs : FileSystem}
    (h : ∀ reportPath text, fs.readText (cache.entryPath reportPath) ≠ .ok text) : Run cache [] fs
  /-- Files outside the cache change (`spares_of_write`); entries may get lost. -/
  | change {scans : List CachedScan} {fs fs' : FileSystem} (h : Run cache scans fs)
    (hspares : cache.Spares fs fs') : Run cache scans fs'
  | scan {scans : List CachedScan} {v : CachedScan} (h : Run cache scans v.fs) :
    Run cache (v :: scans) (v.after cache)

end ReportCache

open ReportCache

variable {cache : ReportCache} {scans before : List CachedScan} {fs : FileSystem} {v : CachedScan}
  {reportPath source text : String} {f : Filing}

/-! ## One scan -/

theorem readSource_eq_ok {config : Config} {relative : String} {place : Place}
    (h : fs.locate (config.resolvePath relative) = .ok (place, .text source)) :
    readSource config relative fs = .ok source := by
  unfold readSource
  dsimp only
  rw [FileSystem.readText_eq_ok_iff.2 ⟨place, h⟩]
  rfl

/-- What a scan through a cache does with a file that it can read. -/
theorem CachedScan.scanFileCached_eq (hsource : readSource v.config v.relative v.fs = .ok source) :
    scanFileCached v.config cache v.relative v.fs =
      match cache.get v.path v.config source v.fs with
      | (some report, fs) => (.ok (report.withRepo v.repo), fs)
      | (none, fs) =>
        match scanSource v.config v.path source v.repo with
        | .error e => (.error e, fs)
        | .ok report => (.ok report, cache.set v.path v.config source report fs) := by
  unfold scanFileCached path repo
  rw [hsource]
  dsimp only
  rcases cache.get (FilePath.forReport v.relative) v.config source v.fs with ⟨_ | report, fs⟩
  · cases scanSource v.config (FilePath.forReport v.relative) source
      (repoMetadata v.config v.fs) <;> rfl
  · rfl

theorem CachedScan.scanFile_eq (hsource : readSource v.config v.relative v.fs = .ok source) :
    scanFile v.config v.relative v.fs = scanSource v.config v.path source v.repo := by
  unfold scanFile scanFileWith
  rw [hsource]
  rfl

/-- A report that a scan keeps is what the scan made. -/
structure Filing.IsOf (f : Filing) (v : CachedScan) : Prop where
  config : f.config = v.config
  path : f.path = v.path
  read : readSource v.config v.relative v.fs = .ok f.source
  scan : scanSource f.config f.path f.source v.repo = .ok f.report

theorem CachedScan.isOf_of_filing? (h : v.filing? cache = some f) : f.IsOf v := by
  unfold filing? at h
  split at h
  · cases h
  · next hsource =>
    split at h
    · next hscan =>
      cases h
      exact ⟨rfl, rfl, hsource, hscan⟩
    · cases h

/-- A scan that makes a report keeps it. -/
theorem CachedScan.after_of_filing? (h : v.filing? cache = some f) :
    v.after cache = cache.set f.path f.config f.source f.report
      (cache.get v.path v.config f.source v.fs).2 := by
  unfold filing? at h
  split at h
  · cases h
  · next source hsource =>
    split at h
    · next hget hscan =>
      cases h
      rw [after, scanFileCached_eq hsource]
      rcases hcached : cache.get v.path v.config source v.fs with ⟨found, fs⟩
      rw [hcached] at hget
      obtain rfl : found = none := hget
      rw [hscan]
    · cases h

/-- What can be read after a scan is the report that it kept, or could be read before. -/
theorem CachedScan.readText_after
    (h : (v.after cache).readText (cache.entryPath reportPath) = .ok text) :
    (∃ f, v.filing? cache = some f ∧ entryName f.path = entryName reportPath ∧
        text = f.entry.text) ∨
      (∀ f, v.filing? cache = some f → entryName f.path ≠ entryName reportPath) ∧
        v.fs.readText (cache.entryPath reportPath) = .ok text := by
  unfold after at h
  cases hsource : readSource v.config v.relative v.fs with
  | error e =>
    unfold scanFileCached at h
    rw [hsource] at h
    exact .inr ⟨by simp [filing?, hsource], h⟩
  | ok source =>
    rw [scanFileCached_eq hsource] at h
    have hspares : cache.Spares v.fs _ := cache.spares_get v.path v.config source
    rcases hget : cache.get v.path v.config source v.fs with ⟨_ | report, fs⟩
    · rw [hget] at h hspares
      dsimp only at h hspares
      cases hscan : scanSource v.config v.path source v.repo with
      | error e =>
        rw [hscan] at h
        dsimp only at h
        exact .inr ⟨by simp [filing?, hsource, hget, hscan], hspares reportPath text h⟩
      | ok report =>
        rw [hscan] at h
        dsimp only at h
        have hfiling : v.filing? cache = some ⟨v.config, v.path, source, report⟩ := by
          simp [filing?, hsource, hget, hscan]
        have hread := readText_set h
        split at hread
        · next hname => exact .inl ⟨_, hfiling, hname.symm, hread⟩
        · next hname =>
          refine .inr ⟨fun f hf => ?_, hspares reportPath text hread⟩
          cases hfiling.symm.trans hf
          exact fun heq => hname heq.symm
    · rw [hget] at h hspares
      dsimp only at h hspares
      exact .inr ⟨by simp [filing?, hsource, hget], hspares reportPath text h⟩

/-! ## Runs -/

namespace ReportCache

/-- What can be read of an entry is the report that was kept last under its name. -/
theorem Run.exists_lastFiling (h : Run cache scans fs)
    (hread : fs.readText (cache.entryPath reportPath) = .ok text) :
    ∃ f, lastFiling? cache scans reportPath = some f ∧ text = f.entry.text := by
  induction h with
  | start hstart => exact absurd hread (hstart reportPath text)
  | change _ hspares ih => exact ih (hspares _ _ hread)
  | @scan scans v _ ih =>
    unfold lastFiling?
    rw [List.filterMap_cons]
    rcases CachedScan.readText_after hread with ⟨f, hf, hname, htext⟩ | ⟨hother, hread⟩
    · rw [hf]
      dsimp only
      rw [List.find?_cons_of_pos (by simpa using hname)]
      exact ⟨f, rfl, htext⟩
    · cases hf : v.filing? cache with
      | none => exact ih hread
      | some f =>
        dsimp only
        rw [List.find?_cons_of_neg (by simpa using hother f hf)]
        exact ih hread

theorem exists_isOf_of_lastFiling? (h : lastFiling? cache scans reportPath = some f) :
    ∃ v ∈ scans, f.IsOf v := by
  obtain ⟨v, hv, hfiling⟩ := List.mem_filterMap.1 (List.mem_of_find?_eq_some h)
  exact ⟨v, hv, CachedScan.isOf_of_filing? hfiling⟩

theorem entryName_of_lastFiling? (h : lastFiling? cache scans reportPath = some f) :
    entryName f.path = entryName reportPath := by
  simpa using List.find?_some h

/-- What comes before a scan of a run is a run. -/
theorem Run.of_suffix (h : Run cache scans fs) (hsuffix : v :: before <:+ scans) :
    Run cache before v.fs := by
  induction h with
  | start => cases List.eq_nil_of_suffix_nil hsuffix
  | change _ _ ih => exact ih hsuffix
  | scan hrun ih =>
    rcases List.suffix_cons_iff.1 hsuffix with heq | hsuffix
    · cases heq
      exact hrun
    · exact ih hsuffix

/-- Whether a scan of a source is answered by the report that was kept last under the name of its
entry: the entry is still there, it can be read, and it has the digest of the scan. -/
structure Answers (cache : ReportCache) (before : List CachedScan) (v : CachedScan)
    (source : String) (f : Filing) : Prop where
  read : readSource v.config v.relative v.fs = .ok source
  last : lastFiling? cache before v.path = some f
  kept : v.fs.readText (cache.entryPath v.path) = .ok f.entry.text
  readable : f.report.IsWritable
  digest : entryHash f.config f.source = entryHash v.config source

theorem get_of_answers (h : Answers cache before v source f) :
    (cache.get v.path v.config source v.fs) = (some f.report, v.fs) := by
  obtain ⟨w, -, hw⟩ := exists_isOf_of_lastFiling? h.last
  have hdecode := (CacheEntry.decodeText_text (e := f.entry) (isWellFormed_scanSource hw.scan)
    f.entry).2 ⟨h.readable, rfl⟩
  unfold ReportCache.get
  simp only [h.kept, hdecode]
  have hdigest : f.entry.hash = entryHash v.config source := h.digest
  rw [if_pos hdigest]
  rfl

/-- A scan that finds a report is answered by it. -/
theorem Run.answers_of_get (h : Run cache before v.fs)
    (hsource : readSource v.config v.relative v.fs = .ok source) {report : ScanReport}
    (hget : (cache.get v.path v.config source v.fs).1 = some report) :
    ∃ f, Answers cache before v source f ∧ f.report = report := by
  unfold ReportCache.get at hget
  dsimp only at hget
  split at hget
  · cases hget
  · next text htext =>
    obtain ⟨f, hlast, rfl⟩ := h.exists_lastFiling htext
    obtain ⟨w, -, hw⟩ := exists_isOf_of_lastFiling? hlast
    split at hget
    · cases hget
    · next entry hentry =>
      obtain ⟨hreadable, rfl⟩ := (CacheEntry.decodeText_text (e := f.entry)
        (isWellFormed_scanSource hw.scan) entry).1 hentry
      split at hget
      · next hdigest =>
        cases hget
        exact ⟨f, ⟨hsource, hlast, htext, hreadable, hdigest⟩, rfl⟩
      · cases hget

theorem isTransparent_iff_of_answers (h : Answers cache before v source f) :
    v.IsTransparent cache ↔ f.path = v.path ∧
      scanSource f.config v.path f.source v.repo = scanSource v.config v.path source v.repo := by
  obtain ⟨w, -, hw⟩ := exists_isOf_of_lastFiling? h.last
  have hresult : v.result cache = .ok (f.report.withRepo v.repo) := by
    unfold CachedScan.result
    rw [CachedScan.scanFileCached_eq h.read, get_of_answers h]
  have hstamped : scanSource f.config f.path f.source v.repo = .ok (f.report.withRepo v.repo) := by
    rw [← scanSource_withRepo f.config f.path f.source w.repo, hw.scan]
    rfl
  rw [CachedScan.IsTransparent, hresult, CachedScan.scanFile_eq h.read, ← hstamped]
  constructor
  · intro heq
    have hpath : f.path = v.path := by
      rw [← path_scanSource (heq.symm.trans hstamped)]
      exact (path_scanSource hstamped).symm
    exact ⟨hpath, by rw [← heq, hpath]⟩
  · rintro ⟨hpath, heq⟩
    rw [hpath, heq]

theorem Run.isTransparent_of_forall_not_answers (h : Run cache before v.fs)
    (hnone : ∀ source f, ¬ Answers cache before v source f) : v.IsTransparent cache := by
  unfold CachedScan.IsTransparent CachedScan.result
  cases hsource : readSource v.config v.relative v.fs with
  | error e =>
    unfold scanFileCached scanFile scanFileWith
    rw [hsource]
    rfl
  | ok source =>
    rw [CachedScan.scanFileCached_eq hsource, CachedScan.scanFile_eq hsource]
    rcases hget : cache.get v.path v.config source v.fs with ⟨_ | report, fs⟩
    · dsimp only
      cases scanSource v.config v.path source v.repo <;> rfl
    · have hfound : (cache.get v.path v.config source v.fs).1 = some report := by rw [hget]
      obtain ⟨f, hf, -⟩ := h.answers_of_get hsource hfound
      exact absurd hf (hnone source f)

/-- A scan of a run yields what it would yield without the cache exactly if no kept report answers
it, or one of its own path and outcome. -/
theorem Run.isTransparent_iff (h : Run cache scans fs) (hsuffix : v :: before <:+ scans) :
    v.IsTransparent cache ↔ ∀ source f, Answers cache before v source f →
      f.path = v.path ∧
        scanSource f.config v.path f.source v.repo = scanSource v.config v.path source v.repo := by
  by_cases hanswered : ∃ source f, Answers cache before v source f
  · obtain ⟨source, f, hf⟩ := hanswered
    rw [isTransparent_iff_of_answers hf]
    constructor
    · intro hsuits source' f' hf'
      cases hf.read.symm.trans hf'.read
      cases hf.last.symm.trans hf'.last
      exact hsuits
    · exact fun hall => hall source f hf
  · have hnone : ∀ source f, ¬ Answers cache before v source f := fun source f hf =>
      hanswered ⟨source, f, hf⟩
    exact ⟨fun _ source f hf => absurd hf (hnone source f),
      fun _ => (h.of_suffix hsuffix).isTransparent_of_forall_not_answers hnone⟩

/-- All scans of a run yield what they would yield without the cache exactly if each one that is
answered by a kept report is answered by one of its own path and outcome. -/
theorem Run.forall_isTransparent_iff (h : Run cache scans fs) :
    (∀ v ∈ scans, v.IsTransparent cache) ↔
      ∀ v before, v :: before <:+ scans → ∀ source f, Answers cache before v source f →
        f.path = v.path ∧
          scanSource f.config v.path f.source v.repo = scanSource v.config v.path source v.repo := by
  constructor
  · exact fun hall v before hsuffix =>
      (h.isTransparent_iff hsuffix).1 (hall v (hsuffix.subset List.mem_cons_self))
  · intro hall v hv
    obtain ⟨later, before, rfl⟩ := List.append_of_mem hv
    have hsuffix : v :: before <:+ later ++ v :: before := List.suffix_append _ _
    exact (h.isTransparent_iff hsuffix).2 (hall v before hsuffix)

/-- Two files with the same text, whose paths have the same name among the entries. -/
def twins : FileSystem where
  entries := [(["workspace"], .directory), (["workspace", "cache"], .directory),
    (["workspace", "src"], .directory),
    (["workspace", "src", "a.tsx"], .text "export const x = 1;\n"),
    (["workspace", "src_a.tsx"], .text "export const x = 1;\n")]
  current := ["workspace"]

/-- The scan of one of the two files. -/
def scanTwin (relative : String) (fs : FileSystem) : CachedScan :=
  ⟨{ resolveRepository := false }, relative, fs⟩

/-- The report that was made for the first file answers the scan of the second one. -/
theorem Run.forall_isTransparent_iff_twins :
    let cache : ReportCache := ⟨"cache"⟩
    let first := scanTwin "src/a.tsx" twins
    let second := scanTwin "src_a.tsx" (first.after cache)
    Run cache [second, first] (second.after cache) ∧
      ¬ ∀ v ∈ [second, first], v.IsTransparent cache := by
  intro cache first second
  have hrun : Run cache [second, first] (second.after cache) :=
    .scan (.scan (.start (readText_ne_ok_of_list (by decide +kernel))))
  let filing : Filing := ⟨first.config, first.path, "export const x = 1;\n",
    ⟨"src/a.tsx", [], .empty, [], [], .placeholder⟩⟩
  let place := ["workspace", "cache", "src_a.tsx.json"]
  -- The files are followed with any text in the entry: its digest is not computed.
  obtain ⟨htarget, hpath, hfirst, hsecond, hentry⟩ :
      twins.target (cache.entryPath first.path) = .ok place ∧
      cache.entryPath second.path = cache.entryPath first.path ∧
      twins.locate (first.config.resolvePath "src/a.tsx") =
        .ok (["workspace", "src", "a.tsx"], .text filing.source) ∧
      twins.locate (second.config.resolvePath "src_a.tsx") =
        .ok (["workspace", "src_a.tsx"], .text filing.source) ∧
      twins.entry? place = none := by decide +kernel
  have hget : cache.get first.path first.config filing.source first.fs = (none, twins) := by
    decide +kernel
  have hscan : scanSource first.config first.path filing.source first.repo = .ok filing.report := by
    decide +kernel
  have hfiling : first.filing? cache = some filing := by
    have hread : readSource first.config first.relative first.fs = .ok filing.source :=
      readSource_eq_ok hfirst
    rw [CachedScan.filing?, hread]
    dsimp only
    rw [hget, hscan]
  have hafter : second.fs = twins.put place (.text filing.entry.text) := by
    change first.after cache = _
    rw [CachedScan.after_of_filing? hfiling, hget]
    exact set_eq_put htarget _ _ _
  have hentry : twins.entry? place ≠ some .directory := by simp [hentry]
  have hanswers : Answers cache [first] second filing.source filing :=
    { read := by
        rw [hafter]
        exact readSource_eq_ok (FileSystem.locate_put_of_ne hentry (by decide) hsecond)
      last := by
        rw [lastFiling?, List.filterMap_cons, hfiling]
        exact List.find?_cons_of_pos (by decide +kernel)
      kept := by
        rw [hafter, hpath]
        exact FileSystem.readText_eq_ok_iff.2 ⟨place, FileSystem.locate_put_of_target htarget⟩
      readable := ⟨nofun, nofun⟩
      digest := rfl }
  refine ⟨hrun, fun hall => ?_⟩
  have hsuits := (Run.forall_isTransparent_iff hrun).1 hall second [first] List.suffix_rfl
    filing.source filing hanswers
  exact absurd hsuits.1 (by decide +kernel)

/-! ## Paths and options that are told apart -/

/-- Whether the digests of what the scans of a run depend on collide only if that is the same. -/
def CollisionFree (scans : List CachedScan) : Prop :=
  ∀ v ∈ scans, ∀ w ∈ scans, ∀ source source',
    readSource v.config v.relative v.fs = .ok source →
    readSource w.config w.relative w.fs = .ok source' →
    entryHash v.config source = entryHash w.config source' →
      keyBytes v.config source = keyBytes w.config source'

/-- With options whose texts can be told apart, only a report of another path is wrong. -/
theorem Run.isTransparent_iff_path (h : Run cache scans fs)
    (hclear : ∀ v ∈ scans, IsClear v.config) (hfree : CollisionFree scans)
    (hsuffix : v :: before <:+ scans) :
    v.IsTransparent cache ↔ ∀ source f, Answers cache before v source f → f.path = v.path := by
  rw [h.isTransparent_iff hsuffix]
  constructor
  · exact fun hall source f hf => (hall source f hf).1
  · intro hall source f hf
    refine ⟨hall source f hf, ?_⟩
    obtain ⟨w, hbefore, hw⟩ := exists_isOf_of_lastFiling? hf.last
    have hvmem : v ∈ scans := hsuffix.subset List.mem_cons_self
    have hwmem : w ∈ scans := hsuffix.subset (List.mem_cons_of_mem v hbefore)
    have hkeys := hfree w hwmem v hvmem f.source source hw.read hf.read (hw.config ▸ hf.digest)
    obtain ⟨hdetects, rfl⟩ := keyBytes_inj (hclear w hwmem) (hclear v hvmem) hkeys
    rw [hw.config]
    exact scanSource_congr hdetects v.path f.source v.repo

/-- A cache is transparent if moreover no two report paths share the name of an entry. -/
theorem Run.isTransparent (h : Run cache scans fs) (hclear : ∀ v ∈ scans, IsClear v.config)
    (hfree : CollisionFree scans)
    (hnames : ∀ v ∈ scans, ∀ w ∈ scans, entryName v.path = entryName w.path → v.path = w.path)
    (hv : v ∈ scans) : v.IsTransparent cache := by
  obtain ⟨later, before, rfl⟩ := List.append_of_mem hv
  have hsuffix : v :: before <:+ later ++ v :: before := List.suffix_append _ _
  refine (h.isTransparent_iff_path hclear hfree hsuffix).2 fun source f hf => ?_
  obtain ⟨w, hbefore, hw⟩ := exists_isOf_of_lastFiling? hf.last
  have hname := entryName_of_lastFiling? hf.last
  rw [hw.path] at hname ⊢
  exact hnames w (hsuffix.subset (List.mem_cons_of_mem v hbefore)) v hv hname

end ReportCache

end ComponentScan
