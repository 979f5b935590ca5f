import ComponentScan.Cache
import ComponentScan.Scan.Source
import Mathlib.Data.List.Basic

/-!
# Keys of a cache

The bytes of which a cache takes the digest tell the options and the source apart, unless a text in
the options holds one of the bytes that separate the texts (`ReportCache.keyBytes_inj`). Options
with the same texts detect the same (`scanSource_congr`).
-/

namespace ComponentScan

/-! ## Options -/

namespace Config

/-- Whether two options are the same in all that a scan of a source depends on. -/
structure DetectsAs (config config' : Config) : Prop where
  crossReferenceTag : config.crossReferenceTag = config'.crossReferenceTag
  pendingWorkTags : config.pendingWorkTags = config'.pendingWorkTags
  componentBaseClasses : config.componentBaseClasses = config'.componentBaseClasses
  lazyLoadCallees : config.lazyLoadCallees = config'.lazyLoadCallees

end Config

theorem scanSource_congr {config config' : Config} (h : config.DetectsAs config')
    (path source : String) (repo : RepoMetadata) :
    scanSource config path source repo = scanSource config' path source repo := by
  obtain ⟨root, tag, pending, bases, callees, resolve⟩ := config
  obtain ⟨root', tag', pending', bases', callees', resolve'⟩ := config'
  obtain ⟨rfl, rfl, rfl, rfl⟩ := h
  have hdetectors (s : Session) :
      runDetectors ⟨root, tag, pending, bases, callees, resolve⟩ s detectors =
        runDetectors ⟨root', tag, pending, bases, callees, resolve'⟩ s detectors := rfl
  simp only [scanSource, detect, runScan, hdetectors]

namespace ReportCache

/-! ## Separators -/

/-- Whether a text holds no zero byte, which closes texts. -/
def IsClosed (s : String) : Prop :=
  0 ∉ textBytes s

/-- Whether a text can be told from the end of a list. -/
def IsItem (s : String) : Prop :=
  IsClosed s ∧ (textBytes s).head? ≠ some 1

instance (s : String) : Decidable (IsClosed s) :=
  inferInstanceAs (Decidable (0 ∉ textBytes s))

instance (s : String) : Decidable (IsItem s) :=
  inferInstanceAs (Decidable (IsClosed s ∧ (textBytes s).head? ≠ some 1))

theorem toList_loop (bytes : ByteArray) (i : Nat) (before : List UInt8) :
    ByteArray.toList.loop bytes i before = before.reverse ++ bytes.data.toList.drop i := by
  fun_induction ByteArray.toList.loop bytes i before with
  | case1 i before hi ih =>
    have hlt : i < bytes.data.toList.length := hi
    rw [ih, List.reverse_cons, List.append_assoc, List.singleton_append,
      ← List.getElem_cons_drop hlt]
    simp [ByteArray.get!, getElem!_pos, hi]
  | case2 i before hi =>
    have hle : bytes.data.toList.length ≤ i := Nat.le_of_not_lt hi
    rw [List.drop_eq_nil_of_le hle, List.append_nil]

theorem textBytes_eq (s : String) : textBytes s = s.toByteArray.data.toList :=
  toList_loop s.toByteArray 0 []

theorem textBytes_inj {s t : String} (h : textBytes s = textBytes t) : s = t := by
  rw [textBytes_eq, textBytes_eq] at h
  exact String.toByteArray_inj.1 (ByteArray.ext (Array.toList_inj.1 h))

theorem append_zero_inj {s t rest rest' : List UInt8} (hs : 0 ∉ s) (ht : 0 ∉ t)
    (h : s ++ 0 :: rest = t ++ 0 :: rest') : s = t ∧ rest = rest' := by
  induction s generalizing t with
  | nil =>
    cases t with
    | nil => exact ⟨rfl, (List.cons.inj h).2⟩
    | cons c t => exact absurd ((List.cons.inj h).1 ▸ List.mem_cons_self) ht
  | cons b s ih =>
    cases t with
    | nil => exact absurd ((List.cons.inj h).1 ▸ List.mem_cons_self) hs
    | cons c t =>
      obtain ⟨rfl, htail⟩ := List.cons.inj h
      obtain ⟨rfl, hrest⟩ := ih (fun hm => hs (List.mem_cons_of_mem _ hm))
        (fun hm => ht (List.mem_cons_of_mem _ hm)) htail
      exact ⟨rfl, hrest⟩

theorem listBytes_append_inj {items items' : List String} {rest rest' : List UInt8}
    (hitems : ∀ s ∈ items, IsItem s) (hitems' : ∀ s ∈ items', IsItem s)
    (h : listBytes items ++ rest = listBytes items' ++ rest') : items = items' ∧ rest = rest' := by
  have hend {s : String} (hs : IsItem s) {more rest : List UInt8} :
      1 :: rest ≠ textBytes s ++ 0 :: more := by
    have hhead := hs.2
    intro h
    cases hbytes : textBytes s with
    | nil =>
      rw [hbytes] at h
      exact absurd (List.cons.inj h).1 (by decide)
    | cons b bytes =>
      rw [hbytes] at h hhead
      exact hhead (congrArg some (List.cons.inj h).1.symm)
  have hcons (s : String) (items : List String) (rest : List UInt8) :
      listBytes (s :: items) ++ rest = textBytes s ++ 0 :: (listBytes items ++ rest) := by
    simp [listBytes]
  induction items generalizing items' with
  | nil =>
    cases items' with
    | nil => exact ⟨rfl, (List.cons.inj h).2⟩
    | cons s items' =>
      rw [hcons] at h
      exact absurd h (hend (hitems' s List.mem_cons_self))
  | cons s items ih =>
    cases items' with
    | nil =>
      rw [hcons] at h
      exact absurd h.symm (hend (hitems s List.mem_cons_self))
    | cons s' items' =>
      obtain ⟨hs, hitems⟩ := List.forall_mem_cons.1 hitems
      obtain ⟨hs', hitems'⟩ := List.forall_mem_cons.1 hitems'
      rw [hcons, hcons] at h
      obtain ⟨hbytes, hmore⟩ := append_zero_inj hs.1 hs'.1 h
      obtain ⟨rfl, hrest⟩ := ih hitems hitems' hmore
      exact ⟨by rw [textBytes_inj hbytes], hrest⟩

/-- Whether the texts of options can be told from the bytes that separate them. -/
structure IsClear (config : Config) : Prop where
  crossReferenceTag : IsClosed config.crossReferenceTag
  pendingWorkTags : ∀ s ∈ config.pendingWorkTags, IsItem s
  componentBaseClasses : ∀ s ∈ config.componentBaseClasses, IsItem s
  lazyLoadCallees : ∀ s ∈ config.lazyLoadCallees, IsItem s

theorem keyBytes_inj {config config' : Config} (h : IsClear config) (h' : IsClear config')
    {source source' : String} (heq : keyBytes config source = keyBytes config' source') :
    config.DetectsAs config' ∧ source = source' := by
  unfold keyBytes at heq
  simp only [List.append_assoc, List.cons_append, List.nil_append] at heq
  obtain ⟨htag, heq⟩ := append_zero_inj h.crossReferenceTag h'.crossReferenceTag heq
  obtain ⟨hpending, heq⟩ := listBytes_append_inj h.pendingWorkTags h'.pendingWorkTags heq
  obtain ⟨hbases, heq⟩ := listBytes_append_inj h.componentBaseClasses h'.componentBaseClasses heq
  obtain ⟨hcallees, heq⟩ := listBytes_append_inj h.lazyLoadCallees h'.lazyLoadCallees heq
  exact ⟨⟨textBytes_inj htag, hpending, hbases, hcallees⟩, textBytes_inj heq⟩

end ReportCache

end ComponentScan
