import ComponentScan.Proofs.Cache.Keys
import ComponentScan.Proofs.Text.Split

/-!
# Readings of a key

In a key a zero byte closes each text of the options and a one each list, but nothing keeps these
bytes out of the texts, so the bytes of a key may be read in several ways. Exactly one of them is
clear: each key is that of clear options and a source (`exists_isClear_keyBytes_eq`), and of no
others (`keyBytes_inj`). So options are told apart from all clear ones exactly if they are clear
themselves (`isClear_iff_separates`).
-/

namespace ComponentScan.ReportCache

open Text

/-! ## Bytes of characters -/

theorem textBytes_append (s t : String) : textBytes (s ++ t) = textBytes s ++ textBytes t := by
  rw [textBytes_eq, textBytes_eq, textBytes_eq, String.toByteArray_append]
  simp

theorem textBytes_ofList (chars : List Char) :
    textBytes (String.ofList chars) = chars.flatMap String.utf8EncodeChar := by
  rw [textBytes_eq, String.toByteArray_ofList]
  simp [List.utf8Encode]

/-- A byte below 128 stands for the character of its value. -/
theorem toNat_eq_of_mem_utf8EncodeChar {b : UInt8} {c : Char} (h : b ∈ String.utf8EncodeChar c)
    (hb : b.toNat < 128) : c.toNat = b.toNat := by
  have hc : c.toNat = c.val.toNat := rfl
  unfold String.utf8EncodeChar at h
  dsimp only at h
  split at h
  · cases List.mem_singleton.1 h
    rw [hc, UInt8.toNat_ofNat']
    omega
  all_goals
    split at h <;> try split at h
  all_goals
    simp only [List.mem_cons, List.not_mem_nil, or_false] at h
    rcases h with rfl | rfl | rfl | rfl
  all_goals
    rw [UInt8.toNat_ofNat'] at hb
    omega

theorem isClosed_ofList {chars : List Char} (h : '\x00' ∉ chars) : IsClosed (String.ofList chars) := by
  intro hmem
  rw [textBytes_ofList] at hmem
  obtain ⟨c, hc, hbyte⟩ := List.mem_flatMap.1 hmem
  have hzero : c = '\x00' := Char.toNat_inj.1 (toNat_eq_of_mem_utf8EncodeChar hbyte (by decide))
  exact h (hzero ▸ hc)

theorem isItem_ofList {chars : List Char} (h : '\x00' ∉ chars) (hhead : chars.head? ≠ some '\x01') :
    IsItem (String.ofList chars) := by
  refine ⟨isClosed_ofList h, fun hone => ?_⟩
  rw [textBytes_ofList] at hone
  cases chars with
  | nil => cases hone
  | cons c rest =>
    have hmem : (1 : UInt8) ∈ String.utf8EncodeChar c := by
      rw [List.flatMap_cons, List.head?_append_of_ne_nil _ (String.utf8EncodeChar_ne_nil)] at hone
      exact List.mem_of_mem_head? hone
    have hc : c = '\x01' := Char.toNat_inj.1 (toNat_eq_of_mem_utf8EncodeChar hmem (by decide))
    exact hhead (hc ▸ rfl)

/-! ## Lists and a source -/

theorem textBytes_zero : textBytes "\x00" = [0] := by decide +kernel

theorem textBytes_one : textBytes "\x01" = [1] := by decide +kernel

theorem listBytes_cons_append (s : String) (items : List String) (rest : List UInt8) :
    listBytes (s :: items) ++ rest = textBytes s ++ 0 :: (listBytes items ++ rest) := by
  simp [listBytes]

/-- The bytes of lists in front of a source may all belong to the source. -/
theorem exists_textBytes_eq (items : List String) (source : String) :
    ∃ s, listBytes items ++ textBytes source = textBytes s := by
  induction items with
  | nil =>
    refine ⟨"\x01" ++ source, ?_⟩
    rw [textBytes_append, textBytes_one]
    rfl
  | cons item items ih =>
    obtain ⟨rest, hrest⟩ := ih
    refine ⟨item ++ "\x00" ++ rest, ?_⟩
    rw [listBytes_cons_append, hrest, textBytes_append, textBytes_append, textBytes_zero,
      List.append_assoc]
    rfl

/-- Whether bytes can be read as a number of clear lists and a source behind them. -/
inductive HoldsLists : Nat → List UInt8 → Prop
  | source (s : String) : HoldsLists 0 (textBytes s)
  | list {n : Nat} {items : List String} {bytes : List UInt8} (hitems : ∀ s ∈ items, IsItem s)
    (h : HoldsLists n bytes) : HoldsLists (n + 1) (listBytes items ++ bytes)

namespace HoldsLists

variable {n : Nat} {bytes : List UInt8}

theorem exists_source (h : HoldsLists n bytes) : ∃ s, bytes = textBytes s := by
  induction h with
  | source s => exact ⟨s, rfl⟩
  | list _ _ ih =>
    obtain ⟨s, rfl⟩ := ih
    exact exists_textBytes_eq _ s

/-- The last list may as well belong to the source. -/
theorem pred (h : HoldsLists (n + 1) bytes) : HoldsLists n bytes := by
  induction n generalizing bytes with
  | zero =>
    obtain ⟨s, rfl⟩ := h.exists_source
    exact .source s
  | succ n ih =>
    cases h with
    | list hitems h => exact .list hitems (ih h)

/-- An item in front joins the first list. -/
theorem cons {s : String} (hs : IsItem s) (h : HoldsLists (n + 1) bytes) :
    HoldsLists (n + 1) (textBytes s ++ 0 :: bytes) := by
  cases h with
  | list hitems h =>
    rw [← listBytes_cons_append]
    exact .list (List.forall_mem_cons.2 ⟨hs, hitems⟩) h

/-- A one in front closes an empty list, and what follows it has one list less to begin with. -/
theorem close {chars : List Char} (h : HoldsLists (n + 1) bytes)
    (hrest : ∀ m, n = m + 1 → HoldsLists n (textBytes (String.ofList chars) ++ 0 :: bytes)) :
    HoldsLists (n + 1) (textBytes (String.ofList ('\x01' :: chars)) ++ 0 :: bytes) := by
  have hone : textBytes (String.ofList ('\x01' :: chars)) ++ 0 :: bytes =
      listBytes [] ++ (textBytes (String.ofList chars) ++ 0 :: bytes) := by
    rw [textBytes_ofList, textBytes_ofList]
    rfl
  rw [hone]
  refine .list nofun ?_
  cases n with
  | zero =>
    obtain ⟨s, rfl⟩ := h.exists_source
    have hsource := HoldsLists.source (String.ofList chars ++ "\x00" ++ s)
    rw [textBytes_append, textBytes_append, textBytes_zero, List.append_assoc] at hsource
    exact hsource
  | succ n => exact hrest n rfl

/-- Any text can be read in front of the first list: it is cut at its zero bytes, and a one at the
start of a piece closes a list. -/
theorem insert (chars : List Char) (h : HoldsLists (n + 1) bytes) :
    HoldsLists (n + 1) (textBytes (String.ofList chars) ++ 0 :: bytes) := by
  induction hlength : chars.length using Nat.strongRecOn generalizing chars n with
  | ind length ih =>
    subst hlength
    by_cases hhead : chars.head? = some '\x01'
    · obtain ⟨rest, rfl⟩ := List.head?_eq_some_iff.1 hhead
      apply h.close
      rintro m rfl
      exact ih rest.length (Nat.lt_succ_self _) rest h.pred rfl
    · cases hsplit : splitFirst '\x00' chars with
      | none => exact h.cons (isItem_ofList (splitFirst_eq_none_iff.1 hsplit) hhead)
      | some parts =>
        obtain ⟨before, after⟩ := parts
        obtain ⟨rfl, hbefore⟩ := splitFirst_eq_some_iff.1 hsplit
        have hafter := ih after.length (by simp; omega) after h rfl
        have hitem : IsItem (String.ofList before) := by
          refine isItem_ofList hbefore fun hone => hhead ?_
          rw [List.head?_append, hone]
          rfl
        have hcut := hafter.cons hitem
        rw [textBytes_ofList, List.flatMap_append, List.flatMap_cons, List.append_assoc]
        rw [textBytes_ofList, textBytes_ofList] at hcut
        exact hcut

theorem listBytes_append (items : List String) (h : HoldsLists n bytes) :
    HoldsLists (n + 1) (listBytes items ++ bytes) := by
  induction items with
  | nil => exact .list nofun h
  | cons s items ih =>
    rw [listBytes_cons_append, ← String.ofList_toList (s := s)]
    exact ih.insert s.toList

end HoldsLists

/-! ## Clear options -/

theorem keyBytes_eq (config : Config) (source : String) :
    keyBytes config source = textBytes config.crossReferenceTag ++ 0 ::
      (listBytes config.pendingWorkTags ++ (listBytes config.componentBaseClasses ++
        (listBytes config.lazyLoadCallees ++ textBytes source))) := by
  simp [keyBytes]

/-- Clear lists and a source behind a closed tag are the key of clear options. -/
theorem HoldsLists.exists_isClear {tag : String} (htag : IsClosed tag) {bytes : List UInt8}
    (h : HoldsLists 3 bytes) :
    ∃ config source, IsClear config ∧ keyBytes config source = textBytes tag ++ 0 :: bytes := by
  cases h with
  | @list _ pending _ hpending h => cases h with
    | @list _ bases _ hbases h => cases h with
      | @list _ callees _ hcallees h =>
        obtain ⟨source, rfl⟩ := h.exists_source
        let config : Config :=
          { crossReferenceTag := tag, pendingWorkTags := pending, componentBaseClasses := bases,
            lazyLoadCallees := callees }
        exact ⟨config, source, ⟨htag, hpending, hbases, hcallees⟩, keyBytes_eq config source⟩

/-- The bytes of each key can be read as those of clear options and a source. -/
theorem exists_isClear_keyBytes_eq (config : Config) (source : String) :
    ∃ config' source', IsClear config' ∧ keyBytes config' source' = keyBytes config source := by
  have hlists : HoldsLists 3 (listBytes config.pendingWorkTags ++
      (listBytes config.componentBaseClasses ++
        (listBytes config.lazyLoadCallees ++ textBytes source))) :=
    (((HoldsLists.source source).listBytes_append _).listBytes_append _).listBytes_append _
  rw [keyBytes_eq config source, ← String.ofList_toList (s := config.crossReferenceTag)]
  cases hsplit : splitFirst '\x00' config.crossReferenceTag.toList with
  | none => exact hlists.exists_isClear (isClosed_ofList (splitFirst_eq_none_iff.1 hsplit))
  | some parts =>
    -- What follows the first zero byte of the tag is read as items of the first list.
    obtain ⟨before, after⟩ := parts
    obtain ⟨htag, hbefore⟩ := splitFirst_eq_some_iff.1 hsplit
    obtain ⟨config', source', hclear, hkey⟩ :=
      (hlists.insert after).exists_isClear (isClosed_ofList hbefore)
    refine ⟨config', source', hclear, hkey.trans ?_⟩
    rw [htag, textBytes_ofList, textBytes_ofList, textBytes_ofList, List.flatMap_append,
      List.flatMap_cons, List.append_assoc, List.append_assoc]
    rfl

theorem isClear_default : IsClear {} where
  crossReferenceTag := by decide +kernel
  pendingWorkTags := by decide +kernel
  componentBaseClasses := by decide +kernel
  lazyLoadCallees := by decide +kernel

theorem IsClear.of_detectsAs {config config' : Config} (h : IsClear config')
    (hdetects : config.DetectsAs config') : IsClear config where
  crossReferenceTag := hdetects.crossReferenceTag ▸ h.crossReferenceTag
  pendingWorkTags := hdetects.pendingWorkTags ▸ h.pendingWorkTags
  componentBaseClasses := hdetects.componentBaseClasses ▸ h.componentBaseClasses
  lazyLoadCallees := hdetects.lazyLoadCallees ▸ h.lazyLoadCallees

/-- The bytes of a key tell options and source apart from all clear ones exactly if the options are
clear: their tag holds no zero byte, and the items of their lists hold none and have no one at their
start. -/
theorem isClear_iff_separates (config : Config) (source : String) :
    IsClear config ↔ ∀ config' source', IsClear config' →
      keyBytes config source = keyBytes config' source' →
        config.DetectsAs config' ∧ source = source' := by
  constructor
  · intro h config' source' h' heq
    exact keyBytes_inj h h' heq
  · intro hseparates
    obtain ⟨config', source', h', heq⟩ := exists_isClear_keyBytes_eq config source
    obtain ⟨hdetects, -⟩ := hseparates config' source' h' heq.symm
    exact h'.of_detectsAs hdetects

/-- Options with a zero byte between the two default tags of pending work. -/
def runTogether : String :=
  "\x7b\"pendingWorkTags\": [\"todo\\u0000fixme\"]\x7d"

/-- They are read as options with one tag, and have the key of the default options. -/
theorem isClear_iff_separates_runTogether :
    ∃ config, Config.ofJson runTogether = .ok config ∧ config.pendingWorkTags = ["todo\x00fixme"] ∧
      keyBytes config "" = keyBytes {} "" ∧ ¬ IsClear config := by
  let config : Config := { pendingWorkTags := ["todo\x00fixme"] }
  have hkey : keyBytes config "" = keyBytes {} "" := by decide +kernel
  refine ⟨config, by decide +kernel, rfl, hkey, fun h => ?_⟩
  obtain ⟨hdetects, -⟩ := (isClear_iff_separates config "").1 h {} "" isClear_default hkey
  exact absurd hdetects.pendingWorkTags (by decide)

end ComponentScan.ReportCache
