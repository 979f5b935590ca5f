import ComponentScan.Report.Basic
import Mathlib.Data.List.Forall2
import Mathlib.Data.String.Basic

/-!
# Component tables

What a table answers after an insertion (`ComponentTable.get?_insert`), and that its identities stay
in order (`ComponentTable.IsSorted.insert`). Inserting the entries of a table in order makes the
table again (`foldl_insert_entries`).
-/

namespace ComponentScan.ComponentTable

/-! ## Lookups -/

theorem lookup_cons_eq_ite (id : Identity) (e : Identity × ComponentRecord)
    (entries : List (Identity × ComponentRecord)) :
    (e :: entries).lookup id = if id = e.1 then some e.2 else entries.lookup id := by
  rw [List.lookup_cons]
  by_cases h : id = e.1
  · rw [beq_iff_eq.2 h, if_pos h]
  · rw [beq_eq_false_iff_ne.2 h, if_neg h]

theorem lookup_insertInto (id id' : Identity) (record : ComponentRecord)
    (entries : List (Identity × ComponentRecord)) :
    (insertInto id record entries).lookup id' =
      if id' = id then some record else entries.lookup id' := by
  induction entries with
  | nil => rw [insertInto, lookup_cons_eq_ite]
  | cons e rest ih =>
    obtain ⟨k, r⟩ := e
    rw [insertInto]
    by_cases hk : id = k
    · subst hk
      rw [if_pos rfl, lookup_cons_eq_ite, lookup_cons_eq_ite]
      split <;> rfl
    rw [if_neg hk]
    split
    · rw [lookup_cons_eq_ite]
    · rw [lookup_cons_eq_ite, ih, lookup_cons_eq_ite]
      by_cases h : id' = id
      · subst h
        rw [if_neg hk, if_pos rfl, if_pos rfl]
      · rw [if_neg h, if_neg h]

@[simp] theorem get?_empty (id : Identity) : empty.get? id = none := rfl

theorem get?_insert (t : ComponentTable) (id id' : Identity) (record : ComponentRecord) :
    (t.insert id record).get? id' = if id' = id then some record else t.get? id' :=
  lookup_insertInto id id' record t.entries

theorem mem_insertInto {id : Identity} {record : ComponentRecord}
    {entries : List (Identity × ComponentRecord)} {e : Identity × ComponentRecord}
    (h : e ∈ insertInto id record entries) : e = (id, record) ∨ e ∈ entries := by
  induction entries with
  | nil => exact .inl (List.mem_singleton.1 h)
  | cons e' rest ih =>
    rw [insertInto] at h
    split at h
    · exact (List.mem_cons.1 h).imp_right (List.mem_cons_of_mem _)
    · split at h
      · exact List.mem_cons.1 h
      · rcases List.mem_cons.1 h with h | h
        · exact .inr (h ▸ List.mem_cons_self)
        · exact (ih h).imp_right (List.mem_cons_of_mem _)

/-! ## Tables with related records -/

section

variable {R : ComponentRecord → ComponentRecord → Prop}
  {entries entries' : List (Identity × ComponentRecord)}
  (h : List.Forall₂ (fun e e' => e'.1 = e.1 ∧ R e.2 e'.2) entries entries') (id : Identity)
include h

theorem rel_lookup : Option.Rel R (entries.lookup id) (entries'.lookup id) := by
  induction h with
  | nil => exact .none
  | @cons e e' _ _ he _ ih =>
    rw [lookup_cons_eq_ite, lookup_cons_eq_ite, he.1]
    split
    · exact .some he.2
    · exact ih

theorem forall₂_insertInto {record record' : ComponentRecord} (hrecord : R record record') :
    List.Forall₂ (fun e e' => e'.1 = e.1 ∧ R e.2 e'.2) (insertInto id record entries)
      (insertInto id record' entries') := by
  induction h with
  | nil => exact .cons ⟨rfl, hrecord⟩ .nil
  | @cons e e' _ _ he hrest ih =>
    obtain ⟨key, x⟩ := e
    obtain ⟨key', x'⟩ := e'
    obtain ⟨rfl, hx⟩ := he
    simp only [insertInto]
    split
    · exact .cons ⟨rfl, hrecord⟩ hrest
    · split
      · exact .cons ⟨rfl, hrecord⟩ (.cons ⟨rfl, hx⟩ hrest)
      · exact .cons ⟨rfl, hx⟩ ih

end

/-! ## Order -/

/-- Whether the identities are in order, each once. -/
def IsSorted (t : ComponentTable) : Prop :=
  t.entries.Pairwise (·.1 < ·.1)

theorem isSorted_empty : empty.IsSorted := List.Pairwise.nil

theorem pairwise_insertInto {id : Identity} {record : ComponentRecord}
    {entries : List (Identity × ComponentRecord)} (h : entries.Pairwise (·.1 < ·.1)) :
    (insertInto id record entries).Pairwise (·.1 < ·.1) := by
  induction entries with
  | nil => exact List.pairwise_singleton _ _
  | cons e rest ih =>
    obtain ⟨k, r⟩ := e
    obtain ⟨hlt, hrest⟩ := List.pairwise_cons.1 h
    rw [insertInto]
    by_cases hk : id = k
    · subst hk
      rw [if_pos rfl]
      exact List.pairwise_cons.2 ⟨hlt, hrest⟩
    rw [if_neg hk]
    by_cases hid : id < k
    · rw [if_pos hid]
      refine List.pairwise_cons.2 ⟨fun e' he' => ?_, h⟩
      rcases List.mem_cons.1 he' with rfl | he'
      · exact hid
      · exact lt_trans hid (hlt _ he')
    · rw [if_neg hid]
      refine List.pairwise_cons.2 ⟨fun e' he' => ?_, ih hrest⟩
      rcases mem_insertInto he' with rfl | he'
      · exact lt_of_le_of_ne (not_lt.1 hid) (Ne.symm hk)
      · exact hlt _ he'

theorem IsSorted.insert {t : ComponentTable} (h : t.IsSorted) (id : Identity)
    (record : ComponentRecord) : (t.insert id record).IsSorted :=
  pairwise_insertInto h

theorem IsSorted.mem_entries_iff {t : ComponentTable} (h : t.IsSorted)
    {e : Identity × ComponentRecord} : e ∈ t.entries ↔ t.get? e.1 = some e.2 := by
  obtain ⟨entries⟩ := t
  induction entries with
  | nil => exact ⟨nofun, nofun⟩
  | cons e' rest ih =>
    obtain ⟨hlt, hrest⟩ := List.pairwise_cons.1 h
    have hiff : e ∈ rest ↔ rest.lookup e.1 = some e.2 := ih hrest
    rw [get?, lookup_cons_eq_ite, List.mem_cons]
    by_cases heq : e.1 = e'.1
    · have hnotMem : e ∉ rest := fun hmem => (hlt e hmem).ne' heq
      simp [heq, hnotMem, Prod.ext_iff, eq_comm]
    · have hne : e ≠ e' := fun h => heq (congrArg _ h)
      rw [if_neg heq, ← hiff, or_iff_right hne]

/-- Tables in order are equal when they have the same records. -/
theorem IsSorted.ext {t t' : ComponentTable} (h : t.IsSorted) (h' : t'.IsSorted)
    (hget : ∀ id, t.get? id = t'.get? id) : t = t' := by
  have hperm : t.entries.Perm t'.entries := by
    refine (List.perm_ext_iff_of_nodup (h.imp ?_) (h'.imp ?_)).2 fun e => ?_
    · exact fun hlt heq => hlt.ne (congrArg _ heq)
    · exact fun hlt heq => hlt.ne (congrArg _ heq)
    · rw [h.mem_entries_iff, h'.mem_entries_iff, hget]
  exact congrArg ComponentTable.mk
    (hperm.eq_of_pairwise (fun _ _ _ _ hlt hgt => (hlt.asymm hgt).elim) h h')

theorem insertInto_eq_append {id : Identity} {record : ComponentRecord}
    {entries : List (Identity × ComponentRecord)} (h : ∀ e ∈ entries, e.1 < id) :
    insertInto id record entries = entries ++ [(id, record)] := by
  induction entries with
  | nil => rfl
  | cons e rest ih =>
    have hlt : e.1 < id := h e List.mem_cons_self
    have hrest : ∀ e' ∈ rest, e'.1 < id := fun e' he' => h e' (List.mem_cons_of_mem _ he')
    rw [insertInto, if_neg hlt.ne', if_neg hlt.asymm, ih hrest, List.cons_append]

/-- Entries in order that come after those of a table are appended one by one. -/
theorem foldl_insert (entries before : List (Identity × ComponentRecord))
    (h : (before ++ entries).Pairwise (·.1 < ·.1)) :
    entries.foldl (fun t e => ComponentTable.insert t e.1 e.2) ⟨before⟩ = ⟨before ++ entries⟩ := by
  induction entries generalizing before with
  | nil => simp
  | cons e rest ih =>
    have hlt : ∀ e' ∈ before, e'.1 < e.1 := fun e' he' =>
      (List.pairwise_append.1 h).2.2 e' he' e List.mem_cons_self
    rw [List.foldl_cons, ComponentTable.insert, insertInto_eq_append hlt, ih, List.append_assoc,
      List.singleton_append]
    rwa [List.append_assoc, List.singleton_append]

theorem foldl_insert_entries {t : ComponentTable} (h : t.IsSorted) :
    t.entries.foldl (fun t e => t.insert e.1 e.2) empty = t :=
  foldl_insert t.entries [] h

end ComponentScan.ComponentTable
