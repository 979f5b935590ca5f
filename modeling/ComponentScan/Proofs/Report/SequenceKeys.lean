import ComponentScan.Proofs.Except
import ComponentScan.Scan.Source
import Mathlib.Data.List.InsertIdx

/-!
# Sequence keys

Annotations are numbered in one pass that keeps a tally of the contents behind it, so each annotation
is given the number of its predecessors of equal content (`assignSequenceKeysFrom_eq_mapIdx`).
Content and key together tell annotations apart (`nodup_assignSequenceKeysFrom`), and numbering is
stable under new annotations, be they put at the end or, with new content, anywhere
(`assignSequenceKeysFrom_append`, `assignSequenceKeysFrom_insertIdx`).
-/

namespace ComponentScan

namespace Annotation

/-- An annotation without its sequence key. -/
def unkeyed (a : Annotation) : Annotation :=
  { a with sequenceKey := none }

/-- The annotation with the key of one that has some predecessors of equal content. -/
def numbered (a : Annotation) (predecessors : Nat) : Annotation :=
  { a with sequenceKey := if predecessors = 0 then none else some predecessors }

@[simp] theorem numbered_zero (a : Annotation) : a.numbered 0 = a.unkeyed := rfl

@[simp] theorem content_numbered (a : Annotation) (n : Nat) : (a.numbered n).content = a.content :=
  rfl

@[simp] theorem unkeyed_numbered (a : Annotation) (n : Nat) : (a.numbered n).unkeyed = a.unkeyed :=
  rfl

@[simp] theorem numbered_unkeyed (a : Annotation) (n : Nat) : a.unkeyed.numbered n = a.numbered n :=
  rfl

theorem sequenceKey_numbered_inj {a b : Annotation} {n m : Nat}
    (h : (a.numbered n).sequenceKey = (b.numbered m).sequenceKey) : n = m := by
  simp only [numbered] at h
  split at h <;> split at h <;> simp_all

end Annotation

open Annotation

/-! ## One pass -/

theorem assignSequenceKeysFrom_cons (seen : Tally) (a : Annotation) (rest : List Annotation) :
    assignSequenceKeysFrom seen (a :: rest) =
      a.numbered (seen.count a.content) :: assignSequenceKeysFrom (seen.add a.content) rest := rfl

/-- Each annotation is numbered by what the tally says at the start and what stands in front. -/
theorem assignSequenceKeysFrom_eq_mapIdx (seen : Tally) (as : List Annotation) :
    assignSequenceKeysFrom seen as = as.mapIdx fun i a =>
      a.numbered (seen.count a.content + (as.take i).countP (·.content = a.content)) := by
  induction as generalizing seen with
  | nil => rfl
  | cons a rest ih =>
    rw [assignSequenceKeysFrom_cons, ih, List.mapIdx_cons]
    congr 2
    funext i b
    rw [Tally.count_add, List.take_succ_cons, List.countP_cons, Nat.add_assoc, Nat.add_comm (ite ..)]
    simp [eq_comm]

theorem assignSequenceKeysFrom_append (seen : Tally) (as bs : List Annotation) :
    assignSequenceKeysFrom seen (as ++ bs) = assignSequenceKeysFrom seen as ++
      assignSequenceKeysFrom (as.foldl (fun t a => t.add a.content) seen) bs := by
  induction as generalizing seen with
  | nil => rfl
  | cons a rest ih => simp [assignSequenceKeysFrom_cons, ih]

/-- What the tally says of contents that do not occur does not matter. -/
theorem assignSequenceKeysFrom_congr {seen seen' : Tally} {as : List Annotation}
    (h : ∀ a ∈ as, seen.count a.content = seen'.count a.content) :
    assignSequenceKeysFrom seen as = assignSequenceKeysFrom seen' as := by
  induction as generalizing seen seen' with
  | nil => rfl
  | cons a rest ih =>
    obtain ⟨ha, hrest⟩ := List.forall_mem_cons.1 h
    rw [assignSequenceKeysFrom_cons, assignSequenceKeysFrom_cons, ha]
    refine congrArg _ (ih fun b hb => ?_)
    rw [Tally.count_add, Tally.count_add, hrest b hb]

/-- An annotation of new content goes without a key between those that have theirs. -/
theorem assignSequenceKeysFrom_insertIdx {seen : Tally} {a : Annotation} {as : List Annotation}
    (hseen : seen.count a.content = 0) (h : ∀ b ∈ as, b.content ≠ a.content) (i : Nat) :
    assignSequenceKeysFrom seen (as.insertIdx i a) =
      (assignSequenceKeysFrom seen as).insertIdx i a.unkeyed := by
  induction as generalizing seen i with
  | nil =>
    cases i with
    | zero => simp [assignSequenceKeysFrom_cons, assignSequenceKeysFrom, hseen]
    | succ i => rfl
  | cons b rest ih =>
    obtain ⟨hb, hrest⟩ := List.forall_mem_cons.1 h
    cases i with
    | zero =>
      have hcongr : assignSequenceKeysFrom (seen.add a.content) (b :: rest) =
          assignSequenceKeysFrom seen (b :: rest) :=
        assignSequenceKeysFrom_congr fun c hc => by simp [h c hc]
      rw [List.insertIdx_zero, List.insertIdx_zero, assignSequenceKeysFrom_cons, hcongr, hseen,
        numbered_zero]
    | succ i =>
      have hseen' : (seen.add b.content).count a.content = 0 := by simp [hseen, hb.symm]
      rw [List.insertIdx_succ_cons, assignSequenceKeysFrom_cons, assignSequenceKeysFrom_cons,
        List.insertIdx_succ_cons, ih hseen' hrest]

/-! ## What depends on keys -/

/-- Sequence keys do not change what does not depend on them. -/
theorem map_assignSequenceKeys {α : Type} {f : Annotation → α}
    (hf : ∀ a key, f { a with sequenceKey := key } = f a) (as : List Annotation) :
    (assignSequenceKeys as).map f = as.map f := by
  have hmap (seen : Tally) : (assignSequenceKeysFrom seen as).map f = as.map f := by
    induction as generalizing seen with
    | nil => rfl
    | cons a rest ih => rw [assignSequenceKeysFrom, List.map_cons, List.map_cons, ih, hf]
  exact hmap {}

/-- Annotations are numbered by what they say. -/
theorem assignSequenceKeys_map_unkeyed (as : List Annotation) :
    assignSequenceKeys (as.map Annotation.unkeyed) = assignSequenceKeys as := by
  have hfrom (seen : Tally) :
      assignSequenceKeysFrom seen (as.map unkeyed) = assignSequenceKeysFrom seen as := by
    induction as generalizing seen with
    | nil => rfl
    | cons a rest ih =>
      rw [List.map_cons, assignSequenceKeysFrom_cons, ih]
      rfl
  exact hfrom {}

theorem assignSequenceKeys_assignSequenceKeys (as : List Annotation) :
    assignSequenceKeys (assignSequenceKeys as) = assignSequenceKeys as := by
  rw [← assignSequenceKeys_map_unkeyed (assignSequenceKeys as),
    map_assignSequenceKeys fun _ _ => rfl, assignSequenceKeys_map_unkeyed]

/-! ## Contents and keys -/

/-- No annotation has the key of one that the tally has counted. -/
theorem exists_numbered_of_mem {seen : Tally} {as : List Annotation} {b : Annotation}
    (h : b ∈ assignSequenceKeysFrom seen as) :
    ∃ (a : Annotation) (n : Nat), b = a.numbered n ∧ seen.count b.content ≤ n := by
  rw [assignSequenceKeysFrom_eq_mapIdx, List.mem_mapIdx] at h
  obtain ⟨i, hi, rfl⟩ := h
  exact ⟨_, _, rfl, Nat.le_add_right _ _⟩

theorem nodup_assignSequenceKeysFrom (seen : Tally) (as : List Annotation) :
    ((assignSequenceKeysFrom seen as).map fun a => (a.content, a.sequenceKey)).Nodup := by
  induction as generalizing seen with
  | nil => exact .nil
  | cons a rest ih =>
    rw [assignSequenceKeysFrom_cons, List.map_cons]
    refine List.nodup_cons.2 ⟨fun hmem => ?_, ih _⟩
    obtain ⟨b, hb, heq⟩ := List.mem_map.1 hmem
    obtain ⟨hcontent, hkey⟩ := Prod.mk.inj heq
    obtain ⟨c, n, rfl, hle⟩ := exists_numbered_of_mem hb
    have hn : n = seen.count a.content := sequenceKey_numbered_inj hkey
    rw [hcontent, content_numbered, Tally.count_add, if_pos rfl] at hle
    omega

/-- Keys count annotations that stand in front. -/
theorem lt_length_of_mem_sequenceKey {as : List Annotation} {a : Annotation} {key : Nat}
    (h : a ∈ assignSequenceKeys as) (hkey : key ∈ a.sequenceKey) : key < as.length := by
  rw [assignSequenceKeys, assignSequenceKeysFrom_eq_mapIdx, List.mem_mapIdx] at h
  obtain ⟨i, hi, rfl⟩ := h
  simp only [numbered, Tally.count_empty, Nat.zero_add, Option.mem_def,
    Option.ite_none_left_eq_some, Option.some.injEq] at hkey
  calc key = (as.take i).countP (·.content = as[i].content) := hkey.2.symm
    _ ≤ (as.take i).length := List.countP_le_length
    _ ≤ i := List.length_take_le i as
    _ < as.length := hi

/-- An annotation is given the number of annotations of equal content in front of it, or no key if
there is none, whatever key it had, and nothing else of it changes. So in a report content and key
tell annotations apart; numbering again changes nothing, nor do annotations that come behind, and
one of new content may be put anywhere. -/
theorem assignSequenceKeys_eq_count :
    (∀ as : List Annotation, assignSequenceKeys as = as.mapIdx fun i a =>
      let earlier := (as.take i).countP (·.content = a.content)
      { a with sequenceKey := if earlier = 0 then none else some earlier }) ∧
    (∀ config path source repo report, scanSource config path source repo = .ok report →
      (report.annotations.map fun a => (a.content, a.sequenceKey)).Nodup) ∧
    (∀ as : List Annotation, ((assignSequenceKeys as).map fun a => (a.content, a.sequenceKey)).Nodup ∧
      assignSequenceKeys (assignSequenceKeys as) = assignSequenceKeys as) ∧
    (∀ as bs : List Annotation, assignSequenceKeys as <+: assignSequenceKeys (as ++ bs)) ∧
    ∀ (as : List Annotation) (i : Nat) (a : Annotation), (∀ b ∈ as, b.content ≠ a.content) →
      assignSequenceKeys (as.insertIdx i a) =
        (assignSequenceKeys as).insertIdx i { a with sequenceKey := none } := by
  refine ⟨fun as => ?_, fun config path source repo report h => ?_, fun as => ⟨?_, ?_⟩,
    fun as bs => ?_, fun as i a h => ?_⟩
  · rw [assignSequenceKeys, assignSequenceKeysFrom_eq_mapIdx]
    simp only [Tally.count_empty, Nat.zero_add]
    rfl
  · unfold scanSource at h
    obtain ⟨s, -, h⟩ := ok_bind_iff.1 h
    split at h
    · cases h
    · cases h
      exact nodup_assignSequenceKeysFrom _ _
  · exact nodup_assignSequenceKeysFrom _ _
  · exact assignSequenceKeys_assignSequenceKeys as
  · rw [assignSequenceKeys, assignSequenceKeys, assignSequenceKeysFrom_append]
    exact List.prefix_append _ _
  · exact assignSequenceKeysFrom_insertIdx rfl h i

/-- A component with a note on it that is written three times, another note among them. -/
def repeated : String :=
  "/** @todo sort it\n * @todo sort it\n * @todo fetch it\n * @todo sort it */\n" ++
    "export function List() \x7b return <ul/>; \x7d\n"

def repeatedReport : ScanReport :=
  ((scanSource {} "src/a.tsx" repeated .placeholder).toOption).getD default

/-- A note on another component, with a key that it should not have. -/
def noteElsewhere : Annotation :=
  ⟨⟨"src/a.tsx", 9, 9⟩, "sort it", "src/a.tsx:Table", some 7, none⟩

theorem assignSequenceKeys_eq_count_repeated :
    scanSource {} "src/a.tsx" repeated .placeholder = .ok repeatedReport ∧
      repeatedReport.annotations.map (fun a => (a.text, a.sequenceKey)) =
        [("sort it", none), ("sort it", some 1), ("fetch it", none), ("sort it", some 2)] ∧
      (repeatedReport.annotations.map fun a => (a.content, a.sequenceKey)).Nodup ∧
      (∀ b ∈ repeatedReport.annotations, b.content ≠ noteElsewhere.content) ∧
      assignSequenceKeys (repeatedReport.annotations.insertIdx 1 noteElsewhere) =
        (assignSequenceKeys repeatedReport.annotations).insertIdx 1
          { noteElsewhere with sequenceKey := none } := by
  have htext : repeated.toList = _ := String.toList_append.trans
    (congrArg₂ (· ++ ·) String.toList_ofList String.toList_ofList)
  obtain ⟨hscan, hkeys, hnew⟩ :
      (scanSource {} "src/a.tsx" repeated .placeholder).toOption.isSome = true ∧
      repeatedReport.annotations.map (fun a => (a.text, a.sequenceKey)) =
        [("sort it", none), ("sort it", some 1), ("fetch it", none), ("sort it", some 2)] ∧
      ∀ b ∈ repeatedReport.annotations, b.content ≠ noteElsewhere.content := by
    rw [repeatedReport, scanSource, Session.ofSource, htext]
    decide +kernel
  replace hscan : scanSource {} "src/a.tsx" repeated .placeholder = .ok repeatedReport :=
    eq_ok_getD hscan
  obtain ⟨-, hnodup, -, -, hinsert⟩ := assignSequenceKeys_eq_count
  exact ⟨hscan, hkeys, hnodup _ _ _ _ _ hscan, hnew, hinsert _ 1 _ hnew⟩

end ComponentScan
