import ComponentScan.Proofs.Report.Table
import ComponentScan.Proofs.Scan.Move

/-!
# Reports alike

Reports are alike if they have records of the same components, the same of which are defined, and
the same exports. Events that differ by what does not decide about these make reports alike
(`ScanReport.alike_reportOf`).
-/

namespace ComponentScan

/-- Whether records are of one component, and both or neither defines it. -/
def SameRecord (e e' : Identity × ComponentRecord) : Prop :=
  e'.1 = e.1 ∧ e'.2.asDefined?.isSome = e.2.asDefined?.isSome

namespace ComponentTable

theorem sameRecord_insertInto {entries entries' : List (Identity × ComponentRecord)}
    (h : List.Forall₂ SameRecord entries entries') (id : Identity) {record record' : ComponentRecord}
    (hrecord : record'.asDefined?.isSome = record.asDefined?.isSome) :
    List.Forall₂ SameRecord (insertInto id record entries) (insertInto id record' entries') :=
  forall₂_insertInto (R := fun x x' => x'.asDefined?.isSome = x.asDefined?.isSome) h id hrecord

theorem isSome_lookup {entries entries' : List (Identity × ComponentRecord)}
    (h : List.Forall₂ SameRecord entries entries') (id : Identity) :
    (entries'.lookup id).isSome = (entries.lookup id).isSome ∧
      ((entries'.lookup id).bind ComponentRecord.asDefined?).isSome =
        ((entries.lookup id).bind ComponentRecord.asDefined?).isSome := by
  have hrel := rel_lookup (R := fun x x' => x'.asDefined?.isSome = x.asDefined?.isSome) h id
  generalize entries.lookup id = x, entries'.lookup id = x' at hrel ⊢
  cases hrel with
  | none => exact ⟨rfl, rfl⟩
  | some hx => exact ⟨rfl, hx⟩

end ComponentTable

namespace ScanReport

/-- Whether reports have the same exports and records of the same components, the same of which are
defined. -/
structure Alike (r r' : ScanReport) : Prop where
  exports : r'.exports = r.exports
  records : List.Forall₂ SameRecord r.components.entries r'.components.entries

/-- The identities of the components. -/
def keys (r : ScanReport) : List Identity :=
  r.components.entries.map (·.1)

namespace Alike

variable {r r' : ScanReport} (h : r.Alike r')
include h

theorem keys_eq : r'.keys = r.keys := by
  have hmap {l l' : List (Identity × ComponentRecord)} (hl : List.Forall₂ SameRecord l l') :
      l'.map (·.1) = l.map (·.1) := by
    induction hl with
    | nil => rfl
    | cons hfirst _ ih => rw [List.map_cons, List.map_cons, hfirst.1, ih]
  exact hmap h.records

theorem isSome_get? (id : Identity) :
    (r'.components.get? id).isSome = (r.components.get? id).isSome :=
  (ComponentTable.isSome_lookup h.records id).1

theorem isSome_defined? (id : Identity) : (r'.defined? id).isSome = (r.defined? id).isSome :=
  (ComponentTable.isSome_lookup h.records id).2

theorem insert (id : Identity) {record record' : ComponentRecord}
    (hrecord : record'.asDefined?.isSome = record.asDefined?.isSome) :
    Alike { r with components := r.components.insert id record }
      { r' with components := r'.components.insert id record' } :=
  ⟨h.exports, ComponentTable.sameRecord_insertInto h.records id hrecord⟩

theorem markExported (id : Identity) : (r.markExported id).Alike (r'.markExported id) := by
  unfold ScanReport.markExported
  rw [h.exports]
  split
  · exact h
  · exact ⟨rfl, h.records⟩

theorem define (id : Identity) (c c' : DefinedComponent) :
    (r'.define id c').1 = (r.define id c).1 ∧ (r.define id c).2.Alike (r'.define id c').2 := by
  have hdefined := h.isSome_defined? id
  unfold ScanReport.define
  cases hr : r.defined? id with
  | some x =>
    rw [hr, Option.isSome_some, Option.isSome_iff_exists] at hdefined
    obtain ⟨y, hr'⟩ := hdefined
    rw [hr']
    exact ⟨rfl, h⟩
  | none =>
    rw [hr, Option.isSome_none, Option.isSome_eq_false_iff, Option.isNone_iff_eq_none] at hdefined
    rw [hdefined]
    exact ⟨rfl, h.insert id rfl⟩

theorem reference (id : Identity) (c c' : ReferencedComponent) :
    (r.reference id c).2.Alike (r'.reference id c').2 := by
  have hget := h.isSome_get? id
  unfold ScanReport.reference
  cases hr : r.components.get? id with
  | some x =>
    rw [hr, Option.isSome_some, Option.isSome_iff_exists] at hget
    obtain ⟨y, hr'⟩ := hget
    rw [hr']
    exact h
  | none =>
    rw [hr, Option.isSome_none, Option.isSome_eq_false_iff, Option.isNone_iff_eq_none] at hget
    rw [hget]
    exact h.insert id rfl

theorem updateDefined (id : Identity) (g : DefinedComponent → DefinedComponent) :
    (r.updateDefined id g).Alike (r'.updateDefined id g) := by
  have hdefined := h.isSome_defined? id
  unfold ScanReport.updateDefined
  cases hr : r.defined? id with
  | some x =>
    rw [hr, Option.isSome_some, Option.isSome_iff_exists] at hdefined
    obtain ⟨y, hr'⟩ := hdefined
    rw [hr']
    exact h.insert id rfl
  | none =>
    rw [hr, Option.isSome_none, Option.isSome_eq_false_iff, Option.isNone_iff_eq_none] at hdefined
    rw [hdefined]
    exact h

theorem take {f : Nat → Nat} {e e' : Event} (he : Event.Moved f e e') :
    (r.take e).Alike (r'.take e') := by
  cases he with
  | @define id c c' hexported =>
    obtain ⟨hstored, hreport⟩ := h.define id c c'
    simp only [ScanReport.take, takeDefinition, hexported, hstored]
    split
    · exact hreport.markExported id
    · exact hreport
  | reference id c c' => exact h.reference id c c'
  | annotate a a' => exact ⟨h.exports, h.records⟩
  | claim => exact h
  | «alias» => exact h

theorem takeAll {f : Nat → Nat} {events events' : List Event}
    (hevents : List.Forall₂ (Event.Moved f) events events') :
    (r.takeAll events).Alike (r'.takeAll events') := by
  induction hevents generalizing r r' with
  | nil => exact h
  | cons he _ ih => exact ih (h.take he)

theorem applyAliases (aliases : List (Identity × String)) :
    (aliases.foldl ScanReport.applyAlias r).Alike (aliases.foldl ScanReport.applyAlias r') := by
  induction aliases generalizing r r' with
  | nil => exact h
  | cons a aliases ih =>
    refine ih ?_
    unfold ScanReport.applyAlias
    rw [h.isSome_defined?]
    split
    · exact (h.updateDefined a.1 _).markExported a.1
    · exact h

end Alike

theorem alias?_of_moved {f : Nat → Nat} {events events' : List Event}
    (hevents : List.Forall₂ (Event.Moved f) events events') :
    events'.filterMap Event.alias? = events.filterMap Event.alias? := by
  induction hevents with
  | nil => rfl
  | cons hfirst _ ih =>
    cases hfirst with
    | «alias» id exported => exact congrArg ((id, exported) :: ·) ih
    | _ => exact ih

theorem alike_reportOf {f : Nat → Nat} {events events' : List Event}
    (hevents : List.Forall₂ (Event.Moved f) events events') (path : String) (repo : RepoMetadata) :
    (reportOf path repo events).Alike (reportOf path repo events') := by
  have hfresh : (fresh path repo).Alike (fresh path repo) := ⟨rfl, .nil⟩
  have htaken := (hfresh.takeAll hevents).applyAliases (events.filterMap Event.alias?)
  unfold reportOf
  rw [alias?_of_moved hevents]
  exact ⟨htaken.exports, htaken.records⟩

end ScanReport

end ComponentScan
