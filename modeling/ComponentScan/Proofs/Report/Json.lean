import ComponentScan.Proofs.Except
import ComponentScan.Proofs.Json.Reading
import ComponentScan.Proofs.Location
import ComponentScan.Proofs.Report.Table
import ComponentScan.Report.Json
import Mathlib.Tactic.Tauto

/-!
# Reports read back

A report whose components are sorted and whose locations have their lines in order is read back from
its JSON form as it is, if it is read at all (`ScanReport.decode_reread_encode`); and it is read if
its locations can be written and its sequence keys are below the bound.
-/

namespace ComponentScan

namespace Json

/-- A text is decoded as the value that is read back from it. -/
theorem decodeText_text {α : Type} (decode : Value → Decoded α) (v : Value) :
    decodeText decode v.text = decode v.reread := by
  unfold decodeText
  rw [read_text]
  exact bind_pure (decode v.reread)

namespace Value

@[simp] theorem reread_string (s : String) : (string s).reread = string s := rfl

@[simp] theorem reread_null : null.reread = null := rfl

@[simp] theorem reread_array_map {α : Type} (encode : α → Value) (l : List α) :
    (array (l.map encode)).reread = array (l.map fun a => (encode a).reread) := by
  rw [reread, rereadItems_eq_map, List.map_map]
  rfl

/-- What is read of a printed member. -/
def rereadMember (m : String × Value) : String × Value :=
  (m.1, m.2.reread)

@[simp] theorem rereadMember_mk (k : String) (v : Value) : rereadMember (k, v) = (k, v.reread) := rfl

@[simp] theorem reread_object (members : List (String × Value)) :
    (object members).reread = object (members.map rereadMember) := by
  rw [reread, rereadMembers_eq_map]
  rfl

theorem tooLarge_eq_false {digits : List Char} (h : digits.length < maxExponent) :
    tooLarge digits digits.length = false := by
  have hlt : (digits.length : Int) -
      (digits.length - (digits.dropWhile (· == '0')).length : Nat) < maxExponent := by omega
  simp [tooLarge, hlt, Int.le_of_lt hlt]

theorem reread_natural {n : Nat} (h : n < wordBound) : (natural n).reread = natural n := by
  have hdigits := Text.Decimal.length_digits_le (k := 10) (by decide) (Nat.lt_trans h (by decide))
  rw [reread, tooLarge_eq_false (Nat.lt_of_le_of_lt hdigits (by decide)), if_neg Bool.false_ne_true]

theorem asWord_reread_natural (n m : Nat) :
    asWord (natural n).reread = .ok m ↔ n < wordBound ∧ m = n := by
  by_cases h : n < wordBound
  · simp [reread_natural h, asWord, h, eq_comm]
  · rw [reread]
    split <;> simp [asWord, mismatch, h]

@[simp] theorem asOption_null {α : Type} (decode : Value → Decoded α) :
    asOption decode null = .ok none := rfl

theorem asOption_eq_ok_iff {α : Type} {decode : Value → Decoded α} {v : Value} (h : v ≠ null)
    (a : Option α) : asOption decode v = .ok a ↔ ∃ b, decode v = .ok b ∧ a = some b := by
  rw [asOption]
  · cases decode v <;> simp [Functor.map, Except.map, eq_comm]
  · exact h

theorem reread_natural_ne_null (n : Nat) : (natural n).reread ≠ null := by
  rw [reread]
  split <;> nofun

/-- Items that are decoded one by one are decoded as a list. -/
theorem asList_eq_ok_iff {α : Type} {decode : Value → Decoded α} {encode : α → Value}
    (good : α → Prop) {l : List α}
    (h : ∀ a ∈ l, ∀ a', decode (encode a) = .ok a' ↔ good a ∧ a' = a) (l' : List α) :
    asList decode (array (l.map encode)) = .ok l' ↔ (∀ a ∈ l, good a) ∧ l' = l := by
  rw [asList]
  induction l generalizing l' with
  | nil => simp [pure, Except.pure, eq_comm]
  | cons a l ih =>
    have hl := ih fun b hb => h b (List.mem_cons_of_mem _ hb)
    simp only [List.map_cons, List.mapM_cons, ok_bind_iff, h a List.mem_cons_self, hl, pure,
      Except.pure, Except.ok.injEq]
    constructor
    · rintro ⟨_, ⟨ha, rfl⟩, _, ⟨hgood, rfl⟩, rfl⟩
      exact ⟨List.forall_mem_cons.2 ⟨ha, hgood⟩, rfl⟩
    · rintro ⟨hgood, rfl⟩
      obtain ⟨ha, hgood⟩ := List.forall_mem_cons.1 hgood
      exact ⟨a, ⟨ha, rfl⟩, l, ⟨hgood, rfl⟩, rfl⟩

theorem asStrings_eq_ok_iff (l l' : List String) :
    asList asString (array (l.map string)) = .ok l' ↔ l' = l := by
  rw [asList_eq_ok_iff fun _ => True]
  · simp
  · simp [asString, eq_comm]

/-! ### Fields -/

/-- A member of a new name is taken if its value passes the check of its field. -/
theorem takeMember_eq_ok_iff {schema : Schema} {fields f : Fields} {name : String} {v : Value}
    {check : Value → Decoded Unit} (hcheck : schema.lookup name = some check)
    (hname : name ∉ fields.map (·.1)) :
    takeMember schema fields name v = .ok f ↔ check v = .ok () ∧ f = (name, v) :: fields := by
  have hnew : fields.lookup name = none := by
    rw [List.lookup_eq_none_iff]
    exact fun m hm => bne_iff_ne.2 fun heq => hname (List.mem_map.2 ⟨m, hm, heq.symm⟩)
  unfold takeMember
  rw [hcheck]
  dsimp only
  rw [hnew, Option.isSome_none, if_neg Bool.false_ne_true]
  constructor
  · intro h
    obtain ⟨_, hpass, h⟩ := ok_bind_iff.1 h
    exact ⟨hpass, (ok_pure_iff.1 h).symm⟩
  · rintro ⟨hpass, rfl⟩
    rw [hpass]
    rfl

/-- Members of different names that are fields are all taken, the last one first. -/
theorem foldlM_takeMember_eq_ok_iff {schema : Schema} {members fields f : Fields}
    (hfields : ∀ m ∈ members, (schema.lookup m.1).isSome = true)
    (hnames : (members.map (·.1)).Nodup)
    (hnew : ∀ m ∈ members, m.1 ∉ fields.map (·.1)) :
    members.foldlM (fun fields m => takeMember schema fields m.1 m.2) fields = .ok f ↔
      (∀ m ∈ members, ∀ check ∈ schema.lookup m.1, check m.2 = .ok ()) ∧
        f = members.reverse ++ fields := by
  induction members generalizing fields with
  | nil => simp [pure, Except.pure, eq_comm]
  | cons m members ih =>
    obtain ⟨hm, hfields⟩ := List.forall_mem_cons.1 hfields
    obtain ⟨hnotMem, hnames⟩ := List.nodup_cons.1 hnames
    obtain ⟨hnewFirst, hnew⟩ := List.forall_mem_cons.1 hnew
    obtain ⟨check, hcheck⟩ := Option.isSome_iff_exists.1 hm
    have hnew' : ∀ m' ∈ members, m'.1 ∉ (m :: fields).map (·.1) := fun m' hm' hmem => by
      rcases List.mem_cons.1 hmem with heq | hmem
      · exact hnotMem (heq ▸ List.mem_map_of_mem hm')
      · exact hnew m' hm' hmem
    rw [List.foldlM_cons, List.forall_mem_cons, List.reverse_cons, List.append_assoc]
    simp only [ok_bind_iff, takeMember_eq_ok_iff hcheck hnewFirst, hcheck]
    constructor
    · rintro ⟨_, ⟨hpass, rfl⟩, h⟩
      obtain ⟨hrest, rfl⟩ := (ih hfields hnames hnew').1 h
      exact ⟨⟨fun _ h => Option.some.inj h ▸ hpass, hrest⟩, rfl⟩
    · rintro ⟨⟨hpass, hrest⟩, rfl⟩
      exact ⟨_, ⟨hpass check rfl, rfl⟩, (ih hfields hnames hnew').2 ⟨hrest, rfl⟩⟩

section

variable {α : Type} {schema : Schema} (hschema : (schema.map (·.1)).Nodup) {members : Fields}
  (hmembers : (members.map (·.1)).Sublist (schema.map (·.1))) {k : Fields → Decoded α} {a : α}
include hschema hmembers

/-- Members that are fields in their declared order are read if their values pass. -/
theorem bind_takeMember_eq_ok_iff :
    members.foldlM (fun fields m => takeMember schema fields m.1 m.2) [] >>= k = .ok a ↔
      (∀ m ∈ members, ∀ check ∈ schema.lookup m.1, check m.2 = .ok ()) ∧
        k members.reverse = .ok a := by
  have hfields (m : String × Value) (hm : m ∈ members) : (schema.lookup m.1).isSome = true := by
    obtain ⟨e, he, hname⟩ := List.mem_map.1 (hmembers.subset (List.mem_map_of_mem hm))
    rw [List.lookup_isSome_iff]
    exact ⟨e, he, beq_iff_eq.2 hname.symm⟩
  have hnew : ∀ m ∈ members, m.1 ∉ ([] : Fields).map (·.1) := fun _ _ => List.not_mem_nil
  have htake (f : Fields) := foldlM_takeMember_eq_ok_iff (f := f) hfields
    (hmembers.nodup hschema) hnew
  rw [List.append_nil] at htake
  rw [ok_bind_iff]
  constructor
  · rintro ⟨f, hf, hk⟩
    obtain ⟨hpass, rfl⟩ := (htake f).1 hf
    exact ⟨hpass, hk⟩
  · rintro ⟨hpass, hk⟩
    exact ⟨_, (htake _).2 ⟨hpass, rfl⟩, hk⟩

theorem bind_asFields_eq_ok_iff {required : Nat} :
    asFields schema required (object members) >>= k = .ok a ↔
      (∀ m ∈ members, ∀ check ∈ schema.lookup m.1, check m.2 = .ok ()) ∧
        k members.reverse = .ok a :=
  bind_takeMember_eq_ok_iff hschema hmembers

end

end Value

end Json

open Json Value

/-! ## Locations of records -/

def DefinedComponent.locations (c : DefinedComponent) : List SourceLocation :=
  [c.sourceLocation, c.description.sourceLocation]

/-- The place where a referenced component is defined is no location, but text. -/
def ComponentRecord.locations : ComponentRecord → List SourceLocation
  | defined c => c.locations
  | referenced _ => []

def Annotation.locations (a : Annotation) : List SourceLocation :=
  a.sourceLocation :: (a.crossReference.map (·.sourceLocation)).toList

/-- The locations in a report. -/
def ScanReport.locations (r : ScanReport) : List SourceLocation :=
  r.components.entries.flatMap (·.2.locations) ++ r.annotations.flatMap (·.locations)

/-! ## Records -/

theorem SourceLocation.decode_reread_encode {l : SourceLocation} (h : l.IsOrdered)
    (l' : SourceLocation) : decode l.encode.reread = .ok l' ↔ l.IsWritable ∧ l' = l := by
  rw [← parse_text_eq_ok_iff h, encode, reread_string, decode]
  simp only [asString, bind, Except.bind]
  cases parse l.text <;> simp [pure, Except.pure, throw, throwThe, MonadExceptOf.throw]

theorem RepoMetadata.decode_reread_encode (r r' : RepoMetadata) :
    decode r.encode.reread = .ok r' ↔ r' = r := by
  rw [eq_comm (a := r'), encode, reread_object, decode,
    bind_asFields_eq_ok_iff (by decide) (.refl _)]
  simp [members, schema, field, ok_bind_iff, asString, Fields.get, List.lookup_cons, pure,
    Except.pure, Except.map]

theorem SymbolDescriptor.decode_reread_encode {d : SymbolDescriptor}
    (h : d.sourceLocation.IsOrdered) (d' : SymbolDescriptor) :
    decode d.encode.reread = .ok d' ↔ d.sourceLocation.IsWritable ∧ d' = d := by
  have hlocation := SourceLocation.decode_reread_encode h
  obtain ⟨path, location, name, documentation, signature⟩ := d
  rw [eq_comm (a := d'), encode, reread_object, decode,
    bind_asFields_eq_ok_iff (by decide) (.refl _)]
  cases signature <;>
    simp [encodeOption, schema, field, ok_bind_iff, ok_map_iff, asString, asOption, Fields.get,
      Fields.getD, List.lookup_cons, pure, Except.pure, hlocation]

theorem DefinedComponent.decode_reread_members {c : DefinedComponent}
    (h : ∀ l ∈ c.locations, l.IsOrdered) (c' : DefinedComponent) :
    decode (object c.members).reread = .ok c' ↔ (∀ l ∈ c.locations, l.IsWritable) ∧ c' = c := by
  simp only [locations, List.mem_cons, List.not_mem_nil, or_false, forall_eq_or_imp, forall_eq]
    at h ⊢
  have hlocation := SourceLocation.decode_reread_encode h.1
  have hdescription := SymbolDescriptor.decode_reread_encode h.2
  obtain ⟨name, location, exported, references, description⟩ := c
  rw [eq_comm (a := c'), reread_object, decode, bind_asFields_eq_ok_iff (by decide) (.refl _)]
  cases exported <;>
    simp [members, encodeOption, schema, field, ok_bind_iff, ok_map_iff, asString, asOption,
      asStrings_eq_ok_iff, Fields.get, Fields.getD, List.lookup_cons, pure, Except.pure, hlocation,
      hdescription]
  all_goals tauto

theorem ReferencedComponent.decode_reread_members (c c' : ReferencedComponent) :
    decode (object c.members).reread = .ok c' ↔ c' = c := by
  rw [eq_comm (a := c'), reread_object, decode, bind_asFields_eq_ok_iff (by decide) (.refl _)]
  simp [members, schema, field, ok_bind_iff, asString, Fields.get, List.lookup_cons, pure,
    Except.pure, Except.map]

theorem CrossReference.decode_reread_encode {x : CrossReference}
    (h : x.sourceLocation.IsOrdered) (x' : CrossReference) :
    decode x.encode.reread = .ok x' ↔ x.sourceLocation.IsWritable ∧ x' = x := by
  have hlocation := SourceLocation.decode_reread_encode h
  obtain ⟨text, location, parent, permalink⟩ := x
  rw [eq_comm (a := x'), encode, reread_object, decode]
  cases permalink <;>
    rw [bind_asFields_eq_ok_iff (by decide) (List.isSublist_iff_sublist.1 rfl)] <;>
    simp [encodeMember, schema, field, ok_bind_iff, ok_map_iff, asString, asOption, Fields.get,
      Fields.getD, List.lookup_cons, pure, Except.pure, hlocation]

/-- Whether an annotation is read back: its locations can be written, and its key has a field. -/
structure Annotation.IsWritable (a : Annotation) : Prop where
  locations : ∀ l ∈ a.locations, l.IsWritable
  sequenceKey : ∀ k ∈ a.sequenceKey, k < wordBound

theorem Annotation.decode_reread_encode {a : Annotation} (h : ∀ l ∈ a.locations, l.IsOrdered)
    (a' : Annotation) : decode a.encode.reread = .ok a' ↔ a.IsWritable ∧ a' = a := by
  have hwritable : a.IsWritable ↔
      (∀ l ∈ a.locations, l.IsWritable) ∧ ∀ k ∈ a.sequenceKey, k < wordBound :=
    ⟨fun h => ⟨h.1, h.2⟩, fun h => ⟨h.1, h.2⟩⟩
  rw [hwritable, eq_comm (a := a')]
  obtain ⟨location, text, parent, key, reference⟩ := a
  have hlocation := SourceLocation.decode_reread_encode (h _ List.mem_cons_self)
  have hkey (n : Nat) (k : Option Nat) :
      asOption asWord (natural n).reread = .ok k ↔ n < wordBound ∧ k = some n := by
    simp [asOption_eq_ok_iff (reread_natural_ne_null n), asWord_reread_natural, and_assoc]
  have hreference (x : CrossReference) (hx : x ∈ reference) (y : Option CrossReference) :
      asOption CrossReference.decode x.encode.reread = .ok y ↔
        x.sourceLocation.IsWritable ∧ y = some x := by
    have hordered : x.sourceLocation.IsOrdered := h _ (by simp_all [locations])
    have hnull : x.encode.reread ≠ null := by simp [CrossReference.encode]
    simp [asOption_eq_ok_iff hnull, CrossReference.decode_reread_encode hordered, and_assoc]
  rw [encode, reread_object, decode]
  cases reference with
  | none =>
    cases key <;>
      rw [bind_asFields_eq_ok_iff (by decide) (List.isSublist_iff_sublist.1 rfl)] <;>
      simp [encodeMember, schema, field, ok_bind_iff, ok_map_iff, asString, Fields.get, Fields.getD,
        List.lookup_cons, pure, Except.pure, hlocation, hkey, locations]
    all_goals tauto
  | some x =>
    have hx := hreference x rfl
    cases key <;>
      rw [bind_asFields_eq_ok_iff (by decide) (List.isSublist_iff_sublist.1 rfl)] <;>
      simp [encodeMember, schema, field, ok_bind_iff, ok_map_iff, asString, Fields.get, Fields.getD,
        List.lookup_cons, pure, Except.pure, hlocation, hkey, hx, locations]
    all_goals tauto

/-! ## Components -/

@[simp] theorem readable_string (depth : Nat) (s : String) :
    readable depth (string s) = .ok () := by
  simp [readable]

@[simp] theorem readable_null (depth : Nat) : readable depth null = .ok () := by
  simp [readable]

theorem readableItems_strings (depth : Nat) (l : List String) :
    readableItems depth (l.map string) = .ok () := by
  induction l with
  | nil => rfl
  | cons s l ih =>
    rw [List.map_cons, readableItems, readable_string, ih]
    rfl

theorem readable_encodeOption (depth : Nat) (s : Option String) :
    readable depth (encodeOption s).reread = .ok () := by
  cases s <;> simp [encodeOption]

theorem SymbolDescriptor.readable_encode {depth : Nat} (h : 0 < depth) (d : SymbolDescriptor) :
    readable depth d.encode.reread = .ok () := by
  simp [encode, SourceLocation.encode, readable, readableMembers, readable_encodeOption,
    Nat.ne_of_gt h, bind, Except.bind]

/-- Whether a member may stand behind the kind of a record. -/
def IsRecordMember (depth : Nat) (m : String × Value) : Prop :=
  m.1 ≠ "kind" ∧ readable depth m.2 = .ok ()

theorem DefinedComponent.isRecordMember {depth : Nat} (h : 0 < depth) (c : DefinedComponent) :
    ∀ m ∈ c.members.map rereadMember, IsRecordMember depth m := by
  simp [members, IsRecordMember, SourceLocation.encode, readable_encodeOption, readable,
    readableItems_strings, SymbolDescriptor.readable_encode h, Nat.ne_of_gt h]

theorem ReferencedComponent.isRecordMember (depth : Nat) (c : ReferencedComponent) :
    ∀ m ∈ c.members.map rereadMember, IsRecordMember depth m := by
  simp [members, IsRecordMember]

namespace ComponentRecord

/-- The members behind the kind of a record are kept as they are. -/
theorem splitMembers_some {depth : Nat} {kind : Kind} {members : List (String × Value)}
    (h : ∀ m ∈ members, IsRecordMember depth m) :
    splitMembers depth (some kind) members = .ok (some kind, members) := by
  induction members with
  | nil => rfl
  | cons m rest ih =>
    obtain ⟨hname, hread⟩ := h m List.mem_cons_self
    rw [splitMembers, if_neg hname, hread, ih fun m' hm' => h m' (List.mem_cons_of_mem _ hm')]
    rfl

/-- A record is decoded as its kind, which comes first. -/
theorem decode_object {depth : Nat} {kind : Kind} {name : String} {members : List (String × Value)}
    (hkind : decodeKind (string name) = .ok kind)
    (h : ∀ m ∈ members, IsRecordMember (depth - 1) m) :
    decode depth (object (("kind", string name) :: members)) = decodeAs kind (object members) := by
  rw [decode, splitMembers, if_pos rfl, hkind]
  simp [splitMembers_some h, bind, Except.bind]

theorem decode_reread_encode (depth : Nat) (hdepth : 2 ≤ depth) {record : ComponentRecord}
    (h : ∀ l ∈ record.locations, l.IsOrdered) (record' : ComponentRecord) :
    decode depth record.encode.reread = .ok record' ↔
      (∀ l ∈ record.locations, l.IsWritable) ∧ record' = record := by
  have hpos : 0 < depth - 1 := by omega
  cases record with
  | defined c =>
    have hencode : (defined c).encode.reread =
        object (("kind", string "defined") :: c.members.map rereadMember) := by
      rw [encode, reread_object, List.map_cons, rereadMember_mk, reread_string]
    have hkind : decodeKind (string "defined") = .ok .defined := rfl
    have hfields : ∀ c', DefinedComponent.decode (object c.members).reread = .ok c' ↔ _ :=
      DefinedComponent.decode_reread_members h
    rw [hencode, decode_object hkind (c.isRecordMember hpos), ← reread_object, decodeAs,
      ok_mapError_iff, ok_functor_map_iff]
    simp only [hfields]
    simp [eq_comm, locations]
  | referenced c =>
    have hencode : (referenced c).encode.reread =
        object (("kind", string "referenced") :: c.members.map rereadMember) := by
      rw [encode, reread_object, List.map_cons, rereadMember_mk, reread_string]
    have hkind : decodeKind (string "referenced") = .ok .referenced := rfl
    rw [hencode, decode_object hkind (c.isRecordMember _), ← reread_object, decodeAs,
      ok_mapError_iff, ok_functor_map_iff]
    simp only [c.decode_reread_members]
    simp [eq_comm, locations]

end ComponentRecord

namespace ComponentTable

theorem decode_reread_encode (depth : Nat) (hdepth : 3 ≤ depth) {t : ComponentTable}
    (hsorted : t.IsSorted) (h : ∀ e ∈ t.entries, ∀ l ∈ e.2.locations, l.IsOrdered)
    (t' : ComponentTable) :
    decode depth t.encode.reread = .ok t' ↔
      (∀ e ∈ t.entries, ∀ l ∈ e.2.locations, l.IsWritable) ∧ t' = t := by
  have key (entries : List (Identity × ComponentRecord))
      (h : ∀ e ∈ entries, ∀ l ∈ e.2.locations, l.IsOrdered) (start t' : ComponentTable) :
      (entries.map fun e => (e.1, e.2.encode.reread)).foldlM
          (fun t e => return t.insert e.1 (← ComponentRecord.decode (depth - 1) e.2)) start =
        .ok t' ↔ (∀ e ∈ entries, ∀ l ∈ e.2.locations, l.IsWritable) ∧
          t' = entries.foldl (fun t e => ComponentTable.insert t e.1 e.2) start := by
    induction entries generalizing start with
    | nil => simp [pure, Except.pure, eq_comm]
    | cons e rest ih =>
      obtain ⟨he, hrest⟩ := List.forall_mem_cons.1 h
      have hdecode := ComponentRecord.decode_reread_encode (depth - 1) (by omega) he
      simp only [List.map_cons, List.foldlM_cons, ok_bind_iff, hdecode, ok_pure_iff, ih hrest]
      constructor
      · rintro ⟨_, ⟨_, ⟨hw, rfl⟩, rfl⟩, hwritable, rfl⟩
        exact ⟨List.forall_mem_cons.2 ⟨hw, hwritable⟩, rfl⟩
      · rintro ⟨hwritable, rfl⟩
        obtain ⟨hw, hwritable⟩ := List.forall_mem_cons.1 hwritable
        exact ⟨_, ⟨_, ⟨hw, rfl⟩, rfl⟩, hwritable, rfl⟩
  have hmembers : t.encode.reread = object (t.entries.map fun e => (e.1, e.2.encode.reread)) := by
    rw [encode, reread_object, List.map_map]
    rfl
  rw [hmembers]
  have hread := key t.entries h .empty t'
  rwa [foldl_insert_entries hsorted] at hread

end ComponentTable

/-! ## Reports -/

namespace ScanReport

/-- Whether a report is as scans make them: its components are in order, and so are the lines of its
locations. -/
structure IsWellFormed (r : ScanReport) : Prop where
  sorted : r.components.IsSorted
  ordered : ∀ l ∈ r.locations, l.IsOrdered

/-- Whether a report is read back from its JSON form. -/
structure IsWritable (r : ScanReport) : Prop where
  locations : ∀ l ∈ r.locations, l.IsWritable
  sequenceKeys : ∀ a ∈ r.annotations, ∀ k ∈ a.sequenceKey, k < wordBound

theorem forall_mem_locations_iff {r : ScanReport} {p : SourceLocation → Prop} :
    (∀ l ∈ r.locations, p l) ↔ (∀ e ∈ r.components.entries, ∀ l ∈ e.2.locations, p l) ∧
      ∀ a ∈ r.annotations, ∀ l ∈ a.locations, p l := by
  simp only [locations, List.mem_append, List.mem_flatMap]
  constructor
  · intro h
    exact ⟨fun e he l hl => h l (.inl ⟨e, he, hl⟩), fun a ha l hl => h l (.inr ⟨a, ha, hl⟩)⟩
  · rintro ⟨hc, ha⟩ l (⟨e, he, hl⟩ | ⟨a, ha', hl⟩)
    · exact hc e he l hl
    · exact ha a ha' l hl

theorem isWritable_iff {r : ScanReport} :
    r.IsWritable ↔ (∀ e ∈ r.components.entries, ∀ l ∈ e.2.locations, l.IsWritable) ∧
      ∀ a ∈ r.annotations, a.IsWritable := by
  constructor
  · intro h
    obtain ⟨hc, ha⟩ := forall_mem_locations_iff.1 h.locations
    exact ⟨hc, fun a hmem => ⟨ha a hmem, h.sequenceKeys a hmem⟩⟩
  · rintro ⟨hc, ha⟩
    exact ⟨forall_mem_locations_iff.2 ⟨hc, fun a hmem => (ha a hmem).locations⟩,
      fun a hmem => (ha a hmem).sequenceKey⟩

/-- Members that are no fields of a report are kept as they are. -/
theorem splitMembers_others {depth : Nat} {fields : Fields} {others : List (String × Value)}
    (h : ∀ m ∈ others, (schema depth).lookup m.1 = none ∧ readable (depth - 1) m.2 = .ok ()) :
    splitMembers depth fields others = .ok (fields, others) := by
  induction others with
  | nil => rfl
  | cons m rest ih =>
    obtain ⟨⟨hname, hread⟩, hrest⟩ := List.forall_mem_cons.1 h
    rw [splitMembers, hname, if_neg (by simp), hread, ih hrest]
    rfl

/-- The fields of a report are taken in order if they stand in front of other members. -/
theorem splitMembers_append {depth : Nat} {fields own : Fields} {others : List (String × Value)}
    (h : ∀ m ∈ own, ((schema depth).lookup m.1).isSome = true) :
    splitMembers depth fields (own ++ others) =
      own.foldlM (fun fields m => takeMember (schema depth) fields m.1 m.2) fields >>=
        (splitMembers depth · others) := by
  induction own generalizing fields with
  | nil => rfl
  | cons m own ih =>
    obtain ⟨hm, hown⟩ := List.forall_mem_cons.1 h
    rw [List.cons_append, splitMembers, if_pos hm, List.foldlM_cons, bind_assoc]
    exact congrArg _ (funext fun f => ih hown)

theorem decode_reread_encode (depth : Nat) (hdepth : 4 ≤ depth) {r : ScanReport}
    (h : r.IsWellFormed) (r' : ScanReport) :
    decode depth r.encode.reread = .ok r' ↔ r.IsWritable ∧ r' = r := by
  obtain ⟨hcomponents, hannotations⟩ := forall_mem_locations_iff.1 h.ordered
  have htable := ComponentTable.decode_reread_encode (depth - 1) (by omega) h.sorted
    hcomponents
  have hlist : ∀ l', asList Annotation.decode
      (array (r.annotations.map fun a => a.encode.reread)) = .ok l' ↔ _ :=
    asList_eq_ok_iff Annotation.IsWritable fun a ha =>
      Annotation.decode_reread_encode (hannotations a ha)
  rw [isWritable_iff]
  obtain ⟨path, exports, components, annotations, log, revision, origin⟩ := r
  have hrepo (repo' : RepoMetadata) : RepoMetadata.decode
      (object [("revision", string revision), ("remoteOrigin", string origin)]) = .ok repo' ↔
        repo' = ⟨revision, origin⟩ :=
    RepoMetadata.decode_reread_encode ⟨revision, origin⟩ repo'
  have hnames : ((schema depth).map (·.1)).Nodup := by
    simp only [schema, field, List.map_cons, List.map_nil]
    decide
  have hothers : ∀ m ∈ RepoMetadata.members ⟨revision, origin⟩ |>.map rereadMember,
      (schema depth).lookup m.1 = none ∧ readable (depth - 1) m.2 = .ok () := by
    simp [RepoMetadata.members, schema, field, List.lookup_cons]
  rw [eq_comm (a := r'), encode, reread_object, decode, List.map_append,
    splitMembers_append (by simp [schema, field, List.lookup_cons]), bind_assoc,
    bind_takeMember_eq_ok_iff hnames (List.isSublist_iff_sublist.1 rfl),
    splitMembers_others hothers]
  simp [schema, field, ok_bind_iff, ok_map_iff, ok_mapError_iff, asString, asStrings_eq_ok_iff,
    Fields.get, List.lookup_cons, pure, Except.pure, RepoMetadata.members, htable, hlist, hrepo]
  tauto

end ScanReport

end ComponentScan
