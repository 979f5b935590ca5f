import ComponentScan.DocComment
import ComponentScan.Proofs.Text.Insertion

/-!
# Delimiters

A documentation comment, found with its delimiters or between them, is its text with `/**` in front
and `*/` behind (`exists_delimiters`).
-/

namespace ComponentScan.DocComment

open Text

variable {source : List Char} {span span' : Span}

theorem exists_eq_of_isWhole {s : List Char} (h : isWhole s) :
    ∃ mid, s = "/**".toList ++ mid ++ "*/".toList := by
  simp only [isWhole, Bool.and_eq_true, List.isPrefixOf_iff_prefix, List.isSuffixOf_iff_suffix,
    decide_eq_true_eq] at h
  obtain ⟨⟨⟨⟨r, rfl⟩, hsuffix⟩, hlength⟩, -⟩ := h
  -- the two ends do not meet, since there are five bytes
  have hr : "*/".toList <:+ r := by
    refine List.suffix_of_suffix_length_le hsuffix (List.suffix_append _ _) ?_
    match r, hsuffix, hlength with
    | [], _, hlength => exact absurd hlength (by decide)
    | [c], hsuffix, hlength =>
      obtain rfl : c = '/' := by
        obtain ⟨p, hp⟩ := hsuffix
        have hlast := congrArg List.getLast? hp
        simpa [List.getLast?_append] using hlast.symm
      exact absurd hlength (by decide)
    | _ :: _ :: _, _, _ => simp
  obtain ⟨mid, rfl⟩ := hr
  exact ⟨mid, by simp⟩

/-- The text between the delimiters is there to be cut out. -/
theorem slice?_inner {front mid behind : List Char}
    (hsource : source = front ++ "/**".toList ++ mid ++ "*/".toList ++ behind)
    (hstart : byteLength front = span.start)
    (hstop : byteLength front + 5 + byteLength mid = span.stop) :
    slice? source (span.start + 3) (max (span.stop - 2) (span.start + 3)) = some mid := by
  rw [Nat.max_eq_left (by omega)]
  refine slice?_eq_some_iff.2 ⟨front ++ "/**".toList, "*/".toList ++ behind,
    by rw [hsource]; simp, ?_, ?_⟩
  · rw [byteLength_append, hstart]
    rfl
  · rw [byteLength_append, byteLength_append, ← hstop]
    change byteLength front + 3 + byteLength mid = _
    omega

theorem inner_eq {front mid behind : List Char}
    (hsource : source = front ++ "/**".toList ++ mid ++ "*/".toList ++ behind)
    (hstart : byteLength front = span.start)
    (hstop : byteLength front + 5 + byteLength mid = span.stop) : inner source span = mid := by
  unfold inner
  dsimp only
  rw [slice?_inner hsource hstart hstop]
  rfl

/-- A comment stands in its source with its delimiters. -/
theorem exists_delimiters (h : spanOf? source span = some span') :
    ∃ front behind,
      source = front ++ "/**".toList ++ inner source span' ++ "*/".toList ++ behind ∧
      byteLength front = span'.start ∧
      span'.start + 5 + byteLength (inner source span') = span'.stop := by
  suffices hends : ∃ front mid behind,
      source = front ++ "/**".toList ++ mid ++ "*/".toList ++ behind ∧
      byteLength front = span'.start ∧ byteLength front + 5 + byteLength mid = span'.stop by
    obtain ⟨front, mid, behind, hsource, hstart, hstop⟩ := hends
    rw [inner_eq hsource hstart hstop, ← hstart]
    exact ⟨front, behind, hsource, rfl, hstop⟩
  simp only [spanOf?, Option.bind_eq_bind, Option.bind_eq_some_iff] at h
  obtain ⟨piece, hpiece, h⟩ := h
  obtain ⟨front, behind, hsource, hstart, hstop⟩ := slice?_eq_some_iff.1 hpiece
  split at h
  · next hwhole =>
    cases h
    obtain ⟨mid, rfl⟩ := exists_eq_of_isWhole hwhole
    refine ⟨front, mid, behind, by simpa using hsource, hstart, ?_⟩
    rw [← hstop]
    simp only [byteLength_append]
    change _ = byteLength front + (3 + byteLength mid + 2)
    omega
  · obtain ⟨hends, heq⟩ := Option.ite_none_right_eq_some.1 h
    cases heq
    simp only [Bool.and_eq_true, beq_iff_eq, decide_eq_true_eq, isContent,
      List.isPrefixOf_iff_prefix] at hends
    obtain ⟨⟨⟨hle, hopened⟩, hclosed⟩, ⟨mid, rfl⟩, -⟩ := hends
    obtain ⟨front', rest, hsource', hfront', hrest⟩ := slice?_eq_some_iff.1 hopened
    obtain ⟨all, behind', hsource'', hall, -⟩ := slice?_eq_some_iff.1 hclosed
    obtain ⟨rfl, -⟩ : front = front' ++ "/*".toList ∧ _ :=
      append_inj_of_byteLength (by rw [← List.append_assoc, ← hsource, hsource'])
        (hstart.trans hrest.symm)
    obtain ⟨-, rfl⟩ : _ ∧ behind = "*/".toList ++ behind' :=
      append_inj_of_byteLength (by rw [← hsource, hsource'', List.append_assoc])
        (hstop.trans hall.symm)
    refine ⟨front', mid, behind', by simpa using hsource, hfront', ?_⟩
    rw [← hstop]
    simp only [byteLength_append]
    change _ = byteLength front' + 2 + (1 + byteLength mid) + 2
    omega

end ComponentScan.DocComment
