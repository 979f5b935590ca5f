import ComponentScan.Proofs.Patch.Line
import ComponentScan.Proofs.Text.Blank

/-!
# Permalinks read back

Where a permalink is written behind a tag, the word that is read back is the permalink together with
what follows it up to the next white space (`parsePermalink_of_written`).
-/

namespace ComponentScan

open Text

/-- A web address goes on as one up to the next white space. -/
theorem isWebAddress_append {word glued : List Char} (h : isWebAddress word)
    (hglued : ∀ c ∈ glued, isBlank c = false) : isWebAddress (word ++ glued) := by
  have key {start : List Char} (h : (dropStart? start word).any
      fun rest => !rest.isEmpty && rest.all (!isBlank ·)) :
      (dropStart? start (word ++ glued)).any
        fun rest => !rest.isEmpty && rest.all (!isBlank ·) := by
    obtain ⟨rest, hrest, hall⟩ := (Option.any_eq_true _ _).1 h
    have hrest' : dropStart? start (word ++ glued) = some (rest ++ glued) := by
      rw [dropStart?_eq_some_iff] at hrest ⊢
      rw [hrest, List.append_assoc]
    rw [hrest', Option.any_some]
    simp only [Bool.and_eq_true, Bool.not_eq_true', List.all_eq_true] at hall ⊢
    refine ⟨by simp_all, List.forall_mem_append.2 ⟨hall.2, fun c hc => by simp [hglued c hc]⟩⟩
  simp only [isWebAddress, List.any_cons, List.any_nil, Bool.or_false, Bool.or_eq_true] at h ⊢
  exact h.imp key key

/-- What is written behind a tag is no white space to trim. -/
theorem trim_written {link : List Char} (h : Patch.IsArgument link) (rest : List Char) :
    trim (' ' :: link ++ rest) = link ++ trimEnd rest := by
  have hspace : isBlank ' ' = true := by decide
  have hstart : trimStart (' ' :: link ++ rest) = link ++ rest := by
    obtain ⟨c, w, rfl⟩ := List.exists_cons_of_ne_nil h.nonempty
    have hc : isBlank c = false := h.notBlank c List.mem_cons_self
    simp [trimStart, hspace, hc]
  rw [trim, hstart]
  exact trimEnd_append (fun d hd => h.notBlank d (List.mem_of_getLast? hd)) rest

/-- A permalink that is written behind a tag is read back with what follows it without a blank. -/
theorem parsePermalink_of_written {link text : String} (hlink : parsePermalink link = some link)
    {rest more : List Char} (hmore : ∀ c, more.head? = some c → isBlank c)
    (htext : text.toList = trim (' ' :: link.toList ++ rest) ++ more) :
    parsePermalink text = some (String.ofList (link.toList ++ rest.takeWhile (!isBlank ·))) := by
  have harg := isArgument_of_parsePermalink hlink
  have hword : (words text.toList).head? =
      some (link.toList ++ rest.takeWhile (!isBlank ·)) := by
    have hfirst : (link.toList ++ (trimEnd rest ++ more)).takeWhile (!isBlank ·) =
        link.toList ++ rest.takeWhile (!isBlank ·) := by
      rw [List.takeWhile_append_of_pos fun d hd => by simp [harg.notBlank d hd],
        takeWhile_append_of_head? fun d hd => by simp [hmore d hd], takeWhile_trimEnd]
    obtain ⟨c, w, hw⟩ := List.exists_cons_of_ne_nil harg.nonempty
    rw [htext, trim_written harg, List.append_assoc, ← hfirst, hw, List.cons_append]
    exact head?_words (harg.notBlank c (hw ▸ List.mem_cons_self)) _
  have hglued : isWebAddress (link.toList ++ rest.takeWhile (!isBlank ·)) :=
    isWebAddress_append (isWebAddress_of_parsePermalink hlink) fun d hd => by
      simpa using List.mem_takeWhile_imp hd
  unfold parsePermalink
  rw [hword, Option.bind_eq_bind, Option.bind_some, if_pos hglued]

end ComponentScan
