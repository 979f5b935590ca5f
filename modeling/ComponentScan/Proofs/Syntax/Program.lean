import ComponentScan.Syntax.Program

/-!
# Programs of texts

What holds of every text that is read as a program: it is not too long, the root of its tree is a
program, and its comments stand apart in the order of the text (`ordered_of_parse`). The parser keeps
its comments in order whatever it does (`CommentLog.ordered`). If the tree is not empty, there is
more in the text than feeds (`exists_ne_feed_of_parse`).
-/

namespace ComponentScan.Syntax

open Text Parse

/-! ## Texts of feeds -/

/-- Feeds between tokens are taken up to the last one. -/
theorem exists_skipTrivia_of_feeds {fuel : Nat} {c : Cursor} (h : ∀ x ∈ c.rest, x = '\n')
    (hfuel : c.rest.length ≤ fuel) (t : Trivia) :
    ∃ t' stop, skipTrivia fuel t c = some (t', stop) ∧ stop.rest = [] := by
  induction fuel generalizing t c with
  | zero => exact ⟨t, c, rfl, List.length_eq_zero_iff.1 (Nat.le_zero.1 hfuel)⟩
  | succ fuel ih =>
    obtain ⟨rest, pos⟩ := c
    cases rest with
    | nil => exact ⟨t, ⟨[], pos⟩, rfl, rfl⟩
    | cons x r =>
      obtain ⟨rfl, hr⟩ := List.forall_mem_cons.1 h
      exact ih hr (Nat.le_of_succ_le_succ hfuel) t.lineBreak

theorem kind_token_first_of_feeds {size : Nat} {c : Cursor} (h : ∀ x ∈ c.rest, x = '\n')
    (hsize : c.rest.length ≤ size) : (State.first size c).token.kind = .eof := by
  obtain ⟨t, stop, hskip, hstop⟩ := exists_skipTrivia_of_feeds h hsize
    { onFreshLine := true, holdsLineComments := false }
  obtain ⟨rest, pos⟩ := stop
  obtain rfl : rest = [] := hstop
  simp only [State.first, hskip]
  rfl

theorem bind_apply {α β : Type} (x : Parse α) (f : α → Parse β) (ctx : Context) (s : State) :
    (x >>= f) ctx s = (x ctx s).bind fun r => f r.1 ctx r.2 := rfl

theorem pure_apply {α : Type} (a : α) (ctx : Context) (s : State) :
    (pure a : Parse α) ctx s = some (a, s) := rfl

theorem read_apply (ctx : Context) (s : State) : (read : Parse Context) ctx s = some (ctx, s) := rfl

/-- There is no statement where the text ends. -/
theorem statements_of_eof {g : Rules} {ctx : Context} {s : State} (hsize : 0 < ctx.size)
    (h : s.token.kind = .eof) : statements g ctx s = some ([], s) := by
  obtain ⟨size, hsize⟩ : ∃ size, ctx.size = size + 1 := ⟨ctx.size - 1, by omega⟩
  have hsymbol : atSymbol "\x7d" ctx s = some (false, s) := by
    change some (s.token.isSymbol "\x7d", s) = _
    rw [Token.isSymbol, h]
  have hend : atEnd ctx s = some (true, s) := by
    change some (s.token.kind == .eof, s) = _
    rw [h]
    rfl
  simp [statements, many, loop, loopFrom, bind_apply, pure_apply, read_apply, hsize, hsymbol, hend]

/-! ## What is read -/

namespace Program

variable {ctx : Context} {chars : List Char} {dialect : Dialect} {text : String} {p : Program}
  {s : State}

/-- Whatever a program is, it is read in one go, from a text that is not too long. -/
theorem exists_parseIn_of_parse (h : parse dialect text = some p) :
    byteLength text.toList ≤ maxBytes ∧
      ∃ ctx s, ctx.size = text.toList.length + 8 ∧ parseIn ctx text.toList = some (p, s) := by
  simp only [parse, parseText] at h
  split at h
  · cases h
  · next hlength =>
    refine ⟨Nat.not_lt.1 hlength, ?_⟩
    simp only [Option.bind_eq_bind, Option.bind_eq_some_iff] at h
    obtain ⟨⟨first, state⟩, hfirst, h⟩ := h
    dsimp only at h
    split at h
    · obtain ⟨⟨again, state'⟩, hagain, h⟩ := Option.bind_eq_some_iff.1 h
      cases h
      exact ⟨_, state', rfl, hagain⟩
    · cases h
      exact ⟨_, state, rfl, hfirst⟩

/-- What a text is read as: its statements, after the line that says which program runs it. -/
theorem exists_statements_of_parseIn (h : parseIn ctx chars = some (p, s)) :
    ∃ hashbang c body, (hashbang, c) = (match hashbang? (skipByteOrderMark ⟨chars, 0⟩) with
        | some (n, c) => (some n, c)
        | none => (none, skipByteOrderMark ⟨chars, 0⟩)) ∧
      statements (parseRule (depthOf ctx.size)) ctx (State.first ctx.size c) = some (body, s) ∧
      p = ⟨⟨.program, ⟨0, s.token.stop⟩, hashbang.toList ++ markDirectives body⟩,
        s.comments.entries.reverse⟩ := by
  simp only [parseIn, Option.bind_eq_bind, Option.bind_eq_some_iff] at h
  obtain ⟨⟨body, state⟩, hbody, h⟩ := h
  dsimp only at h
  split at h
  · cases h
  · cases h
    exact ⟨_, _, body, rfl, hbody, rfl⟩

theorem kind_root_of_parse (h : parse dialect text = some p) : p.root.kind = .program := by
  obtain ⟨_, _, _, _, hp⟩ := exists_parseIn_of_parse h
  obtain ⟨_, _, _, _, _, rfl⟩ := exists_statements_of_parseIn hp
  rfl

theorem byteLength_le_of_parse (h : parse dialect text = some p) :
    byteLength text.toList ≤ maxBytes :=
  (exists_parseIn_of_parse h).1

/-- The comments of a program stand apart, in the order of the text. -/
theorem ordered_of_parse (h : parse dialect text = some p) :
    p.comments.Pairwise fun e e' => e.2.stop ≤ e'.2.start := by
  obtain ⟨_, _, _, _, hp⟩ := exists_parseIn_of_parse h
  obtain ⟨_, _, _, _, _, rfl⟩ := exists_statements_of_parseIn hp
  exact List.pairwise_reverse.2 (CommentLog.ordered _)

/-- There is nothing in a text of feeds. -/
theorem children_of_parseIn_of_feeds (hsize : chars.length < ctx.size)
    (hfeeds : ∀ x ∈ chars, x = '\n') (h : parseIn ctx chars = some (p, s)) :
    p.root.children = [] := by
  obtain ⟨hashbang, c, body, hc, hbody, rfl⟩ := exists_statements_of_parseIn h
  have hstart : (none, ⟨chars, 0⟩) = (hashbang, c) := by
    rw [hc]
    cases chars with
    | nil => rfl
    | cons x r =>
      obtain rfl := hfeeds x List.mem_cons_self
      rfl
  cases hstart
  rw [statements_of_eof (Nat.zero_lt_of_lt hsize)
    (kind_token_first_of_feeds hfeeds (Nat.le_of_lt hsize))] at hbody
  cases hbody
  rfl

theorem exists_ne_feed_of_parse (h : parse dialect text = some p) (hp : p.root.children ≠ []) :
    ∃ x ∈ text.toList, x ≠ '\n' := by
  obtain ⟨_, ctx, s, hsize, hparse⟩ := exists_parseIn_of_parse h
  by_cases hfeeds : ∀ x ∈ text.toList, x = '\n'
  · exact absurd (children_of_parseIn_of_feeds (by omega) hfeeds hparse) hp
  · simpa using hfeeds

end Program

end ComponentScan.Syntax
