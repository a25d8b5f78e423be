/-
`Proofs/TokenPlaces.lean` -- the tokens of a text are the text, cut into pieces, and each
knows the line on which it starts.

The scan goes on as long as there is text, so it depends on two facts about every place
that it comes to: some token starts there, and it is not empty. `exists_starts` is the
first, for any text and with the line at its start or not, and `Starts.ne_nil` the second.
A row of tokens is then at most as long as the text.

What a row says of each of its tokens follows from what is said of the first one, because
each of them is the first token of the text from there on (`starts_of_mem`). White space
is where lines come in: it takes in one line feed at most and stops behind it, and so the
start of each line is a place that the scan comes to.
-/
import GlslCompose.Proofs.IncludeChain

set_option autoImplicit false

namespace GlslCompose

namespace Scan

variable {line : Int} {lineStart : Bool} {s : Text} {token : Token} {before behind : List Token}

/-- **The scan goes on wherever there is text.** It finds a piece that is not empty, and the text is that
piece and what is left to scan. -/
theorem exists_first? (lineStart : Bool) (hs : s ≠ []) :
    ∃ p, first? lineStart s = some p ∧ p.data ≠ [] ∧ s = p.data ++ p.rest := by
  obtain ⟨kind, data, rest, rfl, hstarts⟩ := exists_starts lineStart hs
  exact ⟨⟨kind, data, rest⟩, first?_eq_some_iff.2 ⟨rfl, hstarts⟩, hstarts.ne_nil, rfl⟩

/-- Each token is what the text starts with from some place on. -/
theorem starts_of_mem (h : token ∈ tokensFrom line lineStart s) :
    ∃ lineStart rest, Starts lineStart token.kind token.data rest := by
  induction lineStart, s using scan_induction generalizing line with
  | nil lineStart => rw [tokensFrom_nil] at h; cases h
  | cons lineStart kind data rest hstarts ih =>
    rw [tokensFrom_append hstarts] at h
    rcases List.mem_cons.1 h with rfl | hlater
    · exact ⟨lineStart, rest, hstarts⟩
    · exact ih hlater

/-- There are no more tokens than characters. -/
theorem length_tokensFrom_le (line : Int) (lineStart : Bool) (s : Text) :
    (tokensFrom line lineStart s).length ≤ s.length := by
  induction lineStart, s using scan_induction generalizing line with
  | nil lineStart => rw [tokensFrom_nil, List.length_nil]; exact Nat.zero_le _
  | cons lineStart kind data rest hstarts ih =>
    have hpos := List.length_pos_iff.2 hstarts.ne_nil
    have hrest := ih (line + lineFeeds data)
    rw [tokensFrom_append hstarts, List.length_cons, List.length_append]
    omega

/-- What stands in front of a token, the token, and what stands behind it make up the text. -/
theorem eq_append_of_tokensFrom (h : tokensFrom line lineStart s = before ++ token :: behind) :
    s = Token.toText before ++ (token.data ++ Token.toText behind) := by
  have htext := toText_tokensFrom line lineStart s
  rw [h, Expansion.toText_append] at htext
  exact htext.symm

theorem not_mem_lineFeed {blanks : Text} (h : ∀ c ∈ blanks, isSpace c = true) : '\n' ∉ blanks := by
  intro hfeed
  have hspace := h _ hfeed
  revert hspace
  decide

/-- **White space ends in its line feed,** if it has one. -/
theorem Starts.space {data rest : Text} (h : Starts lineStart .space data rest) :
    data.count '\n' ≤ 1 ∧ ('\n' ∈ data → data.getLast? = some '\n') := by
  cases h with
  | plain _ hreads =>
    cases hreads with
    | @lineFeed blanks _ hblanks =>
      refine ⟨?_, fun _ => List.getLast?_concat⟩
      rw [List.count_append, List.count_eq_zero_of_not_mem (not_mem_lineFeed hblanks)]
      decide
    | blanks _ hblanks _ _ =>
      have hnone := not_mem_lineFeed hblanks
      exact ⟨le_of_eq_of_le (List.count_eq_zero_of_not_mem hnone) (Nat.zero_le 1),
        fun hfeed => absurd hfeed hnone⟩

end Scan

namespace Token

/-- **Scanning loses nothing, always goes on, and knows its place.** Wherever the scan stands in a text, at
the start of a line or not, it finds a token that is not empty as long as there is text left; so it comes
to its end, with no more tokens than the text has characters. The tokens one after the other are the text,
and none is empty. Each token has the line on which the text starts, and one more for each line feed in
front of its start in the text. White space has at most one line feed, as its last character. -/
theorem ofText_places (s : Text) (firstLine : Int) :
    (∀ rest lineStart, rest <:+ s → rest ≠ [] → ∃ p, Scan.first? lineStart rest = some p ∧
      p.data ≠ [] ∧ rest = p.data ++ p.rest) ∧
    (ofText s firstLine).length ≤ s.length ∧
    toText (ofText s firstLine) = s ∧
    (∀ token ∈ ofText s firstLine, token.data ≠ []) ∧
    (∀ before token behind, ofText s firstLine = before ++ token :: behind →
      token.line = firstLine + (s.take (toText before).length).count '\n') ∧
    ∀ token ∈ ofText s firstLine, token.kind = .space →
      token.data.count '\n' ≤ 1 ∧ ('\n' ∈ token.data → token.data.getLast? = some '\n') := by
  refine ⟨fun rest lineStart _ hne => Scan.exists_first? lineStart hne,
    Scan.length_tokensFrom_le _ _ _, Scan.toText_tokensFrom _ _ _, ?_, ?_, ?_⟩
  · intro token hmem
    obtain ⟨lineStart, rest, hstarts⟩ := Scan.starts_of_mem hmem
    exact hstarts.ne_nil
  · intro before token behind hsplit
    have hfront : s.take (toText before).length = toText before := by
      rw [Scan.eq_append_of_tokensFrom hsplit, List.take_left]
    rw [hfront]
    exact Scan.line_of_tokensFrom hsplit
  · intro token hmem hkind
    obtain ⟨lineStart, rest, hstarts⟩ := Scan.starts_of_mem hmem
    rw [hkind] at hstarts
    exact hstarts.space

/-- A directive that goes on behind a backslash and a comment that is never closed: the tokens behind them
are on the lines on which they start. -/
example : (ofText "#define A \\\n1\nb /* c\n" 1).map (fun token => (token.kind, token.line)) =
    [(.directive, 1), (.space, 2), (.identifier, 3), (.space, 3), (.blockComment, 3)] := by
  decide +kernel

end Token

end GlslCompose
