import OperationLibrary.Proofs.BlockLines

/-!
The printed form of block strings. How a block is framed depends on its text: the quotes stand on
lines of their own unless the text is one short line. However it is framed and however far in it
stands, it is one lexeme, and the value of that is the same.
-/

namespace OperationLibrary.Syntax.BlockString

open Text (sourceLines)

/-! ### Escaped quotes -/

/-- Neither a quote nor a backslash is at the end. -/
def PlainEnd (text : List Char) : Prop :=
  ∀ c ∈ text.getLast?, c ≠ '"' ∧ c ≠ '\\'

theorem PlainEnd.tail {c : Char} {text : List Char} (h : PlainEnd (c :: text)) :
    PlainEnd text := by
  cases text with
  | nil => exact fun d hd => nomatch hd
  | cons d text => rwa [PlainEnd, List.getLast?_cons_cons] at h

theorem not_plainEnd_singleton : ¬PlainEnd ['"'] := fun h => (h '"' rfl).1 rfl

theorem escapeTripleQuotes_cons {c : Char} {text : List Char}
    (h : ∀ rest, c = '"' → text ≠ '"' :: '"' :: rest) :
    escapeTripleQuotes (c :: text) = c :: escapeTripleQuotes text := by
  rw [escapeTripleQuotes]
  intro rest hc htext
  exact h rest hc htext

/-- A quote at the front of the escaped text is one of the text. -/
theorem quote_of_escapeTripleQuotes {c : Char} {text rest more : List Char}
    (h : escapeTripleQuotes (c :: text) ++ rest = '"' :: more) :
    c = '"' ∧ escapeTripleQuotes text ++ rest = more := by
  by_cases htriple : ∀ rest, c = '"' → text ≠ '"' :: '"' :: rest
  · rw [escapeTripleQuotes_cons htriple] at h
    exact List.cons.inj h
  · simp only [not_forall, not_ne_iff, exists_prop] at htriple
    obtain ⟨later, rfl, rfl⟩ := htriple
    exact absurd (List.cons.inj h).1 (by decide)

/-- No triple quote is in front of the closing one. -/
theorem escapeTripleQuotes_append_ne {text : List Char} (hne : text ≠ []) (hend : PlainEnd text)
    (rest more : List Char) :
    escapeTripleQuotes text ++ '"' :: '"' :: '"' :: rest ≠ '"' :: '"' :: '"' :: more := by
  intro heq
  obtain ⟨c, text, rfl⟩ := List.exists_cons_of_ne_nil hne
  obtain ⟨rfl, hsecond⟩ := quote_of_escapeTripleQuotes heq
  cases text with
  | nil => exact not_plainEnd_singleton hend
  | cons d text =>
      obtain ⟨rfl, hthird⟩ := quote_of_escapeTripleQuotes hsecond
      cases text with
      | nil => exact not_plainEnd_singleton hend.tail
      | cons e text =>
          obtain ⟨rfl, -⟩ := quote_of_escapeTripleQuotes hthird
          exact absurd (List.cons.inj heq).1 (by decide)

theorem scanBlock_cons {c : Char} {text : List Char}
    (hclose : ∀ rest, c :: text ≠ '"' :: '"' :: '"' :: rest)
    (hescape : ∀ rest, c :: text ≠ '\\' :: '"' :: '"' :: '"' :: rest) (offset : Nat) :
    scanBlock (c :: text) offset =
      (scanBlock text (offset + 1)).map fun (cs, stop) => (c :: cs, stop) := by
  rw [scanBlock]
  · rintro rest rfl rfl
    exact hclose rest rfl
  · rintro rest rfl rfl
    exact hescape rest rfl

/-- The escaped text is read up to the quotes behind it. -/
theorem scanBlock_append {text : List Char} (hend : PlainEnd text) (rest : List Char)
    (offset : Nat) :
    scanBlock (escapeTripleQuotes text ++ '"' :: '"' :: '"' :: rest) offset =
      .ok (text, offset + (escapeTripleQuotes text).length + 3) := by
  fun_induction escapeTripleQuotes text generalizing offset with
  | case1 text ih =>
      rw [List.cons_append, List.cons_append, List.cons_append, List.cons_append, scanBlock,
        ih hend.tail.tail.tail]
      simp only [Except.map, List.length_cons]
      congr 2
      omega
  | case2 c text htriple ih =>
      -- neither a quote at the end of the text nor a backslash joins the closing quotes
      have hcons := escapeTripleQuotes_cons fun rest hc htext => htriple rest hc htext
      have hclose := escapeTripleQuotes_append_ne (List.cons_ne_nil c text) hend rest
      have hescape : ∀ more, c :: (escapeTripleQuotes text ++ '"' :: '"' :: '"' :: rest) ≠
          '\\' :: '"' :: '"' :: '"' :: more := by
        intro more heq
        obtain ⟨rfl, hquotes⟩ := List.cons.inj heq
        cases text with
        | nil => exact (hend '\\' rfl).2 rfl
        | cons d text =>
            exact escapeTripleQuotes_append_ne (List.cons_ne_nil d text) hend.tail rest more hquotes
      rw [hcons, List.cons_append] at hclose
      rw [List.cons_append, scanBlock_cons hclose hescape, ih hend.tail]
      simp only [Except.map, List.length_cons]
      congr 2
      omega
  | case3 => rfl

theorem escapeTripleQuotes_append {line : List Char} (h : '"' ∉ line) (text : List Char) :
    escapeTripleQuotes (line ++ text) = line ++ escapeTripleQuotes text := by
  induction line with
  | nil => rfl
  | cons c line ih =>
      rw [List.mem_cons, not_or] at h
      rw [List.cons_append, escapeTripleQuotes_cons fun _ hc => absurd hc.symm h.1, ih h.2]
      rfl

theorem head_of_shifted {c d : Char} {text more : List Char} {margin : Nat} (hd : d ≠ '\n')
    (h : shifted margin (c :: text) = d :: more) : c = d ∧ shifted margin text = more := by
  by_cases hfeed : c = '\n'
  · subst hfeed
    rw [shifted_feed] at h
    exact absurd (List.cons.inj h).1.symm hd
  · rw [shifted_cons hfeed] at h
    exact List.cons.inj h

/-- Quotes are escaped the same way however far in their lines are. -/
theorem shifted_escapeTripleQuotes (margin : Nat) (text : List Char) :
    shifted margin (escapeTripleQuotes text) = escapeTripleQuotes (shifted margin text) := by
  have hquote : ('"' : Char) ≠ '\n' := by decide
  fun_induction escapeTripleQuotes text with
  | case1 text ih =>
      rw [shifted_cons (by decide), shifted_cons hquote, shifted_cons hquote, shifted_cons hquote,
        shifted_cons hquote, shifted_cons hquote, shifted_cons hquote, escapeTripleQuotes, ih]
  | case2 c text htriple ih =>
      by_cases hfeed : c = '\n'
      · subst hfeed
        have hline : '"' ∉ '\n' :: List.replicate margin ' ' := by simp
        rw [shifted_feed, shifted_feed, ← List.cons_append, ← List.cons_append,
          escapeTripleQuotes_append hline, ih]
      · rw [shifted_cons hfeed, shifted_cons hfeed, escapeTripleQuotes_cons, ih]
        rintro rest rfl hsecond
        cases text with
        | nil => contradiction
        | cons d text =>
            obtain ⟨rfl, hthird⟩ := head_of_shifted hquote hsecond
            cases text with
            | nil => contradiction
            | cons e text =>
                obtain ⟨rfl, -⟩ := head_of_shifted hquote hthird
                exact htriple text rfl rfl
  | case3 => rfl

/-- A text that is further in ends the same way. -/
theorem PlainEnd.shifted {text : List Char} (h : PlainEnd text) (margin : Nat) :
    PlainEnd (shifted margin text) := by
  induction text using List.reverseRecOn with
  | nil => exact h
  | append_singleton text d ih =>
      have hd : d ≠ '"' ∧ d ≠ '\\' := h d (by simp)
      intro c hc
      by_cases hfeed : d = '\n'
      · subst hfeed
        rw [shifted_append, shifted_feed, List.getLast?_append_of_ne_nil _ (by simp)] at hc
        have hmem := List.mem_of_mem_getLast? hc
        simp only [shifted_nil, List.append_nil, List.mem_cons, List.mem_replicate] at hmem
        obtain rfl | ⟨-, rfl⟩ := hmem <;> decide
      · rw [shifted_append, shifted_cons hfeed, shifted_nil, List.getLast?_concat] at hc
        obtain rfl := Option.some.inj hc
        exact hd

/-! ### The printed form -/

theorem mem_escapeTripleQuotes {c : Char} (h : c ≠ '\\') (text : List Char) :
    c ∈ escapeTripleQuotes text ↔ c ∈ text := by
  fun_induction escapeTripleQuotes text with
  | case1 text ih => simp [ih, h]
  | case2 d text htriple ih => simp [ih]
  | case3 => rfl

/-- What stands between the quotes, before it is escaped: the value, perhaps with line feeds around
it. Before a single line there is one only if that does not indent the value. -/
inductive Framed (value : List Char) : List Char → Prop where
  | plain : '\n' ∉ value → Framed value value
  | ended : '\n' ∉ value → Framed value (value ++ ['\n'])
  | spread : ('\n' ∉ value → ∃ c ∈ value.head?, isIndent c = false) →
      Framed value ('\n' :: (value ++ ['\n']))

theorem plainEnd_of_suffix {text : List Char} (hquote : ['"'].isSuffixOf text = false)
    (hbackslash : ['\\'].isSuffixOf text = false) : PlainEnd text := by
  intro c hc
  obtain ⟨front, rfl⟩ := List.getLast?_eq_some_iff.mp hc
  constructor
  · rintro rfl
    simp [List.isSuffixOf] at hquote
  · rintro rfl
    simp [List.isSuffixOf] at hbackslash

theorem plainEnd_feed (text : List Char) : PlainEnd (text ++ ['\n']) := by
  intro c hc
  rw [List.getLast?_concat] at hc
  obtain rfl := Option.some.inj hc
  decide

theorem escapeTripleQuotes_feed (text : List Char) :
    escapeTripleQuotes (text ++ ['\n']) = escapeTripleQuotes text ++ ['\n'] := by
  fun_induction escapeTripleQuotes text with
  | case1 text ih => simp [escapeTripleQuotes, ih]
  | case2 c text htriple ih =>
      rw [List.cons_append, escapeTripleQuotes_cons, ih]
      · rfl
      · intro rest hc htext
        match text, htext with
        | d :: e :: text, htext =>
            obtain ⟨rfl, hsecond⟩ := List.cons.inj htext
            obtain ⟨rfl, -⟩ := List.cons.inj hsecond
            exact htriple text hc rfl
  | case3 => rfl

theorem exists_framed {value : List Char} (h : '\r' ∉ value) :
    ∃ body, Framed value body ∧ PlainEnd body ∧
      print value = '"' :: '"' :: '"' :: (escapeTripleQuotes body ++ ['"', '"', '"']) := by
  have hescaped : '\r' ∉ escapeTripleQuotes value := by
    rwa [mem_escapeTripleQuotes (by decide)]
  by_cases hfeed : '\n' ∈ value
  -- several lines always stand between quotes on lines of their own
  · have hlines : ((sourceLines (escapeTripleQuotes value)).length == 1) = false := by
      have hmany := one_lt_length_sourceLines
        ((mem_escapeTripleQuotes (by decide) value).mpr hfeed) hescaped
      rw [beq_eq_false_iff_ne]
      omega
    refine ⟨'\n' :: (value ++ ['\n']), .spread (absurd hfeed), plainEnd_feed ('\n' :: value), ?_⟩
    rw [print]
    simp [hlines, escapeTripleQuotes_cons, escapeTripleQuotes_feed]
  · have hlines : sourceLines (escapeTripleQuotes value) = [escapeTripleQuotes value] :=
      sourceLines_unbroken ⟨by rwa [mem_escapeTripleQuotes (by decide)], hescaped⟩
    rw [print]
    simp only [hlines, List.length_singleton, beq_self_eq_true, Bool.not_true, Bool.false_and,
      Bool.false_or, Bool.or_false, Bool.true_and]
    cases hspread : decide (inlineLimit < value.length) ||
        (['"'].isSuffixOf value && !(['\\', '"', '"', '"'].isSuffixOf (escapeTripleQuotes value)) ||
          ['\\'].isSuffixOf value) ||
        ['\\', '"', '"', '"'].isSuffixOf (escapeTripleQuotes value) with
    | false =>
        have hend : PlainEnd value := by
          simp only [Bool.or_eq_false_iff, Bool.and_eq_false_iff, Bool.not_eq_false'] at hspread
          obtain ⟨⟨-, hquote, hbackslash⟩, hescape⟩ := hspread
          exact plainEnd_of_suffix (hquote.resolve_right (by simp [hescape])) hbackslash
        have hafter := hspread
        simp only [Bool.or_eq_false_iff] at hafter
        refine ⟨value, .plain hfeed, hend, ?_⟩
        simp [hafter.1.2]
    | true =>
        -- a line feed in front would make the indentation of the line one that can be cut
        cases hplace : value.head?.all isIndent with
        | true =>
            refine ⟨value ++ ['\n'], .ended hfeed, plainEnd_feed value, ?_⟩
            simp [escapeTripleQuotes_feed]
        | false =>
            have hhead : ∃ c ∈ value.head?, isIndent c = false := by
              simpa [Option.all_eq_false] using hplace
            refine ⟨'\n' :: (value ++ ['\n']), .spread fun _ => hhead,
              plainEnd_feed ('\n' :: value), ?_⟩
            simp [escapeTripleQuotes_feed, escapeTripleQuotes_cons]

/-! ### Reading the printed form -/

theorem valueOfLines_singleton {line : List Char} (h : ∃ c ∈ line.head?, isIndent c = false) :
    valueOfLines [[], line] = valueOfLines [line] := by
  obtain ⟨c, hc, hindent⟩ := h
  obtain ⟨line, rfl⟩ : ∃ more, line = c :: more := List.head?_eq_some_iff.mp hc
  have hline : isBlankLine (c :: line) = false := by simp [isBlankLine, hindent]
  have hcommon : commonIndent [c :: line] = 0 := by
    simp [commonIndent, hline, leadingIndent, hindent]
  rw [valueOfLines, valueOfLines, dedentLines, dedentLines, hcommon, dropBlankLines_cons rfl]
  rfl

theorem valueOfLines_indentLater (margin : Nat) (lines : List (List Char)) :
    valueOfLines (indentLater margin lines) = valueOfLines lines := by
  rw [valueOfLines, dedentLines_indentLater, valueOfLines]

theorem valueOfLines_append_blank (first : List Char) (later : List (List Char)) :
    valueOfLines (first :: (later ++ [[]])) = valueOfLines (first :: later) := by
  rw [valueOfLines, dedentLines_append_blank, valueOfLines]

/-- What is read does not depend on how the block was framed. -/
theorem valueOfLines_framed {value body : List Char} (hframed : Framed value body)
    (h : '\r' ∉ value) (margin : Nat) :
    valueOfLines (sourceLines (shifted margin body)) = reread value := by
  have hbody : '\r' ∉ body := by cases hframed <;> simpa using h
  rw [sourceLines_shifted hbody, valueOfLines_indentLater, reread]
  cases hframed with
  | plain hfeed => rw [if_neg hfeed, sourceLines_unbroken ⟨hfeed, h⟩]
  | ended hfeed =>
      rw [if_neg hfeed, sourceLines_append_feed h, sourceLines_unbroken ⟨hfeed, h⟩]
      exact valueOfLines_append_blank value []
  | spread hsingle =>
      have hlines : sourceLines ('\n' :: (value ++ ['\n'])) =
          [] :: (sourceLines value ++ [[]]) := by
        rw [sourceLines_feed, sourceLines_append_feed h]
        rfl
      rw [hlines, valueOfLines_append_blank]
      by_cases hfeed : '\n' ∈ value
      · rw [if_pos hfeed]
      · rw [if_neg hfeed, sourceLines_unbroken ⟨hfeed, h⟩, valueOfLines_singleton (hsingle hfeed)]

/-- The lexeme of a block is that of the value read back, wherever it stands. -/
theorem closed_print {value : List Char} (h : '\r' ∉ value) :
    Closed (print value) [.blockString (String.ofList (reread value))] := by
  intro margin rest
  obtain ⟨body, hframed, hend, hprint⟩ := exists_framed h
  have hquotes : '\n' ∉ ['"', '"', '"'] := by decide
  have hscan : scanLexeme '"' ('"' :: '"' :: (escapeTripleQuotes (shifted margin body) ++
      '"' :: '"' :: '"' :: rest)) = .ok (.blockString (String.ofList (reread value)),
        3 + (escapeTripleQuotes (shifted margin body)).length + 3 - 1) := by
    rw [scanLexeme, scanBlock_append (hend.shifted margin)]
    simp only [Except.map]
    rw [valueOfLines_framed hframed h]
  -- the lexeme is as long as the body and six quotes, the first of which is taken already
  have hdrop : ('"' :: '"' :: (escapeTripleQuotes (shifted margin body) ++
      '"' :: '"' :: '"' :: rest)).drop
        (3 + (escapeTripleQuotes (shifted margin body)).length + 3 - 1) = rest := by
    generalize escapeTripleQuotes (shifted margin body) = escaped
    have hlength : 3 + escaped.length + 3 - 1 =
        ('"' :: '"' :: (escaped ++ ['"', '"', '"'])).length := by
      simp
      omega
    have hsplit : '"' :: '"' :: (escaped ++ '"' :: '"' :: '"' :: rest) =
        ('"' :: '"' :: (escaped ++ ['"', '"', '"'])) ++ rest := by simp
    rw [hlength, hsplit, List.drop_left]
  have htext : shifted margin (print value) ++ rest = '"' :: '"' :: '"' ::
      (escapeTripleQuotes (shifted margin body) ++ '"' :: '"' :: '"' :: rest) := by
    rw [hprint, shifted_cons (by decide), shifted_cons (by decide), shifted_cons (by decide),
      shifted_append, shifted_of_not_mem hquotes, shifted_escapeTripleQuotes]
    simp
  rw [htext, lexemes_cons rfl (by decide) hscan, hdrop]
  rfl

end OperationLibrary.Syntax.BlockString
