import OperationLibrary.Proofs.Grammar
import OperationLibrary.Syntax.TypeSystemParser

/-!
What readers accept. The lexemes of a definition of the grammar are read as that definition, as long
as nothing behind them could be taken to belong to it.
-/

namespace OperationLibrary.Syntax

open Reader

variable {α β : Type}

/-- The lexemes that are still to be read. -/
def Cursor.lexemes (cursor : Cursor) : List Lexeme :=
  (cursor.current :: cursor.later).map Token.lexeme

/-- In front of `rest` the reader takes the lexemes `found` and gives `a`. -/
def Reads (reader : Reader α) (a : α) (found rest : List Lexeme) : Prop :=
  ∀ cursor : Cursor, cursor.lexemes = found ++ rest → rest ≠ [] →
    (∀ fault, .invalid fault ∉ cursor.lexemes) →
      ∃ next, StateT.run reader cursor = .ok (a, next) ∧ next.lexemes = rest

/-- None of the punctuators is at the front. -/
def Avoids (marks : List Punctuator) (rest : List Lexeme) : Prop :=
  ∀ mark ∈ marks, rest.head? ≠ some (.punctuator mark)

/-- There is a lexeme, and it is none of the punctuators. -/
def StartsOff (marks : List Punctuator) (found : List Lexeme) : Prop :=
  found ≠ [] ∧ Avoids marks found

theorem Avoids.mono {marks fewer : List Punctuator} {rest : List Lexeme} (h : Avoids marks rest)
    (hfewer : fewer ⊆ marks) : Avoids fewer rest :=
  fun mark hmark => h mark (hfewer hmark)

theorem StartsOff.avoids {marks : List Punctuator} {found : List Lexeme}
    (h : StartsOff marks found) (rest : List Lexeme) : Avoids marks (found ++ rest) := by
  obtain ⟨lexeme, more, rfl⟩ := List.exists_cons_of_ne_nil h.1
  exact h.2

namespace Reads

variable {reader : Reader α} {a : α} {b : β} {found others rest : List Lexeme}

theorem pure : Reads (Pure.pure a) a [] rest :=
  fun cursor hcursor _ _ => ⟨cursor, rfl, hcursor⟩

theorem bind {next : α → Reader β} (h : Reads reader a found (others ++ rest))
    (hnext : Reads (next a) b others rest) : Reads (reader >>= next) b (found ++ others) rest := by
  intro cursor hcursor hrest hvalid
  rw [List.append_assoc] at hcursor
  obtain ⟨middle, hrun, hmiddle⟩ := h cursor hcursor (by simp [hrest]) hvalid
  have hvalid' : ∀ fault, .invalid fault ∉ middle.lexemes := by
    intro fault hmem
    exact hvalid fault (hcursor ▸ List.mem_append_right _ (hmiddle ▸ hmem))
  obtain ⟨last, hrun', hlast⟩ := hnext middle hmiddle hrest hvalid'
  refine ⟨last, ?_, hlast⟩
  rw [StateT.run_bind, hrun]
  exact hrun'

/-- A reader that takes one lexeme, and one that reads on from there. -/
theorem cons {next : α → Reader β} {lexeme : Lexeme}
    (h : ∀ rest, Reads reader a [lexeme] rest) (hnext : Reads (next a) b others rest) :
    Reads (reader >>= next) b (lexeme :: others) rest :=
  (h (others ++ rest)).bind hnext

/-- A reader that only looks, and one that reads on. -/
theorem peek {next : α → Reader β} (h : Reads reader a [] (found ++ rest))
    (hnext : Reads (next a) b found rest) : Reads (reader >>= next) b found rest :=
  h.bind hnext

/-- A reader, and what is made of its result. -/
theorem give {f : α → β} (h : Reads reader a found rest) :
    Reads (reader >>= fun a => Pure.pure (f a)) (f a) found rest := by
  rw [← List.append_nil found]
  exact bind h pure

theorem map {f : α → β} (h : Reads reader a found rest) :
    Reads (f <$> reader) (f a) found rest := by
  rw [← bind_pure_comp]
  exact h.give

/-! ### Single lexemes -/

/-- A cursor with two lexemes to read has two tokens, and the second of them can be read. -/
theorem exists_tokens {cursor : Cursor} {lexeme : Lexeme} (h : cursor.lexemes = lexeme :: rest)
    (hrest : rest ≠ []) (hvalid : ∀ fault, .invalid fault ∉ cursor.lexemes) :
    ∃ token next later, cursor = ⟨token, next :: later⟩ ∧ token.lexeme = lexeme ∧
      (next :: later).map Token.lexeme = rest ∧ ∀ fault, next.lexeme ≠ .invalid fault := by
  obtain ⟨token, later⟩ := cursor
  obtain ⟨hlexeme, hlater⟩ := List.cons.inj h
  cases later with
  | nil => exact absurd hlater.symm hrest
  | cons next later =>
      refine ⟨token, next, later, rfl, hlexeme, hlater, fun fault hnext => hvalid fault ?_⟩
      simp [Cursor.lexemes, hnext]

theorem advance (lexeme : Lexeme) (rest : List Lexeme) :
    Reads Reader.advance () [lexeme] rest := by
  intro cursor hcursor hrest hvalid
  obtain ⟨token, next, later, rfl, -, hlater, hnext⟩ := exists_tokens hcursor hrest hvalid
  refine ⟨⟨next, later⟩, ?_, hlater⟩
  obtain ⟨lexeme, offset⟩ := next
  cases lexeme with
  | invalid fault => exact absurd rfl (hnext fault)
  | _ => rfl

/-- The current token is one of the first lexeme. -/
theorem current {next : Token → Reader β}
    (hnext : ∀ token : Token, (found ++ rest).head? = some token.lexeme →
      Reads (next token) b found rest) :
    Reads (Reader.current >>= next) b found rest := by
  intro cursor hcursor hrest hvalid
  have hhead : (found ++ rest).head? = some cursor.current.lexeme := by
    rw [← hcursor]
    rfl
  exact hnext cursor.current hhead cursor hcursor hrest hvalid

theorem lookahead {next : Token → Reader β} {first second : Lexeme} {more : List Lexeme}
    (hhead : found ++ rest = first :: second :: more)
    (hnext : ∀ token : Token, token.lexeme = second → Reads (next token) b found rest) :
    Reads (Reader.lookahead >>= next) b found rest := by
  intro cursor hcursor hrest hvalid
  obtain ⟨token, ⟨lexeme, offset⟩, later, rfl, -, hlater, hvalid'⟩ :=
    exists_tokens (hcursor.trans hhead) (List.cons_ne_nil _ _) hvalid
  obtain ⟨last, hrun, hlast⟩ :=
    hnext ⟨lexeme, offset⟩ (List.cons.inj hlater).1 _ hcursor hrest hvalid
  refine ⟨last, ?_, hlast⟩
  cases lexeme with
  | invalid fault => exact absurd rfl (hvalid' fault)
  | _ => exact hrun

theorem atMark_true {mark : Punctuator} (h : rest.head? = some (.punctuator mark)) :
    Reads (atMark mark) true [] rest :=
  current fun token htoken => by
    rw [← Option.some.inj (h.symm.trans htoken), decide_eq_true rfl]
    exact pure

theorem atMark_false {mark : Punctuator} (h : Avoids [mark] rest) :
    Reads (atMark mark) false [] rest :=
  current fun token htoken => by
    have hne : token.lexeme ≠ .punctuator mark := fun heq =>
      h mark (List.mem_singleton_self mark) (heq ▸ htoken)
    rw [decide_eq_false hne]
    exact pure

theorem atName_true {name : String} (h : rest.head? = some (.name name)) :
    Reads atName true [] rest :=
  current fun token htoken => by
    rw [← Option.some.inj (h.symm.trans htoken)]
    exact pure

theorem atName_false (h : ∀ name, rest.head? ≠ some (.name name)) : Reads atName false [] rest :=
  current fun token htoken => by
    split
    · rename_i name hname
      exact absurd (hname ▸ htoken) (h name)
    · exact pure

theorem takeMark (mark : Punctuator) (rest : List Lexeme) :
    Reads (takeMark mark) () [.punctuator mark] rest :=
  current fun token htoken => by
    rw [if_pos (Option.some.inj htoken).symm]
    exact advance _ rest

theorem takeMark?_true (mark : Punctuator) (rest : List Lexeme) :
    Reads (takeMark? mark) true [.punctuator mark] rest :=
  peek (atMark_true rfl) (cons (advance _) pure)

theorem takeMark?_false {mark : Punctuator} (h : Avoids [mark] rest) :
    Reads (takeMark? mark) false [] rest :=
  peek (atMark_false h) pure

theorem takeName (name : String) (rest : List Lexeme) :
    Reads takeName name [.name name] rest :=
  current fun token htoken => by
    rw [← Option.some.inj htoken]
    exact cons (advance _) pure

theorem takeKeyword (word : String) (rest : List Lexeme) :
    Reads (takeKeyword word) () [.name word] rest :=
  current fun token htoken => by
    rw [if_pos (Option.some.inj htoken).symm]
    exact advance _ rest

theorem takeKeyword?_true (word : String) (rest : List Lexeme) :
    Reads (takeKeyword? word) true [.name word] rest :=
  current fun token htoken => by
    rw [if_pos (Option.some.inj htoken).symm]
    exact cons (advance _) pure

theorem takeKeyword?_false {word : String} (h : rest.head? ≠ some (.name word)) :
    Reads (takeKeyword? word) false [] rest :=
  current fun token htoken => by
    have hne : token.lexeme ≠ .name word := fun heq => h (heq ▸ htoken)
    rw [if_neg hne]
    exact pure

end Reads

/-! ### Repetition -/

/-- Every item has a lexeme, so the bound on the rounds is not met. -/
theorem length_le_length_flatMap {lexemes : α → List Lexeme} {items : List α}
    (h : ∀ a ∈ items, lexemes a ≠ []) : items.length ≤ (items.flatMap lexemes).length := by
  induction items with
  | nil => exact Nat.zero_le _
  | cons first others ih =>
      have hfirst := List.length_pos_iff.mpr (h first List.mem_cons_self)
      have hothers := ih fun a ha => h a (List.mem_cons_of_mem _ ha)
      rw [List.length_cons, List.flatMap_cons, List.length_append]
      omega

/-- Items up to a closing punctuator: each of them is read if none of `marks` is behind it, and
starts with none of them. -/
structure ReadsAll (item : Reader α) (lexemes : α → List Lexeme) (close : Punctuator)
    (marks : List Punctuator) (items : List α) : Prop where
  reads : ∀ a ∈ items, ∀ rest, Avoids marks rest → Reads item a (lexemes a) rest
  starts : ∀ a ∈ items, StartsOff (close :: marks) (lexemes a)
  close_not_mem : close ∉ marks

namespace ReadsAll

variable {item : Reader α} {lexemes : α → List Lexeme} {close : Punctuator}
  {marks : List Punctuator} {a : α} {items : List α}

theorem tail (h : ReadsAll item lexemes close marks (a :: items)) :
    ReadsAll item lexemes close marks items :=
  ⟨fun b hb => h.reads b (List.mem_cons_of_mem _ hb),
    fun b hb => h.starts b (List.mem_cons_of_mem _ hb), h.close_not_mem⟩

/-- Behind an item there is another one or the end of the items. -/
theorem avoids (h : ReadsAll item lexemes close marks items) (rest : List Lexeme) :
    Avoids marks (items.flatMap lexemes ++ [.punctuator close] ++ rest) := by
  cases items with
  | nil =>
      intro mark hmark heq
      cases heq
      exact h.close_not_mem hmark
  | cons first others =>
      rw [List.flatMap_cons, List.append_assoc, List.append_assoc]
      exact ((h.starts first List.mem_cons_self).avoids _).mono (List.subset_cons_self _ _)

theorem untilMarkBounded (h : ReadsAll item lexemes close marks items) {rounds : Nat}
    (hrounds : items.length < rounds) (rest : List Lexeme) :
    Reads (Reader.untilMarkBounded close item rounds) items
      (items.flatMap lexemes ++ [.punctuator close]) rest := by
  induction items generalizing rounds with
  | nil =>
      obtain ⟨rounds, rfl⟩ : ∃ n, rounds = n + 1 := ⟨rounds - 1, by omega⟩
      exact Reads.cons (Reads.takeMark?_true close) Reads.pure
  | cons first others ih =>
      obtain ⟨rounds, rfl⟩ : ∃ n, rounds = n + 1 := ⟨rounds - 1, by omega⟩
      have hothers := ih h.tail (Nat.lt_of_succ_lt_succ hrounds)
      have hfirst := h.reads first List.mem_cons_self _ (h.tail.avoids rest)
      rw [List.flatMap_cons, List.append_assoc]
      refine Reads.peek (Reads.takeMark?_false ?_) (hfirst.bind hothers.give)
      rw [List.append_assoc]
      exact ((h.starts first List.mem_cons_self).avoids _).mono (by simp)

theorem untilMark (h : ReadsAll item lexemes close marks items) (rest : List Lexeme) :
    Reads (Reader.untilMark close item) items (items.flatMap lexemes ++ [.punctuator close])
      rest := by
  -- there are at least as many tokens as items, and one that closes them
  intro cursor hcursor hrest hvalid
  have hlength : cursor.later.length + 1 = cursor.lexemes.length := by simp [Cursor.lexemes]
  have hrounds : items.length < cursor.later.length + 2 := by
    have hle := length_le_length_flatMap fun a ha => (h.starts a ha).1
    simp only [hcursor, List.length_append] at hlength
    omega
  exact h.untilMarkBounded hrounds rest cursor hcursor hrest hvalid

theorem between (h : ReadsAll item lexemes close marks items) (openMark : Punctuator)
    (rest : List Lexeme) :
    Reads (Reader.between openMark close item) items
      (.punctuator openMark :: (items.flatMap lexemes ++ [.punctuator close])) rest :=
  Reads.cons (Reads.takeMark openMark) (h.untilMark rest)

theorem betweenIfOpen (h : ReadsAll item lexemes close marks items) {openMark : Punctuator}
    {rest : List Lexeme} (hrest : Avoids [openMark] rest) :
    Reads (Reader.betweenIfOpen openMark close item) items
      (enclosedLexemes openMark close lexemes items) rest := by
  cases items with
  | nil => exact Reads.peek (Reads.takeMark?_false hrest) Reads.pure
  | cons first others =>
      have hfirst := h.reads first List.mem_cons_self _ (h.tail.avoids rest)
      rw [enclosedLexemes, List.isEmpty_cons, if_neg Bool.false_ne_true, List.flatMap_cons,
        List.append_assoc]
      exact Reads.cons (Reads.takeMark?_true openMark) (hfirst.bind (h.tail.untilMark rest).give)

end ReadsAll

/-- Items that each start with a punctuator, read for as long as there is one. -/
structure ReadsWhile (item : Reader α) (lexemes : α → List Lexeme) (mark : Punctuator)
    (marks : List Punctuator) (items : List α) : Prop where
  reads : ∀ a ∈ items, ∀ rest, Avoids marks rest → Reads item a (lexemes a) rest
  starts : ∀ a ∈ items, ∃ more, lexemes a = .punctuator mark :: more
  mark_not_mem : mark ∉ marks

namespace ReadsWhile

variable {item : Reader α} {lexemes : α → List Lexeme} {mark : Punctuator}
  {marks : List Punctuator} {a : α} {items : List α} {rest : List Lexeme}

theorem tail (h : ReadsWhile item lexemes mark marks (a :: items)) :
    ReadsWhile item lexemes mark marks items :=
  ⟨fun b hb => h.reads b (List.mem_cons_of_mem _ hb),
    fun b hb => h.starts b (List.mem_cons_of_mem _ hb), h.mark_not_mem⟩

theorem avoids (h : ReadsWhile item lexemes mark marks items)
    (hrest : Avoids (mark :: marks) rest) : Avoids marks (items.flatMap lexemes ++ rest) := by
  cases items with
  | nil => exact hrest.mono (List.subset_cons_self _ _)
  | cons first others =>
      obtain ⟨more, hfirst⟩ := h.starts first List.mem_cons_self
      intro other hother heq
      rw [List.flatMap_cons, hfirst] at heq
      cases heq
      exact h.mark_not_mem hother

theorem whileMarkBounded (h : ReadsWhile item lexemes mark marks items) {rounds : Nat}
    (hrounds : items.length ≤ rounds) (hrest : Avoids (mark :: marks) rest) :
    Reads (Reader.whileMarkBounded mark item rounds) items (items.flatMap lexemes) rest := by
  induction items generalizing rounds with
  | nil =>
      cases rounds with
      | zero => exact Reads.pure
      | succ rounds => exact Reads.peek (Reads.atMark_false (hrest.mono (by simp))) Reads.pure
  | cons first others ih =>
      obtain ⟨rounds, rfl⟩ : ∃ n, rounds = n + 1 := ⟨rounds - 1, by simp at hrounds; omega⟩
      obtain ⟨more, hhead⟩ := h.starts first List.mem_cons_self
      have hfirst := h.reads first List.mem_cons_self _ (h.tail.avoids hrest)
      have hothers := ih h.tail (Nat.le_of_succ_le_succ hrounds)
      rw [List.flatMap_cons]
      exact Reads.peek (Reads.atMark_true (by rw [hhead]; rfl)) (hfirst.bind hothers.give)

theorem whileMark (h : ReadsWhile item lexemes mark marks items)
    (hrest : Avoids (mark :: marks) rest) :
    Reads (Reader.whileMark mark item) items (items.flatMap lexemes) rest := by
  have hle : items.length ≤ (items.flatMap lexemes).length :=
    length_le_length_flatMap fun a ha => by
      obtain ⟨more, hmore⟩ := h.starts a ha
      simp [hmore]
  intro cursor hcursor hne hvalid
  have hlength : cursor.later.length + 1 = cursor.lexemes.length := by simp [Cursor.lexemes]
  have hrounds : items.length ≤ cursor.later.length + 2 := by
    simp only [hcursor, List.length_append] at hlength
    omega
  exact h.whileMarkBounded hrounds hrest cursor hcursor hne hvalid

end ReadsWhile

end OperationLibrary.Syntax
