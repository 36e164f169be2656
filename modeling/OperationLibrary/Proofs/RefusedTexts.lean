import OperationLibrary.Proofs.GrammarReading

/-!
What readers refuse. A reader that meets a lexeme it has no use for fails, and so does every reader
that gets there. Between the name of an operation and its selections there is no place for a
string.
-/

namespace OperationLibrary.Syntax

open Reader

variable {α β : Type}

/-- In front of `rest` the reader fails. -/
def Refuses (reader : Reader α) (rest : List Lexeme) : Prop :=
  ∀ cursor : Cursor, cursor.lexemes = rest → (∀ fault, .invalid fault ∉ cursor.lexemes) →
    ∃ error, StateT.run reader cursor = .error error

namespace Refuses

variable {reader : Reader α} {a : α} {found rest : List Lexeme}

/-- What comes behind a reader that fails makes no difference. -/
theorem bind (h : Refuses reader rest) (next : α → Reader β) : Refuses (reader >>= next) rest := by
  intro cursor hcursor hvalid
  obtain ⟨error, hrun⟩ := h cursor hcursor hvalid
  refine ⟨error, ?_⟩
  rw [StateT.run_bind, hrun]
  rfl

/-- A reader that reads, and one that fails from there on. -/
theorem after {next : α → Reader β} (h : Reads reader a found rest) (hrest : rest ≠ [])
    (hnext : Refuses (next a) rest) : Refuses (reader >>= next) (found ++ rest) := by
  intro cursor hcursor hvalid
  obtain ⟨middle, hrun, hmiddle⟩ := h cursor hcursor hrest hvalid
  have hvalid' : ∀ fault, .invalid fault ∉ middle.lexemes := by
    intro fault hmem
    exact hvalid fault (hcursor ▸ List.mem_append_right _ (hmiddle ▸ hmem))
  obtain ⟨error, hrun'⟩ := hnext middle hmiddle hvalid'
  refine ⟨error, ?_⟩
  rw [StateT.run_bind, hrun]
  exact hrun'

/-- A reader that only looks, and one that fails. -/
theorem peek {next : α → Reader β} (h : Reads reader a [] rest) (hrest : rest ≠ [])
    (hnext : Refuses (next a) rest) : Refuses (reader >>= next) rest :=
  after h hrest hnext

/-- A reader that looks at the current token, and one that fails. -/
theorem current {next : Token → Reader β}
    (hnext : ∀ token : Token, rest.head? = some token.lexeme → Refuses (next token) rest) :
    Refuses (Reader.current >>= next) rest := by
  intro cursor hcursor hvalid
  have hhead : rest.head? = some cursor.current.lexeme := by
    rw [← hcursor]
    rfl
  exact hnext cursor.current hhead cursor hcursor hvalid

theorem takeMark {mark : Punctuator} (h : Avoids [mark] rest) : Refuses (takeMark mark) rest :=
  current fun token htoken cursor _ _ => by
    have hne : token.lexeme ≠ .punctuator mark := fun heq =>
      h mark (List.mem_singleton_self mark) (heq ▸ htoken)
    rw [if_neg hne]
    exact ⟨_, rfl⟩

end Refuses

/-! ### Texts -/

/-- Nothing but a punctuator is taken for one. -/
theorem Description.avoids (literal : Description) (marks : List Punctuator) (rest : List Lexeme) :
    Avoids marks (literal.lexeme :: rest) :=
  avoids_cons (fun mark _ => literal.lexeme_ne.1 mark) rest

section

variable (kind : OperationKind) (name : String) (literal : Description) (rest : List Lexeme)

/-- Behind the name of an operation there are variables, directives or selections, and no
string. -/
theorem refuses_operation :
    Refuses readOperation (.name kind.keyword :: .name name :: literal.lexeme :: rest) := by
  have hne : literal.lexeme :: rest ≠ [] := List.cons_ne_nil _ _
  have hvariables : Reads (betweenIfOpen .parenOpen .parenClose readVariableDefinition) [] []
      (literal.lexeme :: rest) :=
    reads_variableDefinitions (p := fun _ => True) (by simp) (literal.avoids _ rest)
  have hdirectives : Reads (readDirectives false nestingLimit) [] [] (literal.lexeme :: rest) :=
    reads_directives (p := fun _ => True) (by simp) (literal.avoids _ rest)
  have hselections : Refuses (readSelections nestingLimit) (literal.lexeme :: rest) := by
    rw [nestingLimit, readSelections]
    exact (Refuses.takeMark (literal.avoids _ rest)).bind _
  have hdescription : Reads readDescription? none []
      (.name kind.keyword :: .name name :: literal.lexeme :: rest) :=
    reads_description none fun other heq => other.lexeme_ne.2.1 _ (Option.some.inj heq).symm
  refine .peek (Reads.atMark_false (avoids_cons (by simp) _)) (by simp) ?_
  refine .peek hdescription (by simp) (.after (reads_operationKind kind _) (by simp) ?_)
  refine .peek (Reads.atName_true rfl) (by simp) (.after (Reads.takeName name _).map hne ?_)
  exact .peek hvariables hne (.peek hdirectives hne (hselections.bind _))

theorem refuses_definition :
    Refuses readDefinition (.name kind.keyword :: .name name :: literal.lexeme :: rest) := by
  obtain ⟨hsystem, hkind⟩ := isTypeSystemKeyword_keyword kind
  refine .peek (Reads.atMark_false (avoids_cons (by simp) _)) (by simp) ?_
  refine .current fun start hstart => ?_
  rw [← Option.some.inj hstart]
  dsimp only
  rw [readDefinitionOf, ← Option.some.inj hstart]
  simp only [hsystem, hkind, Option.isSome_some, Bool.false_eq_true, if_false, if_true]
  exact (refuses_operation kind name literal rest).bind _

end

/-- A text that goes on with a string behind the name of an operation cannot be read. -/
theorem parse_error_of_string {source : String} {kind : OperationKind} {name : String}
    {literal : Description} {rest : List Lexeme}
    (hsource : lexemes source.toList =
      .name kind.keyword :: .name name :: literal.lexeme :: rest)
    (hvalid : ∀ fault, .invalid fault ∉ lexemes source.toList) :
    ∃ error, Document.parse source = .error error := by
  have hscan : (Token.scan source).map Token.lexeme =
    .name kind.keyword :: .name name :: literal.lexeme :: rest := hsource
  rw [lexemes, ← Token.scan] at hvalid
  rw [Document.parse, Reader.run]
  cases htokens : Token.scan source with
  | nil => simp [htokens] at hscan
  | cons first later =>
      rw [htokens] at hscan hvalid
      have hrefuses := (refuses_definition kind name literal rest).bind
        (fun first => do
          if (← Reader.current).lexeme = .eof then return [first]
          else return first :: (← readDefinitionsBounded later.length))
      obtain ⟨error, hrun⟩ := hrefuses ⟨first, later⟩ hscan hvalid
      obtain ⟨lexeme, offset⟩ := first
      cases lexeme with
      | invalid fault => exact ⟨_, rfl⟩
      | _ => exact ⟨error, congrArg (Except.map Prod.fst) hrun⟩

end OperationLibrary.Syntax
