import OperationLibrary.Proofs.ReaderCompleteness
import OperationLibrary.Proofs.ScannedLexemes

/-!
Definitions of the grammar are read from their lexemes.
-/

namespace OperationLibrary.Syntax

open Reader Reads

variable {p : Description → Prop}

theorem startsOff_cons {marks : List Punctuator} {lexeme : Lexeme}
    (h : ∀ mark ∈ marks, lexeme ≠ .punctuator mark) (more : List Lexeme) :
    StartsOff marks (lexeme :: more) :=
  ⟨List.cons_ne_nil _ _, fun mark hmark heq => h mark hmark (Option.some.inj heq)⟩

theorem avoids_cons {marks : List Punctuator} {lexeme : Lexeme}
    (h : ∀ mark ∈ marks, lexeme ≠ .punctuator mark) (more : List Lexeme) :
    Avoids marks (lexeme :: more) :=
  (startsOff_cons h more).2

theorem avoids_mark {marks : List Punctuator} {mark : Punctuator} (h : mark ∉ marks)
    (more : List Lexeme) : Avoids marks (.punctuator mark :: more) := by
  intro other hother heq
  cases heq
  exact h hother

/-! ### Values -/

theorem Value.startsOff (value : Value) : StartsOff [.bracketClose] value.lexemes := by
  cases value with
  | string text block =>
      rw [Value.lexemes]
      exact startsOff_cons (fun mark _ => (Description.lexeme_ne _).1 mark) _
  | _ => simp [Value.lexemes, StartsOff, Avoids]

/-- Where a value is expected, a token that opens nothing and is no variable is read alone. -/
theorem reads_of_leaf {constant : Bool} {room : Nat} {value : Value} {lexeme : Lexeme}
    (hlexeme : ∀ mark, lexeme ≠ .punctuator mark) {rest : List Lexeme}
    (h : Reads readLeaf value [lexeme] rest) :
    Reads (readValue constant room) value [lexeme] rest := by
  have hleaf : ∀ {token : Token}, ([lexeme] ++ rest).head? = some token.lexeme →
      ∀ mark, token.lexeme ≠ .punctuator mark :=
    fun htoken => Option.some.inj htoken ▸ hlexeme
  cases room with
  | zero | succ room =>
      refine current fun token htoken => ?_
      split
      · rename_i hopen; exact absurd hopen (hleaf htoken _)
      · rename_i hopen; exact absurd hopen (hleaf htoken _)
      · rename_i hopen; exact absurd hopen (hleaf htoken _)
      · exact h

theorem reads_variable {name : String} (room : Nat) (rest : List Lexeme) :
    Reads (readValue false room) (.variable name) [.punctuator .dollar, .name name] rest := by
  have hvariable : Reads (readVariable false) (.variable name)
      [.punctuator .dollar, .name name] rest :=
    current fun _ _ => cons (takeMark .dollar) (takeName name rest).give
  cases room with
  | zero | succ room =>
      refine current fun token htoken => ?_
      rw [← Option.some.inj htoken]
      exact hvariable

theorem Value.Fits.reads {constant : Bool} {room : Nat} {value : Value}
    (h : value.Fits p constant room) (rest : List Lexeme) :
    Reads (readValue constant room) value value.lexemes rest := by
  induction h generalizing rest with
  | «variable» hconstant hname =>
      subst hconstant
      rw [Value.lexemes]
      exact reads_variable _ rest
  | int hdigits | float hdigits | null =>
      rw [Value.lexemes]
      refine reads_of_leaf (by simp) (current fun token htoken => ?_)
      rw [← Option.some.inj htoken]
      exact peek pure (cons (advance _) pure)
  | @string _ text block hliteral =>
      rw [Value.lexemes]
      refine reads_of_leaf (Description.lexeme_ne _).1 (current fun token htoken => ?_)
      rw [← Option.some.inj htoken]
      cases block <;> exact peek pure (cons (advance _) pure)
  | boolean value =>
      rw [Value.lexemes]
      refine reads_of_leaf (by simp) (current fun token htoken => ?_)
      rw [← Option.some.inj htoken]
      cases value <;> exact peek pure (cons (advance _) pure)
  | enum hname hreserved =>
      rw [Value.lexemes]
      -- the words that are values of their own are no values of an enum
      simp only [List.mem_cons, List.not_mem_nil, or_false, not_or] at hreserved
      refine reads_of_leaf (by simp) (current fun token htoken => ?_)
      rw [← Option.some.inj htoken]
      split
      case h_5 _ htrue => exact absurd (Lexeme.name.inj htrue) hreserved.1
      case h_6 _ hfalse => exact absurd (Lexeme.name.inj hfalse) hreserved.2.1
      case h_7 _ hnull => exact absurd (Lexeme.name.inj hnull) hreserved.2.2
      case h_8 hlexeme =>
        obtain rfl := Lexeme.name.inj hlexeme
        exact peek pure (cons (advance _) pure)
      case h_9 hother => exact (hother _ rfl).elim
      all_goals contradiction
  | list hitems ih =>
      have hall : ReadsAll (readValue constant _) Value.lexemes .bracketClose [] _ :=
        ⟨fun item hitem rest _ => ih item hitem rest, fun item _ => item.startsOff, by simp⟩
      rw [Value.lexemes]
      refine current fun token htoken => ?_
      rw [← Option.some.inj htoken]
      exact (hall.between .bracketOpen rest).give
  | object hnames hvalues ih =>
      have hall : ReadsAll (readValue.readObjectField (readValue constant _))
          (fun field => .name field.1 :: .punctuator .colon :: field.2.lexemes) .braceClose [] _ :=
        ⟨fun field hfield rest _ =>
            cons (takeName _) (cons (takeMark _) (ih field hfield rest).give),
          fun field _ => startsOff_cons (by simp) _, by simp⟩
      rw [Value.lexemes]
      refine current fun token htoken => ?_
      rw [← Option.some.inj htoken]
      exact (hall.between .braceOpen rest).give

/-! ### Arguments, directives and types -/

section

variable {constant : Bool} {room : Nat}

theorem Argument.Fits.reads {argument : Argument} (h : argument.Fits p constant room)
    (rest : List Lexeme) :
    Reads (readArgument constant room) argument argument.lexemes rest :=
  cons (takeName _) (cons (takeMark _) (h.value.reads rest).give)

theorem reads_arguments {arguments : List Argument}
    (h : ∀ argument ∈ arguments, argument.Fits p constant room) {rest : List Lexeme}
    (hrest : Avoids [.parenOpen] rest) :
    Reads (readArguments constant room) arguments (argumentLexemes arguments) rest := by
  have hall : ReadsAll (readArgument constant room) Argument.lexemes .parenClose [] arguments :=
    ⟨fun argument hargument rest _ => (h argument hargument).reads rest,
      fun argument _ => startsOff_cons (by simp) _, by simp⟩
  exact hall.betweenIfOpen hrest

theorem Directive.Fits.reads {directive : Directive} (h : directive.Fits p constant room)
    {rest : List Lexeme} (hrest : Avoids [.parenOpen] rest) :
    Reads (readDirective constant room) directive directive.lexemes rest :=
  cons (takeMark _) (cons (takeName _) (reads_arguments h.arguments hrest).give)

theorem reads_directives {directives : List Directive}
    (h : ∀ directive ∈ directives, directive.Fits p constant room) {rest : List Lexeme}
    (hrest : Avoids [.at, .parenOpen] rest) :
    Reads (readDirectives constant room) directives (directiveLexemes directives) rest := by
  have hall : ReadsWhile (readDirective constant room) Directive.lexemes .at [.parenOpen]
      directives :=
    ⟨fun directive hdirective rest hrest => (h directive hdirective).reads hrest,
      fun directive _ => ⟨_, rfl⟩, by simp⟩
  exact hall.whileMark hrest

/-- Behind directives, or where there are none. -/
theorem avoids_directiveLexemes {marks : List Punctuator} (hmarks : .at ∉ marks)
    (directives : List Directive) {rest : List Lexeme} (hrest : Avoids marks rest) :
    Avoids marks (directiveLexemes directives ++ rest) := by
  cases directives with
  | nil => exact hrest
  | cons first others =>
      exact avoids_mark hmarks _

theorem avoids_enclosedLexemes {α : Type} {marks : List Punctuator} {openMark close : Punctuator}
    (hmarks : openMark ∉ marks) (lexemes : α → List Lexeme) (items : List α)
    {rest : List Lexeme} (hrest : Avoids marks rest) :
    Avoids marks (enclosedLexemes openMark close lexemes items ++ rest) := by
  cases items with
  | nil => exact hrest
  | cons first others =>
      exact avoids_mark hmarks _

end

theorem reads_nonNullMark_of_avoids (type : TypeRef) {rest : List Lexeme}
    (hrest : Avoids [.bang] rest) : Reads (readNonNullMark type) type [] rest :=
  peek (takeMark?_false hrest) pure

theorem reads_nonNullMark (type : TypeRef) (rest : List Lexeme) :
    Reads (readNonNullMark type) (.nonNull type) [.punctuator .bang] rest :=
  cons (takeMark?_true _) pure

/-- A type is read up to the mark that it is never null, or up to where there is no such mark. -/
theorem TypeRef.Fits.reads_cases {room : Nat} {type : TypeRef} (h : type.Fits room) :
    (type.isNonNull = false → ∀ {result : TypeRef} {mark rest : List Lexeme},
      Reads (readNonNullMark type) result mark rest →
        Reads (readTypeRef room) result (type.lexemes ++ mark) rest) ∧
      ∀ {rest : List Lexeme}, Avoids [.bang] rest →
        Reads (readTypeRef room) type type.lexemes rest := by
  -- where no mark comes, the reader of the mark gives the type as it is
  have hdone : ∀ {room : Nat} {type : TypeRef} {rest : List Lexeme}, (∀ {mark : List Lexeme},
      Reads (readNonNullMark type) type mark rest →
        Reads (readTypeRef room) type (type.lexemes ++ mark) rest) → Avoids [.bang] rest →
          Reads (readTypeRef room) type type.lexemes rest := by
    intro room type rest hmark hrest
    have hread := hmark (reads_nonNullMark_of_avoids type hrest)
    rwa [List.append_nil] at hread
  induction h with
  | @named room name hname =>
      have hread : ∀ {result : TypeRef} {mark rest : List Lexeme},
          Reads (readNonNullMark (.named name)) result mark rest →
            Reads (readTypeRef room) result (.name name :: mark) rest := by
        intro result mark rest hmark
        have hopen : Avoids [.bracketOpen] (.name name :: (mark ++ rest)) :=
          avoids_cons (by simp) _
        cases room with
        | zero | succ room => exact peek (takeMark?_false hopen) (cons (takeName name) hmark)
      exact ⟨fun _ => hread, hdone hread⟩
  | @list room item hitem ih =>
      have hread : ∀ {result : TypeRef} {mark rest : List Lexeme},
          Reads (readNonNullMark (.list item)) result mark rest →
            Reads (readTypeRef (room + 1)) result (TypeRef.lexemes (.list item) ++ mark) rest := by
        intro result mark rest hmark
        rw [TypeRef.lexemes, List.cons_append, List.append_assoc]
        exact cons (takeMark?_true _) ((ih.2 (avoids_mark (by simp) _)).bind
          (cons (takeMark _) hmark))
      exact ⟨fun _ => hread, hdone hread⟩
  | @nonNull room inner hinner hnull ih =>
      exact ⟨fun h => (nomatch h), fun {rest} _ => ih.1 hnull (reads_nonNullMark inner rest)⟩

theorem TypeRef.Fits.reads {room : Nat} {type : TypeRef} (h : type.Fits room) {rest : List Lexeme}
    (hrest : Avoids [.bang] rest) : Reads (readTypeRef room) type type.lexemes rest :=
  h.reads_cases.2 hrest

/-! ### Selections -/

theorem reads_fieldName (aliasName : Option String) (name : String) {rest : List Lexeme}
    (hrest : Avoids [.colon] rest) :
    Reads readFieldName (aliasName, name)
      ((aliasName.map fun word => [.name word, .punctuator .colon]).getD [] ++ [.name name])
      rest := by
  cases aliasName with
  | none => exact cons (takeName _) (peek (takeMark?_false hrest) pure)
  | some word => exact cons (takeName _) (cons (takeMark?_true _) (takeName name rest).give)

/-- The head of a field, and what is read behind it. -/
theorem FieldHead.Fits.reads_then {room : Nat} {head : FieldHead} (h : head.Fits p room)
    {selections : Reader (List Selection)} {inner : Option (List Selection)}
    {found rest : List Lexeme} (hrest : Avoids [.colon, .parenOpen, .at] (found ++ rest))
    (hinner : Reads (do
      let inner ← if ← Reader.atMark .braceOpen then some <$> selections else Pure.pure none
      return Selection.field head inner) (.field head inner) found rest) :
    Reads (readSelectionWith selections room) (.field head inner) (head.lexemes ++ found)
      rest := by
  -- what stands behind a part must not be taken for more of it
  have hcolon : Avoids [.colon] (directiveLexemes head.directives ++ (found ++ rest)) :=
    avoids_directiveLexemes (by decide) _ (hrest.mono (by simp))
  have hopen : Avoids [.parenOpen] (directiveLexemes head.directives ++ (found ++ rest)) :=
    avoids_directiveLexemes (by decide) _ (hrest.mono (by simp))
  have hcall : Avoids [.colon] (argumentLexemes head.arguments ++
      (directiveLexemes head.directives ++ (found ++ rest))) :=
    avoids_enclosedLexemes (by decide) _ _ hcolon
  have hname := reads_fieldName head.aliasName head.name hcall
  have harguments := reads_arguments h.arguments hopen
  have hbehind : Avoids [.at, .parenOpen] (found ++ rest) := hrest.mono (by simp)
  have hdirectives := reads_directives h.directives hbehind
  have hellipsis : Avoids [.ellipsis] (head.lexemes ++ found ++ rest) := by
    rw [FieldHead.lexemes, List.append_assoc, List.append_assoc]
    cases head.aliasName with
    | none => exact avoids_cons (by simp) _
    | some word => exact avoids_cons (by simp) _
  refine peek (takeMark?_false hellipsis) ?_
  have hlexemes : head.lexemes ++ found =
      ((head.aliasName.map fun word => [.name word, .punctuator .colon]).getD [] ++
        [.name head.name]) ++ (argumentLexemes head.arguments ++
          (directiveLexemes head.directives ++ found)) := by
    simp [FieldHead.lexemes]
  rw [← List.append_assoc] at harguments
  rw [← List.append_assoc (directiveLexemes _), ← List.append_assoc] at hname
  rw [hlexemes]
  exact hname.bind (harguments.bind (hdirectives.bind hinner))

/-- What must not stand behind a selection. -/
def selectionMarks : List Punctuator := [.colon, .parenOpen, .at, .braceOpen]

theorem Selection.startsOff (selection : Selection) :
    StartsOff (.braceClose :: selectionMarks) selection.lexemes := by
  cases selection with
  | field head inner =>
      have hhead : StartsOff (.braceClose :: selectionMarks) head.lexemes := by
        rw [FieldHead.lexemes]
        cases head.aliasName with
        | none => exact startsOff_cons (by simp) _
        | some word => exact startsOff_cons (by simp) _
      cases inner with
      | none => rwa [Selection.lexemes]
      | some selections =>
          rw [Selection.lexemes]
          exact ⟨by simp [hhead.1], hhead.avoids _⟩
  | spread fragment directives =>
      rw [Selection.lexemes]
      exact startsOff_cons (by decide) _
  | inline condition directives selections =>
      rw [Selection.lexemes]
      exact startsOff_cons (by decide) _

theorem reads_selections {room : Nat} {selections : List Selection}
    (h : ∀ selection ∈ selections, ∀ rest, Avoids selectionMarks rest →
      Reads (readSelectionWith (readSelections room) room) selection selection.lexemes rest)
    (rest : List Lexeme) :
    Reads (readSelections (room + 1)) selections (selectionLexemes selections) rest := by
  have hall : ReadsAll (readSelectionWith (readSelections room) room) Selection.lexemes
      .braceClose selectionMarks selections :=
    ⟨h, fun selection _ => selection.startsOff, by decide⟩
  exact hall.between .braceOpen rest

theorem reads_fragmentName {name : String} (h : name ≠ "on") (rest : List Lexeme) :
    Reads readFragmentName name [.name name] rest :=
  current fun token htoken => by
    have hon : token.lexeme.text? ≠ some "on" := by
      rw [← Option.some.inj htoken]
      simpa [Lexeme.text?] using h
    rw [if_neg hon]
    exact takeName name rest

/-- No name stands at the front of directives and a selection set. -/
theorem head?_directiveLexemes_ne (directives : List Directive) (more : List Lexeme)
    (name : String) :
    (directiveLexemes directives ++ .punctuator .braceOpen :: more).head? ≠ some (.name name) := by
  cases directives <;> simp [directiveLexemes, Directive.lexemes]

theorem Selection.Fits.reads {room : Nat} {selection : Selection} (h : selection.Fits p room)
    {rest : List Lexeme} (hrest : Avoids selectionMarks rest) :
    Reads (readSelectionWith (readSelections room) room) selection selection.lexemes rest := by
  induction h generalizing rest with
  | @leaf room head hhead =>
      rw [Selection.lexemes, ← List.append_nil head.lexemes]
      refine hhead.reads_then (hrest.mono (by decide)) ?_
      exact peek (atMark_false (hrest.mono (by decide))) (peek pure pure)
  | @field room head selections hhead hselections ih =>
      have hset := reads_selections (fun selection hselection rest hrest =>
        ih selection hselection hrest) rest
      rw [Selection.lexemes]
      refine hhead.reads_then (avoids_mark (by decide) _) ?_
      exact peek (atMark_true rfl) hset.map.give
  | @spread room fragment directives hname hon hdirectives =>
      have hread := reads_directives hdirectives (hrest.mono (by decide))
      rw [Selection.lexemes]
      refine cons (takeMark?_true _) (peek (takeKeyword?_false (by simpa using hon)) ?_)
      exact peek (atName_true rfl) (cons (reads_fragmentName hon) hread.give)
  | @inline room condition directives selections hcondition hdirectives hselections ih =>
      have hset := reads_selections (fun selection hselection rest hrest =>
        ih selection hselection hrest) rest
      have hread : Reads (readDirectives false (room + 1)) directives (directiveLexemes directives)
          (selectionLexemes selections ++ rest) :=
        reads_directives hdirectives (avoids_mark (by decide) _)
      rw [Selection.lexemes]
      refine cons (takeMark?_true _) ?_
      cases condition with
      | none =>
          -- directives or a brace come next, and neither starts with a name
          have hhead := head?_directiveLexemes_ne directives
            (selections.flatMap Selection.lexemes ++ [.punctuator .braceClose] ++ rest)
          rw [← List.cons_append, ← List.append_assoc] at hhead
          refine peek (takeKeyword?_false (hhead "on")) (peek (atName_false hhead) ?_)
          exact hread.bind hset.give
      | some name =>
          exact cons (takeKeyword?_true _) (cons (takeName _) (hread.bind hset.give))

theorem SelectionsFit.reads {room : Nat} {selections : List Selection}
    (h : SelectionsFit p room selections) (rest : List Lexeme) :
    Reads (readSelections room) selections (selectionLexemes selections) rest := by
  cases room with
  | zero => exact h.elim
  | succ room =>
      exact reads_selections (fun selection hselection rest hrest =>
        (h selection hselection).reads hrest) rest

/-! ### Executable definitions -/

theorem reads_description (description : Option Description) {rest : List Lexeme}
    (hrest : ∀ literal : Description, rest.head? ≠ some literal.lexeme) :
    Reads readDescription? description (descriptionLexemes description) rest := by
  cases description with
  | none =>
      refine current fun token htoken => ?_
      split
      · rename_i text hlexeme
        exact absurd (htoken.trans (congrArg some hlexeme)) (hrest ⟨text, false⟩)
      · rename_i text hlexeme
        exact absurd (htoken.trans (congrArg some hlexeme)) (hrest ⟨text, true⟩)
      · exact pure
  | some description =>
      obtain ⟨text, block⟩ := description
      refine current fun token htoken => ?_
      rw [← Option.some.inj htoken]
      cases block <;> exact cons (advance _) pure

/-- What must not stand behind the definition of a variable. -/
def variableMarks : List Punctuator := [.bang, .equals, .at, .parenOpen]

theorem VariableDefinition.startsOff (definition : VariableDefinition) :
    StartsOff (.parenClose :: variableMarks) definition.lexemes := by
  rw [VariableDefinition.lexemes]
  cases definition.description with
  | none => exact startsOff_cons (by decide) _
  | some description => exact startsOff_cons (fun mark _ => description.lexeme_ne.1 mark) _

theorem VariableDefinition.Fits.reads {definition : VariableDefinition} (h : definition.Fits p)
    {rest : List Lexeme} (hrest : Avoids variableMarks rest) :
    Reads readVariableDefinition definition definition.lexemes rest := by
  obtain ⟨description, name, type, default, directives⟩ := definition
  have hdirectives : Reads (readDirectives true nestingLimit) directives
      (directiveLexemes directives) rest := reads_directives h.directives (hrest.mono (by decide))
  refine bind (reads_description description fun literal heq =>
    literal.lexeme_ne.1 _ (Option.some.inj heq).symm) ?_
  refine cons (takeMark _) (cons (takeName _) (cons (takeMark _) ?_))
  cases default with
  | none =>
      have hequals : Avoids [.equals] (directiveLexemes directives ++ rest) :=
        avoids_directiveLexemes (by decide) _ (hrest.mono (by decide))
      have hbang : Avoids [.bang] (directiveLexemes directives ++ rest) :=
        avoids_directiveLexemes (by decide) _ (hrest.mono (by decide))
      exact (h.type.reads hbang).bind (peek (takeMark?_false hequals)
        (peek pure hdirectives.give))
  | some value =>
      have hvalue := h.default value rfl
      refine (h.type.reads (avoids_mark (by decide) _)).bind (cons (takeMark?_true _) ?_)
      exact (hvalue.reads _).map.bind hdirectives.give

theorem reads_operationKind (kind : OperationKind) (rest : List Lexeme) :
    Reads readOperationKind kind [.name kind.keyword] rest :=
  current fun token htoken => by
    cases kind with
    | query | mutation | subscription => exact cons (takeName _) pure

theorem reads_variableDefinitions {definitions : List VariableDefinition}
    (h : ∀ definition ∈ definitions, definition.Fits p) {rest : List Lexeme}
    (hrest : Avoids [.parenOpen] rest) :
    Reads (Reader.betweenIfOpen .parenOpen .parenClose readVariableDefinition) definitions
      (enclosedLexemes .parenOpen .parenClose VariableDefinition.lexemes definitions) rest := by
  have hall : ReadsAll readVariableDefinition VariableDefinition.lexemes .parenClose
      variableMarks definitions :=
    ⟨fun definition hdefinition rest hrest => (h definition hdefinition).reads hrest,
      fun definition _ => definition.startsOff, by decide⟩
  exact hall.betweenIfOpen hrest

theorem Operation.avoids_headLexemes (operation : Operation) (more : List Lexeme) :
    Avoids [.braceOpen] (operation.headLexemes ++ more) := by
  cases hdescription : operation.description <;>
    simp [Operation.headLexemes, hdescription, descriptionLexemes, Avoids]

theorem Operation.Fits.reads {operation : Operation} (h : operation.Fits p) (rest : List Lexeme) :
    Reads readOperation operation operation.lexemes rest := by
  have hbrace := operation.avoids_headLexemes (selectionLexemes operation.selections ++ rest)
  obtain ⟨description, kind, name, variableDefinitions, directives, selections⟩ := operation
  have hselections := h.selections.reads rest
  rw [Operation.lexemes]
  split
  · rename_i hshort
    simp only [Operation.isShort, Bool.and_eq_true, Option.isNone_iff_eq_none, decide_eq_true_eq,
      List.isEmpty_iff] at hshort
    obtain ⟨⟨⟨⟨rfl, rfl⟩, rfl⟩, rfl⟩, rfl⟩ := hshort
    exact peek (atMark_true rfl) hselections.give
  · have hdirectives : Reads (readDirectives false nestingLimit) directives
        (directiveLexemes directives) (selectionLexemes selections ++ rest) :=
      reads_directives h.directives (avoids_mark (by decide) _)
    have hopen : Avoids [.parenOpen] (directiveLexemes directives ++
        (selectionLexemes selections ++ rest)) :=
      avoids_directiveLexemes (by decide) _ (avoids_mark (by decide) _)
    have hvariables := reads_variableDefinitions h.variableDefinitions hopen
    -- without a name, what stands behind the keyword must not be taken for one
    have hunnamed : ∀ word, (enclosedLexemes .parenOpen .parenClose VariableDefinition.lexemes
        variableDefinitions ++ (directiveLexemes directives ++ (selectionLexemes selections ++
          rest))).head? ≠ some (.name word) := by
      cases variableDefinitions with
      | nil => exact head?_directiveLexemes_ne directives _
      | cons first others => simp [enclosedLexemes]
    rw [← List.append_assoc] at hvariables hbrace
    refine peek (atMark_false hbrace) ?_
    simp only [Operation.headLexemes, List.append_assoc, List.cons_append]
    refine bind (reads_description description fun literal heq =>
      literal.lexeme_ne.2.1 _ (Option.some.inj heq).symm) (cons (reads_operationKind kind) ?_)
    cases name with
    | none =>
        refine peek (atName_false ?_) (peek pure (hvariables.bind (hdirectives.bind
          hselections.give)))
        simp only [List.append_assoc]
        exact hunnamed
    | some word =>
        exact peek (atName_true rfl) (bind (takeName word _).map (hvariables.bind
          (hdirectives.bind hselections.give)))

theorem Fragment.Fits.reads {fragment : Fragment} (h : fragment.Fits p) (rest : List Lexeme) :
    Reads readFragment fragment fragment.lexemes rest := by
  have hdirectives : Reads (readDirectives false nestingLimit) fragment.directives
      (directiveLexemes fragment.directives) (selectionLexemes fragment.selections ++ rest) :=
    reads_directives h.directives (avoids_mark (by decide) _)
  refine bind (reads_description fragment.description fun literal heq =>
    literal.lexeme_ne.2.1 _ (Option.some.inj heq).symm) ?_
  refine cons (takeKeyword _) (cons (reads_fragmentName h.not_on) ?_)
  exact cons (takeKeyword _) (cons (takeName _) (hdirectives.bind (h.selections.reads rest).give))

/-! ### Documents -/

theorem isTypeSystemKeyword_keyword (kind : OperationKind) :
    isTypeSystemKeyword kind.keyword = false ∧
      OperationKind.ofKeyword? kind.keyword = some kind := by
  cases kind <;> exact ⟨by decide, rfl⟩

/-- A definition is told by its keyword, in front of which there may be a description. -/
theorem reads_definition {description : Option Description} {word : String}
    {more rest : List Lexeme} {definition : Definition}
    (h : ∀ (start keyword : Token) (described : Bool), keyword.lexeme = .name word →
      Reads (readDefinitionOf start keyword described) definition
        (descriptionLexemes description ++ .name word :: more) rest) :
    Reads readDefinition definition (descriptionLexemes description ++ .name word :: more)
      rest := by
  cases description with
  | none =>
      refine peek (atMark_false (avoids_cons (by simp) _)) (current fun start hstart => ?_)
      rw [← Option.some.inj hstart]
      exact h start start false (Option.some.inj hstart).symm
  | some description =>
      have hbrace : Avoids [.braceOpen] (description.lexeme :: (.name word :: more) ++ rest) :=
        avoids_cons (fun mark _ => description.lexeme_ne.1 mark) _
      refine peek (atMark_false hbrace) (current fun start hstart => ?_)
      rw [← Option.some.inj hstart]
      obtain ⟨text, block⟩ := description
      cases block <;> exact lookahead rfl fun keyword hkeyword => h start keyword true hkeyword

theorem Executable.Fits.reads {executable : Executable} (h : executable.Fits p)
    (rest : List Lexeme) :
    Reads readDefinition (.executable executable) executable.lexemes rest := by
  cases executable with
  | operation operation =>
      have hread := Operation.Fits.reads h rest
      obtain ⟨hsystem, hkind⟩ := isTypeSystemKeyword_keyword operation.kind
      rw [Executable.lexemes]
      by_cases hshort : operation.isShort = true
      · have hlexemes : operation.lexemes = selectionLexemes operation.selections :=
          if_pos hshort
        rw [hlexemes] at hread ⊢
        exact peek (atMark_true rfl) hread.give
      · have hlexemes : operation.lexemes =
            operation.headLexemes ++ selectionLexemes operation.selections := if_neg hshort
        rw [hlexemes, Operation.headLexemes, List.append_assoc, List.cons_append] at hread ⊢
        refine reads_definition fun start keyword described hkeyword => ?_
        rw [readDefinitionOf, hkeyword]
        simp only [hsystem, hkind, Option.isSome_some, Bool.false_eq_true, if_false, if_true]
        exact hread.give
  | fragment fragment =>
      have hread := Fragment.Fits.reads h rest
      refine reads_definition fun start keyword described hkeyword => ?_
      rw [readDefinitionOf, hkeyword]
      exact hread.give

theorem Executable.lexemes_ne_nil (executable : Executable) :
    executable.lexemes ≠ [] ∧ executable.lexemes.head? ≠ some .eof := by
  cases executable with
  | operation operation =>
      rw [Executable.lexemes, Operation.lexemes]
      split
      · simp [selectionLexemes]
      · cases hdescription : operation.description <;>
          simp [Operation.headLexemes, descriptionLexemes, hdescription]
  | fragment fragment =>
      cases hdescription : fragment.description <;>
        simp [Executable.lexemes, Fragment.lexemes, descriptionLexemes, hdescription]

theorem reads_definitionsBounded {first : Executable} {others : List Executable}
    (h : ∀ definition ∈ first :: others, definition.Fits p) {rounds : Nat}
    (hrounds : others.length < rounds) :
    Reads (readDefinitionsBounded rounds) ((first :: others).map Definition.executable)
      ((first :: others).flatMap Executable.lexemes) [.eof] := by
  obtain ⟨rounds, rfl⟩ : ∃ n, rounds = n + 1 := ⟨rounds - 1, by omega⟩
  have hfirst := (h first List.mem_cons_self).reads
  induction others generalizing first rounds with
  | nil =>
      refine (hfirst _).bind (current fun token htoken => ?_)
      rw [← Option.some.inj htoken]
      exact pure
  | cons second others ih =>
      have hothers := fun definition hdefinition =>
        h definition (List.mem_cons_of_mem _ hdefinition)
      have hsecond := (hothers second List.mem_cons_self).reads
      -- one more round was taken for the first definition
      obtain ⟨rounds, rfl⟩ : ∃ n, rounds = n + 1 := ⟨rounds - 1, by simp at hrounds; omega⟩
      have ih := ih hothers rounds (by simpa using hrounds) hsecond
      refine (hfirst _).bind (current fun token htoken => ?_)
      have hnext : token.lexeme ≠ .eof := by
        obtain ⟨hne, hhead⟩ := second.lexemes_ne_nil
        obtain ⟨lexeme, more, hlexemes⟩ := List.exists_cons_of_ne_nil hne
        rw [hlexemes] at hhead
        rw [List.map_cons, List.flatten_cons, hlexemes] at htoken
        rw [← Option.some.inj htoken]
        simpa using hhead
      rw [if_neg hnext]
      exact ih.give

/-- Definitions up to the end of the text. -/
theorem reads_document {definitions : List Executable} (hne : definitions ≠ [])
    (h : ∀ definition ∈ definitions, definition.Fits p) :
    Reads readDocument (definitions.map Definition.executable)
      (definitions.flatMap Executable.lexemes) [.eof] := by
  obtain ⟨first, others, rfl⟩ := List.exists_cons_of_ne_nil hne
  intro cursor hcursor hrest hvalid
  have hlength : cursor.later.length + 1 = cursor.lexemes.length := by simp [Cursor.lexemes]
  have hle := length_le_length_flatMap fun definition (_ : definition ∈ first :: others) =>
    definition.lexemes_ne_nil.1
  have hrounds : others.length < cursor.later.length + 1 := by
    simp only [hcursor, List.length_append, List.length_cons] at hlength hle
    omega
  exact reads_definitionsBounded h hrounds cursor hcursor hrest hvalid

/-- A text that consists of the lexemes of definitions is parsed as these definitions. -/
theorem parse_of_lexemes {definitions : List Executable} (hne : definitions ≠ [])
    (h : ∀ definition ∈ definitions, definition.Fits p) {source : String}
    (hsource : lexemes source.toList = definitions.flatMap Executable.lexemes ++ [.eof]) :
    Document.parse source = .ok (definitions.map Definition.executable) := by
  have hvalid := invalid_not_mem_lexemes hsource
  have hscan : (Token.scan source).map Token.lexeme =
      definitions.flatMap Executable.lexemes ++ [.eof] := hsource
  rw [lexemes, ← Token.scan] at hvalid
  rw [Document.parse, Reader.run]
  cases htokens : Token.scan source with
  | nil => simp [htokens] at hscan
  | cons first later =>
      rw [htokens] at hscan hvalid
      obtain ⟨next, hrun, -⟩ := reads_document hne h ⟨first, later⟩ hscan (by simp) hvalid
      obtain ⟨lexeme, offset⟩ := first
      cases lexeme with
      | invalid fault => exact absurd List.mem_cons_self (hvalid fault)
      | _ => exact congrArg (Except.map Prod.fst) hrun

end OperationLibrary.Syntax
