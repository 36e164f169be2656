import OperationLibrary.Proofs.Grammar
import OperationLibrary.Syntax.TypeSystemParser

/-!
What readers give. A reader starts at tokens that are well formed and leaves such tokens behind;
what it gives meanwhile is put together as the grammar allows.
-/

namespace OperationLibrary.Syntax

open Reader

variable {p : Description → Prop} {α β : Type}

/-- The tokens that are still to be read are well formed. -/
structure Cursor.WellFormed (p : Description → Prop) (cursor : Cursor) : Prop where
  current : cursor.current.lexeme.WellFormed p
  later : ∀ token ∈ cursor.later, token.lexeme.WellFormed p

/-- Where the reader gives a result at all, `q` holds of it. -/
def Ensures (p : Description → Prop) (reader : Reader α) (q : α → Prop) : Prop :=
  ∀ cursor, cursor.WellFormed p → ∀ a next, StateT.run reader cursor = .ok (a, next) →
    q a ∧ next.WellFormed p

/-- The name that is taken is the current token. -/
theorem lexeme_of_takeName {cursor next : Cursor} {name : String}
    (h : StateT.run takeName cursor = .ok (name, next)) : cursor.current.lexeme = .name name := by
  obtain ⟨⟨lexeme, offset⟩, later⟩ := cursor
  cases lexeme with
  | name text =>
      have hbind : StateT.run (do advance; return text) ⟨⟨.name text, offset⟩, later⟩ =
          .ok (name, next) := h
      obtain ⟨⟨_, middle⟩, -, hreturn⟩ := exists_of_bind_ok hbind
      obtain ⟨rfl, -⟩ := Prod.mk.inj (Except.ok.inj hreturn)
      rfl
  | _ => contradiction

namespace Ensures

variable {reader : Reader α} {q q' : α → Prop} {r : β → Prop}

theorem pure {a : α} (h : q a) : Ensures p (Pure.pure a) q := by
  intro cursor hcursor b next hrun
  obtain ⟨rfl, rfl⟩ := Prod.mk.inj (Except.ok.inj hrun)
  exact ⟨h, hcursor⟩

theorem bind {next : α → Reader β} (h : Ensures p reader q)
    (hnext : ∀ a, q a → Ensures p (next a) r) : Ensures p (reader >>= next) r := by
  intro cursor hcursor b last hrun
  obtain ⟨⟨a, middle⟩, hfirst, hsecond⟩ := exists_of_bind_ok hrun
  obtain ⟨ha, hmiddle⟩ := h cursor hcursor a middle hfirst
  exact hnext a ha middle hmiddle b last hsecond

theorem mono (h : Ensures p reader q) (hq : ∀ a, q a → q' a) : Ensures p reader q' := by
  intro cursor hcursor a next hrun
  obtain ⟨ha, hnext⟩ := h cursor hcursor a next hrun
  exact ⟨hq a ha, hnext⟩

theorem map {f : α → β} (h : Ensures p reader q) (hf : ∀ a, q a → r (f a)) :
    Ensures p (f <$> reader) r := by
  rw [← bind_pure_comp]
  exact h.bind fun a ha => Ensures.pure (hf a ha)

theorem fail (fault : SyntaxFault) (offset : Nat) : Ensures p (Reader.fail fault offset) q := by
  intro cursor _ a next hrun
  contradiction

theorem current : Ensures p Reader.current fun token => token.lexeme.WellFormed p := by
  intro cursor hcursor a next hrun
  obtain ⟨rfl, rfl⟩ := Prod.mk.inj (Except.ok.inj hrun)
  exact ⟨hcursor.current, hcursor⟩

theorem advance : Ensures p Reader.advance fun _ => True := by
  intro cursor hcursor a next hrun
  refine ⟨trivial, ?_⟩
  obtain ⟨token, _ | ⟨⟨lexeme, offset⟩, later⟩⟩ := cursor
  · obtain ⟨-, rfl⟩ := Prod.mk.inj (Except.ok.inj hrun)
    exact hcursor
  · have hnext : next = ⟨⟨lexeme, offset⟩, later⟩ := by
      cases lexeme with
      | invalid fault => contradiction
      | _ => exact (Prod.mk.inj (Except.ok.inj hrun)).2.symm
    subst hnext
    exact ⟨hcursor.later _ List.mem_cons_self,
      fun token htoken => hcursor.later token (List.mem_cons_of_mem _ htoken)⟩

theorem lookahead : Ensures p Reader.lookahead fun token => token.lexeme.WellFormed p := by
  intro cursor hcursor a next hrun
  obtain ⟨token, _ | ⟨⟨lexeme, offset⟩, later⟩⟩ := cursor
  · obtain ⟨rfl, rfl⟩ := Prod.mk.inj (Except.ok.inj hrun)
    exact ⟨hcursor.current, hcursor⟩
  · have hresult : (⟨lexeme, offset⟩, ⟨token, ⟨lexeme, offset⟩ :: later⟩) = (a, next) := by
      cases lexeme with
      | invalid fault => contradiction
      | _ => exact Except.ok.inj hrun
    obtain ⟨rfl, rfl⟩ := Prod.mk.inj hresult
    exact ⟨hcursor.later _ List.mem_cons_self, hcursor⟩

theorem unexpected : Ensures p (Reader.unexpected : Reader α) q :=
  current.bind fun _ _ => fail _ _

theorem atMark (mark : Punctuator) : Ensures p (Reader.atMark mark) fun _ => True :=
  current.bind fun _ _ => pure trivial

theorem atName : Ensures p Reader.atName fun _ => True :=
  current.bind fun token _ => by
    split
    · exact pure trivial
    · exact pure trivial

theorem takeMark? (mark : Punctuator) : Ensures p (Reader.takeMark? mark) fun _ => True :=
  (atMark mark).bind fun found _ => by
    split
    · exact advance.bind fun _ _ => pure trivial
    · exact pure trivial

theorem takeMark (mark : Punctuator) : Ensures p (Reader.takeMark mark) fun _ => True :=
  current.bind fun token _ => by
    split
    · exact advance
    · exact fail _ _

theorem takeName : Ensures p Reader.takeName IsName :=
  current.bind fun token htoken => by
    split
    · rename_i text hname
      rw [hname] at htoken
      exact advance.bind fun _ _ => pure htoken
    · exact fail _ _

theorem takeKeyword? (word : String) : Ensures p (Reader.takeKeyword? word) fun _ => True :=
  current.bind fun token _ => by
    split
    · exact advance.bind fun _ _ => pure trivial
    · exact pure trivial

theorem takeKeyword (word : String) : Ensures p (Reader.takeKeyword word) fun _ => True :=
  current.bind fun token _ => by
    split
    · exact advance
    · exact fail _ _

theorem present (h : Ensures p reader q) :
    Ensures p (some <$> reader) fun found => ∀ a ∈ found, q a :=
  h.map fun _ ha _ hb => Option.some.inj hb ▸ ha

theorem absent : Ensures p (Pure.pure none) fun found => ∀ a ∈ found, q a :=
  pure fun _ ha => nomatch ha

/-! ### Repetition -/

variable {item : Reader α}

theorem cons {rest : Reader (List α)} (hitem : Ensures p item q)
    (hrest : Ensures p rest fun items => ∀ a ∈ items, q a) :
    Ensures p (do
      let first ← item
      let others ← rest
      return first :: others) fun items => ∀ a ∈ items, q a :=
  hitem.bind fun _ hfirst => hrest.bind fun _ hothers =>
    pure (List.forall_mem_cons.mpr ⟨hfirst, hothers⟩)

theorem nil : Ensures p (Pure.pure [] : Reader (List α)) fun items => ∀ a ∈ items, q a :=
  pure fun _ ha => nomatch ha

theorem untilMarkBounded (close : Punctuator) (hitem : Ensures p item q) (rounds : Nat) :
    Ensures p (Reader.untilMarkBounded close item rounds) fun items => ∀ a ∈ items, q a := by
  induction rounds with
  | zero => exact unexpected
  | succ rounds ih =>
      refine (takeMark? close).bind fun closed _ => ?_
      split
      · exact nil
      · exact hitem.cons ih

/-- Reading with a bound that the tokens give. -/
theorem bounded {reader : Cursor → Reader α} (h : ∀ cursor, Ensures p (reader cursor) q) :
    Ensures p (do reader (← get)) q :=
  fun cursor hcursor a next hrun => h cursor cursor hcursor a next hrun

theorem untilMark (close : Punctuator) (hitem : Ensures p item q) :
    Ensures p (Reader.untilMark close item) fun items => ∀ a ∈ items, q a :=
  bounded fun _ => untilMarkBounded close hitem _

theorem between (openMark close : Punctuator) (hitem : Ensures p item q) :
    Ensures p (Reader.between openMark close item) fun items => ∀ a ∈ items, q a :=
  (takeMark openMark).bind fun _ _ => untilMark close hitem

theorem betweenIfOpen (openMark close : Punctuator) (hitem : Ensures p item q) :
    Ensures p (Reader.betweenIfOpen openMark close item) fun items => ∀ a ∈ items, q a := by
  refine (takeMark? openMark).bind fun opened _ => ?_
  split
  · exact hitem.cons (untilMark close hitem)
  · exact nil

theorem separatedBounded (mark : Punctuator) (hitem : Ensures p item q) (rounds : Nat) :
    Ensures p (Reader.separatedBounded mark item rounds) fun items => ∀ a ∈ items, q a := by
  induction rounds with
  | zero => exact nil
  | succ rounds ih =>
      refine (takeMark? mark).bind fun found _ => ?_
      split
      · exact hitem.cons ih
      · exact nil

theorem separatedBy (mark : Punctuator) (hitem : Ensures p item q) :
    Ensures p (Reader.separatedBy mark item) fun items => ∀ a ∈ items, q a := by
  have hothers : Ensures p (do
      Reader.separatedBounded mark item ((← get).later.length + 1)) fun items => ∀ a ∈ items, q a :=
    bounded fun _ => separatedBounded mark hitem _
  exact (takeMark? mark).bind fun _ _ => hitem.cons hothers

theorem whileMarkBounded (mark : Punctuator) (hitem : Ensures p item q) (rounds : Nat) :
    Ensures p (Reader.whileMarkBounded mark item rounds) fun items => ∀ a ∈ items, q a := by
  induction rounds with
  | zero => exact nil
  | succ rounds ih =>
      refine (atMark mark).bind fun found _ => ?_
      split
      · exact hitem.cons ih
      · exact nil

theorem whileMark (mark : Punctuator) (hitem : Ensures p item q) :
    Ensures p (Reader.whileMark mark item) fun items => ∀ a ∈ items, q a :=
  bounded fun _ => whileMarkBounded mark hitem _

end Ensures

/-! ### Values -/

namespace Ensures

theorem readVariable (constant : Bool) (room : Nat) :
    Ensures p (Syntax.readVariable constant) fun value => value.Fits p constant room :=
  current.bind fun dollar _ => (takeMark .dollar).bind fun _ _ => by
    split
    · exact current.bind fun token _ => by
        split
        · exact fail _ _
        · exact fail _ _
    · rename_i hconstant
      exact takeName.bind fun name hname =>
        pure (.variable (Bool.eq_false_iff.mpr hconstant) hname)

theorem readLeaf (constant : Bool) (room : Nat) :
    Ensures p Syntax.readLeaf fun value => value.Fits p constant room := by
  refine current.bind fun token htoken => ?_
  have hvalue : ∀ value : Value, value.Fits p constant room →
      Ensures p (do Reader.advance; return value) fun value => value.Fits p constant room :=
    fun value hvalue => advance.bind fun _ _ => pure hvalue
  generalize token.lexeme = lexeme at htoken
  split
  · exact hvalue _ (.int htoken)
  · exact hvalue _ (.float htoken)
  · exact hvalue _ (.string htoken)
  · exact hvalue _ (.string htoken)
  · exact hvalue _ (.boolean true)
  · exact hvalue _ (.boolean false)
  · exact hvalue _ .null
  · rename_i name htrue hfalse hnull
    exact hvalue _ (.enum htoken (by simpa using ⟨htrue, hfalse, hnull⟩))
  · exact unexpected.bind hvalue

theorem readObjectField {q : Value → Prop} {value : Reader Value} (h : Ensures p value q) :
    Ensures p (readValue.readObjectField value) fun field => IsName field.1 ∧ q field.2 :=
  takeName.bind fun _ hname => (takeMark .colon).bind fun _ _ => h.bind fun _ hvalue =>
    pure ⟨hname, hvalue⟩

theorem readValue (constant : Bool) (room : Nat) :
    Ensures p (Syntax.readValue constant room) fun value => value.Fits p constant room := by
  induction room with
  | zero =>
      refine current.bind fun token _ => ?_
      split
      · exact current.bind fun _ _ => fail _ _
      · exact current.bind fun _ _ => fail _ _
      · exact readVariable constant 0
      · exact readLeaf constant 0
  | succ room ih =>
      refine current.bind fun token _ => ?_
      split
      · exact (between _ _ ih).bind fun items hitems => pure (.list hitems)
      · exact (between _ _ (readObjectField ih)).bind fun fields hfields =>
          pure (.object (fun field h => (hfields field h).1) fun field h => (hfields field h).2)
      · exact readVariable constant (room + 1)
      · exact readLeaf constant (room + 1)

theorem readArgument (constant : Bool) (room : Nat) :
    Ensures p (Syntax.readArgument constant room) fun argument =>
      argument.Fits p constant room :=
  takeName.bind fun _ hname => (takeMark .colon).bind fun _ _ =>
    (readValue constant room).bind fun _ hvalue => pure ⟨hname, hvalue⟩

theorem readArguments (constant : Bool) (room : Nat) :
    Ensures p (Syntax.readArguments constant room) fun arguments =>
      ∀ argument ∈ arguments, argument.Fits p constant room :=
  betweenIfOpen _ _ (readArgument constant room)

theorem readDirective (constant : Bool) (room : Nat) :
    Ensures p (Syntax.readDirective constant room) fun directive =>
      directive.Fits p constant room :=
  (takeMark .at).bind fun _ _ => takeName.bind fun _ hname =>
    (readArguments constant room).bind fun _ harguments => pure ⟨hname, harguments⟩

theorem readDirectives (constant : Bool) (room : Nat) :
    Ensures p (Syntax.readDirectives constant room) fun directives =>
      ∀ directive ∈ directives, directive.Fits p constant room :=
  whileMark _ (readDirective constant room)

/-! ### Types -/

theorem readNonNullMark {room : Nat} {type : TypeRef} (h : type.Fits room)
    (hnull : type.isNonNull = false) :
    Ensures p (Syntax.readNonNullMark type) fun type => type.Fits room :=
  (takeMark? .bang).bind fun found _ => by
    split
    · exact pure (.nonNull h hnull)
    · exact pure h

theorem readNamedType (room : Nat) :
    Ensures p (do Syntax.readNonNullMark (.named (← Reader.takeName))) fun type =>
      type.Fits room :=
  takeName.bind fun _ hname => readNonNullMark (.named hname) rfl

theorem readTypeRef (room : Nat) :
    Ensures p (Syntax.readTypeRef room) fun type => type.Fits room := by
  induction room with
  | zero =>
      refine (takeMark? .bracketOpen).bind fun opened _ => ?_
      split
      · exact current.bind fun _ _ => fail _ _
      · exact readNamedType 0
  | succ room ih =>
      refine (takeMark? .bracketOpen).bind fun opened _ => ?_
      split
      · exact ih.bind fun item hitem => (takeMark .bracketClose).bind fun _ _ =>
          readNonNullMark (.list hitem) rfl
      · exact readNamedType (room + 1)

/-! ### Selections -/

end Ensures

theorem Selection.Fits.inlineSet {room : Nat} {condition : Option String}
    {directives : List Directive} {selections : List Selection}
    (hcondition : ∀ name ∈ condition, IsName name)
    (hdirectives : ∀ directive ∈ directives, directive.Fits p false room)
    (hselections : SelectionsFit p room selections) :
    Selection.Fits p room (.inline condition directives selections) := by
  cases room with
  | zero => exact hselections.elim
  | succ room => exact .inline hcondition hdirectives hselections

theorem Selection.Fits.ofField {room : Nat} {head : FieldHead} {inner : Option (List Selection)}
    (hhead : head.Fits p room) (hinner : ∀ selections ∈ inner, SelectionsFit p room selections) :
    Selection.Fits p room (.field head inner) := by
  cases inner with
  | none => exact .leaf hhead
  | some selections =>
      have hselections := hinner selections rfl
      cases room with
      | zero => exact hselections.elim
      | succ room => exact .field hhead hselections

namespace Ensures

theorem readDescription? :
    Ensures p Syntax.readDescription? fun description => ∀ d ∈ description, p d :=
  current.bind fun token htoken => by
    generalize token.lexeme = lexeme at htoken
    split
    · exact advance.bind fun _ _ => pure fun d hd => Option.some.inj hd ▸ htoken
    · exact advance.bind fun _ _ => pure fun d hd => Option.some.inj hd ▸ htoken
    · exact pure fun d hd => nomatch hd

theorem readFragmentName :
    Ensures p Syntax.readFragmentName fun name => IsName name ∧ name ≠ "on" := by
  -- the token that is looked at is the one that the name is then taken from
  intro cursor hcursor name next hrun
  by_cases hon : cursor.current.lexeme.text? = some "on"
  · have hfail : StateT.run Syntax.readFragmentName cursor =
        StateT.run (Reader.unexpected : Reader String) cursor :=
      congrFun (if_pos hon) cursor
    rw [hfail] at hrun
    contradiction
  · have htake : StateT.run Syntax.readFragmentName cursor = StateT.run Reader.takeName cursor :=
      congrFun (if_neg hon) cursor
    rw [htake] at hrun
    obtain ⟨hname, hnext⟩ := takeName cursor hcursor name next hrun
    refine ⟨⟨hname, ?_⟩, hnext⟩
    rintro rfl
    exact hon (by rw [lexeme_of_takeName hrun]; rfl)

theorem readFieldName :
    Ensures p Syntax.readFieldName fun name =>
      (∀ aliasName ∈ name.1, IsName aliasName) ∧ IsName name.2 :=
  takeName.bind fun first hfirst => (takeMark? .colon).bind fun found _ => by
    split
    · exact takeName.bind fun name hname =>
        pure ⟨fun a ha => Option.some.inj ha ▸ hfirst, hname⟩
    · exact pure ⟨fun a ha => (nomatch ha), hfirst⟩

/-- A selection whose own selections are read by a reader that gives what `q` holds of. -/
theorem readSelectionWith {selections : Reader (List Selection)} {room : Nat}
    (h : Ensures p selections (SelectionsFit p room)) :
    Ensures p (Syntax.readSelectionWith selections room) (Selection.Fits p room) := by
  have hinline : ∀ {condition : Option String}, (∀ name ∈ condition, IsName name) →
      Ensures p (do
        let directives ← Syntax.readDirectives false room
        return .inline condition directives (← selections)) (Selection.Fits p room) :=
    fun hcondition => (readDirectives false room).bind fun _ hdirectives =>
      h.bind fun _ hselections => pure (.inlineSet hcondition hdirectives hselections)
  refine (takeMark? .ellipsis).bind fun spread _ => ?_
  split
  · refine (takeKeyword? "on").bind fun conditional _ => ?_
    split
    · exact takeName.bind fun name hname => hinline fun n hn => Option.some.inj hn ▸ hname
    · refine atName.bind fun named _ => ?_
      split
      · exact readFragmentName.bind fun name hname =>
          (readDirectives false room).bind fun _ hdirectives =>
            pure (.spread hname.1 hname.2 hdirectives)
      · exact hinline fun n hn => nomatch hn
  · refine readFieldName.bind fun name hname => ?_
    refine (readArguments false room).bind fun arguments harguments => ?_
    refine (readDirectives false room).bind fun directives hdirectives => ?_
    have hhead : FieldHead.Fits p room ⟨name.1, name.2, arguments, directives⟩ :=
      ⟨hname.1, hname.2, harguments, hdirectives⟩
    refine (atMark .braceOpen).bind fun opened _ => ?_
    split
    · exact (present h).bind fun inner hinner => pure (.ofField hhead hinner)
    · exact absent.bind fun inner hinner => pure (.ofField hhead hinner)

theorem readSelections (room : Nat) :
    Ensures p (Syntax.readSelections room) (SelectionsFit p room) := by
  induction room with
  | zero => exact current.bind fun _ _ => fail _ _
  | succ room ih => exact between _ _ (readSelectionWith ih)

/-! ### Executable definitions -/

theorem readVariableDefinition :
    Ensures p Syntax.readVariableDefinition (VariableDefinition.Fits p) := by
  refine readDescription?.bind fun description hdescription => (takeMark .dollar).bind fun _ _ => ?_
  refine takeName.bind fun name hname => (takeMark .colon).bind fun _ _ => ?_
  refine (readTypeRef nestingLimit).bind fun type htype => ?_
  have hdone : ∀ default : Option Value, (∀ value ∈ default, value.Fits p true nestingLimit) →
      Ensures p (do return ⟨description, name, type, default,
        ← Syntax.readDirectives true nestingLimit⟩) (VariableDefinition.Fits p) :=
    fun default hdefault => (readDirectives true nestingLimit).bind fun _ hdirectives =>
      pure ⟨hdescription, hname, htype, hdefault, hdirectives⟩
  refine (takeMark? .equals).bind fun found _ => ?_
  split
  · exact (present (readValue true nestingLimit)).bind hdone
  · exact absent.bind hdone

theorem readOperationKind : Ensures p Syntax.readOperationKind fun _ => True :=
  current.bind fun _ _ => takeName.bind fun _ _ => by
    split
    · exact pure trivial
    · exact fail _ _

theorem readOperation : Ensures p Syntax.readOperation (Operation.Fits p) := by
  refine (atMark .braceOpen).bind fun short _ => ?_
  split
  · exact (readSelections nestingLimit).bind fun selections hselections =>
      pure ⟨by simp, by simp, by simp, by simp, hselections⟩
  · refine readDescription?.bind fun description hdescription => ?_
    refine readOperationKind.bind fun kind _ => ?_
    have hdone : ∀ name : Option String, (∀ n ∈ name, IsName n) → Ensures p (do
        let variableDefinitions ← Reader.betweenIfOpen .parenOpen .parenClose
          Syntax.readVariableDefinition
        let directives ← Syntax.readDirectives false nestingLimit
        return ⟨description, kind, name, variableDefinitions, directives,
          ← Syntax.readSelections nestingLimit⟩) (Operation.Fits p) :=
      fun name hname => (betweenIfOpen _ _ readVariableDefinition).bind fun _ hvariables =>
        (readDirectives false nestingLimit).bind fun _ hdirectives =>
          (readSelections nestingLimit).bind fun _ hselections =>
            pure ⟨hdescription, hname, hvariables, hdirectives, hselections⟩
    refine atName.bind fun named _ => ?_
    split
    · exact (present takeName).bind hdone
    · exact absent.bind hdone

theorem readFragment : Ensures p Syntax.readFragment (Fragment.Fits p) := by
  refine readDescription?.bind fun description hdescription => ?_
  refine (takeKeyword "fragment").bind fun _ _ => readFragmentName.bind fun name hname => ?_
  refine (takeKeyword "on").bind fun _ _ => takeName.bind fun condition hcondition => ?_
  refine (readDirectives false nestingLimit).bind fun directives hdirectives => ?_
  exact (readSelections nestingLimit).bind fun selections hselections =>
    pure ⟨hdescription, hname.1, hname.2, hcondition, hdirectives, hselections⟩

/-! ### Definitions of a type system -/

theorem readPlacedArgument : Ensures p Syntax.readPlacedArgument fun _ => True :=
  takeName.bind fun _ _ => (takeMark .colon).bind fun _ _ => current.bind fun _ _ =>
    (readValue true nestingLimit).bind fun _ _ => pure trivial

theorem readPlacedDirective : Ensures p Syntax.readPlacedDirective fun _ => True :=
  current.bind fun _ _ => (takeMark .at).bind fun _ _ => takeName.bind fun _ _ =>
    (betweenIfOpen _ _ readPlacedArgument).bind fun _ _ => pure trivial

theorem readPlacedDirectives : Ensures p Syntax.readPlacedDirectives fun _ => True :=
  (whileMark _ readPlacedDirective).mono fun _ _ => trivial

theorem readInputValue : Ensures p Syntax.readInputValue fun _ => True := by
  refine readDescription?.bind fun _ _ => takeName.bind fun _ _ => (takeMark .colon).bind fun _ _ =>
    (readTypeRef nestingLimit).bind fun _ _ => (takeMark? .equals).bind fun found _ => ?_
  split
  · exact (present (readValue true nestingLimit)).bind fun _ _ =>
      readPlacedDirectives.bind fun _ _ => pure trivial
  · exact (pure trivial).bind fun _ (_ : True) => readPlacedDirectives.bind fun _ _ => pure trivial

theorem readFieldDefinition : Ensures p Syntax.readFieldDefinition fun _ => True :=
  readDescription?.bind fun _ _ => takeName.bind fun _ _ =>
    (betweenIfOpen _ _ readInputValue).bind fun _ _ => (takeMark .colon).bind fun _ _ =>
      (readTypeRef nestingLimit).bind fun _ _ => readPlacedDirectives.bind fun _ _ => pure trivial

theorem readEnumValue : Ensures p Syntax.readEnumValue fun _ => True := by
  have hname : Ensures p readEnumValueName fun _ => True :=
    current.bind fun _ _ => by
      split
      · exact fail _ _
      · exact takeName.mono fun _ _ => trivial
  exact readDescription?.bind fun _ _ => hname.bind fun _ _ =>
    readPlacedDirectives.bind fun _ _ => pure trivial

theorem readInterfaces : Ensures p Syntax.readInterfaces fun _ => True :=
  (takeKeyword? "implements").bind fun _ _ => by
    split
    · exact (separatedBy _ takeName).mono fun _ _ => trivial
    · exact pure trivial

theorem readFields : Ensures p Syntax.readFields fun _ => True :=
  (betweenIfOpen _ _ readFieldDefinition).mono fun _ _ => trivial

theorem readMembers : Ensures p Syntax.readMembers fun _ => True :=
  (takeMark? .equals).bind fun _ _ => by
    split
    · exact (separatedBy _ takeName).mono fun _ _ => trivial
    · exact pure trivial

theorem readRootType : Ensures p Syntax.readRootType fun _ => True :=
  readOperationKind.bind fun _ _ => (takeMark .colon).bind fun _ _ =>
    takeName.bind fun _ _ => pure trivial

theorem readType (description : Option Description) :
    Ensures p (Syntax.readType description) fun _ => True := by
  refine takeName.bind fun word _ => takeName.bind fun name _ => ?_
  split
  · exact readInterfaces.bind fun _ _ => readPlacedDirectives.bind fun _ _ =>
      readFields.bind fun _ _ => pure trivial
  · exact readInterfaces.bind fun _ _ => readPlacedDirectives.bind fun _ _ =>
      readFields.bind fun _ _ => pure trivial
  · exact readPlacedDirectives.bind fun _ _ => readMembers.bind fun _ _ => pure trivial
  · exact readPlacedDirectives.bind fun _ _ =>
      (betweenIfOpen _ _ readEnumValue).bind fun _ _ => pure trivial
  · exact readPlacedDirectives.bind fun _ _ =>
      (betweenIfOpen _ _ readInputValue).bind fun _ _ => pure trivial
  · exact readPlacedDirectives.bind fun _ _ => pure trivial

theorem readSchema (description : Option Description) :
    Ensures p (Syntax.readSchema description) fun _ => True :=
  (takeKeyword "schema").bind fun _ _ => readPlacedDirectives.bind fun _ _ =>
    (takeMark .braceOpen).bind fun _ _ => readRootType.bind fun _ _ =>
      (untilMark _ readRootType).bind fun _ _ => pure trivial

theorem readDirectiveLocation : Ensures p Syntax.readDirectiveLocation fun _ => True :=
  current.bind fun _ _ => takeName.bind fun _ _ => by
    split
    · exact pure trivial
    · exact fail _ _

theorem readDirectiveDefinition (description : Option Description) :
    Ensures p (Syntax.readDirectiveDefinition description) fun _ => True :=
  (takeKeyword "directive").bind fun _ _ => (takeMark .at).bind fun _ _ => takeName.bind fun _ _ =>
    (betweenIfOpen _ _ readInputValue).bind fun _ _ => readPlacedDirectives.bind fun _ _ =>
      (takeKeyword? "repeatable").bind fun _ _ => (takeKeyword "on").bind fun _ _ =>
        (separatedBy _ readDirectiveLocation).bind fun _ _ => pure trivial

theorem readExtension : Ensures p Syntax.readExtension fun _ => True := by
  refine lookahead.bind fun keyword _ => ?_
  split
  · refine (takeKeyword "extend").bind fun _ _ => (takeKeyword "schema").bind fun _ _ =>
      readPlacedDirectives.bind fun _ _ => (betweenIfOpen _ _ readRootType).bind fun _ _ => ?_
    split
    · exact unexpected
    · exact pure trivial
  · refine (takeKeyword "extend").bind fun _ _ => (takeKeyword "directive").bind fun _ _ =>
      (takeMark .at).bind fun _ _ => takeName.bind fun _ _ =>
        readPlacedDirectives.bind fun _ _ => ?_
    split
    · exact unexpected
    · exact pure trivial
  · split
    · refine (takeKeyword "extend").bind fun _ _ => (readType none).bind fun _ _ => ?_
      split
      · exact unexpected
      · exact pure trivial
    · exact fail _ _
  · exact fail _ _

theorem readTypeSystem (word : String) :
    Ensures p (Syntax.readTypeSystem word) fun _ => True := by
  refine readDescription?.bind fun description _ => ?_
  split
  · exact (readSchema description).bind fun _ _ => pure trivial
  · exact (readDirectiveDefinition description).bind fun _ _ => pure trivial
  · exact (readType description).bind fun _ _ => pure trivial

end Ensures

/-! ### Documents -/

def Definition.Fits (p : Description → Prop) : Definition → Prop
  | .executable d => d.Fits p
  | .typeSystem _ => True

namespace Ensures

theorem readDefinitionOf (start keyword : Token) (described : Bool) :
    Ensures p (Syntax.readDefinitionOf start keyword described) (Definition.Fits p) := by
  unfold Syntax.readDefinitionOf
  split
  · exact fail _ _
  · rename_i word _
    split
    · exact (readTypeSystem word).bind fun _ _ => pure trivial
    split
    · exact readOperation.bind fun _ h => pure h
    split
    · exact readFragment.bind fun _ h => pure h
    split
    · exact fail _ _
    split
    · exact readExtension.bind fun _ _ => pure trivial
    · exact fail _ _
  · exact fail _ _

theorem readDefinition : Ensures p Syntax.readDefinition (Definition.Fits p) := by
  refine (atMark .braceOpen).bind fun short _ => ?_
  split
  · exact readOperation.bind fun _ h => pure h
  · refine current.bind fun start _ => ?_
    split
    · exact lookahead.bind fun keyword _ => readDefinitionOf start keyword true
    · exact lookahead.bind fun keyword _ => readDefinitionOf start keyword true
    · exact readDefinitionOf start start false

theorem readDocument :
    Ensures p Syntax.readDocument fun document => ∀ d ∈ document, d.Fits p := by
  have hbounded : ∀ rounds, Ensures p (readDefinitionsBounded rounds) fun document =>
      ∀ d ∈ document, d.Fits p := by
    intro rounds
    induction rounds with
    | zero => exact unexpected
    | succ rounds ih =>
        refine readDefinition.bind fun first hfirst => current.bind fun _ _ => ?_
        split
        · exact pure (by simpa using hfirst)
        · exact ih.bind fun others hothers =>
            pure (List.forall_mem_cons.mpr ⟨hfirst, hothers⟩)
  exact bounded fun _ => hbounded _

end Ensures

end OperationLibrary.Syntax
