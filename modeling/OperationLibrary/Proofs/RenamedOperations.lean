import OperationLibrary.Library.HandlerOperation
import OperationLibrary.Proofs.HandlerCalls
import OperationLibrary.Proofs.JsonLexemes
import OperationLibrary.Proofs.RefusedTexts
import OperationLibrary.Proofs.StableOrder

/-!
Names for operations without one. A name made from the kind and the place is put into the printed
text of an operation, behind the word for the kind or in front of the selections alone. The text is
read as the operation with this name, except where a description stands in front of the operation:
that is printed first, so the name comes to stand in front of it.
-/

namespace OperationLibrary

open Syntax

/-! ### What is printed -/

namespace Syntax

theorem exists_block_eq (items : List String) :
    ∃ inner, (Layout.block items).toList = '\x7b' :: (inner ++ ['\x7d']) := by
  rw [Layout.block]
  split
  · exact ⟨[], rfl⟩
  · refine ⟨'\n' :: (Layout.indent ("\n".intercalate items)).toList ++ ['\n'], ?_⟩
    rw [String.toList_append, String.toList_append]
    simp

theorem exists_printString_eq (text : String) (block : Bool) :
    ∃ inner, (printString text block).toList = '"' :: inner := by
  cases block with
  | false => exact ⟨_, String.toList_ofList⟩
  | true => exact ⟨_, String.toList_ofList⟩

/-- What is joined starts with the first part, and goes on behind a blank if it goes on at all. -/
theorem joinNonEmpty_cons {first : String} (hfirst : first ≠ "") (parts : List String) :
    Layout.joinNonEmpty " " (first :: parts) = first ∨
      ∃ rest, Layout.joinNonEmpty " " (first :: parts) = first ++ " " ++ rest := by
  have hkept : (!first.isEmpty) = true := by simpa using hfirst
  rw [Layout.joinNonEmpty, List.filter_cons, if_pos hkept]
  cases parts.filter fun part => !part.isEmpty with
  | nil => exact .inl (by simp)
  | cons second others => exact .inr ⟨_, String.intercalate_cons_cons⟩

namespace Operation

variable {operation : Operation}

/-- A description is printed first. -/
theorem exists_print_of_described {literal : Description}
    (hdescription : operation.description = some literal) :
    ∃ inner, operation.print.toList = '"' :: (inner ++ ['\x7d']) := by
  obtain ⟨front, hliteral⟩ := exists_printString_eq literal.text literal.block
  obtain ⟨inner, hblock⟩ := exists_block_eq (printSelections operation.selections)
  obtain ⟨head, hprint, hhead⟩ : ∃ head : String, operation.print =
      (if head == "query" then "" else head ++ " ") ++
        Layout.block (printSelections operation.selections) ∧
      ∃ more, head.toList = '"' :: more := by
    refine ⟨_, rfl, ?_⟩
    rw [hdescription, Option.map_some, Option.getD_some, Description.print, String.toList_append,
      String.toList_append, hliteral]
    exact ⟨_, rfl⟩
  obtain ⟨more, hmore⟩ := hhead
  have hne : head ≠ "query" := by
    rintro rfl
    exact absurd (List.cons.inj hmore).1 (by decide)
  refine ⟨more ++ ' ' :: '\x7b' :: inner, ?_⟩
  rw [hprint, if_neg (by simpa using hne)]
  simp [hmore, hblock]

/-- Without description and name, the text is the selections alone or starts with the word for the
kind. -/
theorem print_cases (hdescription : operation.description = none) (hname : operation.name = none) :
    (∃ inner, operation.print.toList = '\x7b' :: (inner ++ ['\x7d'])) ∨
      ∃ rest inner, operation.print = operation.kind.keyword ++ " " ++ rest ∧
        rest.toList = inner ++ ['\x7d'] := by
  obtain ⟨inner, hblock⟩ := exists_block_eq (printSelections operation.selections)
  have hkind : operation.kind.keyword ≠ "" := by
    cases operation.kind <;> decide
  rw [print, hdescription, hname]
  simp only [Option.map_none, Option.getD_none, String.empty_append]
  split
  · exact .inl ⟨inner, by simpa using hblock⟩
  · right
    rcases joinNonEmpty_cons hkind [printVariables operation.variableDefinitions,
      printDirectives operation.directives] with hjoined | ⟨rest, hjoined⟩
    · rw [hjoined]
      exact ⟨_, '\x7b' :: inner, rfl, hblock⟩
    · rw [hjoined]
      simp only [String.append_assoc]
      exact ⟨_, rest.toList ++ ' ' :: '\x7b' :: inner, rfl, by simp [hblock]⟩

end Operation

/-! ### Lexemes of the text -/

/-- A comment goes up to the end of its line. -/
theorem lexemes_comment {comment : List Char} (h : ∀ c ∈ comment, isLineEnd c = false)
    (rest : List Char) : lexemes ('#' :: (comment ++ '\n' :: rest)) = lexemes rest := by
  have hcomment : (comment ++ '\n' :: rest).takeWhile (fun d => !isLineEnd d) = comment :=
    takeWhile_append_eq (by simpa using h) (by simp [isLineEnd])
  rw [lexemes, scanFrom, if_neg (by decide), if_pos (by decide), hcomment]
  simp only [List.drop_left, map_lexeme_scanFrom]
  exact lexemes_ignored rfl rest

theorem lexemes_two_comments {first word second line : List Char}
    (hfirst : ∀ c ∈ first ++ word ++ second, isLineEnd c = false)
    (hline : ∀ c ∈ line, isLineEnd c = false) (rest : List Char) :
    lexemes ('#' :: first ++ word ++ (second ++ ['\n']) ++ '#' :: (line ++ ['\n']) ++ rest) =
      lexemes rest := by
  have hsplit : '#' :: first ++ word ++ (second ++ ['\n']) ++ '#' :: (line ++ ['\n']) ++ rest =
      '#' :: (first ++ word ++ second ++ '\n' :: '#' :: (line ++ '\n' :: rest)) := by
    simp
  rw [hsplit, lexemes_comment hfirst, lexemes_comment hline]

/-- Behind a name, a blank and more. -/
theorem lexemes_name {name : String} (h : IsName name) (rest : List Char) :
    lexemes (name.toList ++ ' ' :: rest) = .name name :: lexemes rest := by
  have hread := h.writes 0 (' ' :: rest) (Opens.cons rfl rest)
  rwa [shifted_zero, lexemes_ignored rfl] at hread

end Syntax

/-! ### Putting a name in -/

/-- A word for a kind at the start of a text is dropped with the blank behind it. -/
theorem dropKindWord_keyword (kind : OperationKind) {rest : String} {inner : List Char}
    (hrest : rest.toList = inner ++ ['\x7d']) :
    dropKindWord (kind.keyword ++ " " ++ rest) = rest := by
  have htext : (kind.keyword ++ " " ++ rest).toList =
      kind.keyword.toList ++ [' '] ++ rest.toList := by
    simp [String.toList_append]
  obtain ⟨c, more, hkeyword, hc⟩ : ∃ c more, kind.keyword.toList = c :: more ∧
      Text.isBlank c = false := by
    cases kind <;> exact ⟨_, _, rfl, by decide⟩
  have htrim : Text.trimBlank (kind.keyword ++ " " ++ rest) = kind.keyword ++ " " ++ rest := by
    have hlast : (kind.keyword ++ " " ++ rest).toList.getLast? = some '\x7d' := by
      rw [htext, hrest, ← List.append_assoc, List.getLast?_concat]
    refine Text.trimBlank_eq_self ?_ ?_
    · simp [htext, hkeyword, hc]
    · rw [hlast]
      rintro _ ⟨⟩
      decide
  have hword : ["query ", "mutation ", "subscription "].find? (fun word =>
      word.toList.isPrefixOf ((kind.keyword ++ " " ++ rest).toList.map Char.toLower)) =
        some (kind.keyword ++ " ") := by
    rw [htext]
    cases kind <;> rfl
  have hlength : (kind.keyword ++ " ").length = (kind.keyword.toList ++ [' ']).length := by
    rw [← String.length_toList, String.toList_append]
    rfl
  unfold dropKindWord
  simp only [htrim, hword]
  rw [hlength, htext, List.drop_left, String.ofList_toList]

theorem dropKindWord_eq_self {text : String} {c : Char} {inner : List Char}
    (htext : text.toList = c :: (inner ++ ['\x7d'])) (hc : c = '\x7b' ∨ c = '"') :
    dropKindWord text = text := by
  have htrim : Text.trimBlank text = text := by
    have hlast : text.toList.getLast? = some '\x7d' := by
      rw [htext, ← List.cons_append, List.getLast?_concat]
    refine Text.trimBlank_eq_self ?_ ?_
    · rcases hc with rfl | rfl <;> simp [htext] <;> decide
    · rw [hlast]
      rintro _ ⟨⟩
      decide
  have hword : ["query ", "mutation ", "subscription "].find? (fun word =>
      word.toList.isPrefixOf (text.toList.map Char.toLower)) = none := by
    rw [htext]
    rcases hc with rfl | rfl <;> rfl
  unfold dropKindWord
  simp only [htrim, hword]

/-- The comment above an operation that was given a name. -/
def namingAdvice (word : String) : String :=
  "# Consider giving this " ++ word ++ " a unique, descriptive\n" ++
    "# name in your application as a best practice\n"

/-- The advice is no part of what is read. -/
theorem lexemes_namingAdvice (kind : OperationKind) (rest : List Char) :
    lexemes ((namingAdvice kind.keyword).toList ++ rest) = lexemes rest := by
  have hparts : ∀ first word second third : String, (first ++ word ++ second ++ third).toList =
      first.toList ++ word.toList ++ second.toList ++ third.toList := by
    simp [String.toList_append]
  have hopen : "# Consider giving this ".toList = '#' :: " Consider giving this ".toList := by
    decide
  have hclose : " a unique, descriptive\n".toList = " a unique, descriptive".toList ++ ['\n'] := by
    decide
  have hline : "# name in your application as a best practice\n".toList =
      '#' :: (" name in your application as a best practice".toList ++ ['\n']) := by
    decide
  have hplain : ∀ text : String, text.toList.all (fun c => !isLineEnd c) = true →
      ∀ c ∈ text.toList, isLineEnd c = false := by
    intro text h
    simpa using h
  have hfirst : ∀ c ∈ " Consider giving this ".toList ++ kind.keyword.toList ++
      " a unique, descriptive".toList, isLineEnd c = false := by
    rw [List.forall_mem_append, List.forall_mem_append]
    refine ⟨⟨hplain _ (by decide), hplain _ ?_⟩, hplain _ (by decide)⟩
    cases kind <;> decide
  have hsecond := hplain " name in your application as a best practice" (by decide)
  unfold namingAdvice
  rw [hparts, hopen, hclose, hline]
  exact lexemes_two_comments hfirst hsecond rest

/-- The printed text of an operation with the word for its kind and a name put in. -/
def namedText (word name text : String) : String :=
  namingAdvice word ++ word ++ " " ++ name ++ " " ++ dropKindWord text

theorem lexemes_namedText (kind : OperationKind) {name : String} (hname : IsName name)
    (text : String) :
    lexemes (namedText kind.keyword name text).toList =
      .name kind.keyword :: .name name :: lexemes (dropKindWord text).toList := by
  have htext : (namedText kind.keyword name text).toList = (namingAdvice kind.keyword).toList ++
      (kind.keyword.toList ++ ' ' :: (name.toList ++ ' ' :: (dropKindWord text).toList)) := by
    simp [namedText, String.toList_append]
  rw [htext, lexemes_namingAdvice, lexemes_name kind.isName_keyword, lexemes_name hname]

/-- What is read is the operation with this name. -/
structure Syntax.Operation.RenamedTo (operation : Operation) (name : String) (read : Operation) :
    Prop where
  name : read.name = some name
  kind : read.kind = operation.kind
  variableDefinitions : read.variableDefinitions = operation.variableDefinitions
  directives : read.directives = operation.directives
  selections : read.selections = operation.selections

section

variable {operation : Operation} {name : String}

/-- What stands behind the word for the kind, or the whole operation if that is left out. -/
def Syntax.Operation.restLexemes (operation : Operation) : List Lexeme :=
  enclosedLexemes .parenOpen .parenClose VariableDefinition.lexemes
      operation.variableDefinitions ++
    directiveLexemes operation.directives ++ selectionLexemes operation.selections

theorem Syntax.Operation.restLexemes_of_isShort (h : operation.isShort = true) :
    operation.restLexemes = selectionLexemes operation.selections := by
  simp only [isShort, Bool.and_eq_true, List.isEmpty_iff] at h
  simp [restLexemes, h.1.2, h.2, enclosedLexemes, directiveLexemes]

theorem lexemes_print_operation (h : operation.Fits Description.Settled) :
    lexemes operation.print.toList = operation.lexemes ++ [.eof] :=
  @lexemes_print (.operation operation) h

/-- Without a description, the name comes to stand where it is read. -/
theorem lexemes_named_of_undescribed (hfits : operation.Fits Description.Settled)
    (hunnamed : operation.name = none) (hdescription : operation.description = none)
    (hname : IsName name) :
    lexemes (namedText operation.kind.keyword name operation.print).toList =
      { operation with name := some name }.lexemes ++ [.eof] := by
  have hprint := lexemes_print_operation hfits
  have hnamed : { operation with name := some name }.lexemes =
      .name operation.kind.keyword :: .name name :: operation.restLexemes := by
    simp [Operation.lexemes, Operation.isShort, Operation.headLexemes, hdescription,
      descriptionLexemes, Operation.restLexemes]
  have hlexemes : operation.lexemes = if operation.isShort then operation.restLexemes
      else .name operation.kind.keyword :: operation.restLexemes := by
    rw [Operation.lexemes]
    split
    · rename_i hshort
      exact (Operation.restLexemes_of_isShort hshort).symm
    · simp [Operation.headLexemes, hdescription, hunnamed, descriptionLexemes,
        Operation.restLexemes]
  rw [lexemes_namedText operation.kind hname, hnamed]
  rcases Operation.print_cases hdescription hunnamed with
    ⟨inner, htext⟩ | ⟨rest, inner, htext, hrest⟩
  · -- what starts with a brace is short
    have hmore := closed_mark (show Punctuator.ofChar? '\x7b' = some .braceOpen from rfl) 0
      (inner ++ ['\x7d'])
    rw [shifted_zero, List.singleton_append, ← htext] at hmore
    rw [dropKindWord_eq_self htext (.inl rfl)]
    rw [hprint, hlexemes] at hmore ⊢
    split at hmore
    · rename_i hshort
      rw [if_pos hshort]
      rfl
    · cases hmore
  · rw [htext, dropKindWord_keyword operation.kind hrest]
    have hsplit : operation.print.toList = operation.kind.keyword.toList ++ ' ' :: rest.toList := by
      rw [htext]
      simp [String.toList_append]
    have hword := lexemes_name operation.kind.isName_keyword rest.toList
    rw [← hsplit] at hword
    rw [hprint, hlexemes] at hword
    split at hword
    · rename_i hshort
      rw [Operation.restLexemes_of_isShort hshort] at hword
      have hfirst := (List.cons.inj hword).1
      contradiction
    · rw [← (List.cons.inj hword).2]
      rfl

/-- Behind a description, it comes to stand in front of it. -/
theorem parse_named_of_described {literal : Description}
    (hfits : operation.Fits Description.Settled)
    (hdescription : operation.description = some literal) (hname : IsName name) :
    ∃ error,
      Document.parse (namedText operation.kind.keyword name operation.print) = .error error := by
  obtain ⟨inner, htext⟩ := Operation.exists_print_of_described hdescription
  have hprint := lexemes_print_operation hfits
  have hstart : ∃ rest, operation.lexemes = literal.lexeme :: rest := by
    rw [Operation.lexemes, if_neg (by simp [Operation.isShort, hdescription]),
      Operation.headLexemes, hdescription]
    exact ⟨_, rfl⟩
  obtain ⟨rest, hstart⟩ := hstart
  have hlexemes : lexemes (namedText operation.kind.keyword name operation.print).toList =
      (.name operation.kind.keyword :: .name name :: literal.lexeme :: rest) ++ [.eof] := by
    rw [lexemes_namedText operation.kind hname, dropKindWord_eq_self htext (.inr rfl), hprint,
      hstart]
    rfl
  exact parse_error_of_string hlexemes (invalid_not_mem_lexemes hlexemes)

/-- The text with a name put in is read as the operation with this name, unless there is a
description. -/
theorem parse_namedText_iff
    (hprint : Document.parse operation.print = .ok [.executable (.operation operation)])
    (hunnamed : operation.name = none) (hname : IsName name) :
    (∃ read, Document.parse (namedText operation.kind.keyword name operation.print) =
        .ok [.executable (.operation read)] ∧ operation.RenamedTo name read) ↔
      operation.description = none := by
  have hfits : operation.Fits Description.Settled :=
    fits_of_parse hprint (.executable (.operation operation)) (List.mem_singleton_self _)
  constructor
  · rintro ⟨read, hread, -⟩
    by_contra hdescribed
    obtain ⟨literal, hliteral⟩ := Option.ne_none_iff_exists'.mp hdescribed
    obtain ⟨error, herror⟩ := parse_named_of_described hfits hliteral hname
    rw [herror] at hread
    exact nomatch hread
  · intro hdescription
    have hnamed : ({ operation with name := some name } : Operation).Fits Description.Settled :=
      { hfits with name := fun other hother => Option.some.inj hother ▸ hname }
    have hlexemes := lexemes_named_of_undescribed hfits hunnamed hdescription hname
    set named : Operation := { operation with name := some name }
    have hall : ∀ definition ∈ [Executable.operation named], definition.Fits Description.Settled :=
      fun definition hdefinition => List.mem_singleton.mp hdefinition ▸ hnamed
    refine ⟨named, parse_of_lexemes (List.cons_ne_nil _ _) hall ?_, rfl, rfl, rfl, rfl, rfl⟩
    rw [hlexemes, List.flatMap_singleton]
    rfl

end

/-! ### Names in place of names -/

/-- The name for a definition without one, by its kind and its place. -/
def standInName (kind : DefinitionKind) (place : Nat) : String :=
  "unnamed" ++ Text.capitalizeFirst kind.word ++ toString place

/-- Letters and then the digits of the place. -/
theorem exists_standInName_eq (kind : DefinitionKind) (place : Nat) :
    ∃ letters : List Char, (standInName kind place).toList =
        'u' :: letters ++ Nat.toDigits 10 place ∧
      ∀ c ∈ 'u' :: letters, isNameContinue c = true ∧ c.isDigit = false := by
  have hdigits : (toString place).toList = Nat.toDigits 10 place := by simp [toString, Nat.repr]
  obtain ⟨word, hword, hall⟩ : ∃ word, Text.capitalizeFirst kind.word = word ∧
      ('u' :: ("nnamed".toList ++ word.toList)).all (fun c => isNameContinue c && !c.isDigit) =
        true := by
    rcases kind with (_ | _ | _) | _
    · exact ⟨"Query", by decide, by decide⟩
    · exact ⟨"Mutation", by decide, by decide⟩
    · exact ⟨"Subscription", by decide, by decide⟩
    · exact ⟨"Fragment", by decide, by decide⟩
  have hletters : ∀ c ∈ 'u' :: ("nnamed".toList ++ word.toList),
      isNameContinue c = true ∧ c.isDigit = false := by
    simpa only [List.all_eq_true, Bool.and_eq_true, Bool.not_eq_true'] using hall
  refine ⟨"nnamed".toList ++ word.toList, ?_, hletters⟩
  rw [standInName, String.toList_append, String.toList_append, hword, hdigits]
  rfl

theorem isName_standInName (kind : DefinitionKind) (place : Nat) :
    IsName (standInName kind place) := by
  obtain ⟨letters, htext, hletters⟩ := exists_standInName_eq kind place
  refine ⟨'u', letters ++ Nat.toDigits 10 place, by simpa using htext, by decide, fun c hc => ?_⟩
  rcases List.mem_append.mp hc with hc | hc
  · exact (hletters c (List.mem_cons_of_mem _ hc)).1
  · have hdigit := Json.isDigit_of_mem_toDigits hc
    simp [isNameContinue, Char.isAlphanum, hdigit]

/-- The digits at the end tell the place. -/
theorem eq_of_standInName_eq {kind other : DefinitionKind} {place next : Nat}
    (h : standInName kind place = standInName other next) : place = next := by
  have hdrop (kind : DefinitionKind) (place : Nat) :
      (standInName kind place).toList.dropWhile (fun c => !c.isDigit) = Nat.toDigits 10 place := by
    obtain ⟨letters, htext, hletters⟩ := exists_standInName_eq kind place
    rw [htext]
    refine dropWhile_append_eq (fun c hc => by simp [(hletters c hc).2]) fun c hc => ?_
    simp [Json.isDigit_of_mem_toDigits (List.mem_of_mem_head? hc)]
  exact Json.eq_of_toDigits_eq ((hdrop kind place).symm.trans (h ▸ hdrop other next))

/-! ### Records -/

namespace OperationRecord

/-- There is only the word for a kind in place of a name. -/
def LacksName (record : OperationRecord) : Prop :=
  isKindWord (Text.trimBlank record.name) = true

theorem named_eq_self {record : OperationRecord} (h : ¬ record.LacksName) (place : Nat) :
    record.named place = record := by
  rw [LacksName] at h
  rw [named, if_neg h]

theorem name_named {record : OperationRecord} (h : record.LacksName) (place : Nat) :
    (record.named place).name = standInName record.kind place :=
  congrArg name (if_pos h)

theorem query_named {record : OperationRecord} (h : record.LacksName) (place : Nat) :
    (record.named place).query =
      namedText record.kind.word (standInName record.kind place) record.query :=
  congrArg query (if_pos h)

/-- Nothing but the names and the text is new. -/
theorem named_data (record : OperationRecord) (place : Nat) :
    { record.named place with
      name := record.name, displayName := record.displayName, query := record.query } = record := by
  rw [named]
  split <;> rfl

/-- An anonymous operation lacks a name. -/
theorem lacksName_ofDefinition (table : FragmentTable) (values : List (String × Json))
    {operation : Operation} (hname : operation.name = none) :
    (ofDefinition table values (.operation operation)).LacksName := by
  have hword : (ofDefinition table values (.operation operation)).name =
      operation.kind.keyword := by
    simp [ofDefinition, Executable.nameOrKind, Executable.name?, hname, Executable.kind,
      DefinitionKind.word]
  rw [LacksName, hword]
  cases operation.kind <;> decide

end OperationRecord

theorem getElem?_nameRecords (records : List OperationRecord) (place : Nat) :
    (nameRecords records)[place]? = records[place]?.map (·.named (place + 1)) := by
  rw [nameRecords, List.getElem?_map, List.getElem?_zipIdx, Option.map_map]
  simp [Function.comp_def]

/-- The records of a graph are those of its definitions. -/
theorem ordered_perm_recordsOf {topic : Topic} {strict : Bool} {values : List (String × Json)}
    {definitions : List Executable} {graph : OperationGraph}
    (h : (resolveGraph topic strict values definitions).value = .ok graph) :
    graph.ordered.Perm (recordsOf values definitions) := by
  have hordered : HoldsOrRefused strict definitions
      (fun graph => graph.ordered.Perm (recordsOf values definitions))
        (resolveGraph topic strict values definitions).value := by
    refine holdsOrRefused_resolveGraph ?_
    have hperm := (orderWalk_emitted_perm (recordsOf values definitions)).filterMap
      ((recordsOf values definitions)[·]?)
    rwa [filterMap_range_getElem?] at hperm
  rwa [h] at hordered

/-- The records with names, next to the records as they were. -/
structure NamesGiven (records named : List OperationRecord) : Prop where
  length : named.length = records.length
  data : ∀ (place : Nat) (record new : OperationRecord),
    records[place]? = some record → named[place]? = some new →
    { new with name := record.name, displayName := record.displayName, query := record.query } =
      record
  kept : ∀ (place : Nat) (record new : OperationRecord),
    records[place]? = some record → named[place]? = some new →
    ¬ record.LacksName → new = record
  distinct : ∀ (place next : Nat) (record new other newer : OperationRecord),
    records[place]? = some record → named[place]? = some new → record.LacksName →
    records[next]? = some other → named[next]? = some newer → other.LacksName →
      place ≠ next → new.name ≠ newer.name

theorem namesGiven_nameRecords (records : List OperationRecord) :
    NamesGiven records (nameRecords records) where
  length := by simp [nameRecords]
  data := by
    intro place record new hrecord hnew
    rw [getElem?_nameRecords, hrecord, Option.map_some, Option.some.injEq] at hnew
    exact hnew ▸ record.named_data (place + 1)
  kept := by
    intro place record new hrecord hnew hnamed
    rw [getElem?_nameRecords, hrecord, Option.map_some, Option.some.injEq] at hnew
    exact hnew ▸ OperationRecord.named_eq_self hnamed (place + 1)
  distinct := by
    intro place next record new other newer hrecord hnew hlacks hother hnewer hotherLacks hne hsame
    rw [getElem?_nameRecords, hrecord, Option.map_some, Option.some.injEq] at hnew
    rw [getElem?_nameRecords, hother, Option.map_some, Option.some.injEq] at hnewer
    rw [← hnew, ← hnewer, OperationRecord.name_named hlacks,
      OperationRecord.name_named hotherLacks] at hsame
    exact hne (Nat.succ.inj (eq_of_standInName_eq hsame))

/-- **Naming keeps operations that have no description.** The records of a graph, one for every
definition, keep their number, their order and their data where names are given to those without
one, and no two of these get the same name. Where an anonymous operation is read from its own
printed text, the text with the name for its place is read as the operation with this name if and
only if the operation has no description. -/
theorem naming_keeps_operations_iff {topic : Topic} {strict : Bool}
    {values : List (String × Json)} {definitions : List Executable} {graph : OperationGraph}
    (hgraph : (resolveGraph topic strict values definitions).value = .ok graph) :
    (graph.ordered.map (·.definition)).Perm definitions ∧
      NamesGiven graph.ordered (nameRecords graph.ordered) ∧
      ∀ (place : Nat) (record : OperationRecord) (operation : Operation),
        graph.ordered[place]? = some record →
        record.definition = .operation operation → operation.name = none →
        Document.parse operation.print = .ok [.executable (.operation operation)] →
          ∃ new, (nameRecords graph.ordered)[place]? = some new ∧
            new.name = "unnamed" ++ Text.capitalizeFirst operation.kind.keyword ++
              toString (place + 1) ∧
            ((∃ read, Document.parse new.query = .ok [.executable (.operation read)] ∧
                operation.RenamedTo new.name read) ↔ operation.description = none) := by
  have hperm := ordered_perm_recordsOf hgraph
  refine ⟨?_, namesGiven_nameRecords _, ?_⟩
  · refine (hperm.map (·.definition)).trans ?_
    rw [List.map_map]
    exact List.Perm.of_eq (List.map_id _)
  · intro place record operation hrecord hdefinition hunnamed hprint
    obtain ⟨definition, -, rfl⟩ := List.mem_map.mp (hperm.subset (List.mem_of_getElem? hrecord))
    obtain rfl : definition = .operation operation := hdefinition
    have hlacks :=
      OperationRecord.lacksName_ofDefinition (firstFragments definitions) values hunnamed
    refine ⟨_, by rw [getElem?_nameRecords, hrecord, Option.map_some],
      OperationRecord.name_named hlacks _, ?_⟩
    rw [OperationRecord.name_named hlacks, OperationRecord.query_named hlacks]
    exact parse_namedText_iff hprint hunnamed (isName_standInName _ _)

namespace AnonymousQuery

def operation (description : Option Description) : Operation :=
  ⟨description, .query, none, [], [], [.field ⟨none, "a", [], []⟩ none]⟩

def definitions (description : Option Description) : List Executable :=
  [.operation (operation description)]

def record (description : Option Description) : OperationRecord :=
  .ofDefinition [] [] (.operation (operation description))

def graph (description : Option Description) : OperationGraph :=
  ⟨definitions description, [record description], [record description]⟩

theorem value_resolveGraph (description : Option Description) :
    (resolveGraph .generation false [] (definitions description)).value =
      .ok (graph description) := by
  have hgraph : (resolveGraph .generation false [] (definitions description)).value =
      .ok ⟨definitions description, [record description],
        (orderRecords [record description]).value⟩ := rfl
  rw [hgraph, value_orderRecords_singleton]
  rfl

theorem print_plain : (operation none).print = "\x7b\n  a\n\x7d" := by
  decide

theorem parse_print_plain :
    Document.parse (operation none).print = .ok [.executable (.operation (operation none))] := by
  rw [print_plain]
  decide +kernel

/-- Selections alone get a keyword and a name. -/
theorem plain_query_named :
    (resolveGraph .generation false [] (definitions none)).value = .ok (graph none) ∧
      (graph none).ordered[0]? = some (record none) ∧
      (record none).definition = .operation (operation none) ∧ (operation none).name = none ∧
      Document.parse (operation none).print = .ok [.executable (.operation (operation none))] ∧
      ∃ new : OperationRecord, (nameRecords (graph none).ordered)[0]? = some new ∧
        new.name = "unnamedQuery1" ∧
        ∃ read : Operation, Document.parse new.query = .ok [.executable (.operation read)] ∧
          (operation none).RenamedTo new.name read := by
  obtain ⟨-, -, hnamed⟩ := naming_keeps_operations_iff (value_resolveGraph none)
  obtain ⟨new, hnew, hname, hread⟩ := hnamed 0 (record none) (operation none) rfl rfl rfl
    parse_print_plain
  have hword : "unnamed" ++ Text.capitalizeFirst (operation none).kind.keyword ++ toString (0 + 1) =
      "unnamedQuery1" := by decide
  exact ⟨value_resolveGraph none, rfl, rfl, rfl, parse_print_plain, new, hnew, hname.trans hword,
    hread.mpr rfl⟩

/-- What stands in front of the query. -/
def people : Option Description := some ⟨"people", false⟩

def source : String := "\"people\" query \x7b a \x7d"

theorem parse_source :
    Document.parse source = .ok [.executable (.operation (operation people))] := by
  decide +kernel

/-- The name of a query with a description comes to stand in front of the description, and the text
cannot be read. -/
theorem described_query_not_read :
    Document.parse source = .ok [.executable (.operation (operation people))] ∧
      (resolveGraph .generation false [] (definitions people)).value = .ok (graph people) ∧
      (graph people).ordered[0]? = some (record people) ∧
      (record people).definition = .operation (operation people) ∧
      (operation people).name = none ∧
      Document.parse (operation people).print =
        .ok [.executable (.operation (operation people))] ∧
      ∃ new : OperationRecord, (nameRecords (graph people).ordered)[0]? = some new ∧
        new.name = "unnamedQuery1" ∧ new.query =
          "# Consider giving this query a unique, descriptive\n" ++
            "# name in your application as a best practice\n" ++
            "query unnamedQuery1 \"people\"\nquery \x7b\n  a\n\x7d" ∧
        ∃ error, Document.parse new.query = .error error := by
  have hfits : (operation people).Fits Description.Settled :=
    fits_of_parse parse_source (.executable (.operation (operation people)))
      (List.mem_singleton_self _)
  have hprint := parse_print parse_source (List.mem_singleton_self _)
  have hlacks : (record people).LacksName := OperationRecord.lacksName_ofDefinition [] [] rfl
  refine ⟨parse_source, value_resolveGraph people, rfl, rfl, rfl, hprint, (record people).named 1,
    rfl, ?_, ?_, ?_⟩
  · rw [OperationRecord.name_named hlacks]
    decide
  · decide +kernel
  · rw [OperationRecord.query_named hlacks]
    exact parse_named_of_described hfits rfl (isName_standInName _ 1)

end AnonymousQuery

end OperationLibrary
