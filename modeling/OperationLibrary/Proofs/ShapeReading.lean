import OperationLibrary.Proofs.CommentText
import OperationLibrary.Proofs.Lexemes

/-!
A reader of printed types. It passes over every comment up to the first comment end, takes what is
left for the structure of the type, and finds the shape that was printed, whatever its descriptions
say. Shapes with the same text are therefore the same but for their descriptions.
-/

namespace OperationLibrary

open Syntax (isNameStart isNameContinue IsName isNameContinue_of_mem takeWhile_append_eq
  dropWhile_append_eq ne_of_kind)

/-! ### The reader -/

/-- The text behind a mark that it begins with. -/
def behind? (mark : String) (text : List Char) : Option (List Char) :=
  text.dropPrefix? mark.toList

/-- Characters of an identifier. -/
def isIdentifierPart (c : Char) : Bool :=
  isIdentifierStart c || c.isDigit

/-- Reads quoted values with bars between them. -/
def readChoices : Nat → List Char → Option (List String × List Char)
  | 0, _ => none
  | room + 1, text => do
    let text ← behind? "\"" text
    let value := String.ofList (text.takeWhile isNameContinue)
    let text ← behind? "\"" (text.dropWhile isNameContinue)
    match behind? " | " text with
    | none => some ([value], text)
    | some text =>
      let (values, rest) ← readChoices room text
      some (value :: values, rest)

mutual

/-- Reads the type at the front of a text. -/
def readShape : Nat → List Char → Option (Shape × List Char)
  | 0, _ => none
  | _ + 1, '/' :: text => do
    let rest ← behind? emptyObjectText ('/' :: text)
    some (.object [] none, rest)
  | room + 1, '\x7b' :: '\n' :: text => do
    let (entries, rest) ← readEntries room text
    some (.object entries none, rest)
  | room + 1, '"' :: text => do
    let (values, rest) ← readChoices room ('"' :: text)
    some (.enum values none, rest)
  | room + 1, text =>
    match behind? "Array<" text with
    | some text => do
      let (item, rest) ← readShape room text
      let rest ← behind? ">" rest
      some (.list item none, rest)
    | none =>
      some (.scalar (String.ofList (text.takeWhile isIdentifierPart)) none,
        text.dropWhile isIdentifierPart)

/-- Reads entries up to the end of their object. -/
def readEntries : Nat → List Char → Option (List (Entry Shape) × List Char)
  | 0, _ => none
  | room + 1, text =>
    let text := behindComment text
    match behind? "\x7d" text with
    | some rest => some ([], rest)
    | none => do
      let name := String.ofList (text.takeWhile isNameContinue)
      let text := text.dropWhile isNameContinue
      let nullable := (behind? "?" text).isSome
      let text ← behind? ": " ((behind? "?" text).getD text)
      let (type, text) ← readShape room text
      let text ← behind? ";\n" text
      let (entries, rest) ← readEntries room text
      some (⟨name, type, nullable, none⟩ :: entries, rest)

end

/-- The shape that a text is the type of. -/
def Shape.ofText? (text : String) : Option Shape :=
  match readShape (text.toList.length + 1) text.toList with
  | some (shape, []) => some shape
  | _ => none

/-! ### What a type says -/

mutual

/-- The shape without descriptions; a choice between no values is the type of no value. -/
def Shape.bare : Shape → Shape
  | .scalar type _ => .scalar type none
  | .enum values _ => if values.isEmpty then .scalar "never" none else .enum values none
  | .list item _ => .list item.bare none
  | .object entries _ => .object (bareEntries entries) none

def bareEntries : List (Entry Shape) → List (Entry Shape)
  | [] => []
  | ⟨name, type, nullable, _⟩ :: rest => ⟨name, type.bare, nullable, none⟩ :: bareEntries rest

end

mutual

/-- Scalars are identifiers, entries and values of a choice are names. -/
def Shape.WellNamed : Shape → Prop
  | .scalar type _ => isIdentifier type.toList = true
  | .enum values _ => ∀ value ∈ values, IsName value
  | .list item _ => item.WellNamed
  | .object entries _ => EntriesWellNamed entries

def EntriesWellNamed : List (Entry Shape) → Prop
  | [] => True
  | ⟨name, type, _, _⟩ :: rest => IsName name ∧ type.WellNamed ∧ EntriesWellNamed rest

end

/-! ### Names -/

theorem behind?_append (mark : String) (rest : List Char) :
    behind? mark (mark.toList ++ rest) = some rest :=
  List.dropPrefix?_append_of_beq rest (by simp)

theorem isIdentifier_of_isName {name : String} (h : IsName name) :
    isIdentifier name.toList = true := by
  obtain ⟨c, more, htext, hc, hmore⟩ := h
  rw [htext, isIdentifier, Bool.and_eq_true, List.all_eq_true]
  refine ⟨?_, fun d hd => ?_⟩
  · rw [isIdentifierStart, ← isNameStart, hc, Bool.true_or]
  · have hd := hmore d hd
    simp only [isNameContinue, Char.isAlphanum, isIdentifierStart, Bool.or_eq_true] at hd ⊢
    tauto

/-- Names need no quotes. -/
theorem propertyName_of_isName {name : String} (h : IsName name) :
    propertyName name = name.toList := by
  have hfinal : name.toList.getLast? ≠ some '\n' := by
    intro hlast
    exact absurd (isNameContinue_of_mem h _ (List.mem_of_getLast? hlast)) (by decide)
  rw [propertyName, dropFinalNewline, if_neg hfinal, if_pos (isIdentifier_of_isName h)]

theorem isIdentifierPart_of_mem {text : List Char} (h : isIdentifier text = true) :
    ∀ c ∈ text, isIdentifierPart c = true := by
  cases text with
  | nil => simp
  | cons c more =>
      obtain ⟨hc, hmore⟩ := (Bool.and_eq_true _ _).mp h
      intro d hd
      rcases List.mem_cons.mp hd with rfl | hd
      · rw [isIdentifierPart, hc, Bool.true_or]
      · exact List.all_eq_true.mp hmore d hd

/-! ### Reading what was printed -/

theorem behind?_eq_none {mark : String} {c : Char} {more rest : List Char}
    (hmark : mark.toList = c :: more) (h : c ∉ rest.head?) : behind? mark rest = none := by
  rw [behind?, hmark]
  cases rest with
  | nil => rfl
  | cons d rest =>
      have hne : (d == c) = false := by
        rw [beq_eq_false_iff_ne]
        rintro rfl
        exact h rfl
      rw [List.dropPrefix?, hne]
      rfl

/-- What may follow a type: nothing, the rest of its entry, or the end of a list. -/
def FollowsType (rest : List Char) : Prop :=
  ∀ c ∈ rest.head?, c = ';' ∨ c = '>'

theorem FollowsType.not_mem {rest : List Char} (h : FollowsType rest) {c : Char}
    (hc : c ≠ ';' ∧ c ≠ '>') : c ∉ rest.head? :=
  fun hmem => (h c hmem).elim hc.1 hc.2

theorem readChoices_quoted {value : String} (h : IsName value) (room : Nat) (after : List Char) :
    readChoices (room + 1) ('"' :: (value.toList ++ '"' :: after)) =
      match behind? " | " after with
      | none => some ([value], after)
      | some text => (do
        let (values, rest) ← readChoices room text
        some (value :: values, rest)) := by
  have hquote : ∀ c ∈ ('"' :: after).head?, isNameContinue c = false := by
    rintro c hc
    obtain rfl := Option.some.inj hc
    rfl
  have hname := isNameContinue_of_mem h
  have hopened : behind? "\"" ('"' :: (value.toList ++ '"' :: after)) =
      some (value.toList ++ '"' :: after) := behind?_append "\"" _
  have hclosed : behind? "\"" ('"' :: after) = some after := behind?_append "\"" _
  rw [readChoices, hopened]
  simp only [Option.bind_eq_bind, Option.bind_some]
  rw [takeWhile_append_eq hname hquote, dropWhile_append_eq hname hquote, hclosed,
    String.ofList_toList]
  rfl

theorem readChoices_append {value : String} {values : List String}
    (h : ∀ other ∈ value :: values, IsName other) {room : Nat} {rest : List Char}
    (hrest : FollowsType rest) (hroom : (enumText (value :: values) ++ rest).length ≤ room) :
    readChoices room (enumText (value :: values) ++ rest) = some (value :: values, rest) := by
  have hvalue : IsName value := h value List.mem_cons_self
  induction values generalizing value room with
  | nil =>
      have htext : enumText [value] ++ rest = '"' :: (value.toList ++ '"' :: rest) := by
        simp [enumText]
      -- nothing that follows a type goes on with a bar
      have hbar : ' ' ∉ rest.head? := hrest.not_mem (by decide)
      rw [htext, List.length_cons] at hroom
      obtain ⟨room, rfl⟩ : ∃ less, room = less + 1 := ⟨room - 1, by omega⟩
      rw [htext, readChoices_quoted hvalue, behind?_eq_none rfl hbar]
  | cons next values ih =>
      have htext : enumText (value :: next :: values) ++ rest = '"' :: (value.toList ++
          '"' :: (" | ".toList ++ (enumText (next :: values) ++ rest))) := by
        simp [enumText, List.intercalate_cons_cons]
      have hothers : ∀ other ∈ next :: values, IsName other := fun other hother =>
        h other (List.mem_cons_of_mem _ hother)
      rw [htext] at hroom
      simp only [List.length_cons, List.length_append] at hroom
      obtain ⟨room, rfl⟩ : ∃ less, room = less + 1 := ⟨room - 1, by omega⟩
      have hread : readChoices room (enumText (next :: values) ++ rest) =
          some (next :: values, rest) :=
        ih hothers (by rw [List.length_append]; omega) (hothers next List.mem_cons_self)
      rw [htext, readChoices_quoted hvalue, behind?_append]
      simp only [hread]
      rfl

theorem FollowsType.isIdentifierPart_eq_false {rest : List Char} (h : FollowsType rest) :
    ∀ c ∈ rest.head?, isIdentifierPart c = false := by
  intro c hc
  rcases h c hc with rfl | rfl <;> rfl

theorem behind?_array_eq_none {type : String} (h : isIdentifier type.toList = true)
    {rest : List Char} (hrest : FollowsType rest) :
    behind? "Array<" (type.toList ++ rest) = none := by
  rw [Option.eq_none_iff_forall_ne_some]
  intro inner hinner
  obtain ⟨mark, htext, hmark⟩ := List.dropPrefix?_eq_some_iff.mp hinner
  obtain rfl := beq_iff_eq.mp hmark
  -- the identifier ends where the angle bracket stands
  have hpart : ∀ c ∈ "Array".toList, isIdentifierPart c = true :=
    List.all_eq_true.mp (by decide)
  have hbracket : ∀ c ∈ ('<' :: inner).head?, isIdentifierPart c = false := by
    rintro c hc
    obtain rfl := Option.some.inj hc
    rfl
  have hboth : type.toList ++ rest = "Array".toList ++ '<' :: inner := htext
  have hrun := congrArg (List.dropWhile isIdentifierPart) hboth
  rw [dropWhile_append_eq (isIdentifierPart_of_mem h) hrest.isIdentifierPart_eq_false,
    dropWhile_append_eq hpart hbracket] at hrun
  exact hrest.not_mem (c := '<') (by decide) (by rw [hrun]; rfl)

theorem readShape_identifier {type : String} (h : isIdentifier type.toList = true) (room : Nat)
    {rest : List Char} (hrest : FollowsType rest) :
    readShape (room + 1) (type.toList ++ rest) = some (.scalar type none, rest) := by
  have hparts := isIdentifierPart_of_mem h
  have hends := hrest.isIdentifierPart_eq_false
  have hfirst : ∀ c more, type.toList ++ rest = c :: more → isIdentifierPart c = true := by
    intro c more htext
    cases htype : type.toList with
    | nil => rw [htype] at h; cases h
    | cons d run =>
        rw [htype] at htext hparts
        obtain rfl : d = c := (List.cons.inj htext).1
        exact hparts d List.mem_cons_self
  rw [readShape, behind?_array_eq_none h hrest]
  · simp only [takeWhile_append_eq hparts hends, dropWhile_append_eq hparts hends,
      String.ofList_toList]
  all_goals
    intro more htext
    exact absurd (hfirst _ _ htext) (by decide)

theorem readShape_choices {value : String} {values : List String}
    (h : ∀ other ∈ value :: values, IsName other) {room : Nat} {rest : List Char}
    (hrest : FollowsType rest) (hroom : (enumText (value :: values) ++ rest).length ≤ room) :
    readShape (room + 1) (enumText (value :: values) ++ rest) =
      some (.enum (value :: values) none, rest) := by
  have hread := readChoices_append h hrest hroom
  obtain ⟨more, htext⟩ : ∃ more, enumText (value :: values) = '"' :: more := by
    cases values <;> exact ⟨_, rfl⟩
  rw [htext, List.cons_append] at hread ⊢
  rw [readShape, hread]
  rfl

theorem readShape_list (room : Nat) (text : List Char) :
    readShape (room + 1) ("Array<".toList ++ text) = (do
      let (item, rest) ← readShape room text
      let rest ← behind? ">" rest
      some (.list item none, rest)) := by
  rw [readShape, behind?_append]
  all_goals
    intro more htext
    exact absurd (List.cons.inj htext).1 (by decide)

theorem readShape_emptyObject (room : Nat) (rest : List Char) :
    readShape (room + 1) (emptyObjectText.toList ++ rest) = some (.object [] none, rest) := by
  have hmark := behind?_append emptyObjectText rest
  obtain ⟨more, htext⟩ : ∃ more, emptyObjectText.toList = '/' :: more := ⟨_, rfl⟩
  rw [htext, List.cons_append] at hmark ⊢
  rw [readShape, hmark]
  rfl

theorem readEntries_close (room closing : Nat) (rest : List Char) :
    readEntries (room + 1) (margin closing ++ '\x7d' :: rest) = some ([], rest) := by
  have hfront : behindComment (margin closing ++ '\x7d' :: rest) = '\x7d' :: rest :=
    behindComment_docComment none closing rfl (by decide)
  have hbrace : behind? "\x7d" ('\x7d' :: rest) = some rest := behind?_append "\x7d" rest
  rw [readEntries, hfront]
  simp only [hbrace]

theorem readEntries_entry {name : String} (h : IsName name) (nullable : Bool)
    (description : Option String) (room level : Nat) (text : List Char) :
    readEntries (room + 1) (docComment description (margin level) ++ (margin level ++
        (name.toList ++ ((if nullable then ['?'] else []) ++ (": ".toList ++ text))))) = (do
      let (type, text) ← readShape room text
      let text ← behind? ";\n" text
      let (entries, rest) ← readEntries room text
      some (⟨name, type, nullable, none⟩ :: entries, rest)) := by
  let after := (if nullable then ['?'] else []) ++ (": ".toList ++ text)
  have hafter : ∀ c ∈ after.head?, isNameContinue c = false := by
    intro c hc
    cases nullable <;> obtain rfl := Option.some.inj hc <;> rfl
  have hname := isNameContinue_of_mem h
  have hmark : behind? "?" after = if nullable then some (": ".toList ++ text) else none := by
    cases nullable with
    | true => exact behind?_append "?" _
    | false => exact behind?_eq_none (c := '?') rfl (by simp [after])
  have htype : behind? ": " ((behind? "?" after).getD after) = some text := by
    rw [hmark]
    cases nullable <;> exact behind?_append ": " text
  have hkind : (behind? "?" after).isSome = nullable := by
    rw [hmark]
    cases nullable <;> rfl
  obtain ⟨c, more, hchars, hc, -⟩ := h
  -- a name starts with none of the marks that are looked for
  have hplain : ∀ d, isNameStart d = false → c ≠ d := fun d hd => ne_of_kind hc hd
  have hfront : behindComment (docComment description (margin level) ++ (margin level ++
      (name.toList ++ after))) = name.toList ++ after := by
    have hlayout : isLayout c = false := by
      simp [isLayout, hplain ' ' rfl, hplain '\n' rfl]
    rw [hchars]
    exact behindComment_docComment description level hlayout (hplain '/' rfl)
  have hbrace : behind? "\x7d" (name.toList ++ after) = none := by
    apply behind?_eq_none (c := '\x7d') rfl
    rw [hchars]
    exact fun h => hplain '\x7d' rfl (Option.some.inj h)
  rw [readEntries, hfront]
  simp only [hbrace, takeWhile_append_eq hname hafter, dropWhile_append_eq hname hafter, htype,
    hkind, String.ofList_toList]
  rfl

mutual

/-- A printed type is read back, and what follows it is left. -/
theorem readShape_print (shape : Shape) (h : shape.WellNamed) {level room : Nat} {rest : List Char}
    (hrest : FollowsType rest) (hroom : (shape.print level ++ rest).length < room) :
    readShape room (shape.print level ++ rest) = some (shape.bare, rest) := by
  obtain ⟨room, rfl⟩ : ∃ less, room = less + 1 := ⟨room - 1, by omega⟩
  -- the parts are shorter than the whole, so one round less is room for them
  match shape with
  | .scalar type description => exact readShape_identifier h room hrest
  | .enum [] description =>
      have hnever : isIdentifier "never".toList = true := rfl
      exact readShape_identifier hnever room hrest
  | .enum (value :: values) description =>
      exact readShape_choices h hrest (Nat.le_of_lt_succ hroom)
  | .list item description =>
      have htext : (Shape.list item description).print level ++ rest =
          "Array<".toList ++ (item.print level ++ ('>' :: rest)) := by
        show "Array<".toList ++ item.print level ++ ['>'] ++ rest = _
        simp only [List.append_assoc, List.singleton_append]
      have hitem : readShape room (item.print level ++ ('>' :: rest)) =
          some (item.bare, '>' :: rest) := by
        apply readShape_print item h
        · intro c hc
          exact .inr (Option.some.inj hc).symm
        · rw [htext, List.length_append] at hroom
          have hopen : "Array<".toList.length = 6 := rfl
          omega
      have hclose : behind? ">" ('>' :: rest) = some rest := behind?_append ">" rest
      rw [htext, readShape_list, hitem]
      show (behind? ">" ('>' :: rest)).bind _ = _
      rw [hclose]
      rfl
  | .object [] description => exact readShape_emptyObject room rest
  | .object (entry :: entries) description =>
      have htext : (Shape.object (entry :: entries) description).print level ++ rest =
          '\x7b' :: '\n' :: (printEntries (level + 1) (entry :: entries) ++
            (margin level ++ '\x7d' :: rest)) := by
        show ['\x7b', '\n'] ++ printEntries (level + 1) (entry :: entries) ++ margin level ++
          ['\x7d'] ++ rest = _
        simp
      have hentries : readEntries room (printEntries (level + 1) (entry :: entries) ++
          (margin level ++ '\x7d' :: rest)) = some (bareEntries (entry :: entries), rest) := by
        apply readEntries_print (entry :: entries) h
        rw [htext, List.length_cons, List.length_cons] at hroom
        omega
      rw [htext, readShape, hentries]
      rfl

theorem readEntries_print (entries : List (Entry Shape)) (h : EntriesWellNamed entries)
    {level closing room : Nat} {rest : List Char}
    (hroom : (printEntries level entries ++ (margin closing ++ '\x7d' :: rest)).length < room) :
    readEntries room (printEntries level entries ++ (margin closing ++ '\x7d' :: rest)) =
      some (bareEntries entries, rest) := by
  obtain ⟨room, rfl⟩ : ∃ less, room = less + 1 := ⟨room - 1, by omega⟩
  match entries with
  | [] => exact readEntries_close room closing rest
  | ⟨name, type, nullable, description⟩ :: entries =>
      obtain ⟨hname, htype, hentries⟩ := h
      let others := printEntries level entries ++ (margin closing ++ '\x7d' :: rest)
      have htext : printEntries level (⟨name, type, nullable, description⟩ :: entries) ++
          (margin closing ++ '\x7d' :: rest) =
          docComment (description.map Explanation.words) (margin level) ++ (margin level ++
            (name.toList ++ ((if nullable then ['?'] else []) ++ (": ".toList ++
              (type.print level ++ (";\n".toList ++ others)))))) := by
        simp [printEntries, propertyName_of_isName hname, others]
      rw [htext] at hroom
      simp only [List.length_append] at hroom
      have hcolon : ": ".toList.length = 2 := rfl
      have hsemicolon : ";\n".toList.length = 2 := rfl
      have htypeRead : readShape room (type.print level ++ (";\n".toList ++ others)) =
          some (type.bare, ";\n".toList ++ others) := by
        apply readShape_print type htype
        · intro c hc
          exact .inl (Option.some.inj hc).symm
        · simp only [List.length_append]
          omega
      have hothersRead : readEntries room others = some (bareEntries entries, rest) := by
        apply readEntries_print entries hentries
        show others.length < room
        omega
      rw [htext, readEntries_entry hname, htypeRead]
      show (behind? ";\n" (";\n".toList ++ others)).bind _ = _
      rw [behind?_append]
      show (readEntries room others).bind _ = _
      rw [hothersRead]
      rfl

end

/-! ### Printed types are unambiguous -/

theorem Shape.ofText?_text {shape : Shape} (h : shape.WellNamed) (level : Nat) :
    Shape.ofText? (shape.text level) = some shape.bare := by
  have hread : readShape ((shape.print level).length + 1) (shape.print level ++ []) =
      some (shape.bare, []) := by
    apply readShape_print shape h
    · rintro c hc
      cases hc
    · rw [List.append_nil]
      omega
  rw [List.append_nil] at hread
  rw [Shape.ofText?, Shape.text, String.toList_ofList, hread]

/-- The text of a type is read back as its shape, whatever its descriptions say, so that shapes
with the same text at the same level differ in their descriptions only. -/
theorem printed_types_unambiguous (level : Nat) :
    (∀ shape : Shape, shape.WellNamed → Shape.ofText? (shape.text level) = some shape.bare) ∧
    ∀ shape other : Shape, shape.WellNamed → other.WellNamed →
      shape.text level = other.text level → shape.bare = other.bare := by
  refine ⟨fun shape h => Shape.ofText?_text h level, fun shape other h hother htext => ?_⟩
  have hread := Shape.ofText?_text h level
  rw [htext, Shape.ofText?_text hother level] at hread
  exact (Option.some.inj hread).symm

/-- Descriptions with a comment end, a brace and an entry of their own, and with blanks that are not
printed. -/
theorem printed_types_unambiguous_described :
    let words : Explanation := .text "*/ id: string; \r\x7d"
    let trimmed : Explanation := .text "*/ id: string;\n\x7d "
    let shape : Shape :=
      .object [⟨"tags", .list (.enum ["NEW", "OLD"] none) none, true, some words⟩,
        ⟨"id", .enum [] (some words), false, none⟩] none
    let other : Shape :=
      .object [⟨"tags", .list (.enum ["NEW", "OLD"] none) (some words), true, some trimmed⟩,
        ⟨"id", .scalar "never" none, false, none⟩] (some trimmed)
    shape.WellNamed ∧ other.WellNamed ∧ shape.text 1 = other.text 1 ∧
      Shape.ofText? (shape.text 1) = some shape.bare ∧ shape.bare = other.bare := by
  intro words trimmed shape other
  have hvalues : ∀ value ∈ ["NEW", "OLD"], IsName value := by decide
  have hnever : isIdentifier "never".toList = true := by decide
  have hshape : shape.WellNamed :=
    ⟨by decide, hvalues, by decide, List.forall_mem_nil _, trivial⟩
  have hother : other.WellNamed := ⟨by decide, hvalues, by decide, hnever, trivial⟩
  have htext : shape.text 1 = other.text 1 := by decide
  obtain ⟨hread, hsame⟩ := printed_types_unambiguous 1
  exact ⟨hshape, hother, htext, hread shape hshape, hsame shape other hshape hother htext⟩

end OperationLibrary
