import OperationLibrary.Library.Declarations
import OperationLibrary.Proofs.SignatureCode

/-!
The functions that generated files name. The runtime exports functions and lists them in an object;
the declarations export functions and list them in an interface. Both are read off the lines of
code: a statement at the start of a line exports a function, and the members stand between the line
that opens the list and the line that closes it.
-/

namespace OperationLibrary

open Syntax (IsName isNameContinue isNameContinue_of_mem takeWhile_append_eq dropWhile_append_eq)
open SourceText

/-! ### Reading names -/

/-- The identifier between two marks, of which the first is at the front. -/
def nameBetween? (start after : String) (line : List Char) : Option String := do
  let rest ← behind? start line
  let _ ← behind? after (rest.dropWhile isIdentifierPart)
  return String.ofList (rest.takeWhile isIdentifierPart)

/-- How a file names functions: what stands around the name in a statement that exports a function,
and the lines around the list of all functions. -/
structure Listing where
  start : String
  after : String
  opening : String
  closing : String

namespace Listing

/-- A runtime exports values and lists them in an object. -/
def runtime (style : ModuleStyle) : Listing :=
  ⟨style.exporting "", " = (", "const functions = \x7b", "\x7d;"⟩

/-- Declarations export functions and list them in an interface. -/
def declarations : Listing :=
  ⟨"export function ", "(", "export interface Functions \x7b", "\x7d"⟩

variable (listing : Listing)

def exported? (line : List Char) : Option String :=
  nameBetween? listing.start listing.after line

/-- The lines of the list of all functions. -/
def memberLines (lines : List (List Char)) : List (List Char) :=
  ((lines.dropWhile (· != listing.opening.toList)).drop 1).takeWhile (· != listing.closing.toList)

/-- The functions that a text exports, and the functions that it lists, where each line of the list
is a member of it. -/
def read (text : List Char) : Option (List String × List String) := do
  let lines ← codeLines? text
  let members ← (listing.memberLines lines).mapM (nameBetween? "  " ": ")
  return (lines.filterMap listing.exported?, members)

/-- The line exports nothing and opens no list. -/
def Silent (line : List Char) : Prop :=
  listing.exported? line = none ∧ line ≠ listing.opening.toList

instance (line : List Char) : Decidable (listing.Silent line) :=
  inferInstanceAs (Decidable (_ ∧ _))

end Listing

theorem nameBetween?_eq_some {start after name : String} {rest : List Char}
    (hname : ∀ c ∈ name.toList, isIdentifierPart c = true)
    (hafter : ∀ c ∈ after.toList.head?, isIdentifierPart c = false) (hne : after.toList ≠ []) :
    nameBetween? start after (start.toList ++ (name.toList ++ (after.toList ++ rest))) =
      some name := by
  have hends : ∀ c ∈ (after.toList ++ rest).head?, isIdentifierPart c = false := by
    rwa [List.head?_append_of_ne_nil _ hne]
  rw [nameBetween?, behind?_append]
  simp only [Option.bind_eq_bind, Option.bind_some, takeWhile_append_eq hname hends,
    dropWhile_append_eq hname hends, behind?_append, String.ofList_toList]
  rfl

theorem nameBetween?_eq_none {start after : String} {c : Char} {more line : List Char}
    (hstart : start.toList = c :: more) (hline : c ∉ line.head?) :
    nameBetween? start after line = none := by
  rw [nameBetween?, behind?_eq_none hstart hline]
  rfl

/-! ### Lines of a file -/

/-- The characters of lines, each with its line feed. -/
def lineChars (lines : List String) : List Char :=
  lines.flatMap fun line => line.toList ++ ['\n']

@[simp] theorem lineChars_nil : lineChars [] = [] := rfl

@[simp] theorem lineChars_cons (line : String) (lines : List String) :
    lineChars (line :: lines) = line.toList ++ ['\n'] ++ lineChars lines := rfl

@[simp] theorem lineChars_append (lines others : List String) :
    lineChars (lines ++ others) = lineChars lines ++ lineChars others :=
  List.flatMap_append

section

variable {listing : Listing}

/-- The lines export these functions, and open no list. -/
def Listing.Tells (listing : Listing) (lines names : List String) : Prop :=
  ∃ found, ReadsLines (lineChars lines) found ∧ found.filterMap listing.exported? = names ∧
    listing.opening.toList ∉ found

theorem Listing.Tells.nil : listing.Tells [] [] :=
  ⟨[], .nil, rfl, List.not_mem_nil⟩

theorem Listing.Tells.append {lines others names more : List String} (h : listing.Tells lines names)
    (hothers : listing.Tells others more) : listing.Tells (lines ++ others) (names ++ more) := by
  obtain ⟨found, hfound, rfl, hopening⟩ := h
  obtain ⟨rest, hrest, rfl, hlater⟩ := hothers
  refine ⟨found ++ rest, ?_, List.filterMap_append, by simp [hopening, hlater]⟩
  rw [lineChars_append]
  exact hfound.append hrest

theorem Listing.Tells.flatMap {α : Type} {xs : List α} {write names : α → List String}
    (h : ∀ x ∈ xs, listing.Tells (write x) (names x)) :
    listing.Tells (xs.flatMap write) (xs.flatMap names) := by
  induction xs with
  | nil => exact .nil
  | cons x xs ih =>
      rw [List.flatMap_cons, List.flatMap_cons]
      exact (h x List.mem_cons_self).append (ih fun y hy => h y (List.mem_cons_of_mem _ hy))

/-- Lines that are silent. -/
theorem Listing.Tells.silent {lines : List String} {found : List (List Char)}
    (h : ReadsLines (lineChars lines) found) (hsilent : ∀ line ∈ found, listing.Silent line) :
    listing.Tells lines [] :=
  ⟨found, h, List.filterMap_eq_nil_iff.mpr fun line hline => (hsilent line hline).1,
    fun hopening => (hsilent _ hopening).2 rfl⟩

/-- Lines without code. -/
theorem Listing.Tells.comment {lines : List String} (h : ReadsLines (lineChars lines) []) :
    listing.Tells lines [] :=
  .silent h (by simp)

/-- A line that exports a function. -/
theorem Listing.Tells.exported {line name : String} {code : List Char}
    (h : ReadsLines (lineChars [line]) [code]) (hname : listing.exported? code = some name)
    (hne : code ≠ listing.opening.toList) : listing.Tells [line] [name] :=
  ⟨[code], h, by simp [hname], by simpa using hne.symm⟩

/-- Whether lines, read from this place on below a line that is in progress, lead back to code and
are silent. -/
def Listing.isSilentFrom (listing : Listing) : CodePlace → List Char → List (List Char) → Bool
  | place, rest, [] => place = .code && rest.isEmpty
  | place, rest, line :: lines =>
    match CodeReader.run ⟨place, rest, []⟩ (line ++ ['\n']) with
    | ⟨next, later, found⟩ =>
      found.all (fun line => listing.Silent line) && listing.isSilentFrom next later lines

theorem Listing.exists_run_of_isSilentFrom {place : CodePlace} {rest : List Char}
    {lines : List (List Char)} (h : listing.isSilentFrom place rest lines = true) :
    ∃ found, (∀ line ∈ found, listing.Silent line) ∧
      CodeReader.run ⟨place, rest, []⟩ (lines.flatMap (· ++ ['\n'])) = ⟨.code, [], found⟩ := by
  induction lines generalizing place rest with
  | nil =>
      simp only [isSilentFrom, Bool.and_eq_true, decide_eq_true_eq, List.isEmpty_iff] at h
      obtain ⟨rfl, rfl⟩ := h
      exact ⟨[], by simp, rfl⟩
  | cons line lines ih =>
      rw [isSilentFrom] at h
      cases hrun : CodeReader.run ⟨place, rest, []⟩ (line ++ ['\n']) with
      | mk next later found =>
          rw [hrun] at h
          simp only [Bool.and_eq_true, List.all_eq_true, decide_eq_true_eq] at h
          obtain ⟨hsilent, hmore⟩ := h
          obtain ⟨others, hothers, hrest⟩ := ih hmore
          refine ⟨found ++ others, ?_, ?_⟩
          · intro line hline
            exact (List.mem_append.mp hline).elim (hsilent line) (hothers line)
          · have hbelow :=
              CodeReader.run_below ⟨next, later, []⟩ found (lines.flatMap (· ++ ['\n']))
            rw [hrest] at hbelow
            rw [List.flatMap_cons, CodeReader.run_append, hrun]
            simpa [CodeReader.below] using hbelow

/-- Fixed lines are silent if they are so one after the other. -/
theorem Listing.Tells.fixed {lines : List String}
    (h : listing.isSilentFrom .code [] (lines.map String.toList) = true) :
    listing.Tells lines [] := by
  obtain ⟨found, hsilent, hrun⟩ := exists_run_of_isSilentFrom h
  rw [List.flatMap_map] at hrun
  exact .silent (.of_run hrun) hsilent

end

/-- The marks of a listing are plain code, and the lines around its list are neither statements nor
members. -/
structure Listing.Regular (listing : Listing) : Prop where
  start : ReadsCode listing.start.toList listing.start.toList
  after : ReadsCode listing.after.toList listing.after.toList
  start_front : 'e' ∈ listing.start.toList.head?
  after_front : ∃ c ∈ listing.after.toList.head?, isIdentifierPart c = false
  opening : ReadsCode listing.opening.toList listing.opening.toList
  opening_front : ∃ c ∈ listing.opening.toList.head?, c ≠ ' ' ∧ c ≠ '\x7d' ∧ c ≠ ')'
  opening_silent : listing.exported? listing.opening.toList = none
  closing : ReadsCode listing.closing.toList listing.closing.toList
  closing_silent : listing.exported? listing.closing.toList = none
  closing_front : ∃ c ∈ listing.closing.toList.head?, c ≠ ' '

theorem Listing.runtime_regular (style : ModuleStyle) : (Listing.runtime style).Regular := by
  cases style
  all_goals
    constructor
    all_goals
      simp only [runtime, ModuleStyle.exporting, String.toList_append, toList_literal]
    · exact .plain rfl
    · exact .plain rfl
    · decide
    · exact ⟨' ', rfl, rfl⟩
    · exact .plain rfl
    · exact ⟨'c', rfl, by decide⟩
    · rfl
    · exact .plain rfl
    · rfl
    · exact ⟨'\x7d', rfl, by decide⟩

theorem Listing.declarations_regular : Listing.declarations.Regular := by
  constructor
  all_goals simp only [declarations, toList_literal]
  · exact .plain rfl
  · exact .plain rfl
  · decide
  · exact ⟨'(', rfl, rfl⟩
  · exact .plain rfl
  · exact ⟨'e', rfl, by decide⟩
  · rfl
  · exact .plain rfl
  · rfl
  · exact ⟨'\x7d', rfl, by decide⟩

section

variable {listing : Listing}

/-- A line of code. -/
theorem readsLines_line {line : String} {code : List Char} (h : ReadsCode line.toList code)
    (hcode : ∃ c ∈ code, c ≠ ' ') : ReadsLines (lineChars [line]) [code] := by
  obtain ⟨c, hc, hne⟩ := hcode
  rw [lineChars_cons, lineChars_nil, List.append_nil]
  refine h.line (Bool.eq_false_iff.mpr fun hall => hne ?_)
  simpa using List.all_eq_true.mp hall c hc

/-- A line that is silent. -/
theorem Listing.Tells.line {line : String} {code : List Char} (h : ReadsCode line.toList code)
    (hsilent : listing.Silent code) : listing.Tells [line] [] := by
  by_cases hblank : code.all (· == ' ') = true
  · refine .comment ?_
    rw [lineChars_cons, lineChars_nil, List.append_nil]
    exact h.blankLine hblank
  · have hline : ReadsLines (lineChars [line]) [code] := by
      rw [lineChars_cons, lineChars_nil, List.append_nil]
      exact h.line (Bool.eq_false_iff.mpr hblank)
    exact .silent hline (by simpa using hsilent)

theorem Listing.Regular.exported?_eq_none (hregular : listing.Regular) {line : List Char}
    (h : 'e' ∉ line.head?) : listing.exported? line = none := by
  obtain ⟨more, hstart⟩ := List.head?_eq_some_iff.mp hregular.start_front
  exact nameBetween?_eq_none hstart h

/-- An inner line is no statement, and it opens no list. -/
theorem Listing.Regular.silent_of_isInner (hregular : listing.Regular) {line : List Char}
    (h : IsInner line) : listing.Silent line := by
  obtain ⟨c, hc, hinner⟩ := h
  constructor
  · refine hregular.exported?_eq_none fun he => ?_
    obtain rfl := Option.some.inj (hc.symm.trans he)
    revert hinner
    decide
  · rintro rfl
    obtain ⟨d, hd, hspace, hbrace, hparenthesis⟩ := hregular.opening_front
    obtain rfl := Option.some.inj (hc.symm.trans hd)
    exact hinner.elim hspace (·.elim hbrace hparenthesis)

/-- An inner line. -/
theorem Listing.Tells.inner (hregular : listing.Regular) {line : String} {code : List Char}
    (h : ReadsCode line.toList code) (hinner : IsInner code) : listing.Tells [line] [] :=
  .line h (hregular.silent_of_isInner hinner)

/-- A statement that exports a function. -/
theorem Listing.Tells.statement (hregular : listing.Regular) {name rest : String}
    {code : List Char} (hname : ∀ c ∈ name.toList, isNameContinue c = true)
    (hrest : ReadsCode rest.toList code) :
    listing.Tells [listing.start ++ name ++ listing.after ++ rest] [name] := by
  obtain ⟨c, hc, hends⟩ := hregular.after_front
  have hread : listing.exported? (listing.start.toList ++ (name.toList ++
      (listing.after.toList ++ code))) = some name := by
    refine nameBetween?_eq_some
      (fun d hd => (isNameCharacter_of_isNameContinue (hname d hd)).identifier) ?_ ?_
    · intro d hd
      obtain rfl := Option.some.inj (hc.symm.trans hd)
      exact hends
    · rintro hnil
      rw [hnil] at hc
      cases hc
  have hline : ReadsCode (listing.start ++ name ++ listing.after ++ rest).toList
      (listing.start.toList ++ (name.toList ++ (listing.after.toList ++ code))) := by
    simp only [String.toList_append, List.append_assoc]
    exact hregular.start.append ((ReadsCode.name hname).append (hregular.after.append hrest))
  refine .exported (readsLines_line hline ⟨'e', ?_, by decide⟩) hread ?_
  · exact List.mem_append_left _ (List.mem_of_mem_head? hregular.start_front)
  · intro hopening
    rw [hopening, hregular.opening_silent] at hread
    cases hread

/-- The lines that stand between two lines that open and close a list. -/
theorem Listing.memberLines_eq {listing : Listing} {before members after : List (List Char)}
    (hopening : listing.opening.toList ∉ before) (hclosing : listing.closing.toList ∉ members) :
    listing.memberLines (before ++ (listing.opening.toList ::
      (members ++ listing.closing.toList :: after))) = members := by
  have hbefore : ∀ line ∈ before, (line != listing.opening.toList) = true := by
    intro line hline
    exact bne_iff_ne.mpr fun h => hopening (h ▸ hline)
  have hmembers : ∀ line ∈ members, (line != listing.closing.toList) = true := by
    intro line hline
    exact bne_iff_ne.mpr fun h => hclosing (h ▸ hline)
  rw [memberLines, List.dropWhile_append_of_pos hbefore, List.dropWhile_cons_of_neg (by simp),
    List.drop_one, List.tail_cons, List.takeWhile_append_of_pos hmembers,
    List.takeWhile_cons_of_neg (by simp), List.append_nil]

/-- The lines are indented members of a list of functions, one for each of these. -/
def ListsMembers (lines names : List String) : Prop :=
  ∃ found, ReadsLines (lineChars lines) found ∧
    found.mapM (nameBetween? "  " ": ") = some names ∧ ∀ line ∈ found, ' ' ∈ line.head?

theorem ListsMembers.nil : ListsMembers [] [] :=
  ⟨[], .nil, rfl, by simp⟩

theorem ListsMembers.append {lines others names more : List String} (h : ListsMembers lines names)
    (hothers : ListsMembers others more) : ListsMembers (lines ++ others) (names ++ more) := by
  obtain ⟨found, hfound, hnames, hindented⟩ := h
  obtain ⟨rest, hrest, hmore, hlater⟩ := hothers
  refine ⟨found ++ rest, ?_, ?_, fun line hline => ?_⟩
  · rw [lineChars_append]
    exact hfound.append hrest
  · rw [List.mapM_append, hnames, hmore]
    rfl
  · exact (List.mem_append.mp hline).elim (hindented line) (hlater line)

theorem ListsMembers.flatMap {α : Type} {xs : List α} {write names : α → List String}
    (h : ∀ x ∈ xs, ListsMembers (write x) (names x)) :
    ListsMembers (xs.flatMap write) (xs.flatMap names) := by
  induction xs with
  | nil => exact .nil
  | cons x xs ih =>
      rw [List.flatMap_cons, List.flatMap_cons]
      exact (h x List.mem_cons_self).append (ih fun y hy => h y (List.mem_cons_of_mem _ hy))

/-- Lines without code are members of nothing. -/
theorem ListsMembers.comment {lines : List String} (h : ReadsLines (lineChars lines) []) :
    ListsMembers lines [] :=
  ⟨[], h, rfl, by simp⟩

theorem ListsMembers.member {name rest : String} {code : List Char}
    (hname : ∀ c ∈ name.toList, isNameContinue c = true) (hrest : ReadsCode rest.toList code) :
    ListsMembers ["  " ++ name ++ ": " ++ rest] [name] := by
  have hread : nameBetween? "  " ": " ("  ".toList ++ (name.toList ++ (": ".toList ++ code))) =
      some name := by
    refine nameBetween?_eq_some
      (fun d hd => (isNameCharacter_of_isNameContinue (hname d hd)).identifier) ?_ (by simp)
    simp only [toList_literal]
    rintro c hc
    obtain rfl := Option.some.inj hc
    rfl
  have hfront : ReadsCode "  ".toList "  ".toList := by
    simp only [toList_literal]
    exact .plain rfl
  have hmark : ReadsCode ": ".toList ": ".toList := by
    simp only [toList_literal]
    exact .plain rfl
  have hline : ReadsCode ("  " ++ name ++ ": " ++ rest).toList
      ("  ".toList ++ (name.toList ++ (": ".toList ++ code))) := by
    simp only [String.toList_append, List.append_assoc]
    exact hfront.append ((ReadsCode.name hname).append (hmark.append hrest))
  refine ⟨[_], readsLines_line hline ⟨':', by simp, by decide⟩, ?_, ?_⟩
  · rw [List.mapM_cons, hread]
    rfl
  · intro line hmem
    rw [List.mem_singleton.mp hmem]
    simp only [toList_literal]
    rfl

/-- **The names in a file.** Lines that export functions, a list of functions, and lines that export
nothing are read as these functions. -/
theorem Listing.read_eq (hregular : listing.Regular)
    {before members after names listed : List String} (hbefore : listing.Tells before names)
    (hmembers : ListsMembers members listed) (hafter : listing.Tells after []) :
    listing.read (lineChars (before ++ listing.opening :: (members ++ listing.closing :: after))) =
      some (names, listed) := by
  obtain ⟨first, hfirst, hnames, hopening⟩ := hbefore
  obtain ⟨inside, hinside, hlisted, hindented⟩ := hmembers
  obtain ⟨last, hlast, hnone, -⟩ := hafter
  have hopens : ReadsLines (lineChars [listing.opening]) [listing.opening.toList] := by
    obtain ⟨c, hc, hne, -, -⟩ := hregular.opening_front
    exact readsLines_line hregular.opening ⟨c, List.mem_of_mem_head? hc, hne⟩
  have hcloses : ReadsLines (lineChars [listing.closing]) [listing.closing.toList] := by
    obtain ⟨c, hc, hne⟩ := hregular.closing_front
    exact readsLines_line hregular.closing ⟨c, List.mem_of_mem_head? hc, hne⟩
  have hlines : ReadsLines
      (lineChars (before ++ listing.opening :: (members ++ listing.closing :: after)))
      (first ++ listing.opening.toList :: (inside ++ listing.closing.toList :: last)) := by
    rw [List.append_cons, List.append_cons members]
    simp only [lineChars_append]
    have hall := (hfirst.append hopens).append ((hinside.append hcloses).append hlast)
    simpa only [List.append_assoc, List.singleton_append] using hall
  -- members are indented, so none of them ends the list or exports anything
  have hclosing : listing.closing.toList ∉ inside := by
    intro hmem
    obtain ⟨c, hc, hne⟩ := hregular.closing_front
    exact hne (Option.some.inj (hc.symm.trans (hindented _ hmem)))
  have hmembers : inside.filterMap listing.exported? = [] := by
    refine List.filterMap_eq_nil_iff.mpr fun line hline => ?_
    refine hregular.exported?_eq_none fun he => ?_
    exact absurd (Option.some.inj (he.symm.trans (hindented line hline))) (by decide)
  have hexported : (first ++ listing.opening.toList :: (inside ++
      listing.closing.toList :: last)).filterMap listing.exported? = names := by
    rw [List.filterMap_append, hnames, List.filterMap_cons_none hregular.opening_silent,
      List.filterMap_append, hmembers, List.filterMap_cons_none hregular.closing_silent, hnone,
      List.append_nil, List.append_nil]
  simp only [read, hlines.codeLines?, Option.bind_eq_bind, Option.bind_some,
    memberLines_eq hopening hclosing, hlisted, hexported]
  rfl

end

/-! ### Comments of a file -/

/-- The characters of a comment around a text, from behind its opening up to its own end. -/
def commentInside (margin body : String) : List Char :=
  ['*', '\n'] ++ (margin.toList ++ [' ', '*', ' '] ++
    (body.toList ++ ('\n' :: (margin.toList ++ [' ']))))

/-- The comment without the line feed behind it. -/
def commentText (margin body : String) : List Char :=
  margin.toList ++ '/' :: '*' :: (commentInside margin body ++ ['*', '/'])

theorem lineChars_commentLines (margin body : String) :
    lineChars [margin ++ "/**", margin ++ " * " ++ body, margin ++ " */"] =
      commentText margin body ++ ['\n'] := by
  simp only [lineChars_cons, lineChars_nil, String.toList_append, toList_literal, commentText,
    commentInside]
  simp

theorem unclosed_commentInside {margin body : String}
    (hmargin : margin.toList.all (· == ' ') = true) (h : Unclosed body.toList) :
    Unclosed (commentInside margin body) := by
  have hblank : ∀ c ∈ margin.toList, c = ' ' := by simpa using hmargin
  have hopen : Unclosed (margin.toList) := unclosed_of_not_mem fun hstar =>
    absurd (hblank _ hstar) (by decide)
  have hbullet : Unclosed [' ', '*', ' '] := by simp [Unclosed]
  have hstars : Unclosed ['*', '\n'] := by simp [Unclosed]
  have hlast : Unclosed ('\n' :: (margin.toList ++ [' '])) := unclosed_of_not_mem fun hstar => by
    simp only [List.mem_cons, List.mem_append, List.not_mem_nil] at hstar
    rcases hstar with hstar | hstar | hstar | hstar
    · exact absurd hstar (by decide)
    · exact absurd (hblank _ hstar) (by decide)
    · exact absurd hstar (by decide)
    · exact hstar.elim
  exact hstars.append ((hopen.append hbullet (.inr (by simp))).append
    (h.append hlast (.inr (by simp))) (.inl (by simp))) (.inl (by simp))

/-- The lines of a comment around a text that does not end it. -/
theorem readsLines_commentLines (margin : String) {body : String}
    (hmargin : margin.toList.all (· == ' ') = true) (h : Unclosed body.toList) :
    ReadsLines (lineChars [margin ++ "/**", margin ++ " * " ++ body, margin ++ " */"]) [] := by
  have hcode : ReadsCode margin.toList margin.toList := by
    refine .plain (List.all_eq_true.mpr fun c hc => ?_)
    rw [beq_iff_eq.mp (List.all_eq_true.mp hmargin c hc)]
    rfl
  rw [lineChars_commentLines]
  refine (hcode.append (.comment (unclosed_commentInside hmargin h))).blankLine ?_
  rw [List.append_nil]
  exact hmargin

end OperationLibrary
