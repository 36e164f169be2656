import OperationLibrary.Proofs.CommentText
import OperationLibrary.Proofs.TemplateLiteral

/-!
A reader of modules. It goes through the characters of a text, passes over comments and over the
insides of literals, and keeps the lines of what is left. A text that leaves the reader where it
found it can be read on its own, so the lines of a file are those of its parts.
-/

namespace OperationLibrary

open SourceText Text

/-- A literal has the characters that it is made of. -/
theorem toList_literal (text : List Char) : String.toList (no_index (String.ofList text)) = text :=
  String.toList_ofList

/-! ### The reader -/

/-- Where a reader of a module is. -/
inductive CodePlace where
  | code
  /-- Behind a slash that may open a comment. -/
  | slash
  | lineComment
  | comment
  /-- Behind an asterisk in a comment. -/
  | star
  | quoted (mark : Char)
  | escaped (mark : Char)
  | template
  | templateEscaped
  /-- Behind a dollar sign in a template literal. -/
  | dollar
  /-- In a literal that is not closed, or in a substitution. -/
  | lost
  deriving DecidableEq

/-- A reader with the code of the line that it is in, and that of the lines above. -/
structure CodeReader where
  place : CodePlace
  line : List Char
  lines : List (List Char)
  deriving DecidableEq

def isLineEnd (c : Char) : Bool :=
  c == '\n' || c == '\r'

namespace CodeReader

/-- Goes to the next line; a line without code is not kept. -/
def endLine (reader : CodeReader) : CodeReader :=
  ⟨.code, [], if reader.line.all (· == ' ') then reader.lines
    else reader.lines ++ [reader.line]⟩

def keep (reader : CodeReader) (place : CodePlace) (c : Char) : CodeReader :=
  { reader with place := place, line := reader.line ++ [c] }

def stepCode (reader : CodeReader) (c : Char) : CodeReader :=
  if c = '/' then { reader with place := .slash }
  else if c = '\'' ∨ c = '"' then reader.keep (.quoted c) c
  else if c = '\x60' then reader.keep .template c
  else if isLineEnd c then reader.endLine
  else reader.keep .code c

def step (reader : CodeReader) (c : Char) : CodeReader :=
  match reader.place with
  | .code => reader.stepCode c
  | .slash =>
    if c = '/' then { reader with place := .lineComment }
    else if c = '*' then { reader with place := .comment }
    else (reader.keep .code '/').stepCode c
  | .lineComment => if isLineEnd c then reader.endLine else reader
  | .comment => if c = '*' then { reader with place := .star } else reader
  | .star =>
    if c = '/' then { reader with place := .code }
    else if c = '*' then reader
    else { reader with place := .comment }
  | .quoted mark =>
    if isLineEnd c then { reader with place := .lost }
    else if c = mark then reader.keep .code c
    else if c = '\\' then { reader with place := .escaped mark }
    else reader
  | .escaped mark => { reader with place := if isLineEnd c then .lost else .quoted mark }
  | .template =>
    if c = '\x60' then reader.keep .code c
    else if c = '\\' then { reader with place := .templateEscaped }
    else if c = '$' then { reader with place := .dollar }
    else reader
  | .templateEscaped => { reader with place := .template }
  | .dollar =>
    if c = '\x60' then reader.keep .code c
    else if c = '\\' then { reader with place := .templateEscaped }
    else if c = '$' then reader
    else { reader with place := if c = '\x7b' then .lost else .template }
  | .lost => reader

def run (reader : CodeReader) (text : List Char) : CodeReader :=
  text.foldl step reader

@[simp] theorem run_nil (reader : CodeReader) : reader.run [] = reader := rfl

@[simp] theorem run_cons (reader : CodeReader) (c : Char) (text : List Char) :
    reader.run (c :: text) = (reader.step c).run text := rfl

@[simp] theorem run_append (reader : CodeReader) (text more : List Char) :
    reader.run (text ++ more) = (reader.run text).run more :=
  List.foldl_append

end CodeReader

/-- The lines of code of a text, if its comments and literals are closed. -/
def codeLines? (text : List Char) : Option (List (List Char)) :=
  let reader := CodeReader.run ⟨.code, [], []⟩ text
  if reader.place = .code then some reader.endLine.lines else none

/-! ### Lines above and blank lines -/

namespace CodeReader

/-- A reader with these lines above its own. -/
def below (reader : CodeReader) (lines : List (List Char)) : CodeReader :=
  { reader with lines := lines ++ reader.lines }

theorem endLine_below (reader : CodeReader) (lines : List (List Char)) :
    (reader.below lines).endLine = reader.endLine.below lines := by
  by_cases hblank : reader.line.all (· == ' ') = true <;> simp [endLine, below, hblank]

theorem stepCode_below (reader : CodeReader) (lines : List (List Char)) (c : Char) :
    (reader.below lines).stepCode c = (reader.stepCode c).below lines := by
  simp only [stepCode, endLine_below]
  split_ifs <;> rfl

theorem step_below (reader : CodeReader) (lines : List (List Char)) (c : Char) :
    (reader.below lines).step c = (reader.step c).below lines := by
  obtain ⟨place, line, above⟩ := reader
  cases place with
  | code => exact stepCode_below _ _ _
  | slash =>
      simp only [step, below]
      split_ifs
      · rfl
      · rfl
      · exact stepCode_below ⟨.code, line ++ ['/'], above⟩ lines c
  | lineComment =>
      simp only [step, below]
      split_ifs
      · exact endLine_below ⟨.lineComment, line, above⟩ lines
      · rfl
  | comment | star | quoted | template | dollar =>
      simp only [step, below, keep]
      split_ifs <;> rfl
  | escaped | templateEscaped | lost => rfl

/-- What is read does not depend on the lines above. -/
theorem run_below (reader : CodeReader) (lines : List (List Char)) (text : List Char) :
    (reader.below lines).run text = (reader.run text).below lines := by
  induction text generalizing reader with
  | nil => rfl
  | cons c text ih => rw [run_cons, run_cons, step_below, ih]

/-- A second line feed in a row makes no difference. -/
theorem step_feed_feed (reader : CodeReader) :
    (reader.step '\n').step '\n' = reader.step '\n' := by
  obtain ⟨place, line, above⟩ := reader
  cases place <;> simp [step, stepCode, isLineEnd, endLine, keep]

theorem run_collapseBlankLines (reader : CodeReader) (text : List Char) :
    reader.run (collapseBlankLines text) = reader.run text := by
  induction text using collapseBlankLines_induction generalizing reader with
  | nil => rfl
  | triple rest ih =>
      rw [collapseBlankLines_triple, ih]
      simp only [tripleFeed, run_append, run_cons, run_nil, step_feed_feed]
  | cons c rest hrun ih => rw [collapseBlankLines_cons hrun, run_cons, run_cons, ih]

end CodeReader

/-- Shrinking blank lines leaves the code as it is, whatever comments and literals hold. -/
theorem codeLines?_collapseBlankLines (text : List Char) :
    codeLines? (collapseBlankLines text) = codeLines? text := by
  simp only [codeLines?, CodeReader.run_collapseBlankLines]

/-! ### Parts of a text -/

/-- The reader takes `code` from the text and stays in code and in its line. -/
def ReadsCode (text code : List Char) : Prop :=
  ∀ line lines, CodeReader.run ⟨.code, line, lines⟩ text = ⟨.code, line ++ code, lines⟩

/-- The reader takes whole lines from the text. -/
def ReadsLines (text : List Char) (found : List (List Char)) : Prop :=
  ∀ lines, CodeReader.run ⟨.code, [], lines⟩ text = ⟨.code, [], lines ++ found⟩

/-- A character that is nothing but code. -/
def isPlainCode (c : Char) : Bool :=
  c != '/' && c != '\'' && c != '"' && c != '\x60' && !isLineEnd c

theorem ReadsCode.nil : ReadsCode [] [] := by
  intro line lines
  rw [CodeReader.run_nil, List.append_nil]

theorem ReadsCode.append {text more code others : List Char} (h : ReadsCode text code)
    (hmore : ReadsCode more others) : ReadsCode (text ++ more) (code ++ others) := by
  intro line lines
  rw [CodeReader.run_append, h, hmore, List.append_assoc]

theorem ReadsCode.char {c : Char} (h : isPlainCode c = true) : ReadsCode [c] [c] := by
  intro line lines
  simp only [isPlainCode, Bool.and_eq_true, bne_iff_ne, Bool.not_eq_true'] at h
  simp [CodeReader.step, CodeReader.stepCode, CodeReader.keep, h]

theorem ReadsCode.plain {text : List Char} (h : text.all isPlainCode = true) :
    ReadsCode text text := by
  induction text with
  | nil => exact .nil
  | cons c text ih =>
      rw [List.all_cons, Bool.and_eq_true] at h
      exact (ReadsCode.char h.1).append (ih h.2)

theorem ReadsCode.literal {text : List Char} (h : text.all isPlainCode = true) :
    ReadsCode (String.ofList text).toList text := by
  rw [String.toList_ofList]
  exact .plain h

/-- Of a literal between quotes the quotes are kept. -/
theorem ReadsCode.quoted {mark : Char} (hmark : mark = '\'' ∨ mark = '"') {text : List Char}
    (h : ∀ c ∈ text, c ≠ mark ∧ c ≠ '\\' ∧ isLineEnd c = false) :
    ReadsCode (mark :: (text ++ [mark])) [mark, mark] := by
  intro line lines
  have hinside : CodeReader.run ⟨.quoted mark, line ++ [mark], lines⟩ text =
      ⟨.quoted mark, line ++ [mark], lines⟩ := by
    induction text with
    | nil => rfl
    | cons c text ih =>
        have hc := h c List.mem_cons_self
        have hstay : CodeReader.step ⟨.quoted mark, line ++ [mark], lines⟩ c =
            ⟨.quoted mark, line ++ [mark], lines⟩ := by
          simp [CodeReader.step, hc]
        rw [CodeReader.run_cons, hstay]
        exact ih fun d hd => h d (List.mem_cons_of_mem _ hd)
  have hopen : CodeReader.step ⟨.code, line, lines⟩ mark =
      ⟨.quoted mark, line ++ [mark], lines⟩ := by
    rcases hmark with rfl | rfl <;> rfl
  have hclose : CodeReader.step ⟨.quoted mark, line ++ [mark], lines⟩ mark =
      ⟨.code, line ++ [mark, mark], lines⟩ := by
    rcases hmark with rfl | rfl <;> simp [CodeReader.step, CodeReader.keep, isLineEnd]
  rw [CodeReader.run_cons, hopen, CodeReader.run_append, hinside, CodeReader.run_cons, hclose,
    CodeReader.run_nil]

/-- A comment goes up to its end. -/
theorem CodeReader.run_comment {inside : List Char} (h : Unclosed inside) (line : List Char)
    (lines : List (List Char)) {place : CodePlace}
    (hplace : place = .comment ∨ place = .star ∧ '/' ∉ inside.head?) :
    CodeReader.run ⟨place, line, lines⟩ (inside ++ ['*', '/']) = ⟨.code, line, lines⟩ := by
  induction inside generalizing place with
  | nil => rcases hplace with rfl | ⟨rfl, -⟩ <;> rfl
  | cons c inside ih =>
      obtain ⟨hnext, hrest⟩ := List.isChain_cons.mp h
      rw [List.cons_append, run_cons]
      by_cases hstar : c = '*'
      · subst hstar
        have hfollows : '/' ∉ inside.head? := fun hslash => hnext '/' hslash rfl rfl
        rcases hplace with rfl | ⟨rfl, -⟩ <;> exact ih hrest (.inr ⟨rfl, hfollows⟩)
      · have hstep : CodeReader.step ⟨place, line, lines⟩ c = ⟨.comment, line, lines⟩ := by
          rcases hplace with rfl | ⟨rfl, hslash⟩
          · simp [step, hstar]
          · have hc : c ≠ '/' := fun h => hslash (h ▸ rfl)
            simp [step, hstar, hc]
        rw [hstep]
        exact ih hrest (.inl rfl)

theorem ReadsCode.comment {inside : List Char} (h : Unclosed inside) :
    ReadsCode ('/' :: '*' :: (inside ++ ['*', '/'])) [] := by
  intro line lines
  rw [List.append_nil]
  exact CodeReader.run_comment h line lines (.inl rfl)

/-- A template literal for a text goes up to its own end. -/
theorem CodeReader.run_templateLiteral (text line : List Char) (lines : List (List Char))
    {place : CodePlace} (hplace : place = .template ∨ place = .dollar ∧ '\x7b' ∉ text.head?) :
    CodeReader.run ⟨place, line, lines⟩ (templateLiteral text ++ ['\x60']) =
      ⟨.code, line ++ ['\x60'], lines⟩ := by
  fun_induction templateLiteral text generalizing place with
  | case1 => rcases hplace with rfl | ⟨rfl, -⟩ <;> rfl
  | case2 text ih => rcases hplace with rfl | ⟨rfl, -⟩ <;> exact ih (.inl rfl)
  | case3 text ih => rcases hplace with rfl | ⟨rfl, -⟩ <;> exact ih (.inl rfl)
  | case4 text ih => rcases hplace with rfl | ⟨rfl, -⟩ <;> exact ih (.inl rfl)
  | case5 c text hslash hquote hopening ih =>
      rw [List.cons_append, run_cons]
      by_cases hdollar : c = '$'
      · subst hdollar
        have hfollows : '\x7b' ∉ text.head? := by
          intro hbrace
          obtain ⟨more, hmore⟩ := List.head?_eq_some_iff.mp hbrace
          exact hopening more rfl hmore
        rcases hplace with rfl | ⟨rfl, -⟩ <;> exact ih (.inr ⟨rfl, hfollows⟩)
      · have hstep : CodeReader.step ⟨place, line, lines⟩ c = ⟨.template, line, lines⟩ := by
          rcases hplace with rfl | ⟨rfl, hbrace⟩
          · simp_all [step]
          · have hc : c ≠ '\x7b' := fun h => hbrace (h ▸ rfl)
            simp_all [step]
        rw [hstep]
        exact ih (.inl rfl)

theorem ReadsCode.template (text : List Char) :
    ReadsCode ('\x60' :: (templateLiteral text ++ ['\x60'])) ['\x60', '\x60'] := by
  intro line lines
  have hopen : CodeReader.step ⟨.code, line, lines⟩ '\x60' =
      ⟨.template, line ++ ['\x60'], lines⟩ := rfl
  rw [CodeReader.run_cons, hopen, CodeReader.run_templateLiteral _ _ _ (.inl rfl),
    List.append_assoc]
  rfl

/-! ### Whole lines -/

theorem ReadsLines.nil : ReadsLines [] [] := by
  intro lines
  rw [CodeReader.run_nil, List.append_nil]

theorem ReadsLines.append {text more : List Char} {found others : List (List Char)}
    (h : ReadsLines text found) (hmore : ReadsLines more others) :
    ReadsLines (text ++ more) (found ++ others) := by
  intro lines
  rw [CodeReader.run_append, h, hmore, List.append_assoc]

/-- What is read without any lines above is read below any lines. -/
theorem ReadsLines.of_run {text : List Char} {found : List (List Char)}
    (h : CodeReader.run ⟨.code, [], []⟩ text = ⟨.code, [], found⟩) : ReadsLines text found := by
  intro lines
  have hbelow := CodeReader.run_below ⟨.code, [], []⟩ lines text
  rw [h] at hbelow
  simpa [CodeReader.below] using hbelow

/-- A line of code. -/
theorem ReadsCode.line {text code : List Char} (h : ReadsCode text code)
    (hcode : code.all (· == ' ') = false) : ReadsLines (text ++ ['\n']) [code] := by
  intro lines
  rw [CodeReader.run_append, h, List.nil_append, CodeReader.run_cons, CodeReader.run_nil]
  have hend : CodeReader.step ⟨.code, code, lines⟩ '\n' =
      CodeReader.endLine ⟨.code, code, lines⟩ := rfl
  rw [hend, CodeReader.endLine, hcode]
  rfl

/-- A line with nothing but blanks beside its comments. -/
theorem ReadsCode.blankLine {text code : List Char} (h : ReadsCode text code)
    (hcode : code.all (· == ' ') = true) : ReadsLines (text ++ ['\n']) [] := by
  intro lines
  rw [CodeReader.run_append, h, List.nil_append, CodeReader.run_cons, CodeReader.run_nil]
  have hend : CodeReader.step ⟨.code, code, lines⟩ '\n' =
      CodeReader.endLine ⟨.code, code, lines⟩ := rfl
  rw [hend, CodeReader.endLine, hcode, List.append_nil]
  rfl

/-- The lines of a text that is read to its end. -/
theorem ReadsLines.codeLines? {text : List Char} {found : List (List Char)}
    (h : ReadsLines text found) : codeLines? text = some found := by
  simp [OperationLibrary.codeLines?, h [], CodeReader.endLine]

end OperationLibrary
