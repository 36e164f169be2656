import Mathlib.Data.List.Chain
import OperationLibrary.Proofs.BlockLines
import OperationLibrary.Shape.Printer

/-!
Comments in printed types. A reader passes over a comment up to the first comment end; since the
ends of comments are escaped in what is described, and the lines of a text are pieces of it, that is
where the comment was meant to end.
-/

namespace OperationLibrary

open Text (proseLines isBlank trimBlankEnd)

/-! ### Passing over comments -/

/-- The text behind its first comment end. -/
def behindCommentEnd : List Char → List Char
  | '*' :: '/' :: rest => rest
  | _ :: rest => behindCommentEnd rest
  | [] => []

def isLayout (c : Char) : Bool :=
  c == ' ' || c == '\n'

/-- The text behind the blanks at its front, and behind the comment that may stand there. -/
def behindComment (text : List Char) : List Char :=
  match text.dropWhile isLayout with
  | '/' :: '*' :: inside => (behindCommentEnd inside).dropWhile isLayout
  | text => text

/-! ### Texts without a comment end -/

/-- No comment ends within the text. -/
def Unclosed (text : List Char) : Prop :=
  text.IsChain fun c d => c = '*' → d ≠ '/'

theorem Unclosed.append {text more : List Char} (h : Unclosed text) (hmore : Unclosed more)
    (hbetween : '*' ∉ text.getLast? ∨ '/' ∉ more.head?) : Unclosed (text ++ more) := by
  apply List.IsChain.append h hmore
  rintro c hc d hd rfl rfl
  exact hbetween.elim (· hc) (· hd)

theorem Unclosed.part {text whole : List Char} (h : Unclosed whole) (hpart : text <:+: whole) :
    Unclosed text := by
  obtain ⟨front, rest, rfl⟩ := hpart
  exact (List.IsChain.left_of_append h).right_of_append

theorem unclosed_of_not_mem {text : List Char} (h : '*' ∉ text) : Unclosed text := by
  induction text with
  | nil => exact List.IsChain.nil
  | cons c text ih =>
      rw [List.mem_cons, not_or] at h
      apply List.isChain_cons.mpr ⟨_, ih h.2⟩
      rintro d - rfl
      exact absurd rfl h.1

/-- A comment goes up to the first comment end, and its text has none. -/
theorem behindCommentEnd_append {inside : List Char} (h : Unclosed inside) (rest : List Char) :
    behindCommentEnd (inside ++ '*' :: '/' :: rest) = rest := by
  induction inside with
  | nil => rfl
  | cons c inside ih =>
      obtain ⟨hhead, htail⟩ := List.isChain_cons.mp h
      rw [List.cons_append, behindCommentEnd]
      · exact ih htail
      · rintro rest' rfl hrest'
        cases inside with
        | nil => simp at hrest'
        | cons d inside =>
            obtain rfl : d = '/' := (List.cons.inj hrest').1
            exact hhead '/' rfl rfl rfl

theorem head?_escapeCommentEnd (text : List Char) :
    (escapeCommentEnd text).head? = text.head? := by
  fun_cases escapeCommentEnd text <;> rfl

theorem unclosed_escapeCommentEnd (text : List Char) : Unclosed (escapeCommentEnd text) := by
  fun_induction escapeCommentEnd text with
  | case1 rest ih =>
      have hescaped : Unclosed ['*', '\\', '/'] := by simp [Unclosed]
      exact hescaped.append ih (.inl (by simp))
  | case2 c rest hplain ih =>
      apply List.isChain_cons.mpr ⟨_, ih⟩
      rintro d hd rfl rfl
      rw [head?_escapeCommentEnd] at hd
      obtain ⟨rest, rfl⟩ := List.head?_eq_some_iff.mp hd
      exact hplain rest rfl rfl
  | case3 => exact List.IsChain.nil

theorem prefix_of_mem_head?_proseLines {text line : List Char}
    (h : line ∈ (proseLines text).head?) : line <+: text := by
  fun_induction proseLines text generalizing line with
  | case1 => simp at h
  | case2 rest ih =>
      obtain rfl := Option.some.inj h
      exact List.nil_prefix
  | case3 c rest hpair hboundary ih =>
      obtain rfl := Option.some.inj h
      exact List.nil_prefix
  | case4 c rest hpair hboundary ih =>
      cases hlines : proseLines rest with
      | nil =>
          rw [hlines] at h
          obtain rfl := Option.some.inj h
          exact ⟨rest, rfl⟩
      | cons first lines =>
          rw [hlines] at h ih
          obtain rfl := Option.some.inj h
          exact List.cons_prefix_cons.mpr ⟨rfl, ih rfl⟩

theorem infix_of_mem_proseLines {text line : List Char} (h : line ∈ proseLines text) :
    line <:+: text := by
  fun_induction proseLines text with
  | case1 => cases h
  | case2 rest ih =>
      rcases List.mem_cons.mp h with rfl | h
      · exact List.nil_infix
      · exact List.infix_cons (List.infix_cons (ih h))
  | case3 c rest hpair hboundary ih =>
      rcases List.mem_cons.mp h with rfl | h
      · exact List.nil_infix
      · exact List.infix_cons (ih h)
  | case4 c rest hpair hboundary ih =>
      cases hlines : proseLines rest with
      | nil =>
          rw [hlines] at h
          obtain rfl := List.mem_singleton.mp h
          exact List.IsPrefix.isInfix ⟨rest, rfl⟩
      | cons first lines =>
          have hfirst : first <+: rest := prefix_of_mem_head?_proseLines (by rw [hlines]; rfl)
          rw [hlines] at h ih
          rcases List.mem_cons.mp h with rfl | h
          · exact (List.cons_prefix_cons.mpr ⟨rfl, hfirst⟩).isInfix
          · exact List.infix_cons (ih (List.mem_cons_of_mem _ h))

/-! ### The text of a comment -/

theorem eq_of_mem_margin {level : Nat} {c : Char} (h : c ∈ margin level) : c = ' ' :=
  List.eq_of_mem_replicate h

theorem unclosed_margin (level : Nat) : Unclosed (margin level) := by
  apply unclosed_of_not_mem
  intro h
  exact absurd (eq_of_mem_margin h) (by decide)

theorem unclosed_commentLine (level : Nat) {line : List Char} (h : Unclosed line) :
    Unclosed (trimBlankEnd (margin level ++ [' ', '*', ' '] ++ line)) := by
  have hbullet : Unclosed [' ', '*', ' '] := by simp [Unclosed]
  have hwhole : Unclosed (margin level ++ [' ', '*', ' '] ++ line) := by
    apply Unclosed.append _ h (.inl (by simp))
    exact (unclosed_margin level).append hbullet (.inr (by simp))
  exact hwhole.part (Text.dropEndWhile_prefix isBlank _).isInfix

theorem unclosed_flatMap_lines {lines : List (List Char)} {write : List Char → List Char}
    (h : ∀ line ∈ lines, Unclosed (write line)) :
    Unclosed (lines.flatMap fun line => write line ++ ['\n']) := by
  induction lines with
  | nil => exact List.IsChain.nil
  | cons line lines ih =>
      have hline : Unclosed (write line ++ ['\n']) :=
        (h line List.mem_cons_self).append (unclosed_of_not_mem (by simp)) (.inr (by simp))
      rw [List.flatMap_cons]
      exact hline.append (ih fun other hother => h other (List.mem_cons_of_mem _ hother))
        (.inl (by simp))

/-- Nothing inside a comment ends it, whatever is described. -/
theorem docComment_eq_append {description : String} (htext : description.isEmpty = false)
    (level : Nat) :
    ∃ inside, Unclosed inside ∧
      docComment (some description) (margin level) =
        margin level ++ '/' :: '*' :: (inside ++ ['*', '/', '\n']) := by
  let write := fun line => trimBlankEnd (margin level ++ [' ', '*', ' '] ++ line)
  let lines := proseLines (escapeCommentEnd description.toList)
  let body := lines.flatMap fun line => write line ++ ['\n']
  refine ⟨['*', '\n'] ++ (body ++ (margin level ++ [' '])), ?_, ?_⟩
  · have hbody : Unclosed body := by
      apply unclosed_flatMap_lines
      intro line hline
      apply unclosed_commentLine
      exact (unclosed_escapeCommentEnd _).part (infix_of_mem_proseLines hline)
    have hopening : Unclosed ['*', '\n'] := by simp [Unclosed]
    have hclosing : Unclosed (margin level ++ [' ']) :=
      (unclosed_margin level).append (unclosed_of_not_mem (by simp)) (.inr (by simp))
    have hblank : '/' ∉ (margin level ++ [' ']).head? := by
      intro h
      rcases List.mem_append.mp (List.mem_of_mem_head? h) with h | h
      · exact absurd (eq_of_mem_margin h) (by decide)
      · simp at h
    exact hopening.append (hbody.append hclosing (.inr hblank)) (.inl (by simp))
  · show (if description.isEmpty then [] else
      margin level ++ ['/', '*', '*', '\n'] ++ body ++ margin level ++ [' ', '*', '/', '\n']) = _
    simp [htext]

/-- Blanks and comments hide nothing that stands behind them. -/
theorem behindComment_docComment (description : Option String) (level : Nat) {c : Char}
    {rest : List Char} (hlayout : isLayout c = false) (hslash : c ≠ '/') :
    behindComment (docComment description (margin level) ++ (margin level ++ c :: rest)) =
      c :: rest := by
  have hmargin : ∀ text, (margin level ++ text).dropWhile isLayout = text.dropWhile isLayout := by
    intro text
    apply List.dropWhile_append_of_pos
    intro d hd
    rw [eq_of_mem_margin hd]
    rfl
  have hstay : (c :: rest).dropWhile isLayout = c :: rest :=
    List.dropWhile_cons_of_neg (by simp [hlayout])
  -- without a comment only the margin is in front of the character
  have hplain : behindComment (margin level ++ c :: rest) = c :: rest := by
    rw [behindComment, hmargin, hstay]
    split
    · rename_i inside h
      exact absurd (List.cons.inj h).1 hslash
    · rfl
  cases description with
  | none => exact hplain
  | some description =>
      cases htext : description.isEmpty with
      | true =>
          rw [docComment, htext]
          exact hplain
      | false =>
          obtain ⟨inside, hinside, hcomment⟩ := docComment_eq_append htext level
          have hwhole : docComment (some description) (margin level) ++
              (margin level ++ c :: rest) =
                margin level ++
                  '/' :: '*' :: (inside ++ '*' :: '/' :: '\n' :: (margin level ++ c :: rest)) := by
            rw [hcomment]
            simp
          rw [hwhole, behindComment, hmargin]
          show (behindCommentEnd _).dropWhile isLayout = _
          rw [behindCommentEnd_append hinside]
          show (margin level ++ c :: rest).dropWhile isLayout = _
          rw [hmargin, hstay]

end OperationLibrary
