import Mathlib.Data.List.TakeWhile
import OperationLibrary.Syntax.Token.Scanner

/-!
The lexemes of a text, apart from where they stand. A piece of a text writes lexemes if they are
what is read of it, whatever is behind it and however far in its lines are: the pieces of a printed
document are put together so that each one ends where the next one begins.
-/

namespace OperationLibrary.Syntax

/-! ### Lexemes without places -/

/-- The lexemes of a text. -/
def lexemes (text : List Char) : List Lexeme :=
  (scanFrom text 0).map Token.lexeme

theorem map_lexeme_scanFrom (text : List Char) (offset : Nat) :
    (scanFrom text offset).map Token.lexeme = lexemes text := by
  have h : ∀ other, (scanFrom text offset).map Token.lexeme =
      (scanFrom text other).map Token.lexeme := by
    -- what is read is chosen by the text alone; the offset is only carried along
    fun_induction scanFrom text offset with
    | case1 offset => intro other; rw [scanFrom]; rfl
    | case2 offset c rest hignored ih =>
        intro other
        rw [scanFrom, if_pos hignored]
        exact ih _
    | case3 offset c rest hignored hcomment comment ih =>
        intro other
        rw [scanFrom, if_neg hignored, if_pos hcomment]
        exact ih _
    | case4 offset c rest hignored hcomment fault n hscan =>
        intro other
        rw [scanFrom, if_neg hignored, if_neg hcomment, hscan]
        rfl
    | case5 offset c rest hignored hcomment lexeme n hscan ih =>
        intro other
        rw [scanFrom, if_neg hignored, if_neg hcomment, hscan]
        simp only [List.map_cons]
        rw [ih]
  exact h 0

@[simp] theorem lexemes_nil : lexemes [] = [.eof] := by
  rw [lexemes, scanFrom]
  rfl

theorem lexemes_ignored {c : Char} (h : isIgnored c = true) (rest : List Char) :
    lexemes (c :: rest) = lexemes rest := by
  rw [lexemes, scanFrom, if_pos h, map_lexeme_scanFrom]

theorem lexemes_cons {c : Char} {rest : List Char} {lexeme : Lexeme} {n : Nat}
    (hignored : isIgnored c = false) (hcomment : c ≠ '#')
    (hscan : scanLexeme c rest = .ok (lexeme, n)) :
    lexemes (c :: rest) = lexeme :: lexemes (rest.drop n) := by
  rw [lexemes, scanFrom, if_neg (by simp [hignored]), if_neg (by simpa using hcomment), hscan]
  simp only [List.map_cons, map_lexeme_scanFrom]

/-! ### Pieces of a text -/

/-- Characters that end a name and a number, and are no quote. -/
def isSeparator (c : Char) : Bool :=
  !isNameContinue c && c != '.' && c != '"'

/-- Nothing at the front belongs to what is before it. -/
def Separated (rest : List Char) : Prop :=
  ∀ c ∈ rest.head?, isSeparator c = true

/-- The text with further blanks in front of all lines but the first. -/
def shifted (margin : Nat) (text : List Char) : List Char :=
  text.flatMap fun c => if c = '\n' then '\n' :: List.replicate margin ' ' else [c]

@[simp] theorem shifted_nil (margin : Nat) : shifted margin [] = [] := rfl

@[simp] theorem shifted_append (margin : Nat) (text more : List Char) :
    shifted margin (text ++ more) = shifted margin text ++ shifted margin more :=
  List.flatMap_append

theorem shifted_feed (margin : Nat) (text : List Char) :
    shifted margin ('\n' :: text) = '\n' :: (List.replicate margin ' ' ++ shifted margin text) :=
  rfl

theorem shifted_cons {c : Char} (h : c ≠ '\n') (margin : Nat) (text : List Char) :
    shifted margin (c :: text) = c :: shifted margin text := by
  rw [shifted, List.flatMap_cons, if_neg h]
  rfl

@[simp] theorem shifted_zero (text : List Char) : shifted 0 text = text := by
  induction text with
  | nil => rfl
  | cons c text ih =>
      by_cases h : c = '\n'
      · rw [h, shifted_feed, ih]
        rfl
      · rw [shifted_cons h, ih]

/-- A single line has nothing to shift. -/
theorem shifted_of_not_mem {text : List Char} (h : '\n' ∉ text) (margin : Nat) :
    shifted margin text = text := by
  induction text with
  | nil => rfl
  | cons c text ih =>
      rw [List.mem_cons, not_or] at h
      rw [shifted_cons (Ne.symm h.1), ih h.2]

theorem shifted_shifted (margin more : Nat) (text : List Char) :
    shifted margin (shifted more text) = shifted (margin + more) text := by
  induction text with
  | nil => rfl
  | cons c text ih =>
      by_cases h : c = '\n'
      · subst h
        have hblank : '\n' ∉ List.replicate more ' ' := by simp
        rw [shifted_feed, shifted_feed, shifted_feed, shifted_append, shifted_of_not_mem hblank, ih,
          ← List.append_assoc, List.replicate_append_replicate]
      · rw [shifted_cons h, shifted_cons h, shifted_cons h, ih]

/-- Reading the text gives these lexemes, whatever comes behind it. -/
def Closed (text : List Char) (found : List Lexeme) : Prop :=
  ∀ margin rest, lexemes (shifted margin text ++ rest) = found ++ lexemes rest

/-- Reading the text gives these lexemes, if what comes behind it is separated. -/
def Writes (text : List Char) (found : List Lexeme) : Prop :=
  ∀ margin rest, Separated rest → lexemes (shifted margin text ++ rest) = found ++ lexemes rest

/-- A text that can stand behind any other. -/
def Opens (text : List Char) : Prop :=
  ∀ c ∈ text.head?, isSeparator c = true

theorem Opens.cons {c : Char} (h : isSeparator c = true) (text : List Char) :
    Opens (c :: text) := by
  intro d hd
  obtain rfl := Option.some.inj hd
  exact h

theorem Opens.separated {text : List Char} (h : Opens text) (margin : Nat) {rest : List Char}
    (hrest : Separated rest) : Separated (shifted margin text ++ rest) := by
  cases text with
  | nil => exact hrest
  | cons c text =>
      have hc : isSeparator c = true := h c rfl
      by_cases hfeed : c = '\n'
      · subst hfeed
        exact Opens.cons hc _
      · rw [shifted_cons hfeed]
        exact Opens.cons hc _

theorem Closed.writes {text : List Char} {found : List Lexeme} (h : Closed text found) :
    Writes text found :=
  fun margin rest _ => h margin rest

theorem Closed.nil : Closed [] [] := fun _ _ => rfl

theorem Closed.append {text more : List Char} {found others : List Lexeme} (h : Closed text found)
    (hmore : Closed more others) : Closed (text ++ more) (found ++ others) := by
  intro margin rest
  rw [shifted_append, List.append_assoc, h, hmore, List.append_assoc]

theorem Closed.append_writes {text more : List Char} {found others : List Lexeme}
    (h : Closed text found) (hmore : Writes more others) :
    Writes (text ++ more) (found ++ others) := by
  intro margin rest hrest
  rw [shifted_append, List.append_assoc, h, hmore margin rest hrest, List.append_assoc]

theorem Writes.append {text more : List Char} {found others : List Lexeme}
    (h : Writes text found) (hmore : Writes more others) (hopens : Opens more) :
    Writes (text ++ more) (found ++ others) := by
  intro margin rest hrest
  rw [shifted_append, List.append_assoc, h _ _ (hopens.separated margin hrest),
    hmore margin rest hrest, List.append_assoc]

/-- A closed text that is not empty closes what it stands behind. -/
theorem Writes.append_closed {text more : List Char} {found others : List Lexeme} {c : Char}
    (h : Writes text found) (hmore : Closed (c :: more) others) (hc : isSeparator c = true) :
    Closed (text ++ c :: more) (found ++ others) := by
  intro margin rest
  have hseparated : Separated (shifted margin (c :: more) ++ rest) := by
    by_cases hfeed : c = '\n'
    · subst hfeed
      exact Opens.cons hc _
    · rw [shifted_cons hfeed]
      exact Opens.cons hc _
  rw [shifted_append, List.append_assoc, h _ _ hseparated, hmore, List.append_assoc]

theorem Closed.lexemes_eq {text : List Char} {found : List Lexeme} (h : Closed text found) :
    lexemes text = found ++ [.eof] := by
  have htext := h 0 []
  rwa [shifted_zero, List.append_nil, lexemes_nil] at htext

/-! ### Blanks and punctuators -/

theorem closed_ignored {c : Char} (h : isIgnored c = true) : Closed [c] [] := by
  intro margin rest
  by_cases hfeed : c = '\n'
  · subst hfeed
    rw [shifted_feed, shifted_nil, List.append_nil, List.cons_append, lexemes_ignored h]
    induction margin with
    | zero => rfl
    | succ margin ih => rw [List.replicate_succ, List.cons_append, lexemes_ignored rfl, ih]
  · rw [shifted_cons hfeed, shifted_nil, List.singleton_append, lexemes_ignored h]
    rfl

theorem closed_mark {c : Char} {mark : Punctuator} (h : Punctuator.ofChar? c = some mark) :
    Closed [c] [.punctuator mark] := by
  intro margin rest
  have hscan : scanLexeme c rest = .ok (.punctuator mark, 0) := by
    unfold Punctuator.ofChar? at h
    split at h <;> first | (obtain rfl := Option.some.inj h; rfl) | contradiction
  have hplain : c ≠ '\n' ∧ isIgnored c = false ∧ c ≠ '#' := by
    unfold Punctuator.ofChar? at h
    split at h <;> first | decide | contradiction
  rw [shifted_cons hplain.1, shifted_nil, List.singleton_append,
    lexemes_cons hplain.2.1 hplain.2.2 hscan]
  rfl

theorem closed_ellipsis : Closed ['.', '.', '.'] [.punctuator .ellipsis] := by
  intro margin rest
  have hscan : scanLexeme '.' ('.' :: '.' :: rest) = .ok (.punctuator .ellipsis, 2) := rfl
  rw [shifted_of_not_mem (by decide)]
  exact lexemes_cons rfl (by decide) hscan

/-! ### Kinds of characters -/

section

variable {kind : Char → Bool} {c : Char}

theorem ne_of_kind (h : kind c = true) {d : Char} (hd : kind d = false) : c ≠ d := by
  rintro rfl
  simp [h] at hd

theorem isIgnored_eq_false (h : kind c = true)
    (hkind : [' ', '\t', ',', '\n', '\r', '\ufeff'].any kind = false) : isIgnored c = false := by
  have hne : ∀ d ∈ [' ', '\t', ',', '\n', '\r', '\ufeff'], c ≠ d := fun d hd =>
    ne_of_kind h (Bool.eq_false_iff.mpr (List.any_eq_false.mp hkind d hd))
  simpa [isIgnored, and_assoc] using hne

theorem ofChar?_eq_none (h : kind c = true)
    (hkind : ['!', '$', '&', '(', ')', ':', '=', '@', '[', ']', '\x7b', '|', '\x7d'].any kind =
      false) : Punctuator.ofChar? c = none := by
  have hne : ∀ d ∈ ['!', '$', '&', '(', ')', ':', '=', '@', '[', ']', '\x7b', '|', '\x7d'],
      c ≠ d := fun d hd =>
    ne_of_kind h (Bool.eq_false_iff.mpr (List.any_eq_false.mp hkind d hd))
  unfold Punctuator.ofChar?
  split <;> first | rfl | exact absurd rfl (hne _ (by simp))

end

/-! ### Names -/

/-- The text of a name. -/
def IsName (text : String) : Prop :=
  ∃ c more, text.toList = c :: more ∧ isNameStart c = true ∧ ∀ d ∈ more, isNameContinue d = true

instance : DecidablePred IsName := fun text =>
  decidable_of_iff
    (text.toList.head?.any isNameStart = true ∧ text.toList.tail.all isNameContinue = true) <| by
      rw [IsName]
      cases text.toList with
      | nil => simp
      | cons c more => simp [and_assoc]

theorem isNameContinue_of_isNameStart {c : Char} (h : isNameStart c = true) :
    isNameContinue c = true := by
  simp only [isNameStart, isNameContinue, Char.isAlphanum, Bool.or_eq_true] at h ⊢
  exact h.imp_left .inl

theorem isNameContinue_of_mem {name : String} (h : IsName name) :
    ∀ c ∈ name.toList, isNameContinue c = true := by
  obtain ⟨c, more, htext, hc, hmore⟩ := h
  intro d hd
  rcases List.mem_cons.mp (htext ▸ hd) with rfl | hd
  · exact isNameContinue_of_isNameStart hc
  · exact hmore d hd

/-- Names are ASCII. -/
theorem toNat_lt_of_isNameContinue {c : Char} (h : isNameContinue c = true) : c.toNat < 128 := by
  rcases (Bool.or_eq_true _ _).mp h with hsign | hunderscore
  · rcases (Bool.or_eq_true _ _).mp hsign with hletter | hdigit
    · rcases (Bool.or_eq_true _ _).mp hletter with hupper | hlower
      · have hle : c.toNat ≤ 90 := UInt32.le_iff_toNat_le.mp (of_decide_eq_true hupper).2
        omega
      · have hle : c.toNat ≤ 122 :=
          UInt32.le_iff_toNat_le.mp (of_decide_eq_true ((Bool.and_eq_true _ _).mp hlower).2)
        omega
    · have hle : c.toNat ≤ 57 := (Char.isDigit_iff_toNat.mp hdigit).2
      omega
  · obtain rfl := beq_iff_eq.mp hunderscore
    decide

/-- Digits come before all characters that a name starts with. -/
theorem le_toNat_of_isNameStart {c : Char} (h : isNameStart c = true) : 65 ≤ c.toNat := by
  rcases (Bool.or_eq_true _ _).mp h with hletter | hunderscore
  · rcases (Bool.or_eq_true _ _).mp hletter with hupper | hlower
    · exact UInt32.le_iff_toNat_le.mp (of_decide_eq_true hupper).1
    · have hle : 97 ≤ c.toNat :=
        UInt32.le_iff_toNat_le.mp (of_decide_eq_true ((Bool.and_eq_true _ _).mp hlower).1)
      omega
  · obtain rfl := beq_iff_eq.mp hunderscore
    decide

theorem isDigit_of_isNameStart {c : Char} (h : isNameStart c = true) : c.isDigit = false := by
  rw [Bool.eq_false_iff]
  intro hdigit
  have hle : c.toNat ≤ 57 := (Char.isDigit_iff_toNat.mp hdigit).2
  have hstart := le_toNat_of_isNameStart h
  omega

/-- A run ends where a character does not belong to it. -/
theorem takeWhile_append_eq {p : Char → Bool} {run rest : List Char} (hrun : ∀ c ∈ run, p c = true)
    (hrest : ∀ c ∈ rest.head?, p c = false) : (run ++ rest).takeWhile p = run := by
  rw [List.takeWhile_append_of_pos hrun]
  cases rest with
  | nil => exact List.append_nil _
  | cons c rest =>
      rw [List.takeWhile_cons_of_neg (by simp [hrest c rfl]), List.append_nil]

theorem dropWhile_append_eq {p : Char → Bool} {run rest : List Char} (hrun : ∀ c ∈ run, p c = true)
    (hrest : ∀ c ∈ rest.head?, p c = false) : (run ++ rest).dropWhile p = rest := by
  rw [List.dropWhile_append_of_pos hrun]
  cases rest with
  | nil => rfl
  | cons c rest => exact List.dropWhile_cons_of_neg (by simp [hrest c rfl])

theorem Separated.isNameContinue_eq_false {rest : List Char} (h : Separated rest) :
    ∀ c ∈ rest.head?, isNameContinue c = false := by
  intro c hc
  have hseparator := h c hc
  simp only [isSeparator, Bool.and_eq_true, Bool.not_eq_true'] at hseparator
  exact hseparator.1.1

theorem scanLexeme_name {c : Char} (h : isNameStart c = true) (rest : List Char) :
    scanLexeme c rest = .ok (.name (String.ofList (c :: rest.takeWhile isNameContinue)),
      (rest.takeWhile isNameContinue).length) := by
  have hdash : (c == '-') = false := by simpa using ne_of_kind h (d := '-') rfl
  unfold scanLexeme
  split
  all_goals first | exact absurd h (by decide) | skip
  rw [ofChar?_eq_none h rfl]
  simp only [isDigit_of_isNameStart h, hdash, h, Bool.or_self, Bool.false_eq_true, if_false,
    if_true]

theorem IsName.writes {text : String} (h : IsName text) : Writes text.toList [.name text] := by
  obtain ⟨c, more, htext, hc, hmore⟩ := id h
  intro margin rest hrest
  have hplain : ∀ d, isNameContinue d = false → d ∉ text.toList := by
    intro d hd hmem
    simp [isNameContinue_of_mem h d hmem] at hd
  have htaken : (more ++ rest).takeWhile isNameContinue = more :=
    takeWhile_append_eq hmore hrest.isNameContinue_eq_false
  have hscan := scanLexeme_name hc (more ++ rest)
  rw [htaken, ← htext, String.ofList_toList] at hscan
  rw [shifted_of_not_mem (hplain _ rfl), htext, List.cons_append]
  rw [lexemes_cons (isIgnored_eq_false hc rfl) (ne_of_kind hc rfl) hscan, List.drop_left]
  rfl

end OperationLibrary.Syntax
