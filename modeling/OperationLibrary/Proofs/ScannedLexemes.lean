import OperationLibrary.Proofs.BlockLines
import OperationLibrary.Proofs.Grammar

/-!
Lexemes as they are scanned. Names and numbers have the form that they are written in, and the value
of a block is one that stays what it is in a block; nothing is behind a fault.
-/

namespace OperationLibrary.Syntax

open BlockString (reread)

/-- A block holds a value that comes back from it. -/
def Description.Settled (literal : Description) : Prop :=
  literal.block = true →
    '\r' ∉ literal.text.toList ∧ reread literal.text.toList = literal.text.toList

theorem settled_valueOfLines (raw : List Char) :
    Description.Settled
      ⟨String.ofList (BlockString.valueOfLines (Text.sourceLines raw)), true⟩ := by
  have hlines : ∀ line ∈ Text.sourceLines raw, BlockString.Unbroken line :=
    fun _ => BlockString.unbroken_of_mem_sourceLines
  intro _
  simp only [String.toList_ofList]
  exact ⟨BlockString.return_not_mem_intercalate (BlockString.unbroken_dedentLines hlines),
    BlockString.reread_valueOfLines hlines⟩

theorem isName_of_isNameStart {c : Char} (h : isNameStart c = true) (rest : List Char) :
    IsName (String.ofList (c :: rest.takeWhile isNameContinue)) :=
  ⟨c, rest.takeWhile isNameContinue, String.toList_ofList, h, fun _ => List.mem_takeWhile_imp⟩

/-- What makes a lexeme is well formed, and no fault. -/
theorem wellFormed_of_scanLexeme {c : Char} {rest : List Char} {lexeme : Lexeme} {n : Nat}
    (h : scanLexeme c rest = .ok (lexeme, n)) :
    lexeme.WellFormed Description.Settled ∧ ∀ fault, lexeme ≠ .invalid fault := by
  unfold scanLexeme at h
  split at h
  · obtain ⟨⟨raw, stop⟩, -, hresult⟩ := exists_of_map_ok h
    obtain ⟨rfl, -⟩ := Prod.mk.inj hresult
    exact ⟨settled_valueOfLines raw, by simp⟩
  · obtain ⟨⟨value, stop⟩, -, hresult⟩ := exists_of_map_ok h
    obtain ⟨rfl, -⟩ := Prod.mk.inj hresult
    exact ⟨fun hblock => (nomatch hblock), by simp⟩
  · obtain ⟨rfl, -⟩ := Prod.mk.inj (Except.ok.inj h)
    exact ⟨trivial, by simp⟩
  · contradiction
  · split at h <;> contradiction
  · contradiction
  · split at h
    · obtain ⟨rfl, -⟩ := Prod.mk.inj (Except.ok.inj h)
      exact ⟨trivial, by simp⟩
    · split at h
      · obtain ⟨⟨digits, isFloat⟩, hscan, hresult⟩ := exists_of_map_ok h
        obtain ⟨rfl, -⟩ := Prod.mk.inj hresult
        have hnumber := isNumber_of_scanNumber hscan
        rw [← String.toList_ofList (l := digits)] at hnumber
        cases isFloat <;> exact ⟨hnumber, by simp⟩
      · split at h
        · rename_i hstart
          obtain ⟨rfl, -⟩ := Prod.mk.inj (Except.ok.inj h)
          exact ⟨isName_of_isNameStart hstart rest, by simp⟩
        · contradiction

theorem wellFormed_of_mem_scanFrom {text : List Char} {offset : Nat} {token : Token}
    (h : token ∈ scanFrom text offset) : token.lexeme.WellFormed Description.Settled := by
  fun_induction scanFrom text offset with
  | case1 =>
      obtain rfl := List.mem_singleton.mp h
      trivial
  | case2 _ _ _ _ ih => exact ih h
  | case3 _ _ _ _ _ _ ih => exact ih h
  | case4 =>
      obtain rfl := List.mem_singleton.mp h
      trivial
  | case5 offset c rest _ _ lexeme n hscan ih =>
      obtain rfl | hlater := List.mem_cons.mp h
      · exact (wellFormed_of_scanLexeme hscan).1
      · exact ih hlater

/-- Reading stops at a fault, so only the last lexeme can be one. -/
theorem invalid_not_mem_dropLast (text : List Char) (offset : Nat) (fault : ScanFault) :
    .invalid fault ∉ ((scanFrom text offset).map Token.lexeme).dropLast := by
  fun_induction scanFrom text offset with
  | case1 => simp
  | case2 _ _ _ _ ih => exact ih
  | case3 _ _ _ _ _ _ ih => exact ih
  | case4 => simp
  | case5 offset c rest _ _ lexeme n hscan ih =>
      rw [List.map_cons]
      generalize (scanFrom (rest.drop n) (offset + 1 + n)).map Token.lexeme = later at ih ⊢
      cases later with
      | nil => simp
      | cons next later =>
          rw [List.dropLast_cons_cons, List.mem_cons, not_or]
          exact ⟨((wellFormed_of_scanLexeme hscan).2 fault).symm, ih⟩

/-- A text that was scanned up to its end has no fault. -/
theorem invalid_not_mem_lexemes {text : List Char} {found : List Lexeme}
    (h : lexemes text = found ++ [.eof]) (fault : ScanFault) : .invalid fault ∉ lexemes text := by
  have hfound := invalid_not_mem_dropLast text 0 fault
  rw [← lexemes, h, List.dropLast_concat] at hfound
  simp [h, hfound]

end OperationLibrary.Syntax
