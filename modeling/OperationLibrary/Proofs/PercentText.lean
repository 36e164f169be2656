import OperationLibrary.Text.Percent

/-!
Percent encoding read back. Bytes stand for themselves or as two digits behind a percent sign, so
the bytes of a text come back one by one, and with them the text. The marks that divide an address
are never kept, and so an encoded text is one parameter whatever is in it.
-/

namespace OperationLibrary.Text.Percent

/-! ### Bytes -/

theorem hexDigit?_digit : ∀ d < 16, hexDigit? (digit d) = some d := by
  decide

/-- The characters that encoded texts are made of. -/
def isEncodingChar (c : Char) : Bool :=
  c.isAlphanum || c ∈ ['_', '.', '-', '~', '/', '%']

theorem isEncodingChar_digit : ∀ d < 16, isEncodingChar (digit d) = true := by
  decide

theorem decode_cons_of_ne {c : Char} (h : c ≠ '%') (rest : List Char) :
    decode (c :: rest) = String.utf8EncodeChar c ++ decode rest := by
  match rest with
  | [] => simp [decode]
  | [d] => simp [decode]
  | d :: e :: rest => rw [decode, if_neg h]

/-- A byte that is kept stands as the character that it is in UTF-8. -/
theorem isKept_cases {byte : UInt8} (h : isKept byte = true) :
    String.utf8EncodeChar (Char.ofNat byte.toNat) = [byte] ∧ Char.ofNat byte.toNat ≠ '%' ∧
      isEncodingChar (Char.ofNat byte.toNat) = true := by
  have hall : ∀ n < 256, isKept (UInt8.ofNat n) = true →
      String.utf8EncodeChar (Char.ofNat n) = [UInt8.ofNat n] ∧ Char.ofNat n ≠ '%' ∧
        isEncodingChar (Char.ofNat n) = true := by
    decide +kernel
  have hbyte := hall byte.toNat byte.toNat_lt
  rw [UInt8.ofNat_toNat] at hbyte
  exact hbyte h

/-- An encoded byte is read as this byte, whatever follows. -/
theorem decode_encodeByte_append (byte : UInt8) (rest : List Char) :
    decode (encodeByte byte ++ rest) = byte :: decode rest := by
  unfold encodeByte
  split
  case isTrue hkept =>
    obtain ⟨hbytes, hplain, -⟩ := isKept_cases hkept
    rw [List.singleton_append, decode_cons_of_ne hplain, hbytes, List.singleton_append]
  case isFalse =>
    have hbyte := byte.toNat_lt
    have hnumber : hexNumber? [digit (byte.toNat / 16), digit (byte.toNat % 16)] =
        some byte.toNat := by
      simp only [hexNumber?, List.foldlM_cons, List.foldlM_nil,
        hexDigit?_digit (byte.toNat / 16) (by omega),
        hexDigit?_digit (byte.toNat % 16) (by omega), Option.map_some, Option.bind_eq_bind,
        Option.bind_some, Option.pure_def]
      congr 1
      omega
    simp [decode, hnumber]

theorem isEncodingChar_of_mem_encodeByte {byte : UInt8} {c : Char} (h : c ∈ encodeByte byte) :
    isEncodingChar c = true := by
  unfold encodeByte at h
  split at h
  case isTrue hkept =>
    rw [List.mem_singleton.mp h]
    exact (isKept_cases hkept).2.2
  case isFalse =>
    have hbyte := byte.toNat_lt
    simp only [List.mem_cons, List.not_mem_nil, or_false] at h
    rcases h with rfl | rfl | rfl
    · rfl
    · exact isEncodingChar_digit _ (by omega)
    · exact isEncodingChar_digit _ (by omega)

/-! ### Texts -/

theorem decode_flatMap_encodeByte_append (bytes : List UInt8) (rest : List Char) :
    decode (bytes.flatMap encodeByte ++ rest) = bytes ++ decode rest := by
  induction bytes with
  | nil => rfl
  | cons byte bytes ih =>
      rw [List.flatMap_cons, List.append_assoc, decode_encodeByte_append, ih, List.cons_append]

theorem toList_encode (text : String) : (encode text).toList =
    (text.toList.flatMap String.utf8EncodeChar).flatMap encodeByte := by
  rw [encode, String.toList_ofList, List.flatMap_assoc]
  rfl

theorem isEncodingChar_of_mem_encode {text : String} {c : Char} (h : c ∈ (encode text).toList) :
    isEncodingChar c = true := by
  rw [toList_encode] at h
  obtain ⟨byte, -, hc⟩ := List.mem_flatMap.mp h
  exact isEncodingChar_of_mem_encodeByte hc

/-- The text whose bytes in UTF-8 are encoded, none where they are those of no text. -/
def decodeText? (part : List Char) : Option String :=
  String.fromUTF8? (decode part).toByteArray

theorem fromUTF8?_toByteArray (text : String) :
    String.fromUTF8? (text.toList.flatMap String.utf8EncodeChar).toByteArray = some text := by
  have hbytes : (text.toList.flatMap String.utf8EncodeChar).toByteArray = text.toByteArray :=
    String.utf8Encode_toList
  rw [hbytes, String.fromUTF8?, dif_pos text.isValidUTF8]
  rfl

/-- An encoded text is read back. -/
theorem decodeText?_encode (text : String) : decodeText? (encode text).toList = some text := by
  have hbytes := decode_flatMap_encodeByte_append (text.toList.flatMap String.utf8EncodeChar) []
  rw [List.append_nil] at hbytes
  rw [decodeText?, toList_encode, hbytes, decode, List.append_nil, fromUTF8?_toByteArray]

/-- What needs no encoding stands for itself. -/
theorem decodeText?_of_plain {name : String}
    (h : ∀ c ∈ name.toList, c ≠ '%') : decodeText? name.toList = some name := by
  have hbytes : ∀ part : List Char, (∀ c ∈ part, c ≠ '%') →
      decode part = part.flatMap String.utf8EncodeChar := by
    intro part hpart
    induction part with
    | nil => rfl
    | cons c part ih =>
        rw [List.forall_mem_cons] at hpart
        rw [decode_cons_of_ne hpart.1, ih hpart.2, List.flatMap_cons]
  rw [decodeText?, hbytes _ h, fromUTF8?_toByteArray]

/-! ### Parameters -/

/-- The name and the value of a parameter, with an equals sign between them. -/
def parameter? (part : List Char) : Option (String × String) := do
  let name ← decodeText? (part.takeWhile (· != '='))
  let value ← decodeText? ((part.dropWhile (· != '=')).drop 1)
  return (name, value)

/-- The parameters of a query, with ampersands between them. -/
def parameters? (query : List Char) : Option (List (String × String)) :=
  (query.splitOn '&').mapM parameter?

/-- How a parameter is written. -/
def written (parameter : String × String) : List Char :=
  parameter.1.toList ++ '=' :: (encode parameter.2).toList

/-- Names that can be written as they are: letters, digits and underscores. -/
def IsParameterName (name : String) : Prop :=
  ∀ c ∈ name.toList, (c.isAlphanum || c == '_') = true

theorem IsParameterName.ne {name : String} (h : IsParameterName name) {c d : Char}
    (hc : c ∈ name.toList) (hd : (d.isAlphanum || d == '_') = false) : c ≠ d := by
  rintro rfl
  exact absurd (h c hc) (by simp [hd])

theorem parameter?_written {parameter : String × String} (h : IsParameterName parameter.1) :
    parameter? (written parameter) = some parameter := by
  have hname : ∀ c ∈ parameter.1.toList, (c != '=') = true := fun c hc =>
    bne_iff_ne.mpr (h.ne hc rfl)
  have htaken : (written parameter).takeWhile (· != '=') = parameter.1.toList := by
    rw [written, List.takeWhile_append_of_pos hname, List.takeWhile_cons_of_neg (by simp),
      List.append_nil]
  have hleft : ((written parameter).dropWhile (· != '=')).drop 1 =
      (encode parameter.2).toList := by
    rw [written, List.dropWhile_append_of_pos hname, List.dropWhile_cons_of_neg (by simp)]
    rfl
  rw [parameter?, htaken, hleft, decodeText?_of_plain fun c hc => h.ne hc rfl, decodeText?_encode]
  rfl

theorem mem_written {parameter : String × String} (h : IsParameterName parameter.1) {c : Char}
    (hc : c ∈ written parameter) : isEncodingChar c = true ∨ c = '=' := by
  rw [written, List.mem_append, List.mem_cons] at hc
  rcases hc with hname | rfl | hvalue
  · left
    rcases Bool.or_eq_true_iff.mp (h c hname) with halphanum | hunderscore
    · rw [isEncodingChar, halphanum, Bool.true_or]
    · rw [beq_iff_eq.mp hunderscore]
      rfl
  · exact .inr rfl
  · exact .inl (isEncodingChar_of_mem_encode hvalue)

/-- How parameters are written behind each other. -/
def writtenQuery (parameters : List (String × String)) : List Char :=
  ['&'].intercalate (parameters.map written)

theorem writtenQuery_concat {parameters : List (String × String)} (hne : parameters ≠ [])
    (parameter : String × String) : writtenQuery (parameters ++ [parameter]) =
      writtenQuery parameters ++ '&' :: written parameter := by
  induction parameters with
  | nil => contradiction
  | cons first parameters ih =>
      cases parameters with
      | nil => simp [writtenQuery, List.intercalate_cons_cons]
      | cons next parameters =>
          have hmore := ih (List.cons_ne_nil next parameters)
          simp only [writtenQuery, List.cons_append, List.map_cons,
            List.intercalate_cons_cons, List.append_assoc] at hmore ⊢
          rw [hmore]

section

variable {parameters : List (String × String)}
  (h : ∀ parameter ∈ parameters, IsParameterName parameter.1)

include h

theorem mem_writtenQuery {c : Char} (hc : c ∈ writtenQuery parameters) :
    isEncodingChar c = true ∨ c = '=' ∨ c = '&' := by
  rw [writtenQuery] at hc
  induction parameters with
  | nil => contradiction
  | cons parameter parameters ih =>
      rw [List.forall_mem_cons] at h
      have hfirst : c ∈ written parameter → isEncodingChar c = true ∨ c = '=' ∨ c = '&' :=
        fun hmem => (mem_written h.1 hmem).imp_right .inl
      cases parameters with
      | nil =>
          rw [List.map_cons, List.map_nil, List.intercalate_singleton] at hc
          exact hfirst hc
      | cons next parameters =>
          rw [List.map_cons, List.map_cons, List.intercalate_cons_cons, List.append_assoc,
            List.mem_append, List.singleton_append, List.mem_cons] at hc
          rcases hc with hc | rfl | hc
          · exact hfirst hc
          · exact .inr (.inr rfl)
          · exact ih h.2 hc

/-- **Parameters are read back.** No character of a value ends its parameter or starts another. -/
theorem parameters?_writtenQuery (hne : parameters ≠ []) :
    parameters? (writtenQuery parameters) = some parameters := by
  have hsplit : (writtenQuery parameters).splitOn '&' = parameters.map written := by
    refine List.splitOn_intercalate '&' ?_ (by simpa using hne)
    intro part hpart
    obtain ⟨parameter, hmem, rfl⟩ := List.mem_map.mp hpart
    intro hmark
    rcases mem_written (h parameter hmem) hmark with hencoding | hequals
    · exact absurd hencoding (by decide)
    · exact absurd hequals (by decide)
  rw [parameters?, hsplit]
  clear hsplit hne
  induction parameters with
  | nil => rfl
  | cons parameter parameters ih =>
      rw [List.forall_mem_cons] at h
      rw [List.map_cons, List.mapM_cons, parameter?_written h.1, ih h.2]
      rfl

end

end OperationLibrary.Text.Percent
