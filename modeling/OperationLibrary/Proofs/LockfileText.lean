import Mathlib.Algebra.Ring.Nat
import OperationLibrary.Lockfile
import OperationLibrary.Proofs.JsonStrings
import OperationLibrary.Proofs.WrittenFiles

/-!
Lockfiles in files. Whatever the schema id and the operations are, the lockfile that was written is
the one that is read back, and it is current for the same id and for operations with the same
digest.
-/

namespace OperationLibrary

/-! ### Line ends -/

namespace Text

/-- A text without carriage returns keeps its line ends. -/
theorem unifyLineEnds_eq_self {text : List Char} (h : '\r' ∉ text) : unifyLineEnds text = text := by
  induction text with
  | nil => rfl
  | cons c text ih =>
      rw [List.mem_cons, not_or] at h
      rw [unifyLineEnds, if_neg (Ne.symm h.1), ih h.2]
      rintro rest rfl
      exact absurd rfl h.1

theorem ofFile_eq_self {contents : String} (h : '\r' ∉ contents.toList) :
    ofFile contents = contents := by
  rw [ofFile, unifyLineEnds_eq_self h, String.ofList_toList]

end Text

namespace Json

/-- What is written for a character is printable. -/
theorem Escaped.printable {c : Char} {written : List Char} (h : Escaped c written) :
    ∀ d ∈ written, 0x20 ≤ d.toNat := by
  have hdigits : ∀ d < 16, 0x20 ≤ (Nat.digitChar d).toNat := by decide
  have hunit : ∀ unit, ∀ d ∈ unicodeEscape unit, 0x20 ≤ d.toNat := by
    simp [unicodeEscape, hex4, hdigits, Nat.mod_lt]
  cases h with
  | plain _ _ hprintable => simpa using hprintable
  | short letter _ hmeaning =>
      have hletter : 0x20 ≤ letter.toNat := by
        unfold escapeLetter? at hmeaning
        split at hmeaning <;> first | decide | contradiction
      simpa using hletter
  | unit => exact hunit _
  | pair =>
      intro d hd
      exact (List.mem_append.mp hd).elim (hunit _ d) (hunit _ d)

/-! ### Reading members -/

variable {strictness : Strictness}

theorem toList_quoteWith (escape : Char → List Char) (text : String) :
    (quoteWith escape text).toList = '"' :: (text.toList.flatMap escape ++ ['"']) := by
  rw [quoteWith, String.toList_ofList, List.cons_append]

/-- Blanks in front of a string are skipped. -/
theorem skipSpace_quoted {blanks : List Char} (h : ∀ c ∈ blanks, isSpace c = true) (text : String)
    (rest : List Char) :
    skipSpace (blanks ++ ((quoteWith plainEscape text).toList ++ rest)) =
      (quoteWith plainEscape text).toList ++ rest := by
  rw [skipSpace, List.dropWhile_append_of_pos h, toList_quoteWith]
  rfl

/-- A string is read as a value. -/
theorem readValue_quoted (rounds : Nat) (text : String) (rest : List Char) :
    readValue strictness (rounds + 1) ((quoteWith plainEscape text).toList ++ rest) =
      .ok (.string text, rest) := by
  simp only [toList_quoteWith, List.cons_append, List.append_assoc, List.nil_append, readValue,
    readString_flatMap escaped_plainEscape]
  simp [Except.map]

/-- An object is read by its members. -/
theorem readValue_members {rounds : Nat} {key : String} {text more left : List Char}
    {members : List (String × Json)}
    (htext : skipSpace text = (quoteWith plainEscape key).toList ++ more)
    (hmembers : readMembers strictness rounds ((quoteWith plainEscape key).toList ++ more) =
      .ok (members, left)) :
    readValue strictness (rounds + 1) ('\x7b' :: text) = .ok (.object members, left) := by
  rw [toList_quoteWith, List.cons_append] at htext hmembers
  have hbrace : readValue strictness (rounds + 1) ('\x7b' :: text) =
      (readMembers strictness rounds (skipSpace text)).map fun parsed =>
        (.object parsed.1, parsed.2) := by
    rw [readValue, htext]
    rfl
  rw [hbrace, htext, hmembers]
  rfl

/-- The members from one on, up to and with the closing brace, given what stands behind it. -/
def membersFrom (strictness : Strictness) (rounds : Nat) (member : String × Json)
    (rest : List Char) : Step (List (String × Json)) :=
  match skipSpace rest with
  | '\x7d' :: left => .ok ([member], left)
  | ',' :: more =>
    (readMembers strictness rounds (skipSpace more)).map fun (members, left) =>
      (member :: members, left)
  | other => .error (.expectedComma, other)

theorem readMembers_quoted {rounds : Nat} {text rest : List Char} {value : Json} (key : String)
    (hvalue : readValue strictness rounds (skipSpace text) = .ok (value, rest)) :
    readMembers strictness (rounds + 1) ((quoteWith plainEscape key).toList ++ ':' :: text) =
      membersFrom strictness rounds (key, value) rest := by
  have hcolon : skipSpace (':' :: text) = ':' :: text := rfl
  simp only [toList_quoteWith, List.cons_append, List.append_assoc, List.nil_append, readMembers,
    readString_flatMap escaped_plainEscape, hcolon, hvalue, String.ofList_toList]
  rfl

/-- A member whose value is a string. -/
theorem readMembers_string (rounds : Nat) (key text : String) (rest : List Char) :
    readMembers strictness (rounds + 2) ((quoteWith plainEscape key).toList ++ ':' :: ' ' ::
      ((quoteWith plainEscape text).toList ++ rest)) =
        membersFrom strictness (rounds + 1) (key, .string text) rest := by
  have hblank : ∀ c ∈ [' '], isSpace c = true := List.all_eq_true.mp rfl
  have hskip := skipSpace_quoted hblank text rest
  rw [List.singleton_append] at hskip
  exact readMembers_quoted key (by rw [hskip, readValue_quoted])

/-- A member that another one stands behind. -/
theorem membersFrom_comma {rounds : Nat} {member : String × Json} {members : List (String × Json)}
    {blanks more left : List Char} {key : String} (hblanks : ∀ c ∈ blanks, isSpace c = true)
    (hmembers : readMembers strictness rounds ((quoteWith plainEscape key).toList ++ more) =
      .ok (members, left)) :
    membersFrom strictness rounds member
      (',' :: (blanks ++ ((quoteWith plainEscape key).toList ++ more))) =
        .ok (member :: members, left) := by
  have hcomma : skipSpace (',' :: (blanks ++ ((quoteWith plainEscape key).toList ++ more))) =
      ',' :: (blanks ++ ((quoteWith plainEscape key).toList ++ more)) := rfl
  rw [membersFrom, hcomma]
  simp only [skipSpace_quoted hblanks, hmembers, Except.map]

end Json

namespace Digest

/-! ### Digests -/

/-- The eight hexadecimal digits of a word. -/
def hexWord (word : UInt32) : List Char :=
  [28, 24, 20, 16, 12, 8, 4, 0].map fun shift => Nat.digitChar (word.toNat >>> shift % 16)

theorem hexText_eq (state : List UInt32) : hexText state = String.ofList (state.flatMap hexWord) :=
  rfl

theorem digitChar_inj {d e : Nat} (hd : d < 16) (he : e < 16)
    (h : Nat.digitChar d = Nat.digitChar e) : d = e := by
  have hdigit := Json.hexDigit?_digitChar d hd
  rw [h, Json.hexDigit?_digitChar e he] at hdigit
  exact (Option.some.inj hdigit).symm

/-- Hexadecimal digits tell a number. -/
theorem eq_of_digits_eq {count n m : Nat} (hn : n < 16 ^ count) (hm : m < 16 ^ count)
    (h : ∀ i < count, n / 16 ^ i % 16 = m / 16 ^ i % 16) : n = m := by
  induction count generalizing n m with
  | zero => omega
  | succ count ih =>
      have hlast : n % 16 = m % 16 := by simpa using h 0 (Nat.succ_pos count)
      have hrest : n / 16 = m / 16 := by
        refine ih (by omega) (by omega) fun i hi => ?_
        simpa [Nat.pow_succ', Nat.div_div_eq_div_mul] using h (i + 1) (Nat.succ_lt_succ hi)
      omega

/-- The digits of a word tell the word. -/
theorem hexWord_inj {word other : UInt32} (h : hexWord word = hexWord other) : word = other := by
  refine UInt32.toNat_inj.mp (@eq_of_digits_eq 8 _ _ word.toNat_lt other.toNat_lt fun i hi => ?_)
  -- the shifts that make digits are those by whole digits
  have hshift : 4 * i ∈ [28, 24, 20, 16, 12, 8, 4, 0] := by
    simp only [List.mem_cons, List.not_mem_nil]
    omega
  have hdigit := digitChar_inj (Nat.mod_lt _ (by decide)) (Nat.mod_lt _ (by decide))
    (List.map_inj_left.mp h (4 * i) hshift)
  simpa [Nat.shiftRight_eq_div_pow, Nat.pow_mul] using hdigit

/-- The hexadecimal text of a state tells the state. -/
theorem hexText_inj {state other : List UInt32} (h : hexText state = hexText other) :
    state = other := by
  rw [hexText_eq, hexText_eq, String.ofList_inj] at h
  induction state generalizing other with
  | nil =>
      cases other with
      | nil => rfl
      | cons word other => simp [hexWord] at h
  | cons word state ih =>
      cases other with
      | nil => simp [hexWord] at h
      | cons first other =>
          rw [List.flatMap_cons, List.flatMap_cons] at h
          obtain ⟨hword, hrest⟩ := List.append_inj h rfl
          rw [hexWord_inj hword, ih hrest]

namespace Sha1

/-- The digest of the text in UTF-8. -/
def digest (text : String) : List UInt32 :=
  (messageBlocks text).foldl absorb initialState

theorem hexDigest_eq_iff {text other : String} :
    hexDigest text = hexDigest other ↔ digest text = digest other :=
  ⟨hexText_inj, congrArg hexText⟩

end Sha1

end Digest

namespace Lockfile

open Json

/-! ### The contents -/

/-- The value that the contents write. -/
def value (lockfile : Lockfile) : Json :=
  .object [("version", .string formatVersion),
    ("locked", .object [("schemaId", .string lockfile.schemaId),
      ("operationsHash", .string lockfile.operationsHash)])]

theorem toList_layout {a b c d v s h : String} {as bs cs ds : List Char} (ha : a.toList = as)
    (hb : b.toList = bs) (hc : c.toList = cs) (hd : d.toList = ds) :
    (a ++ v ++ b ++ s ++ c ++ h ++ d).toList =
      as ++ (v.toList ++ (bs ++ (s.toList ++ (cs ++ (h.toList ++ ds))))) := by
  subst ha hb hc hd
  simp only [String.toList_append, List.append_assoc]

/-- The characters of the object that holds what is pinned. -/
def lockedText (lockfile : Lockfile) : List Char :=
  '\x7b' :: '\n' :: ' ' :: ' ' :: ' ' :: ' ' :: ((quoted "schemaId").toList ++ ':' :: ' ' ::
    ((quoted lockfile.schemaId).toList ++ ',' :: '\n' :: ' ' :: ' ' :: ' ' :: ' ' ::
      ((quoted "operationsHash").toList ++ ':' :: ' ' ::
        ((quoted lockfile.operationsHash).toList ++ ['\n', ' ', ' ', '\x7d']))))

/-- The characters of the contents, member by member. -/
theorem toList_contents (lockfile : Lockfile) :
    lockfile.contents.toList =
      '\x7b' :: '\n' :: ' ' :: ' ' :: ((quoted "version").toList ++ ':' :: ' ' ::
        ((quoted formatVersion).toList ++ ',' :: '\n' :: ' ' :: ' ' ::
          ((quoted "locked").toList ++ ':' :: ' ' :: (lockfile.lockedText ++
            ['\n', '\x7d', '\n'])))) := by
  have hversion : "\x7b\n  \"version\": ".toList =
      '\x7b' :: '\n' :: ' ' :: ' ' :: ((quoted "version").toList ++ [':', ' ']) := by
    decide
  have hlocked : ",\n  \"locked\": \x7b\n    \"schemaId\": ".toList =
      ',' :: '\n' :: ' ' :: ' ' :: ((quoted "locked").toList ++ ':' :: ' ' :: '\x7b' ::
        '\n' :: ' ' :: ' ' :: ' ' :: ' ' :: ((quoted "schemaId").toList ++ [':', ' '])) := by
    decide
  have hhash : ",\n    \"operationsHash\": ".toList =
      ',' :: '\n' :: ' ' :: ' ' :: ' ' :: ' ' ::
        ((quoted "operationsHash").toList ++ [':', ' ']) := by
    decide
  have hend : "\n  \x7d\n\x7d\n".toList = ['\n', ' ', ' ', '\x7d', '\n', '\x7d', '\n'] := by
    decide
  refine (toList_layout hversion hlocked hhash hend).trans ?_
  simp only [lockedText, List.append_assoc, List.cons_append, List.nil_append]

theorem return_not_mem_contents (lockfile : Lockfile) : '\r' ∉ lockfile.contents.toList := by
  have hquoted : ∀ text, '\r' ∉ (quoted text).toList := by
    intro text hmem
    rw [quoted, toList_quoteWith] at hmem
    simp only [List.mem_cons, List.mem_append, List.mem_flatMap, List.not_mem_nil] at hmem
    obtain ⟨c, -, hc⟩ : ∃ c ∈ text.toList, '\r' ∈ plainEscape c := by simpa using hmem
    exact absurd ((escaped_plainEscape c).printable _ hc) (by decide)
  simp [toList_contents, lockedText, hquoted]

/-- The object that holds what is pinned is read. -/
theorem readValue_lockedText (lockfile : Lockfile) (rounds : Nat) (rest : List Char) :
    readValue .strict (rounds + 4) (lockfile.lockedText ++ rest) =
      .ok (.object [("schemaId", .string lockfile.schemaId),
        ("operationsHash", .string lockfile.operationsHash)], rest) := by
  let margin := ['\n', ' ', ' ', ' ', ' ']
  have hmargin : ∀ c ∈ margin, isSpace c = true := List.all_eq_true.mp rfl
  let hash := ':' :: ' ' :: ((quoted lockfile.operationsHash).toList ++
    '\n' :: ' ' :: ' ' :: '\x7d' :: rest)
  have hhash : readMembers .strict (rounds + 2) ((quoted "operationsHash").toList ++ hash) =
      .ok ([("operationsHash", .string lockfile.operationsHash)], rest) :=
    readMembers_string rounds _ _ _
  let id := ':' :: ' ' :: ((quoted lockfile.schemaId).toList ++
    ',' :: (margin ++ ((quoted "operationsHash").toList ++ hash)))
  have hid : readMembers .strict (rounds + 3) ((quoted "schemaId").toList ++ id) =
      .ok ([("schemaId", .string lockfile.schemaId),
        ("operationsHash", .string lockfile.operationsHash)], rest) :=
    (readMembers_string (rounds + 1) _ _ _).trans (membersFrom_comma hmargin hhash)
  have htext : lockfile.lockedText ++ rest =
      '\x7b' :: (margin ++ ((quoted "schemaId").toList ++ id)) := by
    simp only [lockedText, margin, id, hash, List.cons_append, List.append_assoc, List.nil_append]
  rw [htext]
  exact readValue_members (skipSpace_quoted hmargin "schemaId" id) hid

/-- The whole contents are read, up to the last line feed. -/
theorem readValue_contents (lockfile : Lockfile) (rounds : Nat) :
    readValue .strict (rounds + 7) lockfile.contents.toList = .ok (lockfile.value, ['\n']) := by
  let margin := ['\n', ' ', ' ']
  have hmargin : ∀ c ∈ margin, isSpace c = true := List.all_eq_true.mp rfl
  -- from the inside out: what is locked, the member that has it, and the version in front
  let state := lockfile.lockedText ++ ['\n', '\x7d', '\n']
  let locked := ':' :: ' ' :: state
  have hstate : readValue .strict (rounds + 4) (skipSpace (' ' :: state)) =
      .ok (.object [("schemaId", .string lockfile.schemaId),
        ("operationsHash", .string lockfile.operationsHash)], ['\n', '\x7d', '\n']) :=
    lockfile.readValue_lockedText rounds _
  have hlocked : readMembers .strict (rounds + 5) ((quoted "locked").toList ++ locked) =
      .ok ([("locked", .object [("schemaId", .string lockfile.schemaId),
        ("operationsHash", .string lockfile.operationsHash)])], ['\n']) :=
    readMembers_quoted "locked" hstate
  let version := ':' :: ' ' :: ((quoted formatVersion).toList ++
    ',' :: (margin ++ ((quoted "locked").toList ++ locked)))
  have hversion : readMembers .strict (rounds + 6) ((quoted "version").toList ++ version) =
      .ok ([("version", .string formatVersion), ("locked", .object
        [("schemaId", .string lockfile.schemaId),
          ("operationsHash", .string lockfile.operationsHash)])], ['\n']) :=
    (readMembers_string (rounds + 4) _ _ _).trans (membersFrom_comma hmargin hlocked)
  have htext : lockfile.contents.toList =
      '\x7b' :: (margin ++ ((quoted "version").toList ++ version)) :=
    lockfile.toList_contents
  rw [htext]
  exact readValue_members (skipSpace_quoted hmargin "version" version) hversion

/-- The contents are read strictly as the value that they write. -/
theorem readStrict_contents (lockfile : Lockfile) :
    Json.read .strict lockfile.contents = .ok lockfile.value := by
  obtain ⟨text, htext, hlong⟩ :
      ∃ text, lockfile.contents.toList = '\x7b' :: text ∧ 3 ≤ text.length := by
    refine ⟨_, lockfile.toList_contents, ?_⟩
    simp only [List.length_cons]
    omega
  -- the rounds that a text is given by its length are more than its nesting takes
  obtain ⟨rounds, hrounds⟩ : ∃ rounds, 2 * lockfile.contents.toList.length + 2 = rounds + 7 := by
    refine ⟨2 * lockfile.contents.toList.length - 5, ?_⟩
    rw [htext, List.length_cons]
    omega
  have hmark : lockfile.contents.toList.head? ≠ some '\ufeff' := by simp [htext]
  have hskip : skipSpace lockfile.contents.toList = lockfile.contents.toList := by
    rw [htext]
    rfl
  rw [Json.read, hrounds, hskip, readValue_contents, if_neg hmark]
  rfl

theorem joinKeys_value (lockfile : Lockfile) : lockfile.value.joinKeys = lockfile.value := by
  simp [value, joinKeys, joinKeysMembers, Keyed.ofList, Keyed.set, Keyed.contains]

theorem depth_value (lockfile : Lockfile) : lockfile.value.depth = 2 := rfl

theorem ofJson_value (lockfile : Lockfile) : ofJson lockfile.value = .ok lockfile := rfl

/-- The contents of a lockfile are read as this lockfile. -/
theorem parse?_contents (lockfile : Lockfile) : parse? lockfile.contents = some lockfile := by
  have hvalue : parseStrictly? lockfile.contents = some lockfile.value := by
    rw [parseStrictly?, readStrict_contents]
    dsimp only
    rw [depth_value, joinKeys_value, if_pos (by decide)]
  rw [parse?, Text.ofFile_eq_self lockfile.return_not_mem_contents, hvalue, Option.bind_some,
    ofJson_value]
  rfl

/-- A lockfile is current for the id that it was made with, and for operations with the digest of
those that it was made from. -/
theorem isCurrent_create_iff {schemaId operations id text : String} :
    (create schemaId operations).isCurrent id text = true ↔
      id = schemaId ∧ Digest.Sha1.digest text = Digest.Sha1.digest operations := by
  simp only [isCurrent, create, Bool.and_eq_true, beq_iff_eq]
  exact and_congr eq_comm (Digest.Sha1.hexDigest_eq_iff.trans eq_comm)

/-! ### Files -/

/-- The contents of a lockfile are read without a notice. -/
theorem read_contents (lockfile : Lockfile) (path : String) :
    read path (some lockfile.contents) = pure (some lockfile) := by
  rw [read, parse?_contents]

/-- **Lockfiles are read back.** A lockfile that was written is there as a file, which is read
without a notice as an equal lockfile: one that is current for the schema id that it was made with
and for all operations with the digest of those that it was made from. Writing it again changes no
file. -/
theorem lockfile_is_read_back {workspace after : Workspace} {path schemaId operations : String}
    (hground : workspace.Grounded)
    (hwrite : workspace.write path (create schemaId operations).contents = .ok after) :
    ∃ contents lockfile, after.read? path = some contents.toUTF8 ∧
      read path (some contents) = pure (some lockfile) ∧ lockfile = create schemaId operations ∧
      (∀ id text, lockfile.isCurrent id text = true ↔
        id = schemaId ∧ Digest.Sha1.digest text = Digest.Sha1.digest operations) ∧
      ∃ again, after.write path lockfile.contents = .ok again ∧
        ∀ place, again.tree.file? place = after.tree.file? place := by
  have hwrote := Workspace.wrote_of_write hwrite
  obtain ⟨again, hagain, hrewrote⟩ := hwrote.write_again (create schemaId operations).contents
  refine ⟨_, _, hwrote.read?_eq hground, read_contents _ path, rfl,
    fun id text => isCurrent_create_iff, again, hagain, fun place => ?_⟩
  by_cases hplace : place = after.place path
  · rw [hplace, hrewrote.here, hwrote.place_eq, hwrote.here]
  · exact hrewrote.elsewhere place hplace

/-- An id that needs escapes, pinned in the directory of a site. -/
theorem escaped_id_is_read_back :
    ∃ workspace after : Workspace, workspace.Grounded ∧
      workspace.write fileName (create "\"\\\r\n😀" "query A \x7b a \x7d").contents = .ok after ∧
      ∃ contents lockfile, after.read? fileName = some contents.toUTF8 ∧
        read fileName (some contents) = pure (some lockfile) ∧
        lockfile.schemaId = "\"\\\r\n😀" := by
  let workspace : Workspace := ⟨⟨[], [["site"]]⟩, ["site"]⟩
  have hground : workspace.Grounded := rfl
  have hopens : workspace.Opens fileName := by
    have hway : Path.ancestors (Path.parent fileName) = [] := by decide
    intro above habove
    rw [hway] at habove
    exact absurd habove List.not_mem_nil
  have hfree : workspace.tree.isDirectory (workspace.place fileName) = false := by decide
  have hwrite := hopens.write_eq hfree (create "\"\\\r\n😀" "query A \x7b a \x7d").contents
  obtain ⟨contents, lockfile, hthere, hread, rfl, -⟩ := lockfile_is_read_back hground hwrite
  exact ⟨workspace, _, hground, hwrite, contents, _, hthere, hread, rfl⟩

end Lockfile

end OperationLibrary
