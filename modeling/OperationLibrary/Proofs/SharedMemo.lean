import Mathlib.Data.List.Nodup
import OperationLibrary.Document.Graph

/-!
Builders that share a memo of documents. Whatever texts share a key, whatever is forgotten and
whichever builds are refused, the memo holds the definitions of its own texts and of nothing else.
So a build answers as it would without the memo; all that a shared memo takes away is the warning
about an unreadable text that it still remembers.
-/

namespace OperationLibrary

open Syntax

/-! ### Entries of a memo -/

namespace Memo

variable {κ α : Type} {memo : Memo κ α} {read : String → α} {text : String} {value : α}

/-- The memo still has this value for the text. -/
def Holds (memo : Memo κ α) (text : String) (value : α) : Prop :=
  ∃ entry ∈ memo.entries, entry.text = text ∧ entry.value = value

/-- Every entry has what is read in its own text, under the key of that text. No two entries have
the same key, and there are at most as many as there is room for. -/
structure Faithful (read : String → α) (memo : Memo κ α) : Prop where
  key_eq : ∀ entry ∈ memo.entries, entry.key = memo.keyOf entry.text
  value_eq : ∀ entry ∈ memo.entries, entry.value = read entry.text
  keys_nodup : (memo.entries.map Entry.key).Nodup
  size_le : memo.size ≤ memo.capacity

theorem not_holds_empty (keyOf : String → κ) (capacity : Nat) :
    ¬ (empty keyOf capacity).Holds text value := by
  rintro ⟨entry, hentry, -⟩
  exact nomatch hentry

theorem faithful_empty (read : String → α) (keyOf : String → κ) (capacity : Nat) :
    (empty keyOf capacity).Faithful read :=
  ⟨by simp [empty], by simp [empty], by simp [empty], Nat.zero_le _⟩

theorem faithful_clear (read : String → α) (memo : Memo κ α) : memo.clear.Faithful read :=
  faithful_empty read memo.keyOf memo.capacity

theorem Faithful.holds_iff (h : memo.Faithful read) :
    memo.Holds text value ↔ value = read text ∧ text ∈ memo.entries.map Entry.text := by
  constructor
  · rintro ⟨entry, hentry, rfl, rfl⟩
    exact ⟨h.value_eq entry hentry, List.mem_map_of_mem hentry⟩
  · rintro ⟨rfl, hmem⟩
    obtain ⟨entry, hentry, rfl⟩ := List.mem_map.mp hmem
    exact ⟨entry, hentry, rfl, h.value_eq entry hentry⟩

section

variable [DecidableEq κ]

@[simp] theorem capacity_put (memo : Memo κ α) (text : String) (value : α) :
    (memo.put text value).capacity = memo.capacity := rfl

@[simp] theorem keyOf_put (memo : Memo κ α) (text : String) (value : α) :
    (memo.put text value).keyOf = memo.keyOf := rfl

theorem size_put_le (memo : Memo κ α) (text : String) (value : α) :
    (memo.put text value).size ≤ memo.capacity := by
  simp only [size, put, List.length_drop]
  omega

/-- Behind a new value stand entries of other keys that were there before, in their order. -/
theorem entries_put_sublist (memo : Memo κ α) (text : String) (value : α) :
    (memo.put text value).entries.Sublist
      (memo.entries.filter (fun entry => entry.key ≠ memo.keyOf text) ++
        [⟨memo.keyOf text, text, value⟩]) :=
  List.drop_sublist _ _

theorem mem_of_mem_put {entry : Entry κ α} (h : entry ∈ (memo.put text value).entries) :
    (entry ∈ memo.entries ∧ entry.key ≠ memo.keyOf text) ∨
      entry = ⟨memo.keyOf text, text, value⟩ := by
  have hmem := (entries_put_sublist memo text value).subset h
  rwa [List.mem_append, List.mem_singleton, List.mem_filter, decide_eq_true_iff] at hmem

/-- Where every entry has the key of its text and no two have the same key, a text is found if
there is an entry for it. -/
theorem get?_eq_some_iff_holds (hkeys : ∀ entry ∈ memo.entries, entry.key = memo.keyOf entry.text)
    (hnodup : (memo.entries.map Entry.key).Nodup) :
    memo.get? text = some value ↔ memo.Holds text value := by
  unfold get?
  constructor
  · intro hget
    split at hget
    case h_1 entry hfind =>
      split at hget
      case isTrue htext =>
        exact ⟨entry, List.mem_of_find?_eq_some hfind, htext, Option.some.inj hget⟩
      case isFalse => simp at hget
    case h_2 => simp at hget
  · rintro ⟨entry, hentry, rfl, rfl⟩
    have hkey := hkeys entry hentry
    cases hfind : memo.entries.find? (·.key = memo.keyOf entry.text) with
    | none => exact absurd hkey (by simpa using List.find?_eq_none.mp hfind entry hentry)
    | some other =>
        -- keys do not repeat, so the entry that is found is this one
        have hother : other.key = memo.keyOf entry.text := by simpa using List.find?_some hfind
        have hsame : other = entry := List.inj_on_of_nodup_map hnodup
          (List.mem_of_find?_eq_some hfind) hentry (hother.trans hkey.symm)
        simp [hsame]

/-- Putting in what a text reads keeps a memo faithful, also where another text has its key. -/
theorem Faithful.put (h : memo.Faithful read) (text : String) :
    (memo.put text (read text)).Faithful read where
  key_eq entry hentry := by
    rcases mem_of_mem_put hentry with ⟨hold, -⟩ | rfl
    · exact h.key_eq entry hold
    · rfl
  value_eq entry hentry := by
    rcases mem_of_mem_put hentry with ⟨hold, -⟩ | rfl
    · exact h.value_eq entry hold
    · rfl
  keys_nodup := by
    refine ((entries_put_sublist memo text (read text)).map Entry.key).nodup ?_
    rw [List.map_append, List.map_singleton]
    refine List.nodup_append.mpr ⟨h.keys_nodup.sublist (List.filter_sublist.map _), by simp, ?_⟩
    intro known hknown key hkey
    obtain ⟨entry, hentry, rfl⟩ := List.mem_map.mp hknown
    rw [List.mem_singleton.mp hkey]
    simpa using (List.mem_filter.mp hentry).2
  size_le := size_put_le memo text (read text)

/-- A memo knows a text if and only if it still has an entry for it. -/
theorem Faithful.get?_eq_some_iff (h : memo.Faithful read) :
    memo.get? text = some value ↔ memo.Holds text value :=
  get?_eq_some_iff_holds h.key_eq h.keys_nodup

end

end Memo

/-! ### Builds -/

/-- The executable definitions of a text, none where it cannot be read. -/
def definitionsOf (text : String) : List Executable :=
  match Document.parse text with
  | .ok document => document.executables
  | .error _ => []

/-- The warning about a text that cannot be read. -/
def unreadable (topic : Topic) (error : SyntaxError) : Notice :=
  ⟨.warning, topic, "Unable to parse operations document: " ++ error.message⟩

theorem value_readDefinitions (topic : Topic) (text : String) :
    (readDefinitions topic text).value = definitionsOf text := by
  unfold readDefinitions definitionsOf
  cases Document.parse text <;> rfl

variable {κ : Type} [DecidableEq κ] {memo : DocumentMemo κ}

/-- Looking up the definitions of a text gives those definitions, keeps the memo faithful, and says
what reading the text says unless the memo has it. -/
theorem DocumentMemo.definitions_spec (h : memo.Faithful definitionsOf) (topic : Topic)
    (text : String) :
    (memo.definitions topic text).value.1 = definitionsOf text ∧
      Memo.Faithful definitionsOf (memo.definitions topic text).value.2 ∧
      (memo.Holds text (definitionsOf text) → (memo.definitions topic text).notices = []) ∧
      (¬ memo.Holds text (definitionsOf text) →
        (memo.definitions topic text).notices = (readDefinitions topic text).notices) := by
  unfold DocumentMemo.definitions
  split
  case h_1 known hget =>
    have hholds := h.get?_eq_some_iff.mp hget
    obtain ⟨rfl, -⟩ := h.holds_iff.mp hholds
    exact ⟨rfl, h, fun _ => rfl, fun hnot => absurd hholds hnot⟩
  case h_2 hget =>
    have hnot : ¬ memo.Holds text (definitionsOf text) := fun hholds => by
      rw [h.get?_eq_some_iff.mpr hholds] at hget
      exact nomatch hget
    refine ⟨value_readDefinitions topic text, ?_, fun hholds => absurd hholds hnot, fun _ => ?_⟩
    · rw [Logged.value_bind, value_readDefinitions]
      exact h.put text
    · simp

/-- What a build with a faithful memo answers does not depend on the memo. -/
theorem value_buildGraph (h : memo.Faithful definitionsOf) (topic : Topic) (strict : Bool)
    (values : List (String × Json)) (text : String) :
    (buildGraph topic strict memo values text).value.1 =
      (resolveGraph topic strict values (definitionsOf text)).value := by
  rw [← (DocumentMemo.definitions_spec h topic text).1]
  rfl

theorem notices_buildGraph (h : memo.Faithful definitionsOf) (topic : Topic) (strict : Bool)
    (values : List (String × Json)) (text : String) :
    (buildGraph topic strict memo values text).notices =
      (memo.definitions topic text).notices ++
        (resolveGraph topic strict values (definitionsOf text)).notices := by
  rw [← (DocumentMemo.definitions_spec h topic text).1]
  simp [buildGraph]

/-! ### Steps on a shared memo -/

/-- What is done with a memo that builders share: a builder, with a place for its notices, builds
the graph of a text, or the memo is cleared. -/
inductive MemoStep where
  | build (topic : Topic) (strict : Bool) (values : List (String × Json)) (text : String)
  | clear

/-- The memo after a step. A build that is refused has looked up its text all the same. -/
def DocumentMemo.after (memo : DocumentMemo κ) : MemoStep → DocumentMemo κ
  | .build topic strict values text => (buildGraph topic strict memo values text).value.2
  | .clear => memo.clear

theorem DocumentMemo.faithful_after (h : memo.Faithful definitionsOf) (step : MemoStep) :
    Memo.Faithful definitionsOf (memo.after step) := by
  cases step with
  | build topic strict values text => exact (DocumentMemo.definitions_spec h topic text).2.1
  | clear => exact Memo.faithful_clear _ memo

@[simp] theorem DocumentMemo.capacity_after (memo : DocumentMemo κ) (step : MemoStep) :
    Memo.capacity (memo.after step) = memo.capacity := by
  cases step with
  | build topic strict values text =>
      change Memo.capacity (memo.definitions topic text).value.2 = memo.capacity
      unfold DocumentMemo.definitions
      split <;> rfl
  | clear => rfl

/-- The memo after several steps. -/
def DocumentMemo.afterAll (memo : DocumentMemo κ) (steps : List MemoStep) : DocumentMemo κ :=
  steps.foldl DocumentMemo.after memo

/-- Steps keep a memo faithful and its room what it was. -/
theorem DocumentMemo.faithful_afterAll (h : memo.Faithful definitionsOf) (steps : List MemoStep) :
    Memo.Faithful definitionsOf (memo.afterAll steps) ∧
      Memo.capacity (memo.afterAll steps) = memo.capacity := by
  induction steps generalizing memo with
  | nil => exact ⟨h, rfl⟩
  | cons step rest ih =>
      obtain ⟨hfaithful, hcapacity⟩ := ih (DocumentMemo.faithful_after h step)
      exact ⟨hfaithful, hcapacity.trans (memo.capacity_after step)⟩

/-- Nothing is reported about a document without definitions. -/
theorem notices_resolveGraph_nil (topic : Topic) (strict : Bool) (values : List (String × Json)) :
    (resolveGraph topic strict values []).notices = [] := by
  cases strict <;> rfl

/-- **A shared memo is transparent.** After any steps of any builders on a memo that started empty,
with any keys and any capacity, the memo is within its capacity, and a build answers and reports
what it does with a memo of its own. Only the warning about an unreadable text is missing, and it is
missing if and only if the memo still has the empty result of that text. -/
theorem build_shared_memo {ι : Type} [DecidableEq ι] (keyOf : String → κ) (capacity : Nat)
    (freshKey : String → ι) (freshCapacity : Nat) (steps : List MemoStep) :
    let memo := DocumentMemo.afterAll (Memo.empty keyOf capacity) steps
    memo.size ≤ capacity ∧
      ∀ (topic : Topic) (strict : Bool) (values : List (String × Json)) (text : String),
        let shared := buildGraph topic strict memo values text
        let fresh := buildGraph topic strict (Memo.empty freshKey freshCapacity) values text
        shared.value.1 = fresh.value.1 ∧
          match Document.parse text with
          | .ok _ => shared.notices = fresh.notices
          | .error error => fresh.notices = [unreadable topic error] ∧
              (memo.Holds text [] → shared.notices = []) ∧
              (¬ memo.Holds text [] → shared.notices = fresh.notices) := by
  intro memo
  obtain ⟨hmemo, hcapacity⟩ :=
    DocumentMemo.faithful_afterAll (Memo.faithful_empty definitionsOf keyOf capacity) steps
  refine ⟨Nat.le_trans hmemo.size_le (Nat.le_of_eq hcapacity), fun topic strict values text => ?_⟩
  have hfresh := Memo.faithful_empty definitionsOf freshKey freshCapacity
  refine ⟨(value_buildGraph hmemo topic strict values text).trans
    (value_buildGraph hfresh topic strict values text).symm, ?_⟩
  obtain ⟨-, -, hknown, hunknown⟩ := DocumentMemo.definitions_spec hmemo topic text
  obtain ⟨-, -, -, hread⟩ := DocumentMemo.definitions_spec hfresh topic text
  have hshared := notices_buildGraph hmemo topic strict values text
  have halone := notices_buildGraph hfresh topic strict values text
  rw [hread (Memo.not_holds_empty freshKey freshCapacity)] at halone
  cases hparse : Document.parse text with
  | ok document =>
      -- reading says nothing, so it does not matter whether the text is known
      have hquiet : (readDefinitions topic text).notices = [] := by
        simp [readDefinitions, hparse]
      have hdefinitions : (memo.definitions topic text).notices = [] := by
        by_cases hholds : memo.Holds text (definitionsOf text)
        · exact hknown hholds
        · exact (hunknown hholds).trans hquiet
      exact hshared.trans (by rw [hdefinitions, halone, hquiet])
  | error error =>
      have hnone : definitionsOf text = [] := by simp [definitionsOf, hparse]
      have hwarned : (readDefinitions topic text).notices = [unreadable topic error] := by
        simp [readDefinitions, hparse, Logged.warn, Logged.note, unreadable]
      rw [hnone, notices_resolveGraph_nil, List.append_nil] at hshared halone
      rw [hnone] at hknown hunknown
      refine ⟨halone.trans hwarned, fun hholds => hshared.trans (hknown hholds), fun hnot => ?_⟩
      exact hshared.trans ((hunknown hnot).trans halone.symm)

end OperationLibrary
