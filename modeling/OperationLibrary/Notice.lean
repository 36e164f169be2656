/-!
Notices are what a computation reports besides its answer. They are part of the answer: a logged
value carries them in the order in which they came up, and a computation that fails keeps those it
had made before.
-/

namespace OperationLibrary

inductive Severity where
  | debug
  | warning
  | error
  deriving DecidableEq

/-- The part of the library that a notice is about. -/
inductive Topic where
  | documents
  | order
  | annotations
  | types
  | selections
  | generation
  | hooks
  | schema
  | lockfile
  | client
  deriving DecidableEq

structure Notice where
  severity : Severity
  topic : Topic
  text : String
  deriving DecidableEq

/-- A value and the notices made on the way to it. -/
structure Logged (α : Type) where
  value : α
  notices : List Notice

namespace Logged

variable {α β : Type}

instance : Monad Logged where
  pure a := ⟨a, []⟩
  bind x f := ⟨(f x.value).value, x.notices ++ (f x.value).notices⟩

@[simp] theorem value_pure (a : α) : (pure a : Logged α).value = a := rfl

@[simp] theorem notices_pure (a : α) : (pure a : Logged α).notices = [] := rfl

@[simp] theorem value_bind (x : Logged α) (f : α → Logged β) :
    (x >>= f).value = (f x.value).value := rfl

@[simp] theorem notices_bind (x : Logged α) (f : α → Logged β) :
    (x >>= f).notices = x.notices ++ (f x.value).notices := rfl

@[ext] theorem ext {x y : Logged α} (hv : x.value = y.value) (hn : x.notices = y.notices) :
    x = y := by
  cases x
  cases y
  simp_all

instance : LawfulMonad Logged :=
  LawfulMonad.mk' Logged (fun _ => ext rfl (by simp [Functor.map])) (fun _ _ => ext rfl (by simp))
    (fun _ _ _ => ext rfl (by simp [List.append_assoc]))

@[simp] theorem value_map (f : α → β) (x : Logged α) : (f <$> x).value = f x.value := rfl

@[simp] theorem notices_map (f : α → β) (x : Logged α) : (f <$> x).notices = x.notices := by
  simp [Functor.map]

/-- Makes one notice. -/
def note (severity : Severity) (topic : Topic) (text : String) : Logged Unit :=
  ⟨(), [⟨severity, topic, text⟩]⟩

def debug (topic : Topic) (text : String) : Logged Unit :=
  note .debug topic text

def warn (topic : Topic) (text : String) : Logged Unit :=
  note .warning topic text

end Logged

end OperationLibrary
