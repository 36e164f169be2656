import OperationLibrary.Command.Outcome
import OperationLibrary.Syntax.Parser

/-!
Parts of a command: what they answer, and what they leave in the temporary directory of the system.
A part that is made of others answers only if these do, and leaves only what they leave. Reading a
schema leaves nothing there unless it is in an archive that is found to be at fault while it is
unpacked.
-/

namespace OperationLibrary.Command

variable {α β : Type}

/-- How a part followed by others ends. -/
theorem run_bind (part : Spoken α) (next : α → Spoken β) (progress : Progress) :
    (part >>= next).run progress =
      match part.run progress with
      | (.ok a, between) => (next a).run between
      | (.error failure, between) => (.error failure, between) := by
  change StateT.run (part >>= next).run progress = _
  rw [ExceptT.run_bind, StateT.run_bind]
  rcases h : StateT.run part.run progress with ⟨_ | _, between⟩
  all_goals
    have hpart : part.run progress = _ := h
    rw [hpart]
    rfl

/-! ### Answers -/

/-- Where a part of a command ends there is no temporary directory, or it failed and what is left in
one satisfies `P`. -/
def LeftBehind (P : FileTree → Prop) : Except Failure α × Progress → Prop
  | (.ok _, after) => after.temporary = none
  | (.error _, after) => ∀ tree ∈ after.temporary, P tree

/-- A part of a command leaves nothing in the temporary directory but, when it fails, what satisfies
`P`; there is none to begin with. -/
def Leaves (P : FileTree → Prop) (part : Spoken α) : Prop :=
  ∀ progress, progress.temporary = none → LeftBehind P (part.run progress)

section

variable {P : FileTree → Prop}

theorem leftBehind_of_none {result : Except Failure α} {after : Progress}
    (h : after.temporary = none) : LeftBehind P (result, after) := by
  cases result with
  | ok a => exact h
  | error failure =>
      intro tree htree
      rw [h] at htree
      exact nomatch htree

theorem Leaves.of_tidy {part : Spoken α}
    (h : ∀ progress, (part.run progress).2.temporary = progress.temporary) : Leaves P part :=
  fun progress hnone => leftBehind_of_none ((h progress).trans hnone)

theorem Leaves.pure (a : α) : Leaves P (pure a) :=
  .of_tidy fun _ => rfl

theorem Leaves.throw (failure : Failure) : Leaves P (throw failure : Spoken α) :=
  .of_tidy fun _ => rfl

theorem Leaves.sayLine (line : String) : Leaves P (sayLine line) :=
  .of_tidy fun _ => rfl

theorem Leaves.complainLine (line : String) : Leaves P (complainLine line) :=
  .of_tidy fun _ => rfl

/-- Parts one behind the other leave what one of them leaves. -/
theorem Leaves.bind {part : Spoken α} {next : α → Spoken β} (hpart : Leaves P part)
    (hnext : ∀ a, Leaves P (next a)) : Leaves P (part >>= next) := by
  intro progress hnone
  have hbetween := hpart progress hnone
  rw [run_bind]
  rcases hrun : part.run progress with ⟨failure | a, between⟩
  all_goals
    rw [hrun] at hbetween
  · exact hbetween
  · exact hnext a between hbetween

theorem Leaves.heard (isVerbose : Bool) (x : Logged α) : Leaves P (heard isVerbose x) := by
  refine .bind ?_ fun _ => .pure _
  generalize x.notices.filter _ = passed
  induction passed with
  | nil => exact .pure _
  | cons notice passed ih => exact .bind (.complainLine _) fun _ => ih

theorem Leaves.orReport {ε : Type} (message : ε → String) (read : Except ε α) :
    Leaves P (orReport message read) := by
  cases read with
  | ok a => exact .pure a
  | error fault => exact .throw _

theorem Leaves.readText (workspace : Workspace) (path : String) :
    Leaves P (readText workspace path) := by
  unfold Command.readText
  split
  · exact .pure _
  · exact .throw _

theorem Leaves.readSettings (workspace : Workspace) (path framework schemaId : Option String) :
    Leaves P (readSettings workspace path framework schemaId) := by
  unfold Command.readSettings
  split
  · exact .pure _
  · refine .bind (.readText _ _) fun text => ?_
    split
    · exact .pure _
    · exact .throw _
    · exact .throw _

theorem Leaves.loadSchemaAt (workspace : Workspace) (isVerbose : Bool) (path : String) :
    Leaves P (loadSchemaAt workspace isVerbose path) := by
  refine .bind (.heard _ _) fun read => ?_
  cases read with
  | ok schema => exact .pure _
  | error fault => exact .throw _

end

end OperationLibrary.Command
