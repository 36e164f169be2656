import OperationLibrary.Command.Plan

/-!
A whole run of the command line: from the arguments and the files there are to the exit code, what
was said, and the files there are afterwards.
-/

namespace OperationLibrary.Command

structure Outcome where
  exitCode : Nat
  transcript : Transcript
  breakdown : Option Breakdown
  workspace : Workspace
  /-- What is left in the temporary directory of the system, if that was not removed. -/
  remains : Option FileTree

namespace Outcome

def usageCode : Nat := 2

def failureCode : Nat := 1

/-- The end of a run that leaves this workspace. -/
def leaving (workspace : Workspace) (exitCode : Nat) (progress : Progress) : Outcome :=
  ⟨exitCode, progress.said, none, workspace, progress.temporary⟩

/-- The end of a run that fails. A report goes to the channel for errors. -/
def ofFailure (workspace : Workspace) (progress : Progress) : Failure → Outcome
  | .reported message =>
    leaving workspace failureCode (progress.complain ("Error: " ++ message ++ "\n"))
  | .breakdown cause => { leaving workspace failureCode progress with breakdown := some cause }

/-- The end of a run that does not get to a request. -/
def ofUsageFault (workspace : Workspace) (report : String) : Outcome :=
  leaving workspace usageCode (Progress.start.complain report)

end Outcome

/-- What a fault in writing means for a command. -/
def Plan.failure (plan : Plan) (fault : WriteFault) : Failure :=
  if plan.reportsFaults then .reported fault.message else .breakdown (.writing fault)

/-- Writes the files of a plan. -/
def Plan.carryOut (plan : Plan) (workspace : Workspace) (progress : Progress) : Outcome :=
  match workspace.writeAll plan.writes with
  | (workspace, some fault) => Outcome.ofFailure workspace progress (plan.failure fault)
  | (workspace, none) =>
    let closing := String.join (plan.closing.map (· ++ "\n"))
    Outcome.leaving workspace 0 (progress.say closing)

/-- Answers a request. -/
def Request.run (request : Request) (workspace : Workspace) (host : Host) : Outcome :=
  match (request.plan workspace host).run .start with
  | (.ok plan, progress) => plan.carryOut workspace progress
  | (.error failure, progress) => Outcome.ofFailure workspace progress failure

/-- Runs a command line on a system. One without arguments is a fault, which is met with a page of
help. -/
def runOn (host : Host) (workspace : Workspace) (arguments : List String) : Outcome :=
  if arguments.isEmpty then Outcome.ofUsageFault workspace (helpPage none)
  else
    match Request.ofArguments workspace arguments with
    | .ok request => request.run workspace host
    | .error fault => Outcome.ofUsageFault workspace fault.report

/-- Where archives are unpacked to. -/
def archiveDirectory : String := "/tmp/archive"

/-- Runs a command line. -/
def run (workspace : Workspace) (ids : IdSupply) (arguments : List String) : Outcome :=
  runOn (.standard ids archiveDirectory) workspace arguments

end OperationLibrary.Command
