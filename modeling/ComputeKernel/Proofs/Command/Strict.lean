import ComputeKernel.Command.Run
import ComputeKernel.Proofs.Project.KernelFiles

/-!
# Synchronising on strict disks

A run of `Command.sync` that comes to its end on a strict disk is the run on the disk as it is
(`Command.agrees_sync`). So strict runs are all runs in which no file operation fails.
-/

namespace ComputeKernel

open Disk.Agrees
open Disk (Agrees agrees_pure agrees_lift)

namespace Project

/-- Looking in directories agrees. -/
theorem agrees_findFrom (fuel : Nat) (dir : String) :
    Agrees (findFrom fuel dir) (findFrom fuel dir) := by
  induction fuel generalizing dir with
  | zero => exact agrees_pure none
  | succ fuel ih =>
    refine bind (agrees_lift _) fun there => Agrees.ite (agrees_pure _) ?_
    cases Path.parent? dir with
    | some above => exact ih above
    | none => exact agrees_pure none

/-- Looking for a project agrees. -/
theorem agrees_find? (dir : String) : Agrees (find? dir) (find? dir) := agrees_findFrom _ dir

/-- Loading it agrees. -/
theorem agrees_load (path : String) : Agrees (load path) (load path) := by
  refine bind (agrees_lift _) fun found => ?_
  cases found with
  | ok text => exact agrees_pure _
  | error e => exact agrees_pure _

/-- Pruning agrees. -/
theorem agrees_prune (p : Project) (live : List String) : Agrees (p.prune live) (p.prune live) :=
  bind (bind (agrees_lift _) fun _ => agrees_pure _) fun stale =>
    (insists_removeAll stale).agrees.bind fun _ => agrees_pure _

end Project

namespace Command

variable (project : Project)

/-- Loading a tree agrees. -/
theorem agrees_loadInput (path : String) : Agrees (loadInput path) (loadInput path) := by
  refine Agrees.ite (bind (bind (agrees_lift _) fun found => ?_) fun _ => agrees_pure _)
    (agrees_pure _)
  cases found with
  | error e => exact agrees_pure _
  | ok text => exact agrees_pure _

/-- Writing kernels agrees. -/
theorem agrees_writeKernels (p : Progress) (kernels : List (String × String)) :
    Agrees (writeKernels project p kernels) (writeKernels project p kernels) := by
  induction kernels generalizing p with
  | nil => exact agrees_pure p
  | cons kernel kernels ih =>
    refine (project.insists_writeKernel kernel.1 kernel.2).agrees.bind fun written => ?_
    cases written with
    | ok path => exact ih _
    | error e => exact ih _

/-- Translating trees agrees. -/
theorem agrees_syncFiles (root : String) (p : Progress) (paths : List String) :
    Agrees (syncFiles project root p paths) (syncFiles project root p paths) := by
  induction paths generalizing p with
  | nil => exact agrees_pure _
  | cons path paths ih =>
    refine (agrees_loadInput path).bind fun loaded => ?_
    cases loaded with
    | error text => exact agrees_pure _
    | ok file => exact (agrees_writeKernels project _ _).bind ih

/-- The end of a run agrees. -/
theorem agrees_finishSync (p : Progress) : Agrees (finishSync project p) (finishSync project p) :=
  (project.agrees_prune p.live).bind fun _ => .ite (agrees_pure _) (agrees_pure _)

/-- A run for a project agrees. -/
theorem agrees_syncProject : Agrees (syncProject project) (syncProject project) := by
  refine bind (agrees_lift _) fun there => Agrees.ite ?_ (agrees_pure _)
  refine bind (agrees_lift _) fun root => bind (agrees_lift _) fun files => ?_
  refine (agrees_syncFiles project _ _ _).bind fun result => ?_
  obtain ⟨p, text?⟩ := result
  cases text? with
  | none => exact agrees_finishSync project p
  | some text => exact agrees_pure _

/-- A run that nothing stops is a run. -/
theorem agrees_sync (dir : Option String) : Agrees (sync dir) (sync dir) := by
  refine (Project.agrees_find? _).bind fun found => ?_
  cases found with
  | none => exact agrees_pure _
  | some path =>
    refine (Project.agrees_load path).bind fun loaded => ?_
    cases loaded with
    | ok project => exact agrees_syncProject project
    | error e => exact agrees_pure _

end Command

end ComputeKernel
