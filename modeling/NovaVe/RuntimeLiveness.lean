import Mathlib.Data.List.Basic

namespace NovaVe

inductive NodeKind
  | docker | qemu | iol | dynamips
deriving DecidableEq, Repr

/-- A process id, which is positive wherever the code keeps one. -/
abbrev Pid := {n : Nat // 0 < n}

/-- `(lab_id, node_id)`. -/
abbrev NodeKey := String × Nat

/-- A runtime record, as far as its liveness and its registration go. -/
structure RuntimeRec where
  kind : NodeKind
  pid : Option Pid
  pidCreateTime : Option Int
  containerName : Option String
  vmName : Option String
deriving DecidableEq, Repr

/-- What the liveness tests ask the host: the docker binary, the running containers, the VMs that
the hypervisor reports as running, and the live processes with their create times in ms. -/
structure HostView where
  dockerBinary : Bool
  containers : List String
  vms : List String
  procs : List (Pid × Int)

/-- `abs(process.create_time() - expected_create_time) > 1` does not hold. -/
def sameCreateTime (expected : Option Int) (actual : Int) : Bool :=
  match expected with
  | none => true
  | some expected => decide ((actual - expected).natAbs ≤ 1000)

def processAlive (host : HostView) (runtime : RuntimeRec) : Bool :=
  match runtime.pid with
  | none => false
  | some pid =>
    host.procs.any (fun proc => proc.1 == pid && sameCreateTime runtime.pidCreateTime proc.2)

/-- `_is_docker_running`. -/
def isDockerRunning (host : HostView) (runtime : RuntimeRec) : Bool :=
  match runtime.containerName with
  | none => false
  | some name => host.dockerBinary && host.containers.contains name

/-- `DynamipsLauncher.is_alive`. -/
def dynamipsIsAlive (host : HostView) (runtime : RuntimeRec) : Bool :=
  match runtime.vmName with
  | none => false
  | some name => host.vms.contains name

/-- `_is_runtime_alive`. -/
def isRuntimeAlive (host : HostView) (runtime : RuntimeRec) : Bool :=
  match runtime.kind with
  | .docker => isDockerRunning host runtime
  | .dynamips => dynamipsIsAlive host runtime
  | .qemu | .iol => processAlive host runtime

/-- `_check_alive_sync`; `none` when the docker binary cannot be run. -/
def checkAliveSync (host : HostView) (runtime : RuntimeRec) : Option Bool :=
  match runtime.kind with
  | .docker =>
    match runtime.containerName with
    | none => some false
    | some name => if host.dockerBinary then some (host.containers.contains name) else none
  | .qemu | .iol | .dynamips => some (processAlive host runtime)

/-- The two tests agree, but for a dynamips record, which has no pid of its own. -/
theorem isRuntimeAlive_of_check {host : HostView} {runtime : RuntimeRec} {alive : Bool}
    (hkind : runtime.kind ≠ .dynamips) (h : checkAliveSync host runtime = some alive) :
    isRuntimeAlive host runtime = alive := by
  unfold checkAliveSync at h
  unfold isRuntimeAlive
  cases hk : runtime.kind with
  | docker =>
    simp only [hk] at h ⊢
    unfold isDockerRunning
    cases hname : runtime.containerName with
    | none =>
      simp only [hname] at h
      exact Option.some.inj h
    | some name =>
      simp only [hname] at h
      split at h
      next hbinary =>
        simpa [hbinary] using Option.some.inj h
      next => cases h
  | qemu =>
    simp only [hk] at h
    exact Option.some.inj h
  | iol =>
    simp only [hk] at h
    exact Option.some.inj h
  | dynamips => exact absurd hk hkind

/-- Processes, containers and VMs that are gone; nothing else changes. -/
structure HostView.Lost (before after : HostView) : Prop where
  binary : after.dockerBinary = before.dockerBinary
  containers : after.containers ⊆ before.containers
  vms : after.vms ⊆ before.vms
  procs : after.procs ⊆ before.procs

/-- What is gone does not come back to life. -/
theorem isRuntimeAlive_of_lost {before after : HostView} (h : before.Lost after)
    {runtime : RuntimeRec} (halive : isRuntimeAlive after runtime = true) :
    isRuntimeAlive before runtime = true := by
  have hproc : processAlive after runtime = true → processAlive before runtime = true := by
    unfold processAlive
    cases runtime.pid with
    | none => exact id
    | some pid =>
      intro hany
      obtain ⟨proc, hm, hproc⟩ := List.any_eq_true.mp hany
      exact List.any_eq_true.mpr ⟨proc, h.procs hm, hproc⟩
  unfold isRuntimeAlive at halive ⊢
  cases hk : runtime.kind with
  | docker =>
    simp only [hk] at halive ⊢
    unfold isDockerRunning at halive ⊢
    cases hname : runtime.containerName with
    | none => simp [hname] at halive
    | some name =>
      simp only [hname, Bool.and_eq_true, List.contains_iff_mem] at halive ⊢
      exact ⟨h.binary ▸ halive.1, h.containers halive.2⟩
  | dynamips =>
    simp only [hk] at halive ⊢
    unfold dynamipsIsAlive at halive ⊢
    cases hname : runtime.vmName with
    | none => simp [hname] at halive
    | some name =>
      simp only [hname, List.contains_iff_mem] at halive ⊢
      exact h.vms halive
  | qemu =>
    simp only [hk] at halive ⊢
    exact hproc halive
  | iol =>
    simp only [hk] at halive ⊢
    exact hproc halive

end NovaVe
