import DcCluster.Lib.Timed
import DcCluster.Node.HeartBeatCore

/-!
Executable model of the nodes and the server with their clocks: the loops of
`SendHeartBeat`, and the loop of `StartService` with the clock it reads before it takes
the lock. `DCGetTickCount` is the one clock of all stamps. A wait for a semaphore may end
early; that it ends, and that a call returns, are bounds on the runs.
-/

namespace DcCluster.HeartBeat

open DcCluster.Lib DcCluster.Server

inductive ServicePc
  | top
  | locking (lCheckTime : Int)
  | semWait
  | stopped
  deriving DecidableEq, Repr

/-- `serviceSince` is when the pass or the wait of `StartService` began, `loopSince` when a
loop sent the call it is in, or when its last call returned. -/
structure Cluster where
  system : System
  service : ServicePc
  serviceSince : Int
  loopSince : Nat → Int

inductive ClusterAction
  | system (action : Action)
  | checkTime
  | sweep
  | wake (bstop : Bool)
  deriving DecidableEq, Repr

def LoopPc.calling : LoopPc → Bool
  | .inRegisterClient | .inHeartBeatWork => true
  | _ => false

def System.calling (system : System) (index : Nat) : Option Bool :=
  (system.loops[index]?).map fun loop => loop.pc.calling

/-- The server reads the clock in the block that stamps, and sweeps in `StartService` only. -/
def onTime (now : Int) : Action → Bool
  | .execute _ _ clock => clock = now
  | .server .pick | .server (.failureRemoval _) => true
  | .server _ => false
  | .start _ _ | .proceed _ _ | .returns _ _ => true

def clusterStep (now : Int) (cluster : Cluster) : ClusterAction → Option Cluster
  | .system action =>
      if onTime now action then
        (step cluster.system action).map fun next =>
          { cluster with
            system := next
            loopSince := fun index =>
              if next.calling index = cluster.system.calling index then cluster.loopSince index
              else now }
      else none
  | .checkTime =>
      match cluster.service with
      | .top => some { cluster with service := .locking now }
      | _ => none
  | .sweep =>
      match cluster.service with
      | .locking lCheckTime =>
          (step cluster.system (.server (.sweep lCheckTime))).map fun next =>
            { cluster with system := next, service := .semWait, serviceSince := now }
      | _ => none
  | .wake bstop =>
      match cluster.service with
      | .semWait =>
          some { cluster with service := if bstop then .stopped else .top, serviceSince := now }
      | _ => none

def serverStarted (timed : Timed Cluster) : Prop :=
  timed.state =
    { system := initial, service := .top, serviceSince := timed.now,
      loopSince := fun _ => timed.now }

/-- From here on the loop is not stopped, its calls return with the answer of the server, and
no request fails on its node. -/
def faultless (index : Nat) (cluster : Cluster) : ClusterAction → Prop
  | .system (.proceed loop bstop) => loop = index → bstop = false
  | .system (.returns loop delivered) => loop = index → delivered = true
  | .system (.server (.failureRemoval node)) =>
      ∀ loop ∈ cluster.system.loops[index]?, node.key ≠ loop.key
  | _ => True

instance faultless.decidable (index : Nat) (cluster : Cluster) :
    ∀ action, Decidable (faultless index cluster action)
  | .system (.proceed loop bstop) => inferInstanceAs (Decidable (loop = index → bstop = false))
  | .system (.returns loop delivered) =>
      inferInstanceAs (Decidable (loop = index → delivered = true))
  | .system (.server (.failureRemoval node)) =>
      inferInstanceAs (Decidable (∀ loop ∈ cluster.system.loops[index]?, node.key ≠ loop.key))
  | .system (.start _ _) | .system (.execute _ _ _) | .system (.server (.registerWork _ _))
  | .system (.server (.heartBeatWork _ _)) | .system (.server (.sweep _))
  | .system (.server .pick) | .checkTime | .sweep | .wake _ => isTrue trivial

/-- The server is started when the clock shows one second. -/
def startedAtOneSecond : Timed Cluster :=
  { now := 1000
    state :=
      { system := initial, service := .top, serviceSince := 1000, loopSince := fun _ => 1000 } }

theorem startedAtOneSecond_started : serverStarted startedAtOneSecond := rfl

section Bounds

variable (slack latency : Nat)

/-- A pass takes at most `slack`, and so does a wait beyond its 45 seconds. -/
def ServiceLasts (now : Int) (cluster : Cluster) : Prop :=
  match cluster.service with
  | .top | .locking _ => now ≤ cluster.serviceSince + slack
  | .semWait => now ≤ cluster.serviceSince + 45 * 1000 + slack
  | .stopped => True

instance ServiceLasts.decidable (now : Int) : ∀ cluster, Decidable (ServiceLasts slack now cluster)
  | ⟨_, .top, since, _⟩ => inferInstanceAs (Decidable (now ≤ since + slack))
  | ⟨_, .locking _, since, _⟩ => inferInstanceAs (Decidable (now ≤ since + slack))
  | ⟨_, .semWait, since, _⟩ => inferInstanceAs (Decidable (now ≤ since + 45 * 1000 + slack))
  | ⟨_, .stopped, _, _⟩ => isTrue trivial

/-- A call returns within `latency`, and the next one is sent within `slack` after the 30
seconds of the wait. -/
def NodeLoop.InTime (since now : Int) (loop : NodeLoop) : Prop :=
  match loop.pc with
  | .inRegisterClient | .inHeartBeatWork => now ≤ since + latency
  | .top | .afterRegister | .semWait => now ≤ since + 30 * 1000 + slack
  | .stopped => True

instance NodeLoop.InTime.decidable (since now : Int) :
    ∀ loop : NodeLoop, Decidable (loop.InTime slack latency since now)
  | ⟨_, _, .inRegisterClient, _, _, _⟩ | ⟨_, _, .inHeartBeatWork, _, _, _⟩ =>
      inferInstanceAs (Decidable (now ≤ since + latency))
  | ⟨_, _, .top, _, _, _⟩ | ⟨_, _, .afterRegister, _, _, _⟩ | ⟨_, _, .semWait, _, _, _⟩ =>
      inferInstanceAs (Decidable (now ≤ since + 30 * 1000 + slack))
  | ⟨_, _, .stopped, _, _, _⟩ => isTrue trivial

def LoopLasts (index : Nat) (now : Int) (cluster : Cluster) : Prop :=
  ∀ loop ∈ cluster.system.loops[index]?, loop.InTime slack latency (cluster.loopSince index) now

instance LoopLasts.decidable (index : Nat) (now : Int) (cluster : Cluster) :
    Decidable (LoopLasts slack latency index now cluster) :=
  inferInstanceAs (Decidable (∀ loop ∈ cluster.system.loops[index]?, loop.InTime slack latency
    (cluster.loopSince index) now))

end Bounds

end DcCluster.HeartBeat
