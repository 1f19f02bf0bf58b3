import ReplicatedConfig.Discovery
import ReplicatedConfig.Simulation.Store

/-!
# A simulated world

What a provider has around it: a store, and a directory in which replicas are looked up.
A scripted directory notes whose replicas were asked for, and can be told what to answer;
an unscripted one always gives the same answer and notes nothing.
-/

namespace ReplicatedConfig
namespace Simulation

/-- Where replicas are looked up. -/
structure Directory where
  scripted : Bool
  replicas : List Endpoint
  /-- Why lookups fail, if they do. -/
  fault : Option DiscoveryError
  /-- Whose replicas have been looked up. -/
  lookups : List Endpoint

namespace Directory

/-- Always gives the same replicas. -/
def fixed (replicas : List Endpoint) : Directory := ⟨false, replicas, none, []⟩

/-- Gives no replicas until it is told to. -/
def script : Directory := ⟨true, [], none, []⟩

instance : Inhabited Directory := ⟨fixed []⟩

/-- What a lookup gives; nothing where it fails. -/
def found (d : Directory) : Option (List Endpoint) := if d.fault.isSome then none else some d.replicas

/-- A lookup has begun. -/
def note (d : Directory) (origin : Endpoint) : Directory :=
  if d.scripted then { d with lookups := d.lookups ++ [origin] } else d

/-- Tells a scripted directory what to answer. -/
def setReplicas (d : Directory) (replicas : List Endpoint) : Directory :=
  if d.scripted then { d with replicas } else d

/-- Tells a scripted directory to fail, or not to. -/
def setFault (d : Directory) (fault : Option DiscoveryError) : Directory :=
  if d.scripted then { d with fault } else d

end Directory

/-- What a provider has around it. -/
structure World where
  store : Store
  directory : Directory
  deriving Inhabited

end Simulation
end ReplicatedConfig
