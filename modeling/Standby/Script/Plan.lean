import Standby.Offload.Background
import Standby.Offload.Scheduler
import Standby.Settings
import Standby.Store.Bounded
import Standby.Store.Fallback
import Standby.Store.Memory
import Standby.Store.Simple

/-!
# Stores of a script

A plan is a tree of stores that stand on one another, each with a name of its own; a store may be
used again by its name. Assembly a plan makes the states, gates and pools that its stores need, the
origin of a fallback store before its standby store. All states are in one world, which also has
room for what a step replies.
-/

set_option autoImplicit false

namespace Standby

/-- How a fallback store of a plan is set up. -/
structure FallbackSetup where
  /-- The limits of the pool for background writes; without one, writes are inline. -/
  background : Option PoolLimits := some {}
  label : Label := defaultFallbackLabel

/-- The setup that settings stand for. -/
def Settings.setup (settings : Settings) : FallbackSetup :=
  ⟨settings.poolLimits?, settings.labelOrDefault⟩

/-- Stores that stand on one another. -/
inductive Plan where
  /-- The store that was built under a name before. -/
  | again (name : String)
  | memory (name : String)
  | failing (name : String)
  | minimal (name : String) (row : Row)
  | bounded (name : String) (settings : BoundedSettings)
  | gated (name : String) (inner : Plan)
  | fallback (name : String) (origin standby : Plan) (format : Format) (setup : FallbackSetup)

/-- The states of the stores of a plan, and the reply of the step that is taken. -/
structure World (ρ : Type) where
  memories : List Memory := []
  bounded : List Bounded := []
  /-- How often each store that always fails was asked. -/
  failures : List Nat := []
  reply : Option ρ := none

namespace World

variable {ρ : Type}

/-- A place for a state in a list of the world. -/
def place {S : Type} [Inhabited S] (list : World ρ → List S)
    (setList : World ρ → List S → World ρ) (index : Nat) : Place (Fiber (World ρ)) S where
  update change := Fiber.modifyGet fun world =>
    let (found, changed) := change ((list world)[index]?.getD default)
    (found, setList world ((list world).set index changed))

/-- The place of a store in memory. -/
def memory (index : Nat) : Place (Fiber (World ρ)) Memory :=
  place memories (fun world memories => { world with memories }) index

/-- The place of a bounded store. -/
def boundedAt (index : Nat) : Place (Fiber (World ρ)) Bounded :=
  place bounded (fun world bounded => { world with bounded }) index

/-- The place of a store that always fails. -/
def failing (index : Nat) : Place (Fiber (World ρ)) Nat :=
  place failures (fun world failures => { world with failures }) index

/-- The world after all bounded stores have made room. -/
def maintain (world : World ρ) : World ρ :=
  { world with bounded := world.bounded.map Bounded.maintain }

end World

/-- What a store of a plan is, besides being a store. -/
inductive Role (ρ : Type) where
  | memory (index : Nat)
  | failing (index : Nat)
  | minimal
  | bounded (index : Nat)
  | gated (gate : GateId) (inner : Label)
  | fallback (fallback : Fallback (Fiber (World ρ))) (pool : Option PoolId)

/-- A store of a plan. -/
structure Node (ρ : Type) where
  store : Store (Fiber (World ρ))
  role : Role ρ

/-- The stores that were built, by name, with all that goes on in them. -/
structure Assembly (ρ : Type) where
  nodes : Table String (Node ρ) := .empty
  /-- The number of gates that were made. -/
  gates : Nat := 0
  scheduler : Scheduler (World ρ) := .start {}

namespace Assembly

variable {ρ : Type}

/-- Adds a store under a name. -/
def addNode (assembly : Assembly ρ) (name : String) (node : Node ρ) : Node ρ × Assembly ρ :=
  (node, { assembly with nodes := assembly.nodes.insert name node })

/-- Changes the world. -/
def changeWorld (assembly : Assembly ρ) (change : World ρ → World ρ) : Assembly ρ :=
  { assembly with
    scheduler := { assembly.scheduler with world := change assembly.scheduler.world } }

/-- Makes a pool, if there are limits for one. -/
def addPool (assembly : Assembly ρ) : Option PoolLimits → Option PoolId × Assembly ρ
  | none => (none, assembly)
  | some limits =>
    let (pool, scheduler) := assembly.scheduler.addPool limits
    (some pool, { assembly with scheduler })

/-- Builds a plan, unless it uses a store again that was not built. -/
def add (assembly : Assembly ρ) : Plan → Option (Node ρ × Assembly ρ)
  | .again name => (assembly.nodes.get? name).map fun node => (node, assembly)
  | .memory name =>
    let index := assembly.scheduler.world.memories.length
    let assembly := assembly.changeWorld fun world =>
      { world with memories := world.memories ++ [{}] }
    some <| assembly.addNode name ⟨Memory.store (World.memory index), .memory index⟩
  | .failing name =>
    let index := assembly.scheduler.world.failures.length
    let assembly := assembly.changeWorld fun world =>
      { world with failures := world.failures ++ [0] }
    some <| assembly.addNode name ⟨Failing.store (World.failing index), .failing index⟩
  | .minimal name row => some <| assembly.addNode name ⟨Minimal.store row, .minimal⟩
  | .bounded name settings =>
    let index := assembly.scheduler.world.bounded.length
    let assembly := assembly.changeWorld fun world =>
      { world with bounded := world.bounded ++ [{ settings }] }
    some <| assembly.addNode name
      ⟨Bounded.store settings.label (World.boundedAt index), .bounded index⟩
  | .gated name inner => do
    let (node, assembly) ← assembly.add inner
    let gate := assembly.gates
    let assembly := { assembly with gates := gate + 1 }
    some <| assembly.addNode name
      ⟨.gated (Fiber.pass gate) node.store, .gated gate node.store.label⟩
  | .fallback name origin standby format setup => do
    let (origin, assembly) ← assembly.add origin
    let (standby, assembly) ← assembly.add standby
    let (pool, assembly) := assembly.addPool setup.background
    let fallback : Fallback (Fiber (World ρ)) :=
      ⟨origin.store, standby.store, format, .ofPool pool, setup.label⟩
    some <| assembly.addNode name ⟨fallback.store, .fallback fallback pool⟩

end Assembly

end Standby
