import TaskTable.Catalog
import TaskTable.Random.Generator
import TaskTable.Supply.Basic
import TaskTable.Table.Basic

/-!
# Random supplies

Values drawn at random among those that a selector may give. With a fixed seed the draws repeat
after a rewind.
-/

namespace TaskTable

/-- A random supply over a generator. -/
structure RandomSupply (γ : Type) where
  /-- The values to draw from in each state. -/
  candidates : SortedMap String (List String)
  /-- How likely each draw is to be `!`. -/
  failureProbability : Number.Binary64
  seed : UInt64
  generator : γ

namespace RandomSupply

variable {γ : Type} [Generator γ]

/-- The values to draw from in a block: those declared for its method, else the block's own, apart
from those that ask for the error route or for termination. -/
def candidatesOf (b : Block) (c : Catalog) : List String :=
  match c.valuesOf b.method with
  | [] => b.values.filter fun v => v != Names.error && v != Names.terminateRequested
  | values => values

/-- The chance of `!` where none is set: 0.03. -/
def defaultProbability : Number.Binary64 := ⟨0x3f9eb851eb851eb8⟩

/-- The supply for a table and a catalog with the given seed. -/
def ofTable (t : Table) (c : Catalog) (seed : UInt64) : RandomSupply γ where
  candidates := .ofList (t.blocks.map fun b => (b.state, candidatesOf b c))
  failureProbability := defaultProbability
  seed := seed
  generator := Generator.ofSeed seed

/-- The supply with another seed, before any value was drawn. -/
def withSeed (s : RandomSupply γ) (seed : UInt64) : RandomSupply γ :=
  { s with seed, generator := Generator.ofSeed seed }

/-- The supply with another chance of `!`, which must lie between 0 and 1. -/
def withProbability (s : RandomSupply γ) (p : Number.Binary64) :
    Except SupplyError (RandomSupply γ) :=
  if p.isProbability then .ok { s with failureProbability := p } else .error (.invalidProbability p)

/-- The value for a state. -/
def next (s : RandomSupply γ) (state method : String) :
    RandomSupply γ × Except SupplyError String :=
  let (fails, g) := Generator.chance s.failureProbability.timesTwoPow64 s.generator
  if fails then ({ s with generator := g }, .ok Names.error)
  else if method = Names.emptyTransition then ({ s with generator := g }, .ok "")
  else
    match s.candidates.get? state with
    | none => ({ s with generator := g }, .error (.unknownState state))
    | some values =>
      let (value, g) := Generator.choose? values g
      ({ s with generator := g }, .ok (value.getD Names.error))

/-- The supply before any value was drawn. -/
def rewind (s : RandomSupply γ) : RandomSupply γ :=
  { s with generator := Generator.ofSeed s.seed }

instance : Supply (RandomSupply γ) where
  next := next
  rewind := rewind

end RandomSupply

end TaskTable
