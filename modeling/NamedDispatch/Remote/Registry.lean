/-
Tables made from a registry: entries in any order, bound in the order of their names, each under
its own name and then under its aliases.
-/
import NamedDispatch.Remote.Table

namespace NamedDispatch

/-- A function that registers itself. -/
structure Entry (σ : Type) where
  name : String
  aliases : List String
  cached : Bool
  arity : UInt64
  handler : Handler σ

namespace Entry

/-- The entry of a typed function, which faults mention by its name. -/
def ofFunction {σ : Type} (name : String) (f : RemoteFunction σ) (cached : Bool)
    (aliases : List String) : Entry σ :=
  ⟨name, aliases, cached, UInt64.ofNat f.arity, f.call name⟩

/-- The entries in the order of their names. -/
def sorted {σ : Type} (entries : List (Entry σ)) : List (Entry σ) :=
  entries.mergeSort fun a b => decide (a.name ≤ b.name)

/-- What an entry does to a table: it binds its name and then its aliases, one at a time. -/
def steps {σ : Type} (e : Entry σ) : List (Table σ → Except DispatchFault Unit × Table σ) :=
  (fun t => t.attachRaw e.name e.arity e.cached e.handler) ::
    e.aliases.map fun name t => t.addAlias name e.name

end Entry

/-- A table of all entries, if every name in them can be bound. -/
def Table.ofRegistry {σ : Type} (entries : List (Entry σ)) : Except DispatchFault (Table σ) :=
  match Table.empty.inTurn ((Entry.sorted entries).flatMap Entry.steps) with
  | (.ok (), t) => .ok t
  | (.error e, _) => .error e

end NamedDispatch
