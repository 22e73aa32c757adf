/-!
# Catalogs

What handler code offers, as far as it can be told without running it: the states with a handler,
the selectors, and the values that the selectors may give.
-/

namespace TaskTable

/-- A value that a selector may give, and what it means. -/
structure DeclaredValue where
  method : String
  value : String
  description : String
  deriving DecidableEq, Repr

/-- What handler code offers. -/
structure Catalog where
  states : List String := []
  selectors : List String := []
  declared : List DeclaredValue := []
  deriving DecidableEq, Repr

namespace Catalog

/-- Whether a state has a handler. -/
def hasState (c : Catalog) (state : String) : Bool :=
  c.states.contains state

/-- Whether there is a selector for a method. -/
def hasSelector (c : Catalog) (method : String) : Bool :=
  c.selectors.contains method

/-- The values that the selector of a method may give, in the order of their declaration. -/
def valuesOf (c : Catalog) (method : String) : List String :=
  (c.declared.filter fun d => d.method == method).map (·.value)

/-- The catalog with a handler for a state. -/
def addState (c : Catalog) (state : String) : Catalog :=
  if c.hasState state then c else { c with states := c.states ++ [state] }

/-- The catalog with a selector and its values. An earlier selector of the same method is replaced,
and its values with it. -/
def addSelector (c : Catalog) (method : String) (values : List (String × String)) : Catalog :=
  { c with
    selectors := if c.hasSelector method then c.selectors else c.selectors ++ [method]
    declared :=
      (c.declared.filter fun d => d.method != method)
        ++ values.map fun v => ⟨method, v.1, v.2⟩ }

end Catalog

end TaskTable
