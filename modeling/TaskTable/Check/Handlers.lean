import TaskTable.Catalog
import TaskTable.Check.Issue
import TaskTable.Table.Basic

/-!
# Checks of a table against a catalog

Every state needs a handler and every method a selector, except those that are built in; and the
values that a state handles should be those that its selector gives.
-/

namespace TaskTable
namespace Check

/-! ## Handlers and selectors -/

/-- The name of the rule that finds missing handlers and selectors. -/
def handlerMethodsId : String := "handler-methods"

/-- The states without a handler. -/
def missingHandlerIssues (t : Table) (c : Catalog) : List Issue :=
  (t.blocks.filter fun b => !Names.isBuiltin b.state && !c.hasState b.state).map fun b =>
    { kind := .missingStateMethod
      severity := .error
      state := b.state
      value := none
      line := some b.line
      message := "no state handler for '" ++ b.state ++ "'"
      rule := handlerMethodsId }

/-- A method without a selector, reported at the first block that uses it. -/
def missingSelectorIssue? (t : Table) (c : Catalog) (method : String) : Option Issue :=
  if method == Names.emptyTransition || c.hasSelector method then none
  else
    (t.blocks.find? fun b => b.method == method).map fun b =>
      { kind := .missingTransitionMethod
        severity := .error
        state := b.state
        value := some method
        line := some b.line
        message :=
          "no transition selector '" ++ method ++ "' (used by '" ++ b.state ++ "')"
        rule := handlerMethodsId }

/-- The states and methods that the catalog lacks. -/
def handlerMethodIssues (t : Table) (c : Catalog) : List Issue :=
  missingHandlerIssues t c ++ t.methods.filterMap (missingSelectorIssue? t c)

/-! ## Values -/

/-- The name of the rule that compares values. -/
def transitionValuesId : String := "transition-values"

/-- Texts in ascending order, each once. -/
abbrev TextSet := SortedMap String Unit

/-- The set of the texts in a list. -/
def TextSet.ofList (l : List String) : TextSet :=
  SortedMap.ofList (l.map fun s => (s, ()))

/-- The values that the selector of a method may give. The built-in selector gives `''`. -/
def legalValues (c : Catalog) (method : String) : TextSet :=
  TextSet.ofList
    (c.valuesOf method ++ if method == Names.emptyTransition then [""] else [])

/-- The values of a block that its selector never gives. -/
def unrecognizedIssues (b : Block) (legal : TextSet) : List Issue :=
  (b.transitions.filter fun tr =>
      tr.value != Names.wildcard && tr.value != Names.error && !legal.contains tr.value).map
    fun tr =>
      { kind := .unrecognizedValue
        severity := .error
        state := b.state
        value := some tr.value
        line := some tr.line
        message :=
          "'" ++ b.method ++ "' never returns '" ++ tr.value ++ "' (state '" ++ b.state ++ "')"
        rule := transitionValuesId }

/-- The values that the selector of a block may give and the block does not handle. A wildcard
handles all. -/
def unhandledIssues (b : Block) (legal : TextSet) : List Issue :=
  if b.hasWildcard then []
  else
    (legal.keys.filter fun v => (b.transition? v).isNone).map fun v =>
      { kind := .unusedValue
        severity := .warning
        state := b.state
        value := some v
        line := some b.line
        message :=
          "'" ++ b.method ++ "' may return '" ++ v ++ "' but state '" ++ b.state
            ++ "' does not handle it"
        rule := transitionValuesId }

/-- The differences between what the blocks handle and what their selectors give. Blocks without a
selector are left out. -/
def transitionValueIssues (t : Table) (c : Catalog) : List Issue :=
  t.blocks.flatMap fun b =>
    if b.method == Names.emptyTransition || c.hasSelector b.method then
      let legal := legalValues c b.method
      unrecognizedIssues b legal ++ unhandledIssues b legal
    else []

end Check
end TaskTable
