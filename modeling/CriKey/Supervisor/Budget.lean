import CriKey.Base.Word

/-! Admission budgets of a plugin: a bounded number of units of work of each kind may run at
a time, and a refusal is counted. -/
namespace CriKey.Supervisor
open CriKey.Base Function

inductive BudgetKind where
  | suggestion | action | background | catalog
deriving DecidableEq, Repr

/-- Refusals by the kind of work that was turned away. -/
structure ConcurrencyRefusals where
  suggestion : Nat := 0
  action : Nat := 0
  background : Nat := 0
  catalog : Nat := 0
deriving DecidableEq, Repr

namespace ConcurrencyRefusals

def add (r : ConcurrencyRefusals) (kind : BudgetKind) (delta : Nat) : ConcurrencyRefusals :=
  match kind with
  | .suggestion => { r with suggestion := satAdd r.suggestion delta }
  | .action => { r with action := satAdd r.action delta }
  | .background => { r with background := satAdd r.background delta }
  | .catalog => { r with catalog := satAdd r.catalog delta }

end ConcurrencyRefusals

/-- The author's declaration; an absent entry takes the default of the host. -/
structure ConcurrencySection where
  maxSuggestionRequests : Option Nat := none
  maxActionRequests : Option Nat := none
  maxBackgroundTasks : Option Nat := none
  maxCatalogTasks : Option Nat := none
deriving DecidableEq, Repr

def defaultSuggestionBudget : Nat := 1
def defaultActionBudget : Nat := 1
def defaultBackgroundBudget : Nat := 1
def defaultCatalogBudget : Nat := 1

structure ConcurrencyBudget where
  limits : BudgetKind → Nat
  inFlight : BudgetKind → Nat
  refusals : BudgetKind → Nat

namespace ConcurrencyBudget

def fromSection (sec : ConcurrencySection) : ConcurrencyBudget where
  limits
    | .suggestion => sec.maxSuggestionRequests.getD defaultSuggestionBudget
    | .action => sec.maxActionRequests.getD defaultActionBudget
    | .background => sec.maxBackgroundTasks.getD defaultBackgroundBudget
    | .catalog => sec.maxCatalogTasks.getD defaultCatalogBudget
  inFlight _ := 0
  refusals _ := 0

variable (b : ConcurrencyBudget)

/-- The drop of a guard. -/
def release (kind : BudgetKind) : ConcurrencyBudget :=
  { b with inFlight := update b.inFlight kind (b.inFlight kind - 1) }

end ConcurrencyBudget
end CriKey.Supervisor
