/-!
# Operation kinds
-/
namespace ResultLayout

inductive OperationKind where
  | mutation
  | query
  | subscription
deriving DecidableEq, Repr

namespace OperationKind

def name : OperationKind → String
  | mutation => "mutation"
  | query => "query"
  | subscription => "subscription"

/-- The word that semantic naming puts at the end of an operation's name. It is also the name of the
schema type on which operations of the kind select. -/
def suffix : OperationKind → String
  | mutation => "Mutation"
  | query => "Query"
  | subscription => "Subscription"

def all : List OperationKind := [mutation, query, subscription]

/-- Kinds are recognised by their exact names. -/
def ofName? (name : String) : Option OperationKind := all.find? (·.name == name)

theorem ofName?_name (kind : OperationKind) : ofName? kind.name = some kind := by
  cases kind <;> decide

end OperationKind
end ResultLayout
