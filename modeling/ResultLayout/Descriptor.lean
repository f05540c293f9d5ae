import ResultLayout.Schema.Leaf
import ResultLayout.Schema.TypeRef
/-!
# Record descriptors

The result of an operation is described by records. A record has one member for each response name
of its level; a member with a selection has a record of its own.
-/
namespace ResultLayout

/-- Where a contribution to a member was written. -/
inductive FieldSource where
  /-- In the selection itself. -/
  | direct
  | fragmentSpread (fragmentName : String)
  | inlineFragment (typeCondition : String)
deriving DecidableEq, Repr

def FieldSource.render : FieldSource → String
  | direct => "direct selection"
  | fragmentSpread fragmentName => "fragment `" ++ fragmentName ++ "`"
  | inlineFragment typeCondition => "inline fragment on `" ++ typeCondition ++ "`"

mutual

structure Member where
  responseName : String
  fieldName : String
  type : TypeRef
  leafKind : LeafKind
  nested : Option RecordType
  /-- Whether a response may lack the member. -/
  conditional : Bool
  description : Option String
  deprecationReason : Option String
  source : FieldSource

structure RecordType where
  name : String
  schemaTypeName : String
  members : List Member
  /-- The fragments spread at the record's own level. -/
  fragmentRefs : List String

end

def RecordType.member? (record : RecordType) (responseName : String) : Option Member :=
  record.members.find? (·.responseName == responseName)

end ResultLayout
