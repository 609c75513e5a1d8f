import ChangeFeed.EntityId
import ChangeFeed.SortedMap

namespace ChangeFeed

structure Document where
  entityType : String
  id : EntityId
  fields : SortedMap String (List String) := ∅
  deriving DecidableEq

namespace Document

def key (d : Document) : EntityKey := ⟨d.entityType, d.id⟩

def addValue (d : Document) (field value : String) : Document :=
  { d with fields := d.fields.insert field ((d.fields.get? field).getD [] ++ [value]) }

def values (d : Document) (field : String) : List String := (d.fields.get? field).getD []

def holds (d : Document) (field value : String) : Bool := value ∈ d.values field

end Document

end ChangeFeed
