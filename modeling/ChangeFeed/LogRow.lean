import ChangeFeed.EntityId
import ChangeFeed.EventType
import ChangeFeed.SortedMap

namespace ChangeFeed

/-- One row of a log table. The event code is kept as it was written, so that a row with an unknown code
can be read and removed. A column that is absent holds no value. -/
structure LogRow where
  sequence : Int64
  code : Int64
  columns : SortedMap String IdValue
  deriving DecidableEq

namespace LogRow

def eventType? (r : LogRow) : Option EventType := EventType.ofCode? r.code

def column? (r : LogRow) (name : String) : Option IdValue := r.columns.get? name

end LogRow

end ChangeFeed
