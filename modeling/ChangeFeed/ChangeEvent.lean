import ChangeFeed.LogModel

namespace ChangeFeed

structure ChangeEvent where
  entityType : String
  id : EntityId
  eventType : EventType
  deriving DecidableEq

namespace ChangeEvent

def display (e : ChangeEvent) : String := s!"{e.entityType}#{e.id.term} ({e.eventType.name})"

end ChangeEvent

namespace LogModel

/-- The events of a row, one per id mapping, in declaration order. The first mapping must have its
id; a later mapping without one has no event. -/
def events (m : LogModel) (row : LogRow) (eventType : EventType) :
    Except Failure (List ChangeEvent) :=
  match m.ids with
  | [] => .ok []
  | first :: later => do
    let id ← first.id row
    return ⟨first.entityType, id, eventType⟩ :: later.filterMap fun mapping =>
      (mapping.id? row).map fun id => ⟨mapping.entityType, id, eventType⟩

end LogModel

end ChangeFeed
