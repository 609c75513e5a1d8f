namespace ChangeFeed

inductive EventType where
  | insert
  | update
  | delete
  deriving DecidableEq

namespace EventType

def all : List EventType := [insert, update, delete]

def code : EventType → Int64
  | insert => 0
  | update => 1
  | delete => 2

def ofCode? (n : Int64) : Option EventType :=
  all.find? (·.code = n)

def name : EventType → String
  | insert => "insert"
  | update => "update"
  | delete => "delete"

theorem mem_all (e : EventType) : e ∈ all := by cases e <;> decide

theorem ofCode?_code (e : EventType) : ofCode? e.code = some e := by cases e <;> decide

end EventType

end ChangeFeed
