import ChangeFeed.Failure
import ChangeFeed.SortedMap

namespace ChangeFeed

/-- How documents of one root type are found from an entity: by the entity itself being a root of
that type, and by the fields that hold the ids of embedded entities. -/
structure RootLookup where
  rootType : String
  direct : Bool
  idFields : List String
  deriving DecidableEq

structure Embedding where
  root : String
  entityType : String
  field : String
  deriving DecidableEq

structure ContainmentEntry where
  entityType : String
  roots : List RootLookup
  deriving DecidableEq

structure Containment where
  entries : SortedMap String (List RootLookup) := ∅
  rootTypes : List String := []
  deriving DecidableEq

namespace Containment

def addRoot (roots : List String) (root : String) : List String :=
  if root ∈ roots then roots else roots ++ [root]

def addField (root field : String) : List RootLookup → List RootLookup
  | [] => [⟨root, false, [field]⟩]
  | l :: rest =>
    if l.rootType = root then
      (if field ∈ l.idFields then l else { l with idFields := l.idFields ++ [field] }) :: rest
    else l :: addField root field rest

def lookups (entries : SortedMap String (List RootLookup)) (entityType : String) : List RootLookup :=
  (entries.get? entityType).getD []

def enterRoot (entries : SortedMap String (List RootLookup)) (root : String) :
    SortedMap String (List RootLookup) :=
  entries.insert root (lookups entries root ++ [⟨root, true, []⟩])

def enterEmbedding (entries : SortedMap String (List RootLookup)) (e : Embedding) :
    SortedMap String (List RootLookup) :=
  entries.insert e.entityType (addField e.root e.field (lookups entries e.entityType))

def check (roots : List String) (e : Embedding) : Except ContainmentError Unit :=
  if e.root ∉ roots then .error (.undeclaredRoot e.root e.entityType)
  else if e.field = "" then .error (.emptyField e.root e.entityType)
  else .ok ()

/-- The index of declared roots and embeddings. Every declared root is entered for its own type first,
then every embedding for the embedded type. -/
def build (roots : List String) (embeddings : List Embedding) :
    Except ContainmentError Containment := do
  let rootTypes := roots.foldl addRoot []
  embeddings.forM (check rootTypes)
  return ⟨embeddings.foldl enterEmbedding (rootTypes.foldl enterRoot ∅), rootTypes⟩

structure Builder where
  roots : List String := []
  embeddings : List Embedding := []

inductive Declaration where
  | root (rootType : String)
  | embeds (embedding : Embedding)
  deriving DecidableEq

namespace Builder

def declare (b : Builder) : Declaration → Builder
  | .root r => { b with roots := addRoot b.roots r }
  | .embeds e => { b with embeddings := b.embeddings ++ [e] }

def build (b : Builder) : Except ContainmentError Containment := do
  b.embeddings.forM (check b.roots)
  return ⟨b.embeddings.foldl enterEmbedding (b.roots.foldl enterRoot ∅), b.roots⟩

end Builder

def ofDeclarations (ds : List Declaration) : Except ContainmentError Containment :=
  (ds.foldl Builder.declare {}).build

def entry? (c : Containment) (entityType : String) : Option ContainmentEntry :=
  (c.entries.get? entityType).map (⟨entityType, ·⟩)

def rootsContaining (c : Containment) (entityType : String) : List RootLookup :=
  lookups c.entries entityType

def isRoot (c : Containment) (entityType : String) : Bool := entityType ∈ c.rootTypes

def idFields (c : Containment) : List String :=
  sortDistinct (c.entries.values.flatMap fun ls => ls.flatMap (·.idFields))

end Containment

end ChangeFeed
