import ChangeFeed.Codec
import ChangeFeed.Index.Engine
import ChangeFeed.Index.Layout
import ChangeFeed.Index.SearchQuery
import ChangeFeed.Json.Printer
import ChangeFeed.Text.Words

namespace ChangeFeed

inductive FieldKind where
  | keyword
  | text
  | stored
  deriving DecidableEq

def typeField : String := "_type"

def idField : String := "_id"

def keyField : String := "_key"

namespace IndexLayout

def declared (l : IndexLayout) : List String := l.keyword ++ l.text

/-- The plain names of all fields with their kinds, those of the index itself first. -/
def schema (l : IndexLayout) : List (String × FieldKind) :=
  (typeField, .keyword) :: (idField, .stored) :: (keyField, .keyword) ::
    l.keyword.map (fun name => (plainName name, .keyword)) ++
    l.text.map (fun name => (plainName name, .text))

def kind? (l : IndexLayout) (plain : String) : Option FieldKind :=
  (l.schema.lookup plain).filter (· ≠ .stored)

def toPlain (l : IndexLayout) (d : Document) : Document :=
  { d with
    fields := .ofList <| (l.declared.filter fun name => d.values name ≠ []).map fun name =>
      (plainName name, d.values name) }

def ofPlain (l : IndexLayout) (d : Document) : Document :=
  { d with
    fields := .ofList <| (l.declared.filter fun name => d.values (plainName name) ≠ []).map
      fun name => (name, d.values (plainName name)) }

end IndexLayout

/-- The text by which documents are told apart: the type, a number sign and the id as JSON, which
keeps the integer 7 apart from the text of one digit 7. -/
def documentKey (key : EntityKey) : String :=
  let id := Json.print key.id.toData
  s!"{key.entityType}#{id}"

namespace FullText

inductive Write where
  | add (d : Document)
  | delete (key : String)
  deriving DecidableEq

end FullText

/-- Writes are staged and take effect in their order at the commit. A deletion removes the documents
that were added before it. -/
structure FullTextIndex where
  layout : IndexLayout
  /-- The committed documents in the order in which they were added, with plain field names. -/
  documents : List Document := []
  staged : List FullText.Write := []
  deriving DecidableEq

namespace FullTextIndex

open FullText

def create (layout : IndexLayout) : Except Failure FullTextIndex :=
  match layout.validate with
  | .error e => .error (.layout e)
  | .ok () => .ok { layout }

def reopen (ix : FullTextIndex) (layout : IndexLayout) : Except Failure FullTextIndex :=
  match layout.validate with
  | .error e => .error (.layout e)
  | .ok () =>
    if layout.schema = ix.layout.schema then .ok { layout, documents := ix.documents }
    else .error .indexSchema

def keyOf (d : Document) : String := documentKey d.key

def size (ix : FullTextIndex) : Nat := ix.documents.length

/-- The committed document with a key; of several the first that was added. -/
def document? (ix : FullTextIndex) (key : EntityKey) : Option Document :=
  (ix.documents.find? (keyOf · = documentKey key)).map ix.layout.ofPlain

def valuesOf (d : Document) (plain : String) : List String :=
  if plain = typeField then [d.entityType]
  else if plain = keyField then [keyOf d]
  else d.values plain

def fieldHolds (kind : FieldKind) (plain text : String) (d : Document) : Bool :=
  match kind with
  | .keyword => text ∈ valuesOf d plain
  | .text => Text.occurs (Text.words text) (Text.wordsOfAll 0 (valuesOf d plain))
  | .stored => false

/-- Whether a document answers a query. Parts of a query without words are passed over. -/
def answers (l : IndexLayout) (d : Document) : SearchQuery → Option Bool
  | .empty => none
  | .literal (some plain) text =>
    match l.kind? plain with
    | some .keyword => some (fieldHolds .keyword plain text d)
    | _ => if Text.words text = [] then none else some (fieldHolds .text plain text d)
  | .literal none text =>
    if Text.words text = [] then none
    else some (l.text.any fun name => fieldHolds .text (IndexLayout.plainName name) text d)
  | .both p q => Option.merge (· && ·) (answers l d p) (answers l d q)
  | .either p q => Option.merge (· || ·) (answers l d p) (answers l d q)

def select (ix : FullTextIndex) (root : String) (p : Document → Bool) : List EntityId :=
  (ix.documents.filter fun d => d.entityType = root && p d).map (·.id)

def search (ix : FullTextIndex) (root text : String) (limit : Nat) :
    Except Failure (List EntityId) :=
  if limit = 0 ∨ ix.layout.text = [] then .ok []
  else match SearchQuery.parse? text with
    | none => .error (.query text)
    | some q =>
      if q.fields.all fun name => (ix.layout.kind? name).isSome then
        .ok ((ix.select root fun d => (answers ix.layout d q).getD false).take limit)
      else .error (.query text)

def find (ix : FullTextIndex) (q : IndexQuery) : Except Failure (List EntityId) :=
  if q.field ∉ ix.layout.keyword then .error (.notKeywordField q.field)
  else
    let hits := ix.select q.root fun d => d.holds (IndexLayout.plainName q.field) q.value
    .ok ((hits.drop q.first).take q.limit)

def stage (ix : FullTextIndex) (ws : List Write) : FullTextIndex :=
  { ix with staged := ix.staged ++ ws }

def apply (documents : List Document) : Write → List Document
  | .add d => documents ++ [d]
  | .delete key => documents.filter (keyOf · ≠ key)

def commit (ix : FullTextIndex) : FullTextIndex :=
  { ix with documents := ix.staged.foldl apply ix.documents, staged := [] }

def discard (ix : FullTextIndex) : FullTextIndex := { ix with staged := [] }

def engine : IndexEngine FullTextIndex where
  start := modify discard
  find q := do Act.ofExcept ((← get).find q)
  add d := modify fun ix => ix.stage [.add (ix.layout.toPlain d)]
  update d := modify fun ix => ix.stage [.delete (keyOf d), .add (ix.layout.toPlain d)]
  delete key := modify (·.stage [.delete (documentKey key)])
  commit := modify commit
  rollback := modify discard
  abandon := discard
  bound := size

end FullTextIndex

end ChangeFeed
