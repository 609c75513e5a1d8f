import ChangeFeed.Proofs.Codec
import ChangeFeed.Proofs.Json
import ChangeFeed.Proofs.SortedMap

namespace ChangeFeed

namespace Json

theorem ofItems_eq (ds : List Data) : ofItems ds = ds.map ofData := by
  induction ds with
  | nil => rfl
  | cons d ds ih => rw [ofItems, ih, List.map_cons]

theorem ofMembers_eq (ms : List (String × Data)) : ofMembers ms = Tree.written ofData ms := by
  induction ms with
  | nil => rfl
  | cons m ms ih => rw [ofMembers, ih, Tree.written, Tree.written, List.map_cons]

theorem faithful : Tree.Faithful ofData where
  text s := by rw [ofData]; rfl
  choice s := by rw [ofData]; rfl
  natural n := by rw [Data.ofNat, ofData]; rfl
  absent := by rw [ofData]; rfl
  present n := by rw [Data.ofNat, ofData]; rfl
  items ds := by rw [ofData, ofItems_eq]; rfl
  members ms := by rw [ofData, ofMembers_eq]; rfl
  named ms := by rw [ofData]; rfl

end Json

theorem IdValue.ofJson?_toData (v : IdValue) : ofJson? (Json.ofData v.toData) = some v := by
  cases v with
  | text s => rfl
  | integer n =>
      have hlow : Int64.minValue.toInt ≤ n.toInt := n.le_toInt
      have hhigh : n.toInt ≤ Int64.maxValue.toInt := Int64.le_iff_toInt_le.1 n.le_maxValue
      simp only [toData, Json.ofData, ofJson?]
      rw [if_pos ⟨hlow, hhigh⟩, Int64.ofInt_toInt]

theorem EntityId.ofJson?_toData (i : EntityId) : ofJson? (Json.ofData i.toData) = some i := by
  rw [ofJson?, toData, Json.faithful.list IdValue.ofJson?_toData]
  rfl

theorem ChangeEvent.ofJson?_toData (e : ChangeEvent) : ofJson? (Json.ofData e.toData) = some e := by
  rw [ofJson?, toData, Json.faithful.fields]
  · simp [Json.faithful.text, EntityId.ofJson?_toData, EventType.ofTree?_toData Json.faithful]
  · rfl
  · decide

theorem Document.fieldsOfJson?_toList (fields : SortedMap String (List String)) :
    fieldsOfJson? (Json.ofData (.record (fields.toList.map fun f => (f.1, .ofTexts f.2)))) =
      some fields := by
  let node (f : String × List String) := (some f.1, Json.ofData (.ofTexts f.2))
  have hread : ∀ f ∈ fields.toList, (do
      let name ← (node f).1
      let values ← Tree.texts? (node f).2
      return (name, values)) = some f := by
    intro f _
    rw [Json.faithful.texts]
    rfl
  rw [fieldsOfJson?, Json.faithful.members, Tree.written, List.map_map]
  refine (congrArg (Option.bind · fun read => some (SortedMap.ofList read))
    (Tree.mapM_map hread)).trans ?_
  rw [List.map_id', Option.bind_some, SortedMap.ofList_toList]

theorem Document.ofJson?_toData (d : Document) : ofJson? (Json.ofData d.toData) = some d := by
  rw [ofJson?, toData, Json.faithful.fields]
  · simp [Tree.orElse, Json.faithful.text, EntityId.ofJson?_toData, fieldsOfJson?_toList]
  · rfl
  · decide

theorem RootLookup.ofJson?_toData (l : RootLookup) : ofJson? (Json.ofData l.toData) = some l := by
  have hflag (b : Bool) : Json.flag? (Json.ofData (.bool b)) = some b := by
    rw [Json.ofData]
    rfl
  rw [ofJson?, toData, Json.faithful.fields]
  · simp [Json.faithful.text, Json.faithful.texts, hflag]
  · rfl
  · decide

theorem ContainmentEntry.ofJson?_toData (e : ContainmentEntry) :
    ofJson? (Json.ofData e.toData) = some e := by
  rw [ofJson?, toData, Json.faithful.fields]
  · simp [Json.faithful.text, Json.faithful.list RootLookup.ofJson?_toData]
  · rfl
  · decide

namespace Json

/-- A value is read back from the text that is written of it. -/
def RoundTrips {α : Type} (write : α → Data) (read : Json → Option α) : Prop :=
  ∀ a, (parse (print (write a))).bind read = some a

variable {α : Type} {write : α → Data} {read : Json → Option α}

theorem RoundTrips.of_node (h : ∀ a, read (ofData (write a)) = some a) : RoundTrips write read := by
  intro a
  rw [parse_print, Option.bind_some, h]

theorem RoundTrips.print_inj (h : RoundTrips write read) {a b : α}
    (he : print (write a) = print (write b)) : a = b := by
  have ha := h a
  rw [he, h b] at ha
  exact (Option.some.inj ha).symm

/-- Every type with a written form is read back from its JSON text. -/
theorem roundTrips :
    RoundTrips EventType.toData EventType.ofTree? ∧
    RoundTrips IdValue.toData IdValue.ofJson? ∧
    RoundTrips EntityId.toData EntityId.ofJson? ∧
    RoundTrips ColumnType.toData ColumnType.ofTree? ∧
    RoundTrips IdMapping.toData IdMapping.ofTree? ∧
    RoundTrips LogModel.toData LogModel.ofTree? ∧
    RoundTrips ChangeEvent.toData ChangeEvent.ofJson? ∧
    RoundTrips Document.toData Document.ofJson? ∧
    RoundTrips RootLookup.toData RootLookup.ofJson? ∧
    RoundTrips ContainmentEntry.toData ContainmentEntry.ofJson? ∧
    RoundTrips SourceState.toData SourceState.ofTree? ∧
    RoundTrips Dialect.toData Dialect.ofTree? ∧
    RoundTrips InstallStrategy.toData InstallStrategy.ofTree? ∧
    RoundTrips FailurePolicy.toData FailurePolicy.ofTree? ∧
    RoundTrips TimeUnit.toData TimeUnit.ofTree? ∧
    RoundTrips PollingConfig.toData PollingConfig.ofTree? ∧
    RoundTrips IndexConfig.toData IndexConfig.ofTree? ∧
    RoundTrips EmbedConfig.toData EmbedConfig.ofTree? ∧
    RoundTrips RootConfig.toData RootConfig.ofTree? ∧
    RoundTrips ConfigFile.toData ConfigFile.ofTree? :=
  ⟨.of_node (EventType.ofTree?_toData faithful), .of_node IdValue.ofJson?_toData,
    .of_node EntityId.ofJson?_toData, .of_node (ColumnType.ofTree?_toData faithful),
    .of_node (IdMapping.ofTree?_toData faithful), .of_node (LogModel.ofTree?_toData faithful),
    .of_node ChangeEvent.ofJson?_toData, .of_node Document.ofJson?_toData,
    .of_node RootLookup.ofJson?_toData, .of_node ContainmentEntry.ofJson?_toData,
    .of_node (SourceState.ofTree?_toData faithful), .of_node (Dialect.ofTree?_toData faithful),
    .of_node (InstallStrategy.ofTree?_toData faithful),
    .of_node (FailurePolicy.ofTree?_toData faithful), .of_node (TimeUnit.ofTree?_toData faithful),
    .of_node (PollingConfig.ofTree?_toData faithful), .of_node (IndexConfig.ofTree?_toData faithful),
    .of_node (EmbedConfig.ofTree?_toData faithful), .of_node (RootConfig.ofTree?_toData faithful),
    .of_node (ConfigFile.ofTree?_toData faithful)⟩

end Json

end ChangeFeed
