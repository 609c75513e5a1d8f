import ChangeFeed.Index.FullText
import ChangeFeed.Proofs.Json.Tree

namespace ChangeFeed

/-- Where a character of an id's text stands. -/
inductive Scan where
  | plain
  | quoted
  | escaped
  deriving DecidableEq

namespace Scan

def step : Scan → Char → Option Scan
  | plain, c => if c = '"' then some quoted else if c = '#' ∨ c = '\\' then none else some plain
  | quoted, c => if c = '"' then some plain else if c = '\\' then some escaped else some quoted
  | escaped, c => if c = '#' then none else some quoted

def run (s : Scan) (cs : List Char) : Option Scan := cs.foldlM step s

theorem run_append (s : Scan) (as bs : List Char) :
    s.run (as ++ bs) = (s.run as).bind fun t => t.run bs := List.foldlM_append

theorem run_cons (s : Scan) (c : Char) (cs : List Char) :
    s.run (c :: cs) = (s.step c).bind fun t => t.run cs := List.foldlM_cons

/-- One of two places is within a string, the other is not. -/
def Opposite (s t : Scan) : Prop := s = plain ∧ t = quoted ∨ s = quoted ∧ t = plain

theorem Opposite.step {s t s' t' : Scan} {c : Char} (h : Opposite s t) (hs : s.step c = some s')
    (ht : t.step c = some t') : Opposite s' t' := by
  rcases h with ⟨rfl, rfl⟩ | ⟨rfl, rfl⟩
  · by_cases hq : c = '"'
    · simp_all [Scan.step, Opposite]
    · by_cases hn : c = '#' ∨ c = '\\'
      · simp [Scan.step, hq, hn] at hs
      · simp_all [Scan.step, Opposite]
  · by_cases hq : c = '"'
    · simp_all [Scan.step, Opposite]
    · by_cases hn : c = '#' ∨ c = '\\'
      · simp [Scan.step, hq, hn] at ht
      · simp_all [Scan.step, Opposite]

theorem Opposite.run {s t s' t' : Scan} {cs : List Char} (h : Opposite s t)
    (hs : s.run cs = some s') (ht : t.run cs = some t') : Opposite s' t' := by
  induction cs generalizing s t with
  | nil =>
      cases hs
      cases ht
      exact h
  | cons c cs ih =>
      rw [run_cons, Option.bind_eq_some_iff] at hs ht
      obtain ⟨s₁, hs₁, hs⟩ := hs
      obtain ⟨t₁, ht₁, ht⟩ := ht
      exact ih (h.step hs₁ ht₁) hs ht

theorem ne_append {cs cs' before : List Char} (h : plain.run cs = some plain)
    (h' : plain.run cs' = some plain) : cs ≠ before ++ '#' :: cs' := by
  rintro rfl
  rw [run_append, Option.bind_eq_some_iff] at h
  obtain ⟨s, -, h⟩ := h
  rw [run_cons, Option.bind_eq_some_iff] at h
  obtain ⟨t, ht, h⟩ := h
  have hquoted : t = quoted := by
    cases s with
    | plain => simp [step] at ht
    | quoted => simpa [step, eq_comm] using ht
    | escaped => simp [step] at ht
  subst hquoted
  have hend := Opposite.run (.inl ⟨rfl, rfl⟩) h' h
  rcases hend with ⟨-, h⟩ | ⟨h, -⟩ <;> cases h

theorem run_plain {cs : List Char} (h : ∀ c ∈ cs, c ≠ '"' ∧ c ≠ '#' ∧ c ≠ '\\') :
    plain.run cs = some plain := by
  induction cs with
  | nil => rfl
  | cons c cs ih =>
      obtain ⟨hc, hcs⟩ := List.forall_mem_cons.1 h
      simp [run_cons, step, hc, ih hcs]

theorem run_escape (c : Char) : quoted.run (Json.escape c) = some quoted := by
  have hcode : ∀ n < 32, quoted.run ('\\' :: 'u' :: Text.hexDigits 4 n) = some quoted := by decide
  unfold Json.escape
  split
  next => rfl
  split
  next => rfl
  split
  next => rfl
  split
  next => rfl
  split
  next => rfl
  split
  next => rfl
  split
  next => rfl
  split
  next h => exact hcode c.toNat h
  next hquote hslash _ _ _ _ _ _ => simp [run, step, hquote, hslash]

theorem run_quote (s : String) : plain.run (Json.quote s) = some plain := by
  have hchars (cs : List Char) : quoted.run (cs.flatMap Json.escape) = some quoted := by
    induction cs with
    | nil => rfl
    | cons c cs ih => rw [List.flatMap_cons, run_append, run_escape, Option.bind_some, ih]
  rw [Json.quote, List.cons_append, run_cons, show plain.step '"' = some quoted from rfl,
    Option.bind_some, run_append, hchars]
  rfl

theorem run_value (v : IdValue) : plain.run (Json.render v.toData) = some plain := by
  cases v with
  | text s =>
      rw [IdValue.toData, Json.render]
      exact run_quote s
  | integer n =>
      rw [IdValue.toData, Json.render]
      refine run_plain fun c hc => ?_
      rcases Json.ofNumber_of_mem hc with rfl | hd
      · decide
      · refine ⟨?_, ?_, ?_⟩ <;> rintro rfl <;> cases hd

theorem run_id (i : EntityId) : plain.run (Json.render i.toData) = some plain := by
  have hitems (vs : List IdValue) :
      plain.run (Json.renderItems (vs.map IdValue.toData)) = some plain := by
    induction vs with
    | nil => rfl
    | cons v vs ih =>
        rw [List.map_cons, Json.renderItems, List.cons_append, run_cons,
          show plain.step ',' = some plain from rfl, Option.bind_some, run_append, run_value,
          Option.bind_some, ih]
  obtain ⟨vs⟩ := i
  rw [EntityId.toData]
  cases vs with
  | nil => rfl
  | cons v vs =>
      rw [List.map_cons, Json.render, List.cons_append, run_cons,
        show plain.step '[' = some plain from rfl, Option.bind_some, run_append, run_value,
        Option.bind_some, hitems]

end Scan

theorem toList_documentKey (k : EntityKey) :
    (documentKey k).toList = k.entityType.toList ++ '#' :: Json.render k.id.toData := by
  simp [documentKey, Json.print, ToString.toString]

/-- Of two ways to cut a text at a number sign into a type and an id, the longer id would have the other
number sign within a string. To the right of it all quotes would open a string for one id and close one
for the other, and the text could not end outside of strings for both. -/
theorem documentKey_inj {k k' : EntityKey} (h : documentKey k = documentKey k') : k = k' := by
  have hlist := congrArg String.toList h
  rw [toList_documentKey, toList_documentKey, List.append_eq_append_iff] at hlist
  have hcut {i j : EntityId} {cs : List Char}
      (he : '#' :: Json.render i.toData = cs ++ '#' :: Json.render j.toData) : cs = [] ∧ i = j := by
    cases cs with
    | nil =>
        refine ⟨rfl, (Json.RoundTrips.of_node EntityId.ofJson?_toData).print_inj ?_⟩
        rw [Json.print, (List.cons.inj he).2, Json.print]
    | cons c cs => exact absurd (List.cons.inj he).2 (Scan.ne_append (Scan.run_id i) (Scan.run_id j))
  obtain ⟨t, i⟩ := k
  obtain ⟨t', j⟩ := k'
  rcases hlist with ⟨cs, ht, he⟩ | ⟨cs, ht, he⟩
  · obtain ⟨rfl, rfl⟩ := hcut he
    rw [List.append_nil] at ht
    cases String.toList_inj.1 ht
    rfl
  · obtain ⟨rfl, rfl⟩ := hcut he
    rw [List.append_nil] at ht
    cases String.toList_inj.1 ht
    rfl

end ChangeFeed
