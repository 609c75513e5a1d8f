import ChangeFeed.Proofs.Index.Layout

namespace ChangeFeed

/-- The names of a schema with one more field. There can be no second field of one name. -/
def addField (names : List String) (name : String) : Option (List String) :=
  if name ∈ names then none else some (names ++ [name])

theorem foldlM_addField {names more : List String} (h : (names ++ more).Nodup) :
    more.foldlM addField names = some (names ++ more) := by
  induction more generalizing names with
  | nil => exact congrArg some (List.append_nil names).symm
  | cons name more ih =>
      have hnew : name ∉ names := fun hmem =>
        (List.nodup_append.1 h).2.2 name hmem name (List.mem_cons_self ..) rfl
      have happend : names ++ name :: more = (names ++ [name]) ++ more := by simp
      rw [happend] at h ⊢
      rw [List.foldlM_cons, addField, if_neg hnew]
      exact ih h

namespace IndexLayout

variable {l : IndexLayout} {name : String}

def IsAlphanumeric (c : Char) : Prop := 'A' ≤ c ∧ c ≤ 'Z' ∨ 'a' ≤ c ∧ c ≤ 'z' ∨ '0' ≤ c ∧ c ≤ '9'

theorem isAlphanum_iff {c : Char} : c.isAlphanum = true ↔ IsAlphanumeric c := by
  delta Char.isAlphanum Char.isAlpha Char.isUpper Char.isLower Char.isDigit
  simp only [IsAlphanumeric, Char.le_def, Bool.or_eq_true, Bool.and_eq_true, decide_eq_true_iff, or_assoc]

/-- Names of fields that an index can tell apart by their plain names, from one another and from the
fields of its own. -/
structure Sound (l : IndexLayout) : Prop where
  starts : ∀ name ∈ l.declared, ∃ c cs, name.toList = c :: cs ∧ IsAlphanumeric c
  kinds : ∀ name ∈ l.keyword, name ∉ l.text
  apart : ∀ a ∈ l.declared, ∀ b ∈ l.declared, plainName a = plainName b → a = b

theorem forall_kinds : (∀ name ∈ l.declared, name ∈ l.keyword → name ∉ l.text) ↔
    ∀ name ∈ l.keyword, name ∉ l.text :=
  ⟨fun h name hk => h name (List.mem_append_left _ hk) hk, fun h name _ => h name⟩

theorem nodup_declared (keyword text : List String)
    (h : ∀ name ∈ (ofFields keyword text).keyword, name ∉ (ofFields keyword text).text) :
    (ofFields keyword text).declared.Nodup := by
  refine List.nodup_append.2 ⟨sortDistinct_nodup _, sortDistinct_nodup _, fun a ha b hb he => ?_⟩
  exact h a ha (he ▸ hb)

theorem validate_eq_ok_iff (keyword text : List String) :
    (ofFields keyword text).validate = .ok () ↔ (ofFields keyword text).Sound := by
  have hdeclared : (ofFields keyword text).validate =
    (ofFields keyword text).check [] (ofFields keyword text).declared := rfl
  rw [hdeclared, check_eq_ok_iff, List.map_nil, apart_of_nil, forall₂_and, forall_kinds]
  simp only [StartsPlain, isAlphanum_iff]
  constructor
  · rintro ⟨⟨hstarts, hkinds⟩, hnodup⟩
    exact ⟨hstarts, hkinds, (List.nodup_map_iff_inj_on (nodup_declared keyword text hkinds)).1 hnodup⟩
  · intro h
    refine ⟨⟨h.starts, h.kinds⟩, ?_⟩
    exact (List.nodup_map_iff_inj_on (nodup_declared keyword text h.kinds)).2 h.apart

def reserved : List String := [typeField, idField, keyField]

/-- The names of the fields of the schema, in the order in which they are added. -/
def fieldNames (l : IndexLayout) : List String := l.schema.map (·.1)

theorem fieldNames_eq (l : IndexLayout) : l.fieldNames = reserved ++ l.declared.map plainName := by
  simp [fieldNames, schema, reserved, declared, Function.comp_def]

theorem StartsPlain.plainName_not_mem (h : StartsPlain name) : plainName name ∉ reserved := by
  obtain ⟨c, cs, hname, hc⟩ := h
  have hhead : (plainName name).toList.head? = some c := by
    rw [toList_plainName, hname, List.map_cons, if_pos hc]
    rfl
  have hreserved : ∀ r ∈ reserved, r.toList.head? = some '_' := by decide
  intro hmem
  rw [hreserved _ hmem] at hhead
  cases hhead
  exact absurd hc (by decide)

theorem nodup_fieldNames (h : l.validate = .ok ()) : l.fieldNames.Nodup := by
  rw [fieldNames_eq]
  refine List.nodup_append.2 ⟨by decide, nodup_plainName h, ?_⟩
  rintro r hr _ hp rfl
  obtain ⟨name, hname, rfl⟩ := List.mem_map.1 hp
  exact ((check_eq_ok_iff.1 h).1 name hname).1.plainName_not_mem hr

end IndexLayout

end ChangeFeed
