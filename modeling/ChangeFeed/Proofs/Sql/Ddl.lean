import ChangeFeed.Proofs.Log.SqlTable
import ChangeFeed.Proofs.Sql.Counter

namespace ChangeFeed.Sql.Database

variable {db db' db₁ db₂ : Database} {v : Int64}

theorem run_createTrigger {g : CaptureTrigger} (h : db.run (.createTrigger g) = .ok db') :
    ((∃ k ∈ db.triggers, sameName k.name g.name = true) ∧ db' = db) ∨
      ((∀ k ∈ db.triggers, ¬ sameName k.name g.name = true) ∧
        db' = { db with triggers := g :: db.triggers }) := by
  obtain ⟨_, -, h⟩ := bind_eq_ok.1 h
  rw [createTrigger] at h
  by_cases ht : (db.table? g.watchedTable).isNone = true
  · rw [if_pos ht] at h
    cases h
  rw [if_neg ht] at h
  by_cases hg : (db.triggers.any fun k => sameName k.name g.name) = true
  · rw [if_pos hg] at h
    cases h
    exact .inl ⟨List.any_eq_true.1 hg, rfl⟩
  · rw [if_neg hg] at h
    cases h
    refine .inr ⟨fun k hk he => hg (List.any_eq_true.2 ⟨k, hk, he⟩), rfl⟩

theorem run_dropTrigger {trigger watchedTable : String}
    (h : db.run (.dropTrigger trigger watchedTable) = .ok db') :
    db' = { db with triggers := db.triggers.filter fun g => !sameName g.name trigger } := by
  have h : db.dropTrigger true trigger = .ok db' := h
  rw [dropTrigger] at h
  by_cases hg : (db.triggers.any fun g => sameName g.name trigger) = true
  · rw [if_pos hg] at h
    cases h
    rfl
  · rw [if_neg hg] at h
    cases h
    have hall : (db.triggers.filter fun g => !sameName g.name trigger) = db.triggers := by
      rw [List.filter_eq_self]
      intro g hmem
      rw [Bool.not_eq_true']
      exact Bool.eq_false_iff.2 fun he => hg (List.any_eq_true.2 ⟨g, hmem, he⟩)
    rw [hall]

theorem run_dropCounter (h : db.run .dropCounter = .ok db') :
    db'.table? counterName = none ∧
      (∀ name, sameName name counterName = false → db'.table? name = db.table? name) ∧
      ∀ g ∈ db'.triggers, g ∈ db.triggers := by
  have h : db.dropTable true counterName = .ok db' := h
  rw [dropTable] at h
  by_cases ht : (db.table? counterName).isNone = true
  · rw [if_pos ht] at h
    cases h
    exact ⟨Option.isNone_iff_eq_none.1 ht, fun _ _ => rfl, fun _ hg => hg⟩
  · rw [if_neg ht] at h
    cases h
    refine ⟨SortedMap.get?_erase_self .., fun name hname => ?_, fun g hg => (List.mem_filter.1 hg).1⟩
    exact SortedMap.get?_erase_of_ne _ fun he => by simp [sameName, he] at hname

theorem run_setup (hkeyed : db.Keyed) (hquiet : db.triggersOn counterName .insert = [])
    (h₁ : db.run .createCounter = .ok db₁) (h₂ : db₁.run .seedCounter = .ok db₂) :
    (db.table? counterName = none → db₂ = db.setTable (counterAt 0)) ∧
      ∀ v, db.table? counterName = some (counterAt v) → db₂ = db := by
  obtain ⟨⟨d, n⟩, hchange, hd⟩ := bind_eq_ok.1 h₂
  cases hd
  obtain ⟨ht, rfl⟩ | ⟨ht, -, rfl⟩ := createTable_eq_ok (t := counterTable) h₁
  · refine ⟨fun hnone => ?_, fun v hv => ?_⟩
    · rw [show counterTable.name = counterName from rfl, hnone] at ht
      cases ht
    · have hseed := change_quiet (c := seed) hkeyed (requireNames_seed hv rfl "") hquiet
        (applyChange_seed_again hv)
      cases hchange.symm.trans hseed
      rfl
  · have hnew : (db.setTable counterTable).table? counterName = some counterTable := by
      rw [table?_setTable]
      exact if_pos (sameName_self _)
    have hseed := change_quiet (c := seed) (hkeyed.setTable counterTable)
      (requireNames_seed hnew rfl "") hquiet (applyChange_seed_new hnew)
    cases hchange.symm.trans hseed
    refine ⟨fun _ => ?_, fun v hv => ?_⟩
    · exact setTable_setTable (sameName_self _)
    · rw [show counterTable.name = counterName from rfl, hv] at ht
      cases ht

end ChangeFeed.Sql.Database
