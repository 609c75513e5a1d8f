import ChangeFeed.Capture.Ddl
import ChangeFeed.Capture.Identifier
import ChangeFeed.Sql.Table

namespace ChangeFeed

open Sql

theorem toLower_toLower {c : Char} (h : c.toNat < 128) : c.toLower.toLower = c.toLower := by
  have hall : ∀ n < 128, (Char.ofNat n).toLower.toLower = (Char.ofNat n).toLower := by decide
  have hc := hall c.toNat h
  rwa [Char.ofNat_toNat] at hc

theorem lowerAfter_ascii {before cs : List Char} (h : ∀ c ∈ cs, c.toNat < 128) :
    Text.lowerAfter before cs = cs.map Char.toLower := by
  induction cs generalizing before with
  | nil => rfl
  | cons c cs ih =>
      obtain ⟨hc, hcs⟩ := List.forall_mem_cons.1 h
      have hsigma : c ≠ 'Σ' := by
        rintro rfl
        exact absurd hc (by decide)
      rw [Text.lowerAfter, if_neg hsigma, ih hcs, Text.lowerChar, if_pos hc]
      rfl

namespace Identifier

theorem ascii_of_isPart {c : Char} (h : isPart c = true) : c.toNat < 128 := by
  simp only [isPart, Char.isAlphanum] at h
  delta Char.isAlpha Char.isUpper Char.isLower at h
  simp only [Char.isDigit, Bool.or_eq_true, Bool.and_eq_true, decide_eq_true_iff, beq_iff_eq,
    UInt32.le_iff_toNat_le] at h
  have hn : c.val.toNat = c.toNat := rfl
  have hz : 'z'.val.toNat = 122 := rfl
  have hZ : 'Z'.val.toNat = 90 := rfl
  have h9 : '9'.val.toNat = 57 := rfl
  rcases h with ((h | h) | h) | rfl
  · omega
  · omega
  · omega
  · decide

theorem ascii_of_valid {name : String} (h : valid name = true) : ∀ c ∈ name.toList, c.toNat < 128 := by
  rw [valid] at h
  cases hcs : name.toList with
  | nil => simp
  | cons c cs =>
      rw [hcs, validChars, Bool.and_eq_true, List.all_eq_true] at h
      refine List.forall_mem_cons.2 ⟨?_, fun d hd => ascii_of_isPart (h.2 d hd)⟩
      apply ascii_of_isPart
      have hstart := h.1
      simp only [isStart, Bool.or_eq_true] at hstart
      simp only [isPart, Char.isAlphanum, Bool.or_eq_true]
      exact hstart.imp_left .inl

end Identifier

theorem toList_foldCase_triggerName {table : String} (h : Identifier.valid table = true)
    (e : EventType) : (foldCase (triggerName table e)).toList =
      "isync_".toList ++ (foldCase table).toList ++ ("_".toList ++ e.name.toList) := by
  have hascii := Identifier.ascii_of_valid h
  have hlower : (Text.lowercase table).toList = table.toList.map Char.toLower := by
    rw [Text.lowercase, lowerAfter_ascii hascii, String.toList_ofList]
  have htwice : (table.toList.map Char.toLower).map Char.toLower = table.toList.map Char.toLower := by
    rw [List.map_map]
    exact List.map_congr_left fun c hc => toLower_toLower (hascii c hc)
  have hname : e.name.toList.map Char.toLower = e.name.toList := by cases e <;> decide
  have hprefix : "isync_".toList.map Char.toLower = "isync_".toList := by decide
  have hbar : "_".toList.map Char.toLower = "_".toList := by decide
  have htext : triggerName table e = "isync_" ++ Text.lowercase table ++ ("_" ++ e.name) := by
    rw [← String.append_assoc]
    rfl
  rw [htext]
  simp only [foldCase, String.toList_map, String.toList_append, List.map_append, hlower, htwice, hname,
    hprefix, hbar]

theorem triggerName_inj {a b : String} (ha : Identifier.valid a = true)
    (hb : Identifier.valid b = true) {e e' : EventType}
    (h : sameName (triggerName a e) (triggerName b e') = true) : sameName a b = true ∧ e = e' := by
  have hlist := congrArg String.toList (of_decide_eq_true h)
  rw [toList_foldCase_triggerName ha, toList_foldCase_triggerName hb] at hlist
  -- All kinds have names of one length, so the texts come apart before the last bar.
  have hlength : ("_".toList ++ e.name.toList).length = ("_".toList ++ e'.name.toList).length := by
    cases e <;> cases e' <;> decide
  obtain ⟨hfront, hback⟩ := List.append_inj' hlist hlength
  refine ⟨decide_eq_true (String.toList_inj.1 (List.append_cancel_left hfront)), ?_⟩
  have hname := String.toList_inj.1 (List.append_cancel_left hback)
  cases e <;> cases e' <;> first | rfl | exact absurd hname (by decide)

end ChangeFeed
