import ChangeFeed.Proofs.Log.Tables
import ChangeFeed.Proofs.Sql.Change
import ChangeFeed.Sql.Capture

namespace ChangeFeed

namespace Decimal

theorem signed_natAbs (n : Int) :
    (if n < 0 then -Int.ofNat n.natAbs else Int.ofNat n.natAbs) = n := by
  rw [Int.ofNat_eq_natCast]
  omega

theorem multiple_ofInt (n : Int) : (ofInt n).multiple 0 = n := by
  simp only [multiple, ofInt, decide_eq_true_eq, Int.sub_self, Int.toNat_zero, Nat.pow_eq,
    Nat.pow_zero, Nat.mul_one]
  exact signed_natAbs n

theorem add_ofInt (a b : Int) : (ofInt a).add (ofInt b) = ofInt (a + b) := by
  have h0 (n : Int) : (ofInt n).exponent = 0 := rfl
  simp only [add, h0, Int.min_self, multiple_ofInt]
  rfl

theorem stripZeros_eq (fuel digits : Nat) (exponent : Int) (h : 0 ≤ exponent) :
    0 ≤ (stripZeros fuel digits exponent).2 ∧
      (stripZeros fuel digits exponent).1 * Nat.pow 10 (stripZeros fuel digits exponent).2.toNat =
        digits * Nat.pow 10 exponent.toNat := by
  induction fuel generalizing digits exponent with
  | zero => exact ⟨h, rfl⟩
  | succ fuel ih =>
      rw [stripZeros]
      split
      next hd =>
        obtain ⟨hpos, heq⟩ := ih (digits / 10) (exponent + 1) (by omega)
        refine ⟨hpos, heq.trans ?_⟩
        rw [show (exponent + 1).toNat = exponent.toNat + 1 by omega, Nat.pow_eq, Nat.pow_succ',
          ← Nat.mul_assoc, Nat.div_mul_cancel (Nat.dvd_of_mod_eq_zero hd), Nat.pow_eq]
      next => exact ⟨h, rfl⟩

theorem toInt?_ofInt (n : Int) : (ofInt n).toInt? = some n := by
  by_cases hn : n = 0
  · subst hn
    rfl
  · have hd : (ofInt n).digits ≠ 0 := Int.natAbs_ne_zero.2 hn
    obtain ⟨hpos, heq⟩ :=
      stripZeros_eq ((ofInt n).digits.log2 + 1) (ofInt n).digits (ofInt n).exponent (Int.le_refl 0)
    simp only [toInt?, normalize, if_neg hd, if_pos hpos, heq]
    simp only [ofInt, Int.toNat_zero, Nat.pow_eq, Nat.pow_zero, Nat.mul_one, decide_eq_true_eq]
    exact congrArg some (signed_natAbs n)

theorem leading_ofInt_lt {n : Int} {k : Nat} (hk : 0 < k) (h : n.natAbs < Nat.pow 10 k) :
    (ofInt n).leading < k := by
  have hlen := (Nat.length_toDigits_le_iff (by decide) hk).2 h
  simp only [leading, digitText, ofInt]
  omega

end Decimal

namespace Sql

theorem Value.ofNumber_ofInt (n : Int64) : ofNumber (.ofInt n.toInt) = some (integer n) := by
  have hmin := n.minValue_le_toInt
  have hmax := n.toInt_le
  have hlead : (Decimal.ofInt n.toInt).leading < (19 : Nat) := by
    apply Decimal.leading_ofInt_lt (by decide)
    have : Int64.minValue.toInt = -2 ^ 63 := rfl
    have : Int64.maxValue.toInt = 2 ^ 63 - 1 := rfl
    have : Nat.pow 10 19 = 10000000000000000000 := rfl
    omega
  rw [ofNumber, if_neg (by omega), Decimal.toInt?_ofInt]
  simp only [if_pos (And.intro hmin hmax), Int64.ofInt_toInt]

theorem Value.plusOne_integer {n : Int64} (h : n ≠ Int64.maxValue) :
    (integer n).plusOne = integer (n + 1) := by
  rw [plusOne, Decimal.add_ofInt, ← MemoryLog.toInt_add_one h, ofNumber_ofInt]
  rfl

def counterAt (v : Int64) : Table :=
  { counterTable with rows := .ofList [(1, [.integer 1, .integer v])] }

@[simp] theorem name_counterAt (v : Int64) : (counterAt v).name = counterName := rfl

@[simp] theorem columns_counterAt (v : Int64) : (counterAt v).columns = counterTable.columns := rfl

theorem read_counterAt (v : Int64) :
    (counterAt v).read 1 [.integer 1, .integer v] "id" = .integer 1 ∧
      (counterAt v).read 1 [.integer 1, .integer v] "value" = .integer v := by
  have hne : foldCase "id" ≠ foldCase "value" := by decide +kernel
  constructor
  · simp [Table.read, Table.valueIn, counterTable]
  · simp [Table.read, Table.valueIn, counterTable, hne]

theorem select_counterAt (v : Int64) : (counterAt v).select [("id", [.integer 1])] = [1] := by
  have hrows : (counterAt v).rows.toList = [(1, [.integer 1, .integer v])] := rfl
  have haffinity : (counterAt v).affinityOf "id" = .numeric := by
    simp [Table.affinityOf, Table.column?, counterTable]
  simp [Table.select, hrows, Table.satisfies, (read_counterAt v).1, haffinity]

section

variable {t : Table} (ht : t.columns = counterTable.columns)
include ht

theorem convert_counter (v : Int64) :
    t.convert 1 [.integer 1, .integer v] = [.integer 1, .integer v] := by
  simp [Table.convert, ht, counterTable]

theorem checkRow_counter (v : Int64) :
    t.checkRow (t.convert 1 [.integer 1, .integer v]) = .ok () := by
  rw [convert_counter ht]
  apply Table.checkRow_ok <;> simp [ht, counterTable]

theorem checkUnique_counter {old : Option Int64}
    (hid : old = some 1 ∨ t.rows.contains 1 = false) (row : Row) :
    t.checkUnique old 1 row = .ok () := by
  apply Table.checkUnique_ok hid
  simp [ht, counterTable]

end

theorem replace_counterAt {v : Int64} (h : v ≠ Int64.maxValue) :
    (counterAt v).replace 1
        (Database.assigned (counterAt v) [.integer 1, .integer v] [("value", .increment)]) =
      .ok (counterAt (v + 1), 1, [.integer 1, .integer (v + 1)]) := by
  have hne : foldCase "value" ≠ foldCase "id" := by decide +kernel
  have hassigned :
      Database.assigned (counterAt v) [.integer 1, .integer v] [("value", .increment)] =
        [.integer 1, .integer (v + 1)] := by
    simp [Database.assigned, counterTable, hne, Value.plusOne_integer h]
  have hcolumns := columns_counterAt v
  have hid : ((counterAt v).columns.zip [Value.integer 1, .integer (v + 1)]).find? (·.1.isRowId) =
      some (⟨"id", .numeric, false, false, true, some 1⟩, Value.integer 1) := rfl
  rw [hassigned, Table.replace_ok hid nofun rfl (checkRow_counter hcolumns (v + 1))
    (checkUnique_counter hcolumns (.inl rfl) _), convert_counter hcolumns]
  rfl

theorem insert_counterTable :
    counterTable.insert [.integer 1, .integer 0] = .ok (counterAt 0, 1, [.integer 1, .integer 0]) := by
  rw [Table.insert_ok rfl (checkRow_counter rfl 0) (checkUnique_counter rfl (.inr rfl) _),
    convert_counter rfl]
  rfl

theorem insert_counterAt (v : Int64) : (counterAt v).insert [.integer 1, .integer 0] =
    .error (.unique counterName "id") := by
  have hid : (counterAt v).chooseId [.integer 1, .integer 0] = .ok 1 := rfl
  rw [Table.insert, hid]
  simp only [bind, Except.bind, checkRow_counter (columns_counterAt v)]
  rfl

namespace Database

variable {db : Database} {v : Int64}

theorem counterValue_eq (hc : db.table? counterName = some (counterAt v)) :
    db.counterValue = .integer v := by
  rw [counterValue, hc]
  simp only [select_counterAt]
  exact (read_counterAt v).2

theorem hasColumn_counter {t : Table} (ht : t.columns = counterTable.columns) :
    t.hasColumn "id" = true ∧ t.hasColumn "value" = true := by
  constructor
  · exact Table.hasColumn_of_mem (c := ⟨"id", .numeric, false, false, true, some 1⟩)
      (by simp [ht, counterTable])
  · exact Table.hasColumn_of_mem (c := ⟨"value", .numeric, true, false, false, none⟩)
      (by simp [ht, counterTable])

theorem requireNames_countUp (hc : db.table? counterName = some (counterAt v)) (qualifier : String) :
    db.requireNames qualifier countUp = .ok (counterAt v) := by
  apply requireNames_update hc
  simp [hasColumn_counter (columns_counterAt v)]

theorem requireNames_seed {t : Table} (hc : db.table? counterName = some t)
    (ht : t.columns = counterTable.columns) (qualifier : String) :
    db.requireNames qualifier seed = .ok t := by
  apply requireNames_insert hc
  simp [hasColumn_counter ht]

theorem applyChange_countUp (hc : db.table? counterName = some (counterAt v))
    (h : v ≠ Int64.maxValue) :
    applyChange nothing db countUp = .ok (db.setTable (counterAt (v + 1)), 1) := by
  have hfind : db.find "" counterName = .ok (counterAt v) := find_of_some hc ""
  have hrow : (counterAt v).rows.get? 1 = some [.integer 1, .integer v] := rfl
  have hstep : updateRow nothing counterName [("value", .increment)] (db, 0) 1 =
      .ok (db.setTable (counterAt (v + 1)), 1) := by
    simp only [updateRow, hfind, bind, Except.bind, hrow, replace_counterAt h]
    rfl
  have hfind' : db.find "" countUp.table = .ok (counterAt v) := hfind
  rw [applyChange, hfind']
  show ((counterAt v).select [("id", [.integer 1])]).foldlM (updateRow nothing _ _) (db, 0) = _
  rw [select_counterAt, List.foldlM_cons, hstep]
  rfl

theorem seed_values {t : Table} (ht : t.columns = counterTable.columns) :
    t.columns.map (cellFor [("id", .integer 1), ("value", .integer 0)]) =
      [.integer 1, .integer 0] := by
  have hne : foldCase "id" ≠ foldCase "value" := by decide +kernel
  simp [ht, counterTable, cellFor, hne]

theorem applyChange_seed_new (hc : db.table? counterName = some counterTable) :
    applyChange nothing db seed = .ok (db.setTable (counterAt 0), 1) :=
  applyChange_insert hc (by rw [seed_values rfl, insert_counterTable]) rfl true

theorem applyChange_seed_again (hc : db.table? counterName = some (counterAt v)) :
    applyChange nothing db seed = .ok (db, 0) :=
  applyChange_insert_ignored hc (by rw [seed_values (columns_counterAt v), insert_counterAt]) rfl

end Database

end Sql

end ChangeFeed
