import ChangeFeed.Proofs.Codec
import ChangeFeed.Proofs.Json
import ChangeFeed.Proofs.Yaml.Composer
import ChangeFeed.Yaml.Tree

namespace ChangeFeed.Yaml

theorem digitsValue?_toDigits (n : Nat) : digitsValue? 10 (Nat.toDigits 10 n) = some n := by
  have hdigit : ∀ d < 10, Text.hexDigit? (Nat.digitChar d) = some d := by decide
  rw [digitsValue?, List.isEmpty_eq_false_iff.2 Nat.toDigits_ne_nil, if_neg (by decide)]
  induction n using Nat.strongRecOn with
  | ind n ih =>
      by_cases hn : n < 10
      · simp [Nat.toDigits_of_lt_base hn, hdigit n hn, hn]
      · have hlt : n % 10 < 10 := Nat.mod_lt n (by decide)
        rw [Nat.toDigits_of_base_le (by decide) (by omega), List.foldlM_append, ih (n / 10) (by omega)]
        simp [hdigit _ hlt, hlt]
        omega

theorem natural?_toDigits (n : Nat) : natural? (Nat.toDigits 10 n) = some n := by
  have hvalue := digitsValue?_toDigits n
  cases hn : Nat.toDigits 10 n with
  | nil => exact absurd hn Nat.toDigits_ne_nil
  | cons c cs =>
      rw [hn] at hvalue
      have hdigit : c.isDigit = true :=
        Nat.isDigit_of_mem_toDigits (by decide) (by decide) (hn ▸ List.mem_cons_self ..)
      have hzero : c = '0' → cs = [] := by
        rintro rfl
        obtain rfl : n = 0 := Json.head?_toDigits (by rw [hn]; rfl)
        exact List.tail_eq_of_cons_eq hn.symm
      have hplus : dropPlus (c :: cs) = c :: cs := by
        rw [dropPlus]
        rintro rest ⟨rfl, -⟩
        cases hdigit
      have hsign : dropSign (c :: cs) = c :: cs := by
        rw [dropSign, dropMinus]
        · rintro rest ⟨rfl, -⟩
          cases hdigit
        · rintro rest ⟨rfl, -⟩
          cases hdigit
      have hpadded : isZeroPadded (c :: cs) = false := by
        rw [isZeroPadded, hsign]
        split
        next he =>
          cases he
          cases hzero rfl
        next => rfl
      rw [natural?, hplus, magnitude?, hpadded, if_neg (by decide), hvalue]
      all_goals
        rintro rest ⟨⟩
        cases hzero rfl

theorem Node.ofItems_eq (ds : List Data) : Node.ofItems ds = ds.map Node.ofData := by
  induction ds with
  | nil => rfl
  | cons d ds ih => rw [Node.ofItems, ih, List.map_cons]

theorem Node.ofMembers_eq (ms : List (String × Data)) :
    Node.ofMembers ms = ms.map fun m => (.scalar none true m.1, Node.ofData m.2) := by
  induction ms with
  | nil => rfl
  | cons member ms ih => rw [Node.ofMembers, ih, List.map_cons]

theorem Node.natural?_nothing {plain : Bool} {s : String} (h : isNothing plain s = true) :
    Yaml.natural? s.toList = none := by
  simp only [isNothing, isNullWord, String.ofList_toList, Bool.and_eq_true, Bool.or_eq_true,
    decide_eq_true_eq, List.mem_cons, List.not_mem_nil, or_false] at h
  rcases h.2 with rfl | rfl | rfl | rfl | rfl <;> decide

theorem Node.ofData_ofNat (n : Nat) :
    Node.ofData (.ofNat n) = .scalar none true (String.ofList (Nat.toDigits 10 n)) := by
  rw [Data.ofNat, Node.ofData]
  rfl

theorem faithful : Tree.Faithful Node.ofData where
  text s := by rw [Node.ofData]; rfl
  choice s := by rw [Node.ofData]; rfl
  natural n := by
    rw [Node.ofData_ofNat]
    show natural? (String.ofList (Nat.toDigits 10 n)).toList = some n
    rw [String.toList_ofList, natural?_toDigits]
  absent := by rw [Node.ofData]; rfl
  present n := by
    rw [Node.ofData_ofNat]
    refine if_neg fun hnothing => ?_
    have hnone := Node.natural?_nothing hnothing
    rw [String.toList_ofList, natural?_toDigits] at hnone
    cases hnone
  items ds := by
    rw [Node.ofData, Node.ofItems_eq]
    rfl
  members ms := by
    rw [Node.ofData, Node.ofMembers_eq]
    show some ((ms.map fun m => (Node.scalar none true m.1, Node.ofData m.2)).map _) = _
    rw [List.map_map]
    rfl
  named ms := by rw [Node.ofData]; rfl

end ChangeFeed.Yaml
