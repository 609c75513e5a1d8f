import ChangeFeed.Json.Printer
import ChangeFeed.Json.Reader

namespace ChangeFeed.Json

def Closed (rest : List Char) : Prop := ∀ c ∈ rest.head?, c = ',' ∨ c = ']' ∨ c = '\x7d'

theorem head?_toDigits {n : Nat} (h : (Nat.toDigits 10 n).head? = some '0') : n = 0 := by
  induction n using Nat.strongRecOn with
  | ind n ih =>
      by_cases hn : n < 10
      · rw [Nat.toDigits_of_lt_base hn] at h
        have hdigit : ∀ k < 10, [Nat.digitChar k].head? = some '0' → k = 0 := by decide
        exact hdigit n hn h
      · have hsome : (Nat.toDigits 10 (n / 10)).head?.isSome :=
          List.isSome_head?.2 Nat.toDigits_ne_nil
        rw [Nat.toDigits_of_base_le (by decide) (by omega), List.head?_append,
          Option.or_of_isSome hsome] at h
        have := ih (n / 10) (by omega) h
        omega

theorem readDigits_toDigits (n : Nat) {rest : List Char} (hr : ∀ c ∈ rest.head?, c.isDigit = false) :
    readDigits (Nat.toDigits 10 n ++ rest) = some (Nat.toDigits 10 n, rest) := by
  have hall : ∀ c ∈ Nat.toDigits 10 n, c.isDigit = true :=
    fun c hc => Nat.isDigit_of_mem_toDigits (by decide) (by decide) hc
  have hrest : rest.takeWhile Char.isDigit = [] ∧ rest.dropWhile Char.isDigit = rest := by
    cases rest with
    | nil => exact ⟨rfl, rfl⟩
    | cons c rest => simp [hr c rfl]
  rw [readDigits, List.takeWhile_append_of_pos hall, List.dropWhile_append_of_pos hall, hrest.1,
    hrest.2, List.append_nil]
  exact if_neg Nat.toDigits_ne_nil

theorem readNumber_intText (n : Int) {rest : List Char} (hr : Closed rest) :
    readNumber (Data.intText n ++ rest) = some (.int n, rest) := by
  have hdigit : ∀ c ∈ rest.head?, c.isDigit = false := by
    intro c hc
    rcases hr c hc with rfl | rfl | rfl <;> rfl
  have hfraction : skipFraction rest = some (false, rest) := by
    rw [skipFraction]
    rintro rest' rfl
    have := hr '.' rfl
    revert this
    decide
  have hexponent : skipExponent rest = some (false, rest) := by
    cases rest with
    | nil => rfl
    | cons c rest =>
        have hc : ¬(c = 'e' ∨ c = 'E') := by rcases hr c rfl with rfl | rfl | rfl <;> decide
        simp [skipExponent, hc]
  have hread (n : Nat) := readDigits_toDigits n hdigit
  have hzero (n : Nat) :
      ¬((Nat.toDigits 10 n).head? = some '0' ∧ Nat.toDigits 10 n ≠ ['0']) := by
    rintro ⟨hhead, hne⟩
    rw [head?_toDigits hhead] at hne
    exact hne rfl
  have hvalue (n : Nat) : Nat.ofDigitChars 10 (Nat.toDigits 10 n) 0 = n :=
    Nat.ofDigitChars_toDigits (by decide) (by decide)
  cases n with
  | ofNat n =>
      have hplain : ∀ rest', Nat.toDigits 10 n ++ rest ≠ '-' :: rest' := by
        intro rest' he
        have hmem : '-' ∈ Nat.toDigits 10 n := by
          cases hd : Nat.toDigits 10 n with
          | nil => exact absurd hd Nat.toDigits_ne_nil
          | cons c cs =>
              rw [hd] at he
              cases he
              exact List.mem_cons_self ..
        exact absurd (Nat.isDigit_of_mem_toDigits (by decide) (by decide) hmem) (by decide)
      rw [Data.intText, readNumber]
      · simp [hread, hzero, hfraction, hexponent, hvalue]
      · exact hplain
  | negSucc n =>
      rw [Data.intText, List.cons_append, readNumber]
      simp [hread, hzero, hfraction, hexponent, hvalue, Int.negSucc_eq]

theorem hexValue?_hexDigits : ∀ n < 32, Text.hexValue? (Text.hexDigits 4 n) = some n := by
  decide

theorem stringUnits_escape (c : Char) (cs : List Char) :
    stringUnits (escape c ++ cs) = (stringUnits cs).map fun r => (c.toNat :: r.1, r.2) := by
  have hletter (e : Char) (he : e ≠ 'u') (hc : unescape e = some c) :
      stringUnits ('\\' :: e :: cs) = (stringUnits cs).map fun r => (c.toNat :: r.1, r.2) := by
    rw [stringUnits, hc]
    · cases stringUnits cs <;> rfl
    · intro a b c d rest h
      cases h
      exact absurd rfl he
  unfold escape
  split
  next h => exact hletter '"' (by decide) (by rw [h]; rfl)
  split
  next h => exact hletter '\\' (by decide) (by rw [h]; rfl)
  split
  next h => exact hletter 'b' (by decide) (by rw [h]; rfl)
  split
  next h => exact hletter 'f' (by decide) (by rw [h]; rfl)
  split
  next h => exact hletter 'n' (by decide) (by rw [h]; rfl)
  split
  next h => exact hletter 'r' (by decide) (by rw [h]; rfl)
  split
  next h => exact hletter 't' (by decide) (by rw [h]; rfl)
  split
  next h =>
    have hn := hexValue?_hexDigits c.toNat h
    simp only [Text.hexDigits, List.nil_append, List.cons_append] at hn ⊢
    rw [stringUnits, hn]
    cases stringUnits cs <;> rfl
  next hquote hslash _ _ _ _ _ hlow =>
    rw [List.singleton_append, stringUnits]
    · simp [hlow]
      cases stringUnits cs <;> rfl
    all_goals simp_all

theorem stringUnits_quoted (cs rest : List Char) :
    stringUnits (cs.flatMap escape ++ '"' :: rest) = some (cs.map Char.toNat, rest) := by
  induction cs with
  | nil => rfl
  | cons c cs ih => simp [stringUnits_escape, ih]

theorem joinUnits_toNat (cs : List Char) : joinUnits (cs.map Char.toNat) = some cs := by
  have hvalid (c : Char) : ¬(0xD800 ≤ c.toNat ∧ c.toNat < 0xE000) := by
    have := c.valid
    simp only [Char.toNat, UInt32.isValidChar, Nat.isValidChar] at this ⊢
    omega
  induction cs with
  | nil => rfl
  | cons c cs ih =>
      have hc := hvalid c
      cases cs with
      | nil => simp [joinUnits, hc]
      | cons d cs =>
          rw [List.map_cons] at ih
          rw [List.map_cons, List.map_cons, joinUnits, if_neg (by omega), if_neg (by omega), ih]
          simp

theorem readString_quoted (s : String) (rest : List Char) :
    readString (s.toList.flatMap escape ++ '"' :: rest) = some (some s, rest) := by
  simp [readString, stringUnits_quoted, joinUnits_toNat]

theorem closed_nil : Closed [] := by simp [Closed]

theorem closed_comma (rest : List Char) : Closed (',' :: rest) := by simp [Closed]

theorem closed_bracket (rest : List Char) : Closed (']' :: rest) := by simp [Closed]

theorem closed_brace (rest : List Char) : Closed ('\x7d' :: rest) := by simp [Closed]

theorem closed_renderItems (ds : List Data) (rest : List Char) : Closed (renderItems ds ++ rest) := by
  cases ds with
  | nil => exact closed_bracket rest
  | cons d ds => exact closed_comma _

theorem closed_renderMembers (ms : List (String × Data)) (rest : List Char) :
    Closed (renderMembers ms ++ rest) := by
  cases ms with
  | nil => exact closed_brace rest
  | cons m ms => exact closed_comma _

theorem skipBlanks_of_head {c : Char} (cs : List Char) (h : isBlank c = false) :
    skipBlanks (c :: cs) = c :: cs := by
  simp [skipBlanks, h]

def OfNumber (c : Char) : Prop := c = '-' ∨ c.isDigit = true

theorem OfNumber.not_blank {c : Char} (h : OfNumber c) : isBlank c = false := by
  rcases h with rfl | h
  · rfl
  · cases hb : isBlank c with
    | false => rfl
    | true =>
        simp only [isBlank, Bool.or_eq_true, decide_eq_true_iff] at hb
        rcases hb with ((rfl | rfl) | rfl) | rfl <;> cases h

theorem ofNumber_of_mem {n : Int} {c : Char} (h : c ∈ Data.intText n) : OfNumber c := by
  cases n with
  | ofNat n => exact .inr (Nat.isDigit_of_mem_toDigits (by decide) (by decide) h)
  | negSucc n =>
      rcases List.mem_cons.1 h with rfl | h
      · exact .inl rfl
      · exact .inr (Nat.isDigit_of_mem_toDigits (by decide) (by decide) h)

theorem exists_intText (n : Int) : ∃ c cs, Data.intText n = c :: cs ∧ OfNumber c := by
  have hne : Data.intText n ≠ [] := by
    cases n with
    | ofNat n => exact Nat.toDigits_ne_nil
    | negSucc n => exact List.cons_ne_nil _ _
  obtain ⟨c, cs, he⟩ := List.exists_cons_of_ne_nil hne
  exact ⟨c, cs, he, ofNumber_of_mem (he ▸ List.mem_cons_self ..)⟩

theorem exists_render (d : Data) : ∃ c cs, render d = c :: cs ∧ isBlank c = false ∧ c ≠ ']' := by
  match d with
  | .null | .bool true | .bool false | .text _ | .list [] | .list (_ :: _) | .record []
  | .record ((_, _) :: _) => exact ⟨_, _, render.eq_def _, rfl, by decide⟩
  | .int n =>
      obtain ⟨c, cs, he, hc⟩ := exists_intText n
      refine ⟨c, cs, by rw [render, he], hc.not_blank, ?_⟩
      rintro rfl
      rcases hc with h | h <;> cases h

theorem readValue_number {fuel : Nat} {c : Char} {cs : List Char} (h : OfNumber c) :
    readValue (fuel + 1) (c :: cs) = readNumber (c :: cs) := by
  have hother (k : Char) (hk : k ≠ '-' ∧ k.isDigit = false) : c ≠ k := by
    rintro rfl
    simp_all [OfNumber]
  rw [readValue, skipBlanks_of_head cs h.not_blank]
  split
  next he => exact absurd (List.cons.inj he).1 (hother 'n' (by decide))
  next he => exact absurd (List.cons.inj he).1 (hother 't' (by decide))
  next he => exact absurd (List.cons.inj he).1 (hother 'f' (by decide))
  next he => exact absurd (List.cons.inj he).1 (hother '"' (by decide))
  next he => exact absurd (List.cons.inj he).1 (hother '[' (by decide))
  next he => exact absurd (List.cons.inj he).1 (hother '\x7b' (by decide))
  next => rfl

theorem readValue_int {fuel : Nat} (n : Int) {rest : List Char} (hr : Closed rest) :
    readValue (fuel + 1) (Data.intText n ++ rest) = some (.int n, rest) := by
  have hnumber := readNumber_intText n hr
  obtain ⟨c, cs, he, hc⟩ := exists_intText n
  rw [he, List.cons_append] at hnumber ⊢
  rw [readValue_number hc, hnumber]

theorem readValue_bracket {fuel : Nat} {c : Char} {cs : List Char} {r : List Json × List Char}
    (hblank : isBlank c = false) (hc : c ≠ ']') (h : readItems fuel (c :: cs) = some r) :
    readValue (fuel + 1) ('[' :: c :: cs) = some (.array r.1, r.2) := by
  simp only [readValue, skipBlanks_of_head, show isBlank '[' = false from rfl, hblank]
  split
  next he => exact absurd (List.cons.inj he).1 hc
  next => rw [h, Option.map_some]

theorem readValue_brace {fuel : Nat} {cs : List Char}
    {r : List (Option String × Json) × List Char} (h : readMembers fuel ('"' :: cs) = some r) :
    readValue (fuel + 1) ('\x7b' :: '"' :: cs) = some (.object r.1, r.2) := by
  simp [readValue, skipBlanks_of_head, isBlank, h]

theorem readMembers_last {fuel : Nat} {name : String} {cs rest : List Char} {value : Json}
    (h : readValue fuel cs = some (value, '\x7d' :: rest)) :
    readMembers (fuel + 1) (quote name ++ ':' :: cs) = some ([(some name, value)], rest) := by
  simp [readMembers, quote, skipBlanks_of_head, isBlank, readString_quoted, h]

theorem readMembers_next {fuel : Nat} {name : String} {cs rest : List Char} {value : Json}
    {r : List (Option String × Json) × List Char} (h : readValue fuel cs = some (value, ',' :: rest))
    (hr : readMembers fuel rest = some r) :
    readMembers (fuel + 1) (quote name ++ ':' :: cs) = some ((some name, value) :: r.1, r.2) := by
  simp [readMembers, quote, skipBlanks_of_head, isBlank, readString_quoted, h, hr]

theorem length_render_pos (d : Data) : 0 < (render d).length := by
  obtain ⟨c, cs, he, -⟩ := exists_render d
  simp [he]

theorem length_renderItems_pos (ds : List Data) : 0 < (renderItems ds).length := by
  cases ds <;> simp [renderItems]

theorem length_renderMembers_pos (ms : List (String × Data)) : 0 < (renderMembers ms).length := by
  cases ms <;> simp [renderMembers]

mutual

theorem readValue_render : ∀ (fuel : Nat) (d : Data) {rest : List Char},
    2 * (render d).length ≤ fuel → Closed rest →
      readValue fuel (render d ++ rest) = some (ofData d, rest)
  | 0, d, _, hf, _ => by
      have hpos := length_render_pos d
      omega
  | fuel + 1, .null, _, _, _ => by
      simp [render, readValue, skipBlanks_of_head, isBlank, ofData]
  | fuel + 1, .bool true, _, _, _ => by
      simp [render, readValue, skipBlanks_of_head, isBlank, ofData]
  | fuel + 1, .bool false, _, _, _ => by
      simp [render, readValue, skipBlanks_of_head, isBlank, ofData]
  | fuel + 1, .int n, _, _, hr => by
      rw [render, ofData]
      exact readValue_int n hr
  | fuel + 1, .text s, _, _, _ => by
      simp [render, quote, readValue, skipBlanks_of_head, isBlank, ofData, readString_quoted]
  | fuel + 1, .list [], _, _, _ => by
      simp [render, readValue, skipBlanks_of_head, isBlank, ofData, ofItems]
  | fuel + 1, .list (d :: ds), rest, hf, _ => by
      obtain ⟨c, cs, he, hblank, hc⟩ := exists_render d
      have hitems : readItems fuel (render d ++ renderItems ds ++ rest) =
          some (ofData d :: ofItems ds, rest) := by
        apply readItems_render fuel
        simp only [render, List.length_cons, List.length_append] at hf ⊢
        omega
      rw [render, ofData, ofItems]
      rw [he, List.cons_append, List.cons_append] at hitems ⊢
      exact readValue_bracket hblank hc hitems
  | fuel + 1, .record [], _, _, _ => by
      simp [render, readValue, skipBlanks_of_head, isBlank, ofData, ofMembers]
  | fuel + 1, .record ((name, d) :: ms), rest, hf, _ => by
      have hmembers : readMembers fuel (quote name ++ ':' :: render d ++ renderMembers ms ++ rest) =
          some ((some name, ofData d) :: ofMembers ms, rest) := by
        apply readMembers_render fuel
        simp only [render, List.length_cons, List.length_append] at hf ⊢
        omega
      rw [render, ofData, ofMembers]
      exact readValue_brace hmembers

theorem readItems_render : ∀ (fuel : Nat) (d : Data) (ds : List Data) {rest : List Char},
    2 * (render d ++ renderItems ds).length ≤ fuel →
      readItems fuel (render d ++ renderItems ds ++ rest) = some (ofData d :: ofItems ds, rest)
  | 0, d, _, _, hf => by
      have hpos := length_render_pos d
      rw [List.length_append] at hf
      omega
  | fuel + 1, d, ds, rest, hf => by
      have hpos := length_render_pos d
      have hpos' := length_renderItems_pos ds
      rw [List.length_append] at hf
      have hvalue := readValue_render fuel d (by omega) (closed_renderItems ds rest)
      rw [List.append_assoc, readItems, hvalue]
      cases ds with
      | nil => simp [renderItems, skipBlanks_of_head, isBlank, ofItems]
      | cons d' ds =>
          have hitems : readItems fuel (render d' ++ renderItems ds ++ rest) =
              some (ofData d' :: ofItems ds, rest) := by
            apply readItems_render fuel
            simp only [renderItems, List.length_cons, List.length_append] at hf ⊢
            omega
          rw [List.append_assoc] at hitems
          simp [renderItems, skipBlanks_of_head, isBlank, ofItems, hitems]

theorem readMembers_render : ∀ (fuel : Nat) (name : String) (d : Data) (ms : List (String × Data))
    {rest : List Char}, 2 * (quote name ++ ':' :: render d ++ renderMembers ms).length ≤ fuel →
      readMembers fuel (quote name ++ ':' :: render d ++ renderMembers ms ++ rest) =
        some ((some name, ofData d) :: ofMembers ms, rest)
  | 0, name, _, _, _, hf => by simp [quote] at hf
  | fuel + 1, name, d, ms, rest, hf => by
      have hpos := length_renderMembers_pos ms
      simp only [List.length_append, List.length_cons] at hf
      have hvalue := readValue_render fuel d (by omega) (closed_renderMembers ms rest)
      have hassoc : quote name ++ ':' :: render d ++ renderMembers ms ++ rest =
          quote name ++ ':' :: (render d ++ (renderMembers ms ++ rest)) := by
        simp only [List.append_assoc, List.cons_append]
      rw [hassoc]
      cases ms with
      | nil => exact readMembers_last hvalue
      | cons m ms =>
          have hmembers : readMembers fuel
              (quote m.1 ++ ':' :: render m.2 ++ renderMembers ms ++ rest) =
                some ((some m.1, ofData m.2) :: ofMembers ms, rest) := by
            apply readMembers_render fuel
            simp only [renderMembers, List.length_cons, List.length_append] at hf ⊢
            omega
          simp only [renderMembers, List.append_assoc, List.cons_append] at hvalue hmembers ⊢
          exact readMembers_next hvalue hmembers

end

theorem parse_print (d : Data) : parse (print d) = some (ofData d) := by
  have hread := readValue_render (2 * (render d).length + 1) d (Nat.le_succ _) closed_nil
  have hchars : (print d).toList = render d := String.toList_ofList
  rw [List.append_nil] at hread
  rw [parse, hchars, hread]
  rfl

end ChangeFeed.Json
