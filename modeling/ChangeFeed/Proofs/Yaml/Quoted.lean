import ChangeFeed.Proofs.Yaml.Cursor

namespace ChangeFeed.Yaml.Quoted

open Printer (isPrintable isSpace hasNeighbours spaces escape shortEscapes indented)

theorem hexDigit?_upper : ∀ d < 16, Text.hexDigit? (Nat.digitChar d).toUpper = some d := by
  decide

theorem length_hexDigits (size n : Nat) : (Text.hexDigits size n).length = size := by
  induction size generalizing n with
  | zero => rfl
  | succ size ih => rw [Text.hexDigits, List.length_append, ih, List.length_singleton]

theorem hexValue?_upper (size n : Nat) (h : n < Nat.pow 16 size) :
    Text.hexValue? ((Text.hexDigits size n).map Char.toUpper) = some n := by
  induction size generalizing n with
  | zero =>
      obtain rfl : n = 0 := by simpa using h
      rfl
  | succ size ih =>
      have hpow : n < 16 * Nat.pow 16 size := Nat.mul_comm .. ▸ h
      have hhigh := ih (n / 16) (Nat.div_lt_of_lt_mul hpow)
      have hlow := hexDigit?_upper (n % 16) (Nat.mod_lt _ (by decide))
      rw [Text.hexValue?] at hhigh ⊢
      rw [Text.hexDigits, List.map_append, List.foldlM_append, hhigh]
      simp [hlow]
      omega

theorem charOf?_toNat (c : Char) : charOf? c.toNat = some c := by
  rw [charOf?, if_pos (show c.toNat.isValidChar from c.valid), Char.ofNat_toNat]

theorem readEscape_short {c letter : Char} (h : shortEscapes.lookup c = some letter) (rest : List Char) :
    isBreak letter = false ∧ readEscape (letter :: rest) = some (c, 1) := by
  obtain ⟨before, after, he, -⟩ := List.lookup_eq_some_iff.1 h
  have hmem : (c, letter) ∈ shortEscapes := by simp [he]
  have hall : ∀ p ∈ shortEscapes, isBreak p.2 = false ∧ simpleEscapes.lookup p.2 = some p.1 := by
    decide
  obtain ⟨hbreak, hlookup⟩ := hall _ hmem
  exact ⟨hbreak, by rw [readEscape, hlookup]⟩

theorem readEscape_code {c letter : Char} {size : Nat} (hsimple : simpleEscapes.lookup letter = none)
    (hcode : codeEscapes.lookup letter = some size) (hc : c.toNat < Nat.pow 16 size) (rest : List Char) :
    readEscape (letter :: (Text.hexDigits size c.toNat).map Char.toUpper ++ rest) =
      some (c, size + 1) := by
  have hlength : ((Text.hexDigits size c.toNat).map Char.toUpper).length = size := by
    rw [List.length_map, length_hexDigits]
  have htake : ((Text.hexDigits size c.toNat).map Char.toUpper ++ rest).take size =
      (Text.hexDigits size c.toNat).map Char.toUpper := List.take_left' hlength
  rw [List.cons_append, readEscape, hsimple]
  dsimp only
  rw [hcode]
  dsimp only [Option.bind_eq_bind, Option.bind_some]
  rw [htake, if_neg (by simp [hlength]), hexValue?_upper size _ hc]
  simp [charOf?_toNat]

theorem escape_cases (c : Char) :
    (escape c = [c] ∧ isPrintable c = true ∧ isBreak c = false ∧ c ≠ '"' ∧ c ≠ '\\') ∨
      ∃ code, escape c = '\\' :: code ∧ (∀ rest, Stops isBreak (code ++ rest)) ∧
        ∀ rest, readEscape (code ++ rest) = some (c, code.length) := by
  rw [escape]
  split
  next h =>
    simp only [Bool.and_eq_true, Bool.not_eq_true', bne_iff_ne] at h
    exact .inl ⟨rfl, h.1.1.1, h.1.1.2, h.1.2, h.2⟩
  next h =>
    refine .inr ?_
    cases hl : shortEscapes.lookup c with
    | some letter =>
        refine ⟨[letter], rfl, fun rest => ?_, fun rest => (readEscape_short hl rest).2⟩
        exact stops_cons.2 (readEscape_short hl rest).1
    | none =>
        have hmax : c.toNat < 0x110000 := by
          have := c.valid
          simp only [UInt32.isValidChar, Nat.isValidChar, Char.toNat] at this ⊢
          omega
        have hcode (letter : Char) (size : Nat) (hbreak : isBreak letter = false)
            (hsimple : simpleEscapes.lookup letter = none)
            (hcode : codeEscapes.lookup letter = some size) (hc : c.toNat < Nat.pow 16 size) :
            ∃ code, '\\' :: letter :: (Text.hexDigits size c.toNat).map Char.toUpper = '\\' :: code ∧
              (∀ rest, Stops isBreak (code ++ rest)) ∧
              ∀ rest, readEscape (code ++ rest) = some (c, code.length) := by
          refine ⟨_, rfl, fun rest => stops_cons.2 hbreak, fun rest => ?_⟩
          rw [readEscape_code hsimple hcode hc, List.length_cons, List.length_map, length_hexDigits]
        dsimp only
        split
        next h => exact hcode 'x' 2 rfl rfl rfl (Nat.lt_of_le_of_lt h (by decide))
        next =>
          split
          next h => exact hcode 'u' 4 rfl rfl rfl (Nat.lt_of_le_of_lt h (by decide))
          next => exact hcode 'U' 8 rfl rfl rfl (Nat.lt_trans hmax (by decide))

theorem inked_escape {c : Char} (hc : c ≠ ' ') (rest : List Char) : Inked (escape c ++ rest) := by
  rcases escape_cases c with ⟨he, hp, hbreak, -⟩ | ⟨code, he, -⟩
  · rw [he]
    exact ⟨stops_cons.2 (isBlank_of_ne hp hc), stops_cons.2 hbreak⟩
  · rw [he]
    exact ⟨stops_cons.2 rfl, stops_cons.2 rfl⟩

theorem length_le_escape (s : List Char) : s.length ≤ (s.flatMap escape).length := by
  induction s with
  | nil => exact Nat.zero_le _
  | cons c s ih =>
      have hpos : 0 < (escape c).length := by
        rcases escape_cases c with ⟨he, -⟩ | ⟨code, he, -⟩ <;> simp [he]
      rw [List.flatMap_cons, List.length_append, List.length_cons]
      omega

theorem exists_first (p : Char → Bool) {x : Char} (cs : List Char) (hx : p x = true) :
    ∃ xs s, x :: cs = (x :: xs) ++ s ∧ (∀ y ∈ x :: xs, p y = true) ∧ Stops p s := by
  obtain ⟨xs, s, he, hxs, hs⟩ := exists_run p cs
  exact ⟨xs, s, by rw [he, List.cons_append], List.forall_mem_cons.2 ⟨hx, hxs⟩, hs⟩

section

variable {fuel : Nat} {c : Cursor} {rest : List Char} (hcolumn : 0 < c.column)
include hcolumn

theorem readDouble_end (h : c.rest = '"' :: rest) : readDouble (fuel + 1) c = some ([], c.skip 1) := by
  simp [readDouble, Cursor.atAnyMarker_of_column hcolumn, h]

theorem readDouble_escape {x : Char} {code : List Char} (h : c.rest = '\\' :: (code ++ rest))
    (hbreak : Stops isBreak (code ++ rest)) (hread : readEscape (code ++ rest) = some (x, code.length)) :
    readDouble (fuel + 1) c =
      (readDouble fuel (c.skip (code.length + 1))).map fun r => (x :: r.1, r.2) := by
  have hstop : (c.skip 1).takeBreak = none := Cursor.takeBreak_stops (by simpa [h] using hbreak)
  rw [readDouble, Cursor.atAnyMarker_of_column hcolumn, if_neg (by simp), h]
  simp only [hstop, hread]
  cases hd : readDouble fuel (c.skip (code.length + 1)) <;> simp [hd]

theorem readDouble_other {x : Char} (h : c.rest = x :: rest) (hquote : x ≠ '"') (hslash : x ≠ '\\') :
    readDouble (fuel + 1) c =
      if isBlank x || isBreak x then
        (readDouble fuel (readGap c).next).map fun r => ((readGap c).folded ++ r.1, r.2)
      else (readDouble fuel (c.skip 1)).map fun r => (x :: r.1, r.2) := by
  rw [readDouble, Cursor.atAnyMarker_of_column hcolumn, if_neg (by simp), h]
  split
  next he => cases he
  next he => exact absurd (List.cons.inj he).1 hquote
  next he => exact absurd (List.cons.inj he).1 hslash
  next he =>
    obtain ⟨rfl, -⟩ := List.cons.inj he
    rfl

theorem readDouble_blanks {blanks s : List Char} (hblanks : ∀ x ∈ ' ' :: blanks, (x == ' ') = true)
    (hs : Stops (· == ' ') s) (hc : c.rest = (' ' :: blanks ++ s).flatMap escape ++ '"' :: rest) :
    ∃ next, next.rest = s.flatMap escape ++ '"' :: rest ∧ 0 < next.column ∧ ∀ fuel,
      readDouble (fuel + 1) c = (readDouble fuel next).map fun r => (' ' :: blanks ++ r.1, r.2) := by
  have hsame : (' ' :: blanks).flatMap escape = ' ' :: blanks := flatMap_eq_self fun b hb => by
    rw [beq_iff_eq.1 (hblanks b hb)]
    rfl
  have hr : c.rest = ' ' :: blanks ++ (s.flatMap escape ++ '"' :: rest) := by
    rw [hc, List.flatMap_append, hsame, List.append_assoc]
  have hink : Inked (s.flatMap escape ++ '"' :: rest) := by
    cases s with
    | nil => exact ⟨stops_cons.2 rfl, stops_cons.2 rfl⟩
    | cons y s =>
        rw [List.flatMap_cons, List.append_assoc]
        exact inked_escape (by simpa using stops_cons.1 hs) _
  refine ⟨_, Cursor.skip_rest_append hr, Nat.add_pos_left hcolumn _, fun fuel => ?_⟩
  rw [readDouble_other hcolumn hr (by decide) (by decide), if_pos (by decide),
    readGap_blanks hr (fun b hb => by simp [isBlank, hblanks b hb]) hink]
  rfl

theorem readDouble_ink {x : Char} {s : List Char} (hx : x ≠ ' ')
    (hc : c.rest = (x :: s).flatMap escape ++ '"' :: rest) :
    ∃ next, next.rest = s.flatMap escape ++ '"' :: rest ∧ 0 < next.column ∧ ∀ fuel,
      readDouble (fuel + 1) c = (readDouble fuel next).map fun r => (x :: r.1, r.2) := by
  rw [List.flatMap_cons, List.append_assoc] at hc
  refine ⟨_, Cursor.skip_rest_append hc, Nat.add_pos_left hcolumn _, fun fuel => ?_⟩
  rcases escape_cases x with ⟨he, hp, hbreak, hquote, hslash⟩ | ⟨code, he, hbreak, hread⟩
  · rw [he] at hc ⊢
    rw [readDouble_other hcolumn hc hquote hslash, isBlank_of_ne hp hx, hbreak]
    rfl
  · rw [he] at hc ⊢
    exact readDouble_escape hcolumn hc (hbreak _) (hread _)

end

/-- What is left of a text in double quotes is read back. -/
theorem readDouble_written {fuel : Nat} {cs tail : List Char} {c : Cursor}
    (hc : c.rest = cs.flatMap escape ++ '"' :: tail) (hfuel : cs.length < fuel) (hcolumn : 0 < c.column) :
    ∃ next, readDouble fuel c = some (cs, next) ∧ next.rest = tail ∧ 0 < next.column := by
  induction fuel generalizing cs c with
  | zero => cases hfuel
  | succ fuel ih =>
      cases cs with
      | nil => exact ⟨c.skip 1, readDouble_end hcolumn hc, by simp [hc], Nat.succ_pos _⟩
      | cons x cs =>
          have hfirst : ∃ xs s next, x :: cs = (x :: xs) ++ s ∧
              next.rest = s.flatMap escape ++ '"' :: tail ∧ 0 < next.column ∧ ∀ fuel,
                readDouble (fuel + 1) c = (readDouble fuel next).map fun r => (x :: xs ++ r.1, r.2) := by
            by_cases hx : x = ' '
            · subst hx
              obtain ⟨blanks, s, he, hblanks, hs⟩ := exists_first (· == ' ') cs (beq_self_eq_true ' ')
              exact ⟨blanks, s, _, he, (readDouble_blanks hcolumn hblanks hs (he ▸ hc)).choose_spec⟩
            · exact ⟨[], cs, _, rfl, (readDouble_ink hcolumn hx hc).choose_spec⟩
          obtain ⟨xs, s, next, he, hr, hnext, hread⟩ := hfirst
          have hlength : s.length < fuel := by
            rw [he, List.length_append, List.length_cons] at hfuel
            omega
          obtain ⟨last, hlast, hrest⟩ := ih hr hlength hnext
          exact ⟨last, by rw [hread, hlast, he]; rfl, hrest⟩

def twice (s : List Char) : List Char := s.flatMap fun c => if c = '\'' then ['\'', '\''] else [c]

def singleBody (indent : Nat) (s : List Char) : List Char :=
  indented indent false (twice s) ++ if s.getLast?.any isBreak then spaces indent else []

theorem single_eq (indent : Nat) (s : List Char) :
    Printer.single indent s = '\'' :: (singleBody indent s ++ ['\'']) := by
  simp only [Printer.single, singleBody, twice, spaces, List.cons_append]

@[simp] theorem singleBody_nil (indent : Nat) : singleBody indent [] = [] := rfl

theorem indented_ink {indent : Nat} {c : Char} {s : List Char} (h : isBreak c = false) :
    indented indent false (c :: s) = c :: indented indent false s := by
  simp [indented, h]

theorem indented_breaks {indent : Nat} {bs s : List Char} (h : ∀ b ∈ bs, isBreak b = true)
    (hne : bs ≠ []) (atStart : Bool) :
    indented indent atStart (bs ++ s) = bs ++ indented indent true s := by
  induction bs generalizing atStart with
  | nil => exact absurd rfl hne
  | cons b bs ih =>
      rw [List.cons_append, indented, if_pos (h b (List.mem_cons_self ..))]
      cases bs with
      | nil => rfl
      | cons b' bs =>
          rw [ih (fun c hc => h c (List.mem_cons_of_mem _ hc)) nofun]
          rfl

theorem indented_start {indent : Nat} {s : List Char} (h : Stops isBreak s) (hne : s ≠ []) :
    indented indent true s = spaces indent ++ indented indent false s := by
  cases s with
  | nil => exact absurd rfl hne
  | cons c s => simp [indented, stops_cons.1 h, spaces]

theorem length_le_indented (k : Nat) (atStart : Bool) (s : List Char) :
    s.length ≤ (indented k atStart s).length := by
  induction s generalizing atStart with
  | nil => exact Nat.zero_le _
  | cons x s ih =>
      rw [indented]
      split
      next => exact Nat.succ_le_succ (ih true)
      next =>
        split
        next =>
          rw [List.length_append, List.length_cons, List.length_cons]
          have := ih false
          omega
        next => exact Nat.succ_le_succ (ih false)

theorem length_le_singleBody (indent : Nat) (s : List Char) :
    s.length ≤ (singleBody indent s).length := by
  have htwice : s.length ≤ (twice s).length := by
    induction s with
    | nil => exact Nat.le_refl _
    | cons c s ih =>
        rw [twice, List.flatMap_cons, List.length_append, ← twice, List.length_cons]
        split <;> simp only [List.length_cons, List.length_nil] <;> omega
  have hindented := length_le_indented indent false (twice s)
  rw [singleBody, List.length_append]
  omega

theorem singleBody_ink {indent : Nat} {c : Char} {s : List Char} (h : isBreak c = false) :
    singleBody indent (c :: s) =
      (if c = '\'' then ['\'', '\''] else [c]) ++ singleBody indent s := by
  have hlast : (c :: s).getLast?.any isBreak = s.getLast?.any isBreak := by
    cases s with
    | nil => simp [h]
    | cons d s => rw [List.getLast?_cons_cons]
  rw [singleBody, singleBody, hlast, twice, List.flatMap_cons, ← List.append_assoc]
  by_cases hc : c = '\''
  · subst hc
    simp [indented_ink, isBreak, twice]
  · simp [hc, indented_ink h, twice]

theorem singleBody_breaks {indent : Nat} {bs s : List Char} (h : ∀ b ∈ bs, isBreak b = true)
    (hne : bs ≠ []) (hs : Stops isBreak s) :
    singleBody indent (bs ++ s) = bs ++ (spaces indent ++ singleBody indent s) := by
  have htwice : twice bs = bs := flatMap_eq_self fun b hb => by
    rw [if_neg]
    rintro rfl
    exact absurd (h _ hb) (by decide)
  rw [singleBody, twice, List.flatMap_append, ← twice, ← twice, htwice, indented_breaks h hne]
  cases s with
  | nil =>
      obtain ⟨b, hb⟩ := Option.isSome_iff_exists.1 (List.getLast?_isSome.2 hne)
      simp [twice, indented, hb, h b (List.mem_of_getLast? hb)]
  | cons c s =>
      have hc : isBreak c = false := stops_cons.1 hs
      have hstart : Stops isBreak (twice (c :: s)) ∧ twice (c :: s) ≠ [] := by
        rw [twice, List.flatMap_cons]
        split
        next => exact ⟨stops_cons.2 (by decide), nofun⟩
        next => exact ⟨stops_cons.2 hc, nofun⟩
      rw [indented_start hstart.1 hstart.2, List.getLast?_append, Option.or_of_isSome (by simp)]
      simp [singleBody]

theorem singleBody_blanks {indent : Nat} {blanks s : List Char} (h : ∀ b ∈ blanks, isBlank b = true) :
    singleBody indent (blanks ++ s) = blanks ++ singleBody indent s := by
  induction blanks with
  | nil => rfl
  | cons b blanks ih =>
      have hb := h b (List.mem_cons_self ..)
      have hink : isBreak b = false ∧ b ≠ '\'' := by
        simp only [isBlank, Bool.or_eq_true, beq_iff_eq] at hb
        rcases hb with rfl | rfl <;> decide
      rw [List.cons_append, singleBody_ink hink.1, if_neg hink.2,
        ih fun c hc => h c (List.mem_cons_of_mem _ hc)]
      rfl

theorem inked_singleBody {indent : Nat} {s tail : List Char} (h : Inked s) :
    Inked (singleBody indent s ++ '\'' :: tail) := by
  cases s with
  | nil => exact ⟨stops_cons.2 rfl, stops_cons.2 rfl⟩
  | cons c s =>
      rw [singleBody_ink (stops_cons.1 h.2)]
      split
      next => exact ⟨stops_cons.2 rfl, stops_cons.2 rfl⟩
      next => exact ⟨stops_cons.2 (stops_cons.1 h.1), stops_cons.2 (stops_cons.1 h.2)⟩

section

variable {p q : Char → Bool} {xs s : List Char}

theorem hasNeighbours_append (h : hasNeighbours p q (xs ++ s) = false) : hasNeighbours p q s = false := by
  induction xs with
  | nil => exact h
  | cons x xs ih =>
      cases hxs : xs ++ s with
      | nil =>
          obtain rfl := (List.append_eq_nil_iff.1 hxs).2
          rfl
      | cons y ys =>
          rw [List.cons_append, hxs, hasNeighbours, Bool.or_eq_false_iff] at h
          exact ih (hxs ▸ h.2)

theorem hasNeighbours_next (h : hasNeighbours p q (xs ++ s) = false) (hne : xs ≠ [])
    (hxs : ∀ x ∈ xs, p x = true) : Stops q s := by
  obtain ⟨x, hx⟩ := Option.isSome_iff_exists.1 (List.getLast?_isSome.2 hne)
  obtain ⟨ys, rfl⟩ := List.getLast?_eq_some_iff.1 hx
  rw [List.append_assoc] at h
  have hend := hasNeighbours_append h
  cases s with
  | nil => exact stops_nil q
  | cons c s =>
      rw [List.singleton_append, hasNeighbours, Bool.or_eq_false_iff, hxs x (by simp)] at hend
      exact stops_cons.2 (by simpa using hend.1)

end

section

variable {fuel : Nat} {c : Cursor} {rest : List Char} (hcolumn : 0 < c.column)
include hcolumn

theorem readSingle_end (h : c.rest = '\'' :: rest) (hrest : Stops (· == '\'') rest) :
    readSingle (fuel + 1) c = some ([], c.skip 1) := by
  cases rest with
  | nil => simp [readSingle, Cursor.atAnyMarker_of_column hcolumn, h]
  | cons x rest =>
      have hx : x ≠ '\'' := by simpa using stops_cons.1 hrest
      rw [readSingle, Cursor.atAnyMarker_of_column hcolumn, if_neg (by simp), h]
      split
      next he => cases he
      next he => exact absurd (List.cons.inj (List.cons.inj he).2).1 hx
      next => rfl
      next hquote he => exact (hquote (List.cons.inj he).1.symm).elim

theorem readSingle_quote (h : c.rest = '\'' :: '\'' :: rest) :
    readSingle (fuel + 1) c = (readSingle fuel (c.skip 2)).map fun r => ('\'' :: r.1, r.2) := by
  simp [readSingle, Cursor.atAnyMarker_of_column hcolumn, h]

theorem readSingle_other {x : Char} (h : c.rest = x :: rest) (hquote : x ≠ '\'') :
    readSingle (fuel + 1) c =
      if isBlank x || isBreak x then
        (readSingle fuel (readGap c).next).map fun r => ((readGap c).folded ++ r.1, r.2)
      else (readSingle fuel (c.skip 1)).map fun r => (x :: r.1, r.2) := by
  rw [readSingle, Cursor.atAnyMarker_of_column hcolumn, if_neg (by simp), h]
  split
  next he => cases he
  next he => exact absurd (List.cons.inj he).1 hquote
  next he => exact absurd (List.cons.inj he).1 hquote
  next he =>
    obtain ⟨rfl, -⟩ := List.cons.inj he
    rfl

end

/-- A text that can stand in single quotes: no blank is beside a line break. -/
structure Single (s : List Char) : Prop where
  printable : ∀ c ∈ s, isPrintable c = true ∧ c ≠ '\n'
  blanks : hasNeighbours isSpace isBreak s = false
  breaks : hasNeighbours isBreak isSpace s = false

theorem Single.append {xs s : List Char} (h : Single (xs ++ s)) : Single s where
  printable c hc := h.printable c (List.mem_append_right xs hc)
  blanks := hasNeighbours_append h.blanks
  breaks := hasNeighbours_append h.breaks

theorem folded_breaks {bs : List Char} (hne : bs ≠ []) (h : '\n' ∉ bs) (next : Cursor) :
    Gap.folded ⟨[], bs, next⟩ = bs := by
  rw [Gap.folded]
  split
  next he => exact absurd he hne
  next he =>
    obtain rfl : bs = _ := he
    exact absurd (List.mem_cons_self ..) h
  next he =>
    obtain rfl : bs = _ := he
    exact absurd (List.mem_cons_self ..) h
  next => rfl

section

variable {indent : Nat} {tail : List Char} {c : Cursor} (hcolumn : 0 < c.column)
include hcolumn

theorem readSingle_blanks {b : Char} {blanks s : List Char} (h : Single (b :: blanks ++ s))
    (hblanks : ∀ x ∈ b :: blanks, isBlank x = true) (hs : Stops isBlank s)
    (hc : c.rest = singleBody indent (b :: blanks ++ s) ++ '\'' :: tail) :
    ∃ next, next.rest = singleBody indent s ++ '\'' :: tail ∧ 0 < next.column ∧ ∀ fuel,
      readSingle (fuel + 1) c = (readSingle fuel next).map fun r => (b :: blanks ++ r.1, r.2) := by
  have hspaces : ∀ x ∈ b :: blanks, isSpace x = true := fun x hx => by
    rw [isBlank_printable (hblanks x hx) (h.printable x (List.mem_append_left s hx)).1]
    rfl
  have hink : Inked s := ⟨hs, hasNeighbours_next h.blanks nofun hspaces⟩
  have hr : c.rest = b :: blanks ++ (singleBody indent s ++ '\'' :: tail) := by
    rw [hc, singleBody_blanks hblanks, List.append_assoc]
  have hquote : b ≠ '\'' := fun hb => absurd (hb ▸ hblanks b (List.mem_cons_self ..)) (by decide)
  refine ⟨_, Cursor.skip_rest_append hr, Nat.add_pos_left hcolumn _, fun fuel => ?_⟩
  rw [readSingle_other hcolumn hr hquote, hblanks b (List.mem_cons_self ..), Bool.true_or, if_pos rfl,
    readGap_blanks hr hblanks (inked_singleBody hink)]
  rfl

theorem readSingle_breaks {b : Char} {bs s : List Char} (h : Single (b :: bs ++ s))
    (hbs : ∀ x ∈ b :: bs, isBreak x = true) (hs : Stops isBreak s) (hindent : 0 < indent)
    (hc : c.rest = singleBody indent (b :: bs ++ s) ++ '\'' :: tail) :
    ∃ next, next.rest = singleBody indent s ++ '\'' :: tail ∧ 0 < next.column ∧ ∀ fuel,
      readSingle (fuel + 1) c = (readSingle fuel next).map fun r => (b :: bs ++ r.1, r.2) := by
  have hp (x : Char) (hx : x ∈ b :: bs) := h.printable x (List.mem_append_left s hx)
  have hspace : Stops isSpace s := hasNeighbours_next h.breaks nofun hbs
  have hblank : Stops isBlank s := fun x hx =>
    isBlank_of_ne (h.append.printable x (List.mem_of_mem_head? hx)).1 (by simpa [isSpace] using hspace x hx)
  have hr : c.rest = b :: bs ++ (spaces indent ++ (singleBody indent s ++ '\'' :: tail)) := by
    rw [hc, singleBody_breaks hbs nofun hs, List.append_assoc, List.append_assoc]
  have hquote : b ≠ '\'' := fun hb => absurd (hb ▸ hbs b (List.mem_cons_self ..)) (by decide)
  obtain ⟨next, hgap, hrest, hnext⟩ := readGap_breaks hr (fun x hx => ⟨hbs x hx, (hp x hx).1⟩)
    (by simp [spaces, isBlank]) (inked_singleBody ⟨hblank, hs⟩) nofun
  refine ⟨next, hrest, by simpa [hnext, spaces] using hindent, fun fuel => ?_⟩
  rw [readSingle_other hcolumn hr hquote, hbs b (List.mem_cons_self ..), Bool.or_true, if_pos rfl, hgap,
    folded_breaks (List.cons_ne_nil b bs) fun hn => (hp _ hn).2 rfl]

theorem readSingle_ink {x : Char} {s : List Char} (hblank : isBlank x = false) (hbreak : isBreak x = false)
    (hc : c.rest = singleBody indent (x :: s) ++ '\'' :: tail) :
    ∃ next, next.rest = singleBody indent s ++ '\'' :: tail ∧ 0 < next.column ∧ ∀ fuel,
      readSingle (fuel + 1) c = (readSingle fuel next).map fun r => (x :: r.1, r.2) := by
  rw [singleBody_ink hbreak, List.append_assoc] at hc
  refine ⟨_, Cursor.skip_rest_append hc, Nat.add_pos_left hcolumn _, fun fuel => ?_⟩
  by_cases hquote : x = '\''
  · subst hquote
    exact readSingle_quote hcolumn hc
  · rw [if_neg hquote] at hc ⊢
    rw [readSingle_other hcolumn hc hquote, hblank, hbreak]
    rfl

theorem readSingle_first {x : Char} {cs : List Char} (h : Single (x :: cs)) (hindent : 0 < indent)
    (hc : c.rest = singleBody indent (x :: cs) ++ '\'' :: tail) :
    ∃ xs s next, x :: cs = xs ++ s ∧ s.length ≤ cs.length ∧
      next.rest = singleBody indent s ++ '\'' :: tail ∧ 0 < next.column ∧ ∀ fuel,
        readSingle (fuel + 1) c = (readSingle fuel next).map fun r => (xs ++ r.1, r.2) := by
  have hlength {xs s : List Char} (he : x :: cs = (x :: xs) ++ s) : s.length ≤ cs.length := by
    rw [(List.cons.inj he).2]
    simp
  cases hblank : isBlank x with
  | true =>
      obtain ⟨blanks, s, he, hblanks, hs⟩ := exists_first isBlank cs hblank
      exact ⟨_, s, _, he, hlength he,
        (readSingle_blanks hcolumn (he ▸ h) hblanks hs (he ▸ hc)).choose_spec⟩
  | false =>
      cases hbreak : isBreak x with
      | true =>
          obtain ⟨bs, s, he, hbs, hs⟩ := exists_first isBreak cs hbreak
          exact ⟨_, s, _, he, hlength he,
            (readSingle_breaks hcolumn (he ▸ h) hbs hs hindent (he ▸ hc)).choose_spec⟩
      | false =>
          exact ⟨[x], cs, _, rfl, Nat.le_refl _, (readSingle_ink hcolumn hblank hbreak hc).choose_spec⟩

end

theorem readSingle_written {indent fuel : Nat} {cs tail : List Char} {c : Cursor} (h : Single cs)
    (hc : c.rest = singleBody indent cs ++ '\'' :: tail) (hfuel : cs.length < fuel)
    (hcolumn : 0 < c.column) (hindent : 0 < indent) (htail : Stops (· == '\'') tail) :
    ∃ next, readSingle fuel c = some (cs, next) ∧ next.rest = tail ∧ 0 < next.column := by
  induction fuel generalizing cs c with
  | zero => cases hfuel
  | succ fuel ih =>
      cases cs with
      | nil => exact ⟨c.skip 1, readSingle_end hcolumn hc htail, by simp [hc], Nat.succ_pos _⟩
      | cons x cs =>
          obtain ⟨xs, s, next, he, hlength, hr, hnext, hread⟩ := readSingle_first hcolumn h hindent hc
          obtain ⟨last, hlast, hrest⟩ := ih (he ▸ h).append hr
            (Nat.lt_of_le_of_lt hlength (Nat.lt_of_succ_lt_succ hfuel)) hnext
          exact ⟨last, by rw [hread, hlast, he]; rfl, hrest⟩

end ChangeFeed.Yaml.Quoted
