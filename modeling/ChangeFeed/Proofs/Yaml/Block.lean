import ChangeFeed.Proofs.Yaml.Quoted
import ChangeFeed.Yaml.Block

namespace ChangeFeed.Yaml.Block

open Printer (isPrintable isSpace spaces indented literalHeader)
open Quoted (indented_ink indented_breaks indented_start length_le_indented)

/-- Where the indentation of a line ends: `after` is the text from its beginning on. -/
structure Indented (k n : Nat) (after rest : List Char) : Prop where
  split : after = spaces n ++ rest
  width : n = k ∨ n < k ∧ Stops (· == ' ') rest
  ink : Stops isBreak rest
  tab : Stops (· == '\t') rest

theorem length_takeWhile_spaces {n : Nat} {rest : List Char} :
    ((spaces n ++ rest).takeWhile (· == ' ')).length =
      n + (rest.takeWhile (· == ' ')).length := by
  rw [List.takeWhile_append_of_pos (by simp [spaces]), List.length_append]
  simp [spaces]

theorem skipIndent_indented {k n : Nat} {after rest : List Char} {c : Cursor} (h : Indented k n after rest)
    (hc : c.rest = after) (hcolumn : c.column = 0) : skipIndent (some k) c = c.skip n := by
  have hmin : min (n + (rest.takeWhile (· == ' ')).length) k = n := by
    rcases h.width with rfl | ⟨hlt, hstop⟩
    · omega
    · have hzero : rest.takeWhile (· == ' ') = [] := @takeWhile_append _ [] rest nofun hstop
      rw [hzero, List.length_nil]
      omega
  rw [skipIndent, hc, h.split, length_takeWhile_spaces, hcolumn]
  simp only [Nat.sub_zero, hmin]

theorem readEmptyLines_breaks {k n fuel : Nat} (widest : Nat) {bs after rest : List Char} {c : Cursor}
    (hc : c.rest = bs ++ after) (hcolumn : c.column = 0)
    (hbs : ∀ b ∈ bs, isBreak b = true ∧ isPrintable b = true) (h : Indented k n after rest)
    (hfuel : bs.length < fuel) :
    ∃ w next, readEmptyLines (some k) fuel widest c = some (bs, w, next) ∧ next.rest = rest ∧
      next.column = n := by
  induction fuel generalizing bs c widest with
  | zero => cases hfuel
  | succ fuel ih =>
      cases bs with
      | nil =>
          have hskip := skipIndent_indented h hc hcolumn
          have hr : (c.skip n).rest = rest := by
            simp [show c.rest = spaces n ++ rest from hc.trans h.split, spaces]
          have htab : (c.skip n).sees (· == '\t') = false := Cursor.sees_eq_false (hr ▸ h.tab)
          have hbreak : (c.skip n).takeBreak = none := Cursor.takeBreak_stops (hr ▸ h.ink)
          refine ⟨max widest (c.skip n).column, c.skip n, ?_, hr, by simp [hcolumn]⟩
          simp [readEmptyLines, hskip, htab, hbreak]
      | cons b bs =>
          have hb := hbs b (List.mem_cons_self ..)
          have hspace : (c.rest.takeWhile (· == ' ')).length = 0 := by
            rw [hc]
            rcases isBreak_printable hb.1 hb.2 with rfl | rfl | rfl <;> rfl
          have hskip : skipIndent (some k) c = c := by
            simp [skipIndent, hspace, Cursor.skip_zero]
          have htab : c.sees (· == '\t') = false := by
            rw [Cursor.sees, Cursor.peek, hc]
            rcases isBreak_printable hb.1 hb.2 with rfl | rfl | rfl <;> rfl
          obtain ⟨w, next, hread, hnext⟩ := ih (max widest c.column)
            (Cursor.nextLine_rest_cons hc) (Cursor.nextLine_column ..)
            (fun x hx => hbs x (List.mem_cons_of_mem _ hx)) (Nat.lt_of_succ_lt_succ hfuel)
          refine ⟨w, next, ?_, hnext⟩
          simp [readEmptyLines, hskip, htab, Cursor.takeBreak_cons hc hb.1 hb.2, hread]

def chompFor (s : List Char) : Chomp :=
  if !s.getLast?.any isBreak then .strip else if s.dropLast.getLast?.all isBreak then .keep else .clip

def ending (s : List Char) : List Char := if s.getLast?.any isBreak then [] else ['\n']

theorem getLast?_append_of_ne_nil {xs s : List Char} (h : s ≠ []) : (xs ++ s).getLast? = s.getLast? := by
  rw [List.getLast?_append, Option.or_of_isSome (by simpa using h)]

theorem ending_append {xs s : List Char} (hne : s ≠ []) : ending (xs ++ s) = ending s := by
  rw [ending, ending, getLast?_append_of_ne_nil hne]

theorem getLast?_any {p : Char → Bool} {v : Bool} {s : List Char} (h : ∀ x ∈ s, p x = v) (hne : s ≠ []) :
    s.getLast?.any p = v := by
  obtain ⟨x, hx⟩ := Option.isSome_iff_exists.1 (List.getLast?_isSome.2 hne)
  rw [hx]
  exact h x (List.mem_of_getLast? hx)

theorem chompFor_append {xs s : List Char} (h : Stops isBreak s) (hne : s ≠ []) :
    chompFor (xs ++ s) = chompFor s := by
  rw [chompFor, chompFor, getLast?_append_of_ne_nil hne, List.dropLast_append_of_ne_nil hne]
  cases hd : s.dropLast with
  | nil =>
      -- The text is one character, which is no line break.
      cases s with
      | nil => exact absurd rfl hne
      | cons c s =>
          obtain rfl : s = [] := by
            cases s with
            | nil => rfl
            | cons d s => cases hd
          simp [stops_cons.1 h]
  | cons d ds => rw [getLast?_append_of_ne_nil (List.cons_ne_nil d ds)]

theorem chompFor_line {line : List Char} (h : ∀ c ∈ line, isBreak c = false) (hne : line ≠ []) :
    chompFor line = .strip := by
  rw [chompFor, getLast?_any h hne, if_pos (by simp)]

theorem chompFor_clip {line : List Char} {b : Char} (h : ∀ c ∈ line, isBreak c = false)
    (hne : line ≠ []) (hb : isBreak b = true) : chompFor (line ++ [b]) = .clip := by
  obtain ⟨c, hc⟩ := Option.isSome_iff_exists.1 (List.getLast?_isSome.2 hne)
  simp [chompFor, hb, hc, h c (List.mem_of_getLast? hc)]

theorem chompFor_keep {xs bs : List Char} {b : Char} (hb : isBreak b = true)
    (h : ∀ x ∈ bs, isBreak x = true) (hne : xs = [] ∨ bs ≠ []) : chompFor (xs ++ b :: bs) = .keep := by
  have hall : ∀ x ∈ b :: bs, isBreak x = true := List.forall_mem_cons.2 ⟨hb, h⟩
  have hlast : (xs ++ b :: bs).getLast?.any isBreak = true := by
    rw [getLast?_append_of_ne_nil (List.cons_ne_nil b bs), getLast?_any hall (List.cons_ne_nil b bs)]
  have hbefore : (xs ++ b :: bs).dropLast.getLast?.all isBreak = true := by
    have hinit : (b :: bs).dropLast.getLast?.all isBreak = true := by
      rw [Option.all_eq_true]
      exact fun x hx => hall x (List.dropLast_subset _ (List.mem_of_getLast? hx))
    rw [List.dropLast_append_of_ne_nil (List.cons_ne_nil b bs)]
    rcases hne with rfl | hne
    · exact hinit
    · rw [getLast?_append_of_ne_nil (by rw [List.dropLast_cons_of_ne_nil hne]; nofun), hinit]
  rw [chompFor, hlast, hbefore]
  rfl

theorem readLines_line {k n : Nat} {line bs after rest : List Char} {b : Char} {c : Cursor}
    (hc : c.rest = line ++ b :: (bs ++ after)) (hcolumn : c.column = k)
    (hline : ∀ x ∈ line, isBreak x = false)
    (hbs : ∀ x ∈ b :: bs, isBreak x = true ∧ isPrintable x = true) (h : Indented k n after rest) :
    ∃ next startsBlank, next.rest = rest ∧ next.column = n ∧ ∀ chomp fuel lastBreak empty afterBlank,
      readLines true chomp k (fuel + 1) lastBreak empty afterBlank c =
        (readLines true chomp k fuel [b] bs startsBlank next).map
          fun r => (lastBreak ++ empty ++ line ++ r.1, r.2) := by
  have hb := hbs b (List.mem_cons_self ..)
  have hline' : c.takeWhile (!isBreak ·) = (line, c.skip line.length) :=
    Cursor.takeWhile_append hc (fun x hx => by simp [hline x hx]) (stops_cons.2 (by simp [hb.1]))
  have hr := Cursor.skip_rest_append hc
  have hr' := Cursor.nextLine_rest_cons hr
  obtain ⟨w, next, hread, hnext, hn⟩ := readEmptyLines_breaks 0 hr' (Cursor.nextLine_column ..)
    (fun x hx => hbs x (List.mem_cons_of_mem _ hx)) h
    (show bs.length < ((c.skip line.length).nextLine 1).rest.length + 1 by
      rw [hr', List.length_append]
      omega)
  refine ⟨next, c.sees isBlank, hnext, hn, fun chomp fuel lastBreak empty afterBlank => ?_⟩
  rw [readLines.eq_def]
  dsimp only
  rw [if_pos ⟨hcolumn, by simp [hc]⟩, hline']
  dsimp only
  rw [Cursor.takeBreak_cons hr hb.1 hb.2]
  dsimp only [Option.bind_eq_bind]
  rw [hread, Option.bind_some]
  cases readLines true chomp k fuel [b] bs (c.sees isBlank) next <;> simp [joinLines]

def Chomp.tail (lastBreak empty : List Char) : Chomp → List Char
  | strip => []
  | clip => lastBreak
  | keep => lastBreak ++ empty

theorem readLines_end {chomp : Chomp} {k fuel : Nat} {lastBreak empty : List Char}
    {afterBlank : Bool} {c : Cursor} (h : c.column ≠ k) :
    readLines true chomp k (fuel + 1) lastBreak empty afterBlank c =
      some (chomp.tail lastBreak empty, c) := by
  rw [readLines.eq_def]
  dsimp only
  rw [if_neg fun hc => h hc.1]
  cases chomp <;> rfl

theorem indented_line {k : Nat} {line s : List Char} (h : ∀ x ∈ line, isBreak x = false) :
    indented k false (line ++ s) = line ++ indented k false s := by
  induction line with
  | nil => rfl
  | cons x line ih =>
      rw [List.cons_append, indented_ink (h x (List.mem_cons_self ..)),
        ih fun y hy => h y (List.mem_cons_of_mem _ hy)]
      rfl

theorem indented_tail {k j : Nat} {rest : List Char} (hj : j < k) (hrest : Inked rest) :
    Indented k j (spaces j ++ rest) rest := by
  have hblank (x : Char) (hx : x ∈ rest.head?) : x ≠ ' ' ∧ x ≠ '\t' := by
    simpa [isBlank] using hrest.1 x hx
  exact ⟨rfl, .inr ⟨hj, fun x hx => by simpa using (hblank x hx).1⟩, hrest.2,
    fun x hx => by simpa using (hblank x hx).2⟩

theorem indented_next {k : Nat} {s : List Char} (hp : ∀ x ∈ s, isPrintable x = true)
    (hs : Stops isBreak s) (hne : s ≠ []) (rest : List Char) :
    Indented k k (indented k true s ++ rest) (indented k false s ++ rest) := by
  cases s with
  | nil => exact absurd rfl hne
  | cons x s =>
      have hx : isBreak x = false := stops_cons.1 hs
      have htab : x ≠ '\t' := fun he => absurd (he ▸ hp x (List.mem_cons_self ..)) (by decide)
      rw [indented_start hs hne, List.append_assoc, indented_ink hx]
      exact ⟨rfl, .inl rfl, stops_cons.2 hx, stops_cons.2 (by simpa using htab)⟩

section

variable {k j fuel : Nat} {line lastBreak empty rest : List Char} {afterBlank : Bool} {c : Cursor}
  (hcolumn : c.column = k) (hline : ∀ x ∈ line, isBreak x = false) (hne : line ≠ []) (hj : j < k)
  (hrest : Inked rest)
include hcolumn hline hne hj hrest

theorem readLines_last (hc : c.rest = indented k false line ++ (ending line ++ (spaces j ++ rest))) :
    ∃ next, readLines true (chompFor line) k (fuel + 2) lastBreak empty afterBlank c =
        some (lastBreak ++ empty ++ line, next) ∧ next.rest = rest ∧ next.column = j := by
  have hending : ending line = ['\n'] := by
    rw [ending, getLast?_any hline hne]
    rfl
  rw [hending, ← List.append_nil line, indented_line hline, List.append_assoc] at hc
  have hc : c.rest = line ++ '\n' :: ([] ++ (spaces j ++ rest)) := hc
  obtain ⟨next, startsBlank, hr, hnext, hread⟩ := readLines_line hc hcolumn hline
    (by simp [isBreak, isPrintable]) (indented_tail hj hrest)
  refine ⟨next, ?_, hr, hnext⟩
  rw [hread, readLines_end (by omega), chompFor_line hline hne]
  simp [Chomp.tail]

variable {b : Char} {bs : List Char} (hbs : ∀ x ∈ b :: bs, isBreak x = true ∧ isPrintable x = true)
include hbs

theorem readLines_lastBreaks (hc : c.rest = indented k false (line ++ b :: bs) ++
      (ending (line ++ b :: bs) ++ (spaces j ++ rest))) :
    ∃ next, readLines true (chompFor (line ++ b :: bs)) k (fuel + 2) lastBreak empty afterBlank c =
        some (lastBreak ++ empty ++ (line ++ b :: bs), next) ∧ next.rest = rest ∧ next.column = j := by
  have hall : ∀ x ∈ b :: bs, isBreak x = true := fun x hx => (hbs x hx).1
  have hending : ending (line ++ b :: bs) = [] := by
    rw [ending_append (List.cons_ne_nil b bs), ending, getLast?_any hall (List.cons_ne_nil b bs)]
    rfl
  have hbreaks : indented k false (b :: bs) = b :: bs := by
    rw [← List.append_nil (b :: bs), indented_breaks hall (List.cons_ne_nil b bs)]
    rfl
  rw [hending, indented_line hline, List.append_assoc, hbreaks] at hc
  obtain ⟨next, startsBlank, hr, hnext, hread⟩ := readLines_line hc hcolumn hline hbs
    (indented_tail hj hrest)
  refine ⟨next, ?_, hr, hnext⟩
  rw [hread, readLines_end (by omega)]
  cases bs with
  | nil =>
      rw [chompFor_clip hline hne (hall b (List.mem_cons_self ..))]
      simp [Chomp.tail]
  | cons x bs =>
      rw [chompFor_keep (hall b (List.mem_cons_self ..))
        (fun y hy => hall y (List.mem_cons_of_mem _ hy)) (.inr (List.cons_ne_nil x bs))]
      simp [Chomp.tail]

end

/-- What is left of a literal text is read back. -/
theorem readLines_written {k j fuel : Nat} {s lastBreak empty rest : List Char} {afterBlank : Bool}
    {c : Cursor} (hp : ∀ x ∈ s, isPrintable x = true) (hs : Stops isBreak s) (hne : s ≠ [])
    (hc : c.rest = indented k false s ++ (ending s ++ (spaces j ++ rest))) (hcolumn : c.column = k)
    (hj : j < k) (hrest : Inked rest) (hfuel : s.length < fuel) :
    ∃ next, readLines true (chompFor s) k fuel lastBreak empty afterBlank c =
        some (lastBreak ++ empty ++ s, next) ∧ next.rest = rest ∧ next.column = j := by
  induction fuel generalizing s lastBreak empty afterBlank c with
  | zero => cases hfuel
  | succ fuel ih =>
      obtain ⟨line, s', rfl, hline, hs'⟩ := exists_run (!isBreak ·) s
      have hline' : ∀ x ∈ line, isBreak x = false := fun x hx => by simpa using hline x hx
      have hlne : line ≠ [] := by
        rintro rfl
        cases s' with
        | nil => exact hne rfl
        | cons x s' =>
            have hx := stops_cons.1 hs
            have hx' := stops_cons.1 hs'
            simp [hx] at hx'
      have hpos := List.length_pos_iff.2 hlne
      rw [List.length_append] at hfuel
      obtain ⟨fuel, rfl⟩ : ∃ n, fuel = n + 1 := ⟨fuel - 1, by omega⟩
      cases s' with
      | nil =>
          rw [List.append_nil] at hc ⊢
          exact readLines_last hcolumn hline' hlne hj hrest hc
      | cons b s' =>
          obtain ⟨bs, s'', rfl, hbs, hs''⟩ := exists_run isBreak s'
          have hall : ∀ x ∈ b :: bs, isBreak x = true :=
            List.forall_mem_cons.2 ⟨by simpa using stops_cons.1 hs', hbs⟩
          rw [← List.cons_append] at hc hp ⊢
          have hp' := List.forall_mem_append.1 (List.forall_mem_append.1 hp).2
          have hall' : ∀ x ∈ b :: bs, isBreak x = true ∧ isPrintable x = true := fun x hx =>
            ⟨hall x hx, hp'.1 x hx⟩
          by_cases hs''ne : s'' = []
          · subst hs''ne
            rw [List.append_nil] at hc ⊢
            exact readLines_lastBreaks hcolumn hline' hlne hj hrest hall' hc
          · rw [indented_line hline', indented_breaks hall (List.cons_ne_nil b bs), List.append_assoc,
              List.append_assoc, ending_append (by simp), ending_append hs''ne] at hc
            obtain ⟨mid, startsBlank, hr, hmid, hread⟩ := readLines_line hc hcolumn hline' hall'
              (indented_next hp'.2 hs'' hs''ne _)
            have hlength : s''.length < fuel + 1 := by
              simp only [List.length_cons, List.length_append] at hfuel
              omega
            obtain ⟨next, hlast, hnext⟩ := ih hp'.2 hs'' hs''ne hr hmid hlength
            refine ⟨next, ?_, hnext⟩
            rw [← List.append_assoc, chompFor_append hs'' hs''ne, hread, hlast]
            simp

def Chomp.mark : Chomp → List Char
  | strip => ['-']
  | clip => []
  | keep => ['+']

def showsIndent (s : List Char) : Bool := s.head?.any fun c => isSpace c || isBreak c

def mark (s : List Char) : List Char := (if showsIndent s then ['2'] else []) ++ (chompFor s).mark

theorem literalHeader_eq (s : List Char) : literalHeader s = '|' :: mark s := by
  rw [literalHeader, mark, showsIndent]
  rcases List.eq_nil_or_concat s with rfl | ⟨xs, a, rfl⟩
  · rfl
  · have hhead : (xs ++ [a]).reverse = a :: xs.reverse := by simp
    simp only [List.concat_eq_append, hhead, List.head?_reverse, chompFor, List.getLast?_append,
      List.dropLast_concat, List.getLast?_singleton, Option.some_or, Option.any_some]
    cases isBreak a
    · rfl
    · cases xs.getLast?.all isBreak <;> rfl

theorem readHeader_mark (s rest : List Char) :
    readHeader (mark s ++ '\n' :: rest) =
      some (⟨chompFor s, if showsIndent s then some 2 else none⟩, (mark s).length) := by
  rw [mark]
  cases showsIndent s <;> cases chompFor s <;> rfl

theorem readEmptyLines_none {k : Nat} {x : Char} {rest : List Char} {c : Cursor}
    (hc : c.rest = spaces k ++ x :: rest) (hcolumn : c.column = 0)
    (hx : x ≠ ' ' ∧ x ≠ '\t' ∧ isBreak x = false) :
    ∃ next, next.rest = x :: rest ∧ next.column = k ∧
      ∀ fuel, readEmptyLines none (fuel + 1) 0 c = some ([], k, next) := by
  have hspaces : ((spaces k ++ x :: rest).takeWhile (· == ' ')).length = k := by
    rw [length_takeWhile_spaces, List.takeWhile_cons_of_neg (by simpa using hx.1)]
    rfl
  have hr : (c.skip k).rest = x :: rest := by simp [hc, spaces]
  have hskip : skipIndent none c = c.skip k := by
    rw [skipIndent, hc, hspaces]
  have htab : (c.skip k).sees (· == '\t') = false :=
    Cursor.sees_eq_false (hr ▸ stops_cons.2 (by simpa using hx.2.1))
  have hbreak : (c.skip k).takeBreak = none := Cursor.takeBreak_stops (hr ▸ stops_cons.2 hx.2.2)
  refine ⟨c.skip k, hr, by simp [hcolumn], fun fuel => ?_⟩
  simp [readEmptyLines, hskip, htab, hbreak, hcolumn]

section

variable {k j : Nat} {rest : List Char} {c : Cursor} (hcolumn : c.column = 0) (hj : j < k)
  (hrest : Inked rest)
include hcolumn hj hrest

theorem readLines_breaks {bs : List Char} (hbs : ∀ x ∈ bs, isBreak x = true ∧ isPrintable x = true)
    (hne : bs ≠ []) (hc : c.rest = indented k true bs ++ (ending bs ++ (spaces j ++ rest))) :
    ∃ w next, readEmptyLines (some k) (c.rest.length + 1) 0 c = some (bs, w, next) ∧
      readLines true (chompFor bs) k (next.rest.length + 1) [] bs false next = some (bs, next) ∧
      next.rest = rest ∧ next.column = j := by
  have hall : ∀ x ∈ bs, isBreak x = true := fun x hx => (hbs x hx).1
  have hbreaks : indented k true bs = bs := by
    rw [← List.append_nil bs, indented_breaks hall hne]
    rfl
  have hending : ending bs = [] := by
    rw [ending, getLast?_any hall hne]
    rfl
  rw [hbreaks, hending] at hc
  obtain ⟨w, next, hread, hr, hnext⟩ := readEmptyLines_breaks 0 hc hcolumn hbs (indented_tail hj hrest)
    (show bs.length < c.rest.length + 1 by
      rw [hc, List.length_append]
      omega)
  refine ⟨w, next, hread, ?_, hr, hnext⟩
  rw [readLines_end (by omega)]
  cases bs with
  | nil => exact absurd rfl hne
  | cons b bs =>
      have hkeep : chompFor ([] ++ b :: bs) = .keep := chompFor_keep (hall b (List.mem_cons_self ..))
        (fun x hx => hall x (List.mem_cons_of_mem _ hx)) (.inl rfl)
      rw [List.nil_append] at hkeep
      rw [hkeep]
      rfl

theorem readLines_start {s : List Char} (hp : ∀ x ∈ s, isPrintable x = true) (hne : s ≠ [])
    (hc : c.rest = indented k true s ++ (ending s ++ (spaces j ++ rest))) :
    ∃ empty w next last, readEmptyLines (some k) (c.rest.length + 1) 0 c = some (empty, w, next) ∧
      readLines true (chompFor s) k (next.rest.length + 1) [] empty false next = some (s, last) ∧
      last.rest = rest ∧ last.column = j := by
  obtain ⟨bs, s', rfl, hbs, hs'⟩ := exists_run isBreak s
  have hp' := List.forall_mem_append.1 hp
  have hall : ∀ x ∈ bs, isBreak x = true ∧ isPrintable x = true := fun x hx => ⟨hbs x hx, hp'.1 x hx⟩
  by_cases hs'ne : s' = []
  · subst hs'ne
    rw [List.append_nil] at hc hne ⊢
    obtain ⟨w, next, hread⟩ := readLines_breaks hcolumn hj hrest hall hne hc
    exact ⟨bs, w, next, next, hread⟩
  · have hsplit : indented k true (bs ++ s') = bs ++ indented k true s' := by
      by_cases hbsne : bs = []
      · rw [hbsne]
        rfl
      · exact indented_breaks hbs hbsne true
    rw [hsplit, List.append_assoc, ending_append hs'ne] at hc
    obtain ⟨w, next, hread, hr, hnext⟩ := readEmptyLines_breaks 0 hc hcolumn hall
      (indented_next hp'.2 hs' hs'ne _) (show bs.length < c.rest.length + 1 by
        rw [hc, List.length_append]
        omega)
    have hlength : s'.length < next.rest.length + 1 := by
      have := length_le_indented k false s'
      rw [hr, List.length_append]
      omega
    obtain ⟨last, hlast, hend⟩ := readLines_written hp'.2 hs' hs'ne hr hnext hj hrest hlength
    exact ⟨bs, w, next, last, hread, by rw [chompFor_append hs' hs'ne, hlast]; rfl, hend⟩

end

def given (m : Nat) (s : List Char) : Option Nat := if showsIndent s then some (m + 2) else none

theorem read_header {m : Nat} {s rest : List Char} {c : Cursor} (hc : c.rest = mark s ++ '\n' :: rest) :
    ∃ start, start.rest = rest ∧ start.column = 0 ∧
      read true m c = (readEmptyLines (given m s) (start.rest.length + 1) 0 start).bind fun r =>
        readLines true (chompFor s) ((given m s).getD (max (max r.2.1 (m + 1)) 1)) (r.2.2.rest.length + 1)
          [] r.1 false r.2.2 := by
  have hr := Cursor.skip_rest_append hc
  have hcomment : (c.skip (mark s).length).skipComment isBlank = c.skip (mark s).length := by
    have hblank : (c.skip (mark s).length).skipWhile isBlank = c.skip (mark s).length :=
      Cursor.skipWhile_stops (hr ▸ stops_cons.2 rfl)
    have hsees : (c.skip (mark s).length).sees (· == '#') = false :=
      Cursor.sees_eq_false (hr ▸ stops_cons.2 rfl)
    rw [Cursor.skipComment, hblank, hsees]
    rfl
  have hends : endsLine (c.skip (mark s).length).peek = true := by
    rw [Cursor.peek, hr]
    rfl
  have hgiven : (if showsIndent s then some 2 else none).map
      (fun n => if 0 ≤ (m : Int) then (m : Int).toNat + n else n) = given m s := by
    rw [given]
    cases showsIndent s <;> simp
  refine ⟨_, Cursor.nextLine_rest_cons hr, Cursor.nextLine_column .., ?_⟩
  rw [read, hc, readHeader_mark]
  dsimp only [Option.bind_eq_bind, Option.bind_some]
  rw [hcomment, hends, if_neg (by simp), Cursor.takeBreak_cons hr rfl rfl]
  dsimp only
  rw [hgiven]
  rfl

theorem read_written {m j : Nat} {s rest : List Char} {c : Cursor} (hp : ∀ x ∈ s, isPrintable x = true)
    (hne : s ≠ [])
    (hc : c.rest = mark s ++ '\n' :: (indented (m + 2) true s ++ (ending s ++ (spaces j ++ rest))))
    (hj : j ≤ m) (hrest : Inked rest) :
    ∃ next, read true m c = some (s, next) ∧ next.rest = rest ∧ next.column = j := by
  obtain ⟨start, hr, hcolumn, hread⟩ := read_header (m := m) hc
  rw [hread, given]
  cases hshows : showsIndent s with
  | true =>
      obtain ⟨empty, w, next, last, hempty, hlines, hend⟩ := readLines_start hcolumn
        (show j < m + 2 by omega) hrest hp hne hr
      refine ⟨last, ?_, hend⟩
      rw [if_pos rfl, hempty]
      exact hlines
  | false =>
      cases s with
      | nil => exact absurd rfl hne
      | cons x s =>
          simp only [showsIndent, List.head?_cons, Option.any_some, Bool.or_eq_false_iff] at hshows
          have hbreak : Stops isBreak (x :: s) := stops_cons.2 hshows.2
          have hx : x ≠ ' ' ∧ x ≠ '\t' ∧ isBreak x = false :=
            ⟨by simpa [isSpace] using hshows.1,
              fun he => absurd (he ▸ hp x (List.mem_cons_self ..)) (by decide), hshows.2⟩
          rw [indented_start hbreak hne, List.append_assoc, indented_ink hshows.2, List.cons_append] at hr
          obtain ⟨next, hnext, hwidest, hempty⟩ := readEmptyLines_none hr hcolumn hx
          have hlength : (x :: s).length < next.rest.length + 1 := by
            have := length_le_indented (m + 2) false s
            rw [hnext, List.length_cons, List.length_cons, List.length_append]
            omega
          obtain ⟨last, hlines, hend⟩ := @readLines_written (m + 2) j (next.rest.length + 1) (x :: s) [] []
            rest false next hp hbreak hne (by rw [hnext, indented_ink hshows.2, List.cons_append]) hwidest
            (by omega) hrest hlength
          have hwidth : max (max (m + 2) (m + 1)) 1 = m + 2 := by omega
          refine ⟨last, ?_, hend⟩
          rw [if_neg (by decide), hempty, Option.bind_some, Option.getD_none, hwidth]
          exact hlines

end ChangeFeed.Yaml.Block
