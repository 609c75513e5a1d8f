import ChangeFeed.Proofs.Yaml.Cursor
import ChangeFeed.Yaml.Plain

namespace ChangeFeed.Yaml.Plain

open Printer (isPrintable isSpace hasNeighbours isStartIndicator hasInnerIndicator hasIndicator needsEscapes
  plainAllowed spaces)

theorem hasInnerIndicator_append {xs cs : List Char} (h : hasInnerIndicator (xs ++ cs) = false) :
    hasInnerIndicator cs = false := by
  induction xs with
  | nil => exact h
  | cons x xs ih =>
      cases hxs : xs ++ cs with
      | nil =>
          obtain rfl := (List.append_eq_nil_iff.1 hxs).2
          rfl
      | cons y ys =>
          rw [List.cons_append, hxs, hasInnerIndicator, Bool.or_eq_false_iff] at h
          exact ih (hxs ▸ h.2)

/-- A text that can stand plain, from the beginning of one of its words on. -/
structure Written (cs : List Char) : Prop where
  printable : ∀ c ∈ cs, isPrintable c = true ∧ isBreak c = false
  blank : Stops isBlank cs
  comment : Stops (· == '#') cs
  colon : ∀ rest, cs = ':' :: rest → endsWord rest.head? = false
  last : cs.getLast?.any isSpace = false
  inner : hasInnerIndicator cs = false

namespace Written

variable {cs : List Char}

theorem colon_append (h : Written cs) {xs rest : List Char} (he : cs = xs ++ ':' :: rest) :
    endsWord rest.head? = false := by
  cases hx : xs.getLast? with
  | none =>
      rw [List.getLast?_eq_none_iff] at hx
      subst hx
      exact h.colon rest he
  | some x =>
      obtain ⟨ys, rfl⟩ := List.getLast?_eq_some_iff.1 hx
      have hinner := h.inner
      rw [he, List.append_assoc] at hinner
      have hends := hasInnerIndicator_append hinner
      simp [hasInnerIndicator] at hends
      exact hends.1

theorem after {xs rest : List Char} {b : Char} (h : Written (xs ++ b :: rest))
    (hb : isBlank b = true) (hrest : Stops isBlank rest) : Written rest where
  printable c hc := h.printable c (by simp [hc])
  blank := hrest
  comment := by
    have hinner := hasInnerIndicator_append h.inner
    cases rest with
    | nil => exact stops_nil _
    | cons c rest =>
        simp only [hasInnerIndicator, Bool.or_eq_false_iff, Bool.and_eq_false_iff] at hinner
        rcases hinner.1.2 with hc | hc
        · exact stops_cons.2 hc
        · simp [endsWord, hb] at hc
  colon r hr := by
    have hinner := hasInnerIndicator_append h.inner
    subst hr
    simp [hasInnerIndicator] at hinner
    exact hinner.1
  last := by
    have hlast := h.last
    cases rest with
    | nil => rfl
    | cons c rest =>
        rw [List.append_cons, List.getLast?_append, Option.or_of_isSome (by simp)] at hlast
        exact hlast
  inner := by
    have hinner : hasInnerIndicator ((xs ++ [b]) ++ rest) = false := by simpa using h.inner
    exact hasInnerIndicator_append hinner

theorem split (h : Written cs) (hne : cs ≠ []) : ∃ w cs', cs = w ++ cs' ∧ w ≠ [] ∧
    (∀ x ∈ w, isBlank x = false) ∧ (∀ x ∈ cs'.head?, isBlank x = true) ∧
    (cs' = [] ∨ ∃ blanks rest, cs' = blanks ++ rest ∧ (∀ x ∈ blanks, isBlank x = true) ∧
      Written rest ∧ rest ≠ []) := by
  obtain ⟨w, cs', rfl, hw, hstop⟩ := exists_run (!isBlank ·) cs
  have hhead : ∀ x ∈ cs'.head?, isBlank x = true := fun x hx => by simpa using hstop x hx
  have hwne : w ≠ [] := by
    rintro rfl
    obtain ⟨x, hx⟩ := Option.isSome_iff_exists.1 (List.isSome_head?.2 hne)
    have hblank := h.blank x hx
    rw [hhead x hx] at hblank
    cases hblank
  refine ⟨w, cs', rfl, hwne, fun x hx => by simpa using hw x hx, hhead, ?_⟩
  obtain ⟨blanks, rest, rfl, hblanks, hrest⟩ := exists_run isBlank cs'
  cases hb : blanks.getLast? with
  | none =>
      obtain rfl := List.getLast?_eq_none_iff.1 hb
      cases rest with
      | nil => exact .inl rfl
      | cons x rest =>
          have hx := hhead x rfl
          rw [hrest x rfl] at hx
          cases hx
  | some b =>
      obtain ⟨blanks, rfl⟩ := List.getLast?_eq_some_iff.1 hb
      have hbb : isBlank b = true := hblanks b (by simp)
      refine .inr ⟨blanks ++ [b], rest, rfl, hblanks, ?_, ?_⟩
      · exact after (show Written ((w ++ blanks) ++ b :: rest) by simpa using h) hbb hrest
      · rintro rfl
        obtain rfl := isBlank_printable hbb (h.printable b (by simp)).1
        have hlast := h.last
        simp [isSpace] at hlast

end Written

theorem readWord_append {w rest : List Char}
    (hw : ∀ c ∈ w, isBlank c = false ∧ isBreak c = false)
    (hcolon : ∀ xs ys, w = xs ++ ':' :: ys → endsWord (ys ++ rest).head? = false)
    (hrest : readWord false rest = some []) : readWord false (w ++ rest) = some w := by
  induction w with
  | nil => exact hrest
  | cons c w ih =>
      obtain ⟨hblank, hbreak⟩ := hw c (List.mem_cons_self ..)
      have hgoes : ¬(c = ':' ∧ endsWord (w ++ rest).head? = true) := by
        rintro ⟨rfl, he⟩
        rw [hcolon [] w rfl] at he
        cases he
      have ih' := ih (fun d hd => hw d (List.mem_cons_of_mem _ hd)) fun xs ys he =>
        hcolon (c :: xs) ys (by rw [he]; rfl)
      rw [List.cons_append, readWord, if_neg (by simp [hblank, hbreak]), if_neg (by simp),
        if_neg hgoes, if_neg (by simp), ih']
      rfl

theorem readWord_blank {x : Char} {rest : List Char} (h : isBlank x = true ∨ isBreak x = true) :
    readWord false (x :: rest) = some [] := by
  rw [readWord, if_pos (by simpa using h)]

theorem readBreaks_stops {indent fuel : Nat} {c : Cursor} (h : Stops isBreak c.rest) :
    readBreaks indent fuel c = some ([], c) := by
  cases fuel with
  | zero => rfl
  | succ fuel => simp [readBreaks, Cursor.takeBreak_stops h]

theorem readGap_blanks (indent : Nat) {c : Cursor} {blanks rest : List Char}
    (h : c.rest = blanks ++ rest) (hblanks : ∀ x ∈ blanks, isBlank x = true) (hrest : Inked rest) :
    readGap indent c = some ⟨blanks, [], c.skip blanks.length⟩ := by
  have hstop : Stops isBreak (c.skip blanks.length).rest := by simpa [h] using hrest.2
  simp [readGap, Cursor.takeWhile_append h hblanks hrest.1, readBreaks_stops hstop]

theorem readGap_newline (indent : Nat) {k : Nat} {c : Cursor} {rest : List Char}
    (h : c.rest = '\n' :: (spaces k ++ rest)) (hrest : Inked rest) :
    ∃ next, readGap indent c = some ⟨[], ['\n'], next⟩ ∧ next.rest = rest ∧ next.column = k := by
  have hspaces : ∀ x ∈ spaces k, isBlank x = true := by simp [spaces, isBlank]
  have hr := Cursor.nextLine_rest_cons h
  have htab : hasTabBefore indent (c.nextLine 1) = false := by
    rw [hasTabBefore, hr, takeWhile_append hspaces hrest.1]
    simp [spaces]
  have hnext := Cursor.skip_rest_append hr
  have hstop : Stops isBreak ((c.nextLine 1).skip (spaces k).length).rest := hnext ▸ hrest.2
  have hbreaks (fuel : Nat) : readBreaks indent (fuel + 1) c =
      some (['\n'], (c.nextLine 1).skip (spaces k).length) := by
    rw [readBreaks, Cursor.takeBreak_cons h rfl rfl]
    simp only [htab, Cursor.skipWhile_append hr hspaces hrest.1, readBreaks_stops hstop]
    rfl
  have hlength : c.rest.length = (spaces k ++ rest).length + 1 := by simp [h]
  refine ⟨_, ?_, hnext, by simp [spaces]⟩
  rw [readGap, Cursor.takeWhile_stops (by rw [h]; simp [isBlank])]
  simp [hlength, hbreaks]

theorem readWord_written {w cs' : List Char} (h : Written (w ++ cs')) (hw : ∀ x ∈ w, isBlank x = false)
    (hcs : ∀ x ∈ cs'.head?, isBlank x = true) (tail : List Char) :
    readWord false (w ++ (cs' ++ '\n' :: tail)) = some w := by
  refine readWord_append (fun x hx => ⟨hw x hx, (h.printable x (by simp [hx])).2⟩) (fun xs ys he => ?_) ?_
  · have hcolon := h.colon_append (show w ++ cs' = xs ++ ':' :: (ys ++ cs') by simp [he])
    rw [← List.append_assoc]
    cases hys : ys ++ cs' with
    | nil => simp [hys, endsWord] at hcolon
    | cons y ys' =>
        rw [hys] at hcolon
        exact hcolon
  · cases cs' with
    | nil => exact readWord_blank (.inr rfl)
    | cons x cs' => exact readWord_blank (.inl (hcs x rfl))

theorem readWords_gap {indent fuel : Nat} {gap w : List Char} {later : Bool} {c : Cursor} {g : Gap}
    (hcolumn : 0 < c.column) (hcomment : c.sees (· == '#') = false)
    (hword : readWord false c.rest = some w) (hne : w ≠ [])
    (hends : ((c.skip w.length).sees fun d => isBlank d || isBreak d) = true)
    (hgap : readGap indent (c.skip w.length) = some g) :
    readWords false indent (fuel + 1) gap later c =
      if g.next.column < indent then some ⟨gap ++ w, !g.breaks.isEmpty, g.next⟩
      else (readWords false indent fuel g.folded (!g.breaks.isEmpty) g.next).map
        fun r => { r with text := gap ++ w ++ r.text } := by
  rw [readWords, Cursor.atAnyMarker_of_column hcolumn, hcomment]
  simp [hword, hne, hends, hgap]
  split
  next => rfl
  next => cases readWords false indent fuel g.folded (!g.breaks.isEmpty) g.next <;> rfl

/-- What a text says that is written from here on to the end of the line, with the indentation of the
next line. -/
theorem readWords_written {indent k fuel : Nat} {cs gap rest : List Char} {later : Bool} {c : Cursor}
    (h : Written cs) (hne : cs ≠ []) (hc : c.rest = cs ++ '\n' :: (spaces k ++ rest))
    (hfuel : cs.length < fuel) (hcolumn : 0 < c.column ∧ indent ≤ c.column) (hk : k < indent)
    (hrest : Inked rest) :
    ∃ next, readWords false indent fuel gap later c = some ⟨gap ++ cs, true, next⟩ ∧
      next.rest = rest ∧ next.column = k := by
  induction fuel generalizing cs gap later c with
  | zero => cases hfuel
  | succ fuel ih =>
      obtain ⟨w, cs', rfl, hwne, hw, hhead, hcs⟩ := h.split hne
      have hr : c.rest = w ++ (cs' ++ '\n' :: (spaces k ++ rest)) := by simp [hc]
      have hcomment : c.sees (· == '#') = false := Cursor.sees_eq_false (hc ▸ h.comment.append hne _)
      have hword : readWord false c.rest = some w := hr ▸ readWord_written h hw hhead _
      have hr' := Cursor.skip_rest_append hr
      have hends : ((c.skip w.length).sees fun d => isBlank d || isBreak d) = true := by
        rw [Cursor.sees, Cursor.peek, hr']
        cases cs' with
        | nil => rfl
        | cons x cs' => simp [hhead x rfl]
      rcases hcs with rfl | ⟨blanks, cs, rfl, hblanks, h', hrne⟩
      · obtain ⟨next, hgap, hnext, hcol⟩ := readGap_newline indent hr' hrest
        rw [readWords_gap hcolumn.1 hcomment hword hwne hends hgap, if_pos (hcol ▸ hk)]
        exact ⟨next, by simp, hnext, hcol⟩
      · rw [List.append_assoc] at hr'
        have hink : Inked (cs ++ '\n' :: (spaces k ++ rest)) :=
          ⟨h'.blank.append hrne _, Stops.append
            (fun x hx => (h'.printable x (List.mem_of_mem_head? hx)).2) hrne _⟩
        have hgap := readGap_blanks indent hr' hblanks hink
        have hpast : ¬((c.skip w.length).skip blanks.length).column < indent := by
          simp only [Cursor.skip_column]
          omega
        have hlength : cs.length < fuel := by
          have := List.length_pos_iff.2 hwne
          simp only [List.length_append] at hfuel
          omega
        obtain ⟨next, hread, hnext⟩ := @ih cs blanks false ((c.skip w.length).skip blanks.length) h' hrne
          (Cursor.skip_rest_append hr') hlength
          ⟨by simp only [Cursor.skip_column]; omega, Nat.not_lt.1 hpast⟩
        rw [readWords_gap hcolumn.1 hcomment hword hwne hends hgap, if_neg hpast]
        exact ⟨next, (congrArg (Option.map _) hread).trans (by simp), hnext⟩

theorem read_written {m k : Nat} {cs rest : List Char} {c : Cursor} (h : Written cs) (hne : cs ≠ [])
    (hc : c.rest = cs ++ '\n' :: (spaces k ++ rest)) (hcolumn : m < c.column) (hk : k ≤ m)
    (hrest : Inked rest) :
    ∃ next, read false m c = some ⟨cs, true, next⟩ ∧ next.rest = rest ∧ next.column = k := by
  have hfuel : cs.length < c.rest.length + 1 := by
    rw [hc, List.length_append]
    omega
  exact readWords_written h hne hc hfuel (by omega) (by omega) hrest

/-- What the first character of a plain text is not. -/
def CanStart (c : Char) (next : Option Char) : Prop :=
  isStartIndicator c = false ∧ ((c = '?' ∨ c = ':' ∨ c = '-') → endsWord next = false)

theorem written_of_allowed {c : Char} {cs : List Char} (h : plainAllowed (c :: cs) = true) :
    Written (c :: cs) ∧ CanStart c cs.head? := by
  simp only [plainAllowed, needsEscapes, Bool.and_eq_true, Bool.not_eq_true', Bool.or_eq_false_iff,
    List.any_eq_false, Bool.not_eq_true] at h
  obtain ⟨⟨⟨⟨⟨hprintable, -⟩, hbreak⟩, hindicator⟩, hfirst⟩, hlast⟩ := h
  have hp (d : Char) (hd : d ∈ c :: cs) : isPrintable d = true := by simpa using hprintable d hd
  simp only [hasIndicator, Bool.or_eq_false_iff] at hindicator
  obtain ⟨⟨-, hstart, hends⟩, hinner⟩ := hindicator
  have hcan : CanStart c cs.head? := ⟨hstart, fun hc => by
    rcases hc with rfl | rfl | rfl <;> simpa using hends⟩
  have hblank : isBlank c = false :=
    isBlank_of_ne (hp c (List.mem_cons_self ..)) (by simpa [isSpace] using hfirst)
  have hcomment : (c == '#') = false := by
    cases hc : c == '#' with
    | false => rfl
    | true =>
        obtain rfl := beq_iff_eq.1 hc
        exact absurd hstart (by decide)
  refine ⟨⟨fun d hd => ⟨hp d hd, by simpa using hbreak d hd⟩, stops_cons.2 hblank,
    stops_cons.2 hcomment, ?_, hlast, hinner⟩, hcan⟩
  rintro rest ⟨⟩
  exact hcan.2 (.inr (.inl rfl))

def isWordChar (c : Char) : Bool := c.isAlphanum || c == '_'

structure IsWord (w : List Char) : Prop where
  nonempty : w ≠ []
  chars : ∀ c ∈ w, isWordChar c = true

theorem isWordChar_lt {c : Char} (h : isWordChar c = true) : c.toNat < 128 := by
  delta isWordChar Char.isAlphanum Char.isAlpha Char.isUpper Char.isLower Char.isDigit at h
  simp only [Bool.or_eq_true, Bool.and_eq_true, decide_eq_true_eq, beq_iff_eq,
    UInt32.le_iff_toNat_le] at h
  rcases h with ((⟨-, h⟩ | ⟨-, h⟩) | ⟨-, h⟩) | rfl
  · exact Nat.lt_of_le_of_lt h (by decide)
  · exact Nat.lt_of_le_of_lt h (by decide)
  · exact Nat.lt_of_le_of_lt h (by decide)
  · decide

theorem wordChar {c : Char} (h : isWordChar c = true) :
    isPrintable c = true ∧ isBreak c = false ∧ isBlank c = false ∧ isStartIndicator c = false ∧
      c ∉ [':', '?', '-', '.'] := by
  have hall : ∀ n < 128, isWordChar (Char.ofNat n) = true →
      isPrintable (Char.ofNat n) = true ∧ isBreak (Char.ofNat n) = false ∧
        isBlank (Char.ofNat n) = false ∧ isStartIndicator (Char.ofNat n) = false ∧
        Char.ofNat n ∉ [':', '?', '-', '.'] := by decide +kernel
  simpa using hall c.toNat (isWordChar_lt h) (by simpa using h)

theorem read_key {parentIndent : Int} {w rest : List Char} {x : Char} {c : Cursor} (h : IsWord w)
    (hc : c.rest = w ++ ':' :: x :: rest) (hx : endsWord (some x) = true) :
    read false parentIndent c = some ⟨w, false, c.skip w.length⟩ := by
  have hword : readWord false c.rest = some w := by
    rw [hc]
    refine readWord_append (fun d hd => ?_) (fun xs ys he => ?_) ?_
    · obtain ⟨-, hbreak, hblank, -⟩ := wordChar (h.chars d hd)
      exact ⟨hblank, hbreak⟩
    · have hcolon := (wordChar (h.chars ':' (by simp [he]))).2.2.2.2
      simp at hcolon
    · rw [readWord, if_neg (by simp [isBlank, isBreak]), if_neg (by simp), if_pos ⟨rfl, hx⟩]
  have hfirst : ∃ d ds, c.rest = d :: ds ∧ isWordChar d = true := by
    cases w with
    | nil => exact absurd rfl h.nonempty
    | cons d w => exact ⟨d, _, hc, h.chars d (List.mem_cons_self ..)⟩
  obtain ⟨d, ds, hd, hdw⟩ := hfirst
  have hmarker (mark : Char) (hm : isWordChar mark = false) : c.atMarker mark = false := by
    have hne : d ≠ mark := fun he => by simp [← he, hdw] at hm
    simp [Cursor.atMarker, hd, hne]
  have hcomment : c.sees (· == '#') = false := by
    have hne : d ≠ '#' := fun he => absurd (he ▸ hdw) (by decide)
    simp [Cursor.sees, Cursor.peek, hd, hne]
  have hends : ((c.skip w.length).sees fun d => isBlank d || isBreak d) = false := by
    rw [Cursor.sees, Cursor.peek, Cursor.skip_rest_append hc]
    rfl
  simp [read, readWords, Cursor.atAnyMarker, hmarker '-' (by decide), hmarker '.' (by decide),
    hcomment, hword, h.nonempty, hends]

theorem hasInnerIndicator_words {a : Char} {w : List Char} (hw : ∀ c ∈ w, isWordChar c = true) :
    hasInnerIndicator (a :: w) = false := by
  induction w generalizing a with
  | nil => rfl
  | cons b w ih =>
      have hb := (wordChar (hw b (List.mem_cons_self ..))).2.2.2
      have hcolon : b ≠ ':' := fun he => by simp [he] at hb
      have hcomment : b ≠ '#' := fun he => absurd (he ▸ hb.1) (by decide)
      simp [hasInnerIndicator, hcolon, hcomment, ih fun c hc => hw c (List.mem_cons_of_mem _ hc)]

theorem hasNeighbours_of_right {p q : Char → Bool} {s : List Char} (h : ∀ c ∈ s, q c = false) :
    hasNeighbours p q s = false := by
  induction s with
  | nil => rfl
  | cons a s ih =>
      cases s with
      | nil => rfl
      | cons b s =>
          rw [hasNeighbours, h b (by simp), ih fun c hc => h c (List.mem_cons_of_mem _ hc)]
          simp

section

variable {a : Char} {w : List Char} (ha : isWordChar a = true ∨ a = '-' ∧ w ≠ [])
  (hw : ∀ c ∈ w, isWordChar c = true)
include ha hw

theorem hasIndicator_cons : hasIndicator (a :: w) = false := by
  have hstart : isStartIndicator a = false ∧ a ≠ '?' ∧ a ≠ ':' ∧ a ≠ '.' := by
    rcases ha with ha | ⟨rfl, -⟩
    · have h := (wordChar ha).2.2.2
      simp at h
      exact ⟨h.1, h.2.2.1, h.2.1, h.2.2.2.2⟩
    · decide
  have hminus : a = '-' → endsWord w.head? = false ∧ w.take 2 ≠ ['-', '-'] := by
    rintro rfl
    cases w with
    | nil => simp [isWordChar] at ha
    | cons b w =>
        have hb := wordChar (hw b (List.mem_cons_self ..))
        refine ⟨by simp [endsWord, hb.2.1, hb.2.2.1], fun he => ?_⟩
        have hb' : b = '-' := by simpa using congrArg List.head? he
        simp [hb'] at hb
  simp only [hasIndicator, hasInnerIndicator_words hw, hstart.1, Bool.or_false, Bool.false_or,
    Bool.or_eq_false_iff]
  refine ⟨⟨?_, ?_⟩, ?_⟩
  · simpa using fun he => (hminus he).2
  · simp [hstart.2.2.2]
  · simpa [hstart.2.1, hstart.2.2.1] using fun he => (hminus he).1

theorem plainAllowed_cons : plainAllowed (a :: w) = true := by
  have hword {c : Char} (hc : isWordChar c = true) :
      isPrintable c = true ∧ isBreak c = false ∧ isSpace c = false := by
    have h := wordChar hc
    have hblank := h.2.2.1
    simp only [isBlank, Bool.or_eq_false_iff] at hblank
    exact ⟨h.1, h.2.1, hblank.1⟩
  have hall (c : Char) (hc : c ∈ a :: w) :
      isPrintable c = true ∧ isBreak c = false ∧ isSpace c = false := by
    rcases List.mem_cons.1 hc with rfl | hc
    · rcases ha with ha | ⟨rfl, -⟩
      · exact hword ha
      · decide
    · exact hword (hw c hc)
  have hescapes : needsEscapes (a :: w) = false := by
    rw [needsEscapes, hasNeighbours_of_right fun c hc => (hall c hc).2.1, Bool.or_false,
      List.any_eq_false]
    intro c hc
    simp [(hall c hc).1]
  have hbreak : (a :: w).any isBreak = false :=
    List.any_eq_false.2 fun c hc => by simp [(hall c hc).2.1]
  have hlast : (a :: w).getLast?.any isSpace = false := by
    obtain ⟨b, hb⟩ := Option.isSome_iff_exists.1 (List.getLast?_isSome.2 (List.cons_ne_nil a w))
    rw [hb]
    exact (hall b (List.mem_of_getLast? hb)).2.2
  have hfirst : isSpace a = false := (hall a (List.mem_cons_self ..)).2.2
  simp [plainAllowed, hescapes, hbreak, hasIndicator_cons ha hw, hlast, hfirst]

end

end ChangeFeed.Yaml.Plain
