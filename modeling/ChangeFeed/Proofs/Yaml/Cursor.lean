import ChangeFeed.Proofs.Lists
import ChangeFeed.Yaml.Printer
import ChangeFeed.Yaml.Quoted

namespace ChangeFeed.Yaml

open Printer (isPrintable)

def Stops (p : Char → Bool) (rest : List Char) : Prop := ∀ c ∈ rest.head?, p c = false

@[simp] theorem stops_nil (p : Char → Bool) : Stops p [] := nofun

@[simp] theorem stops_cons {p : Char → Bool} {c : Char} {rest : List Char} :
    Stops p (c :: rest) ↔ p c = false := by
  simp [Stops]

theorem Stops.append {p : Char → Bool} {xs : List Char} (h : Stops p xs) (hne : xs ≠ [])
    (rest : List Char) : Stops p (xs ++ rest) := by
  cases xs with
  | nil => exact absurd rfl hne
  | cons x xs => exact stops_cons.2 (stops_cons.1 h)

theorem takeWhile_append {p : Char → Bool} {xs rest : List Char} (hxs : ∀ x ∈ xs, p x = true)
    (hrest : Stops p rest) : (xs ++ rest).takeWhile p = xs := by
  rw [List.takeWhile_append_of_pos hxs]
  cases rest with
  | nil => rw [List.takeWhile_nil, List.append_nil]
  | cons c rest => rw [List.takeWhile_cons_of_neg (by simp [stops_cons.1 hrest]), List.append_nil]

theorem exists_run (p : Char → Bool) (cs : List Char) :
    ∃ xs rest, cs = xs ++ rest ∧ (∀ x ∈ xs, p x = true) ∧ Stops p rest := by
  refine ⟨cs.takeWhile p, cs.dropWhile p, List.takeWhile_append_dropWhile.symm,
    fun x hx => List.all_eq_true.1 List.all_takeWhile x hx, fun c hc => ?_⟩
  have hstop := List.head?_dropWhile_not p cs
  rw [hc] at hstop
  exact hstop

theorem isBreak_printable {b : Char} (hb : isBreak b = true) (hp : isPrintable b = true) :
    b = '\n' ∨ b = '\u2028' ∨ b = '\u2029' := by
  simp only [isBreak, Bool.or_eq_true, beq_iff_eq] at hb
  rcases hb with (((rfl | rfl) | rfl) | rfl) | rfl
  · exact .inl rfl
  · exact absurd hp (by decide)
  · exact absurd hp (by decide)
  · exact .inr (.inl rfl)
  · exact .inr (.inr rfl)

theorem isBlank_printable {c : Char} (hc : isBlank c = true) (hp : isPrintable c = true) :
    c = ' ' := by
  simp only [isBlank, Bool.or_eq_true, beq_iff_eq] at hc
  rcases hc with rfl | rfl
  · rfl
  · exact absurd hp (by decide)

theorem isBlank_of_ne {c : Char} (hp : isPrintable c = true) (hc : c ≠ ' ') : isBlank c = false := by
  cases hb : isBlank c with
  | false => rfl
  | true => exact absurd (isBlank_printable hb hp) hc

namespace Cursor

variable {c : Cursor} {xs rest : List Char} {p : Char → Bool}

@[simp] theorem skip_rest (c : Cursor) (n : Nat) : (c.skip n).rest = c.rest.drop n := rfl

@[simp] theorem skip_column (c : Cursor) (n : Nat) : (c.skip n).column = c.column + n := rfl

@[simp] theorem nextLine_rest (c : Cursor) (n : Nat) : (c.nextLine n).rest = c.rest.drop n := rfl

@[simp] theorem nextLine_column (c : Cursor) (n : Nat) : (c.nextLine n).column = 0 := rfl

theorem skip_rest_append (h : c.rest = xs ++ rest) : (c.skip xs.length).rest = rest := by simp [h]

theorem nextLine_rest_cons {b : Char} (h : c.rest = b :: rest) : (c.nextLine 1).rest = rest := by
  simp [h]

theorem skip_zero (c : Cursor) : c.skip 0 = c := rfl

theorem skipWhile_append (h : c.rest = xs ++ rest) (hxs : ∀ x ∈ xs, p x = true)
    (hrest : Stops p rest) : c.skipWhile p = c.skip xs.length := by
  rw [skipWhile, h, Yaml.takeWhile_append hxs hrest]

theorem takeWhile_append (h : c.rest = xs ++ rest) (hxs : ∀ x ∈ xs, p x = true)
    (hrest : Stops p rest) : c.takeWhile p = (xs, c.skip xs.length) := by
  rw [takeWhile, skipWhile_append h hxs hrest, h, Yaml.takeWhile_append hxs hrest]

theorem takeWhile_stops (h : Stops p c.rest) : c.takeWhile p = ([], c) :=
  takeWhile_append (List.nil_append _).symm nofun h

theorem skipWhile_stops (h : Stops p c.rest) : c.skipWhile p = c := congrArg Prod.snd (takeWhile_stops h)

theorem sees_eq_false (h : Stops p c.rest) : c.sees p = false := by
  rw [sees, peek, Option.any_eq_false_iff_get]
  intro hs
  have := h _ (Option.get_mem hs)
  simpa using this

theorem takeBreak_stops (h : Stops isBreak c.rest) : c.takeBreak = none := by
  rw [takeBreak]
  split
  next hr =>
    rw [hr] at h
    exact absurd (stops_cons.1 h) (by decide)
  next b _ _ hr =>
    rw [hr] at h
    have hb := stops_cons.1 h
    rw [if_neg, hb, if_neg (by simp)]
    rintro (rfl | rfl) <;> exact absurd hb (by decide)
  next => rfl

theorem takeBreak_cons {b : Char} (h : c.rest = b :: rest) (hb : isBreak b = true)
    (hp : isPrintable b = true) : c.takeBreak = some (b, c.nextLine 1) := by
  rw [takeBreak, h]
  rcases isBreak_printable hb hp with rfl | rfl | rfl <;> rfl

theorem atMarker_of_column (h : 0 < c.column) (mark : Char) : c.atMarker mark = false := by
  simp [atMarker, Nat.ne_of_gt h]

theorem atAnyMarker_of_column (h : 0 < c.column) : c.atAnyMarker = false := by
  simp [atAnyMarker, atMarker_of_column h]

end Cursor

/-- What comes after a gap. -/
def Inked (rest : List Char) : Prop := Stops isBlank rest ∧ Stops isBreak rest

theorem readBreaks_append {fuel : Nat} {c : Cursor} {bs blanks rest : List Char}
    (h : c.rest = bs ++ (blanks ++ rest)) (hbs : ∀ b ∈ bs, isBreak b = true ∧ isPrintable b = true)
    (hblanks : ∀ x ∈ blanks, isBlank x = true) (hrest : Inked rest) (hnil : bs = [] → blanks = [])
    (hfuel : bs.length ≤ fuel) :
    ∃ next, readBreaks fuel c = (bs, next) ∧ next.rest = rest ∧
      next.column = if bs = [] then c.column else blanks.length := by
  induction bs generalizing fuel c with
  | nil =>
      obtain rfl := hnil rfl
      have hstop : Stops isBreak c.rest := h ▸ hrest.2
      refine ⟨c, ?_, h, rfl⟩
      cases fuel with
      | zero => rfl
      | succ fuel => rw [readBreaks, Cursor.takeBreak_stops hstop]
  | cons b bs ih =>
      obtain ⟨fuel, rfl⟩ := Nat.exists_eq_add_of_le' (Nat.le_trans (Nat.le_add_left 1 _) hfuel)
      have hb := hbs b (List.mem_cons_self ..)
      rw [readBreaks, Cursor.takeBreak_cons h hb.1 hb.2]
      dsimp only
      have hr : (c.nextLine 1).rest = bs ++ (blanks ++ rest) := by simp [h]
      cases bs with
      | nil =>
          rw [Cursor.skipWhile_append (show (c.nextLine 1).rest = blanks ++ rest from hr) hblanks hrest.1]
          have hstop : Stops isBreak ((c.nextLine 1).skip blanks.length).rest := by
            simpa [h] using hrest.2
          refine ⟨(c.nextLine 1).skip blanks.length, ?_, by simp [h], by simp⟩
          cases fuel with
          | zero => rfl
          | succ fuel => simp [readBreaks, Cursor.takeBreak_stops hstop]
      | cons b' bs =>
          have hb' := hbs b' (List.mem_cons_of_mem _ (List.mem_cons_self ..))
          have hblank : Stops isBlank (c.nextLine 1).rest := by
            rw [hr]
            rcases isBreak_printable hb'.1 hb'.2 with rfl | rfl | rfl <;> simp [isBlank]
          rw [Cursor.skipWhile_stops hblank]
          obtain ⟨next, hread, hnext, hcolumn⟩ := ih hr
            (fun x hx => hbs x (List.mem_cons_of_mem _ hx)) nofun (Nat.le_of_succ_le_succ hfuel)
          exact ⟨next, by simp [hread], hnext, by simpa using hcolumn⟩

theorem readGap_blanks {c : Cursor} {blanks rest : List Char} (h : c.rest = blanks ++ rest)
    (hblanks : ∀ x ∈ blanks, isBlank x = true) (hrest : Inked rest) :
    readGap c = ⟨blanks, [], c.skip blanks.length⟩ := by
  have hstop : Stops isBreak (c.skip blanks.length).rest := by simpa [h] using hrest.2
  rw [readGap, Cursor.takeWhile_append h hblanks hrest.1]
  dsimp only
  cases (c.skip blanks.length).rest.length with
  | zero => rfl
  | succ fuel => rw [readBreaks, Cursor.takeBreak_stops hstop]

theorem readGap_breaks {c : Cursor} {bs blanks rest : List Char} (h : c.rest = bs ++ (blanks ++ rest))
    (hbs : ∀ b ∈ bs, isBreak b = true ∧ isPrintable b = true)
    (hblanks : ∀ x ∈ blanks, isBlank x = true) (hrest : Inked rest) (hne : bs ≠ []) :
    ∃ next, readGap c = ⟨[], bs, next⟩ ∧ next.rest = rest ∧ next.column = blanks.length := by
  have hblank : Stops isBlank c.rest := by
    cases bs with
    | nil => exact absurd rfl hne
    | cons b bs =>
        have hb := hbs b (List.mem_cons_self ..)
        rw [h]
        rcases isBreak_printable hb.1 hb.2 with rfl | rfl | rfl <;> simp [isBlank]
  obtain ⟨next, hread, hnext, hcolumn⟩ := readBreaks_append h hbs hblanks hrest
    (fun hnil => absurd hnil hne) (show bs.length ≤ c.rest.length by simp [h])
  rw [readGap, Cursor.takeWhile_stops hblank]
  exact ⟨next, by simp [hread], hnext, by rw [hcolumn, if_neg hne]⟩

end ChangeFeed.Yaml
