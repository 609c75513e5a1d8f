import ChangeFeed.Proofs.Yaml.Lexer

namespace ChangeFeed.Yaml

open Printer (spaces plainAllowed singleAllowed literalAllowed)

def Printer.isPlain (s : List Char) : Bool :=
  !s.contains '\n' && (plainAllowed s && !isTyped s)

namespace Lexer

variable {l : Lexer} {column m j : Nat} {rest : List Char} {p : Progress} {allowed : Bool} {s : String}

theorem endLine_ink {cs : List Char} {c : Char} (h : isBreak c = false) :
    Printer.endLine (cs ++ [c]) = cs ++ [c] ++ ['\n'] := by
  simp [Printer.endLine, h]

theorem getLast?_indented (k : Nat) (atStart : Bool) (cs : List Char) :
    (Printer.indented k atStart cs).getLast? = cs.getLast? := by
  have hcons {c : Char} {xs ys : List Char} (h : xs.getLast? = ys.getLast?) :
      (c :: xs).getLast? = (c :: ys).getLast? := by
    rw [List.getLast?_cons, List.getLast?_cons, h]
  induction cs generalizing atStart with
  | nil => rfl
  | cons c cs ih =>
      rw [Printer.indented]
      split
      next => exact hcons (ih true)
      next =>
        split
        next =>
          rw [List.getLast?_append, Option.or_of_isSome (by simp)]
          exact hcons (ih false)
        next => exact hcons (ih false)

theorem endLine_literal (k : Nat) {cs : List Char} (hne : cs ≠ []) :
    Printer.endLine (Printer.literal k cs) =
      '|' :: (Block.mark cs ++ '\n' :: (Printer.indented k true cs ++ Block.ending cs)) := by
  have hlast : (Printer.literal k cs).getLast? = cs.getLast? := by
    have hsome : ('\n' :: Printer.indented k true cs).getLast? = cs.getLast? := by
      rw [List.getLast?_cons, getLast?_indented]
      cases hl : cs.getLast? with
      | none => exact absurd (List.getLast?_eq_none_iff.1 hl) hne
      | some c => rfl
    rw [Printer.literal, List.getLast?_append, Option.or_of_isSome (by simp), hsome]
  rw [Printer.endLine, hlast, Block.ending, Printer.literal, Block.literalHeader_eq]
  split <;> simp

theorem endLine_double (cs : List Char) :
    Printer.endLine (Printer.double cs) = Printer.double cs ++ ['\n'] :=
  endLine_ink (by decide)

theorem endLine_single (k : Nat) (cs : List Char) :
    Printer.endLine (Printer.single k cs) = Printer.single k cs ++ ['\n'] := by
  rw [Quoted.single_eq, ← List.cons_append]
  exact endLine_ink (by decide)

theorem printable_of_plain {cs : List Char} (h : plainAllowed cs = true) :
    ∀ c ∈ cs, Printer.isPrintable c = true ∧ isBreak c = false := by
  cases cs with
  | nil => nofun
  | cons c cs => exact (Plain.written_of_allowed h).1.printable

theorem endLine_plain {cs : List Char} (h : plainAllowed cs = true) (hne : cs ≠ []) :
    Printer.endLine cs = cs ++ ['\n'] := by
  rw [Printer.endLine, Block.getLast?_any (fun x hx => (printable_of_plain h x hx).2) hne]
  rfl

theorem printable_of_needsEscapes {cs : List Char} (h : Printer.needsEscapes cs = false) :
    ∀ c ∈ cs, Printer.isPrintable c = true := by
  rw [Printer.needsEscapes, Bool.or_eq_false_iff, List.any_eq_false] at h
  exact fun c hc => by simpa using h.1 c hc

theorem single_of_allowed {cs : List Char} (h : singleAllowed cs = true)
    (hn : cs.contains '\n' = false) : Quoted.Single cs := by
  simp only [singleAllowed, Bool.and_eq_true, Bool.not_eq_true'] at h
  have hprintable := printable_of_needsEscapes h.1
  rw [Printer.needsEscapes, Bool.or_eq_false_iff] at h
  refine ⟨fun c hc => ⟨hprintable c hc, ?_⟩, h.1.2, h.2⟩
  rintro rfl
  simp [hc] at hn

/-- The four styles of a text, each with what it needs. -/
theorem text_cases (k : Nat) (s : String) :
    (Printer.isPlain s.toList = true ∧ plainAllowed s.toList = true ∧ s.toList ≠ [] ∧
        Printer.endLine (Printer.text k s) = s.toList ++ ['\n']) ∨
      Printer.isPlain s.toList = false ∧
        ((Quoted.Single s.toList ∧
            Printer.endLine (Printer.text k s) = Printer.single k s.toList ++ ['\n']) ∨
          Printer.endLine (Printer.text k s) = Printer.double s.toList ++ ['\n'] ∨
          (∀ c ∈ s.toList, Printer.isPrintable c = true) ∧ s.toList ≠ [] ∧
            Printer.endLine (Printer.text k s) = '|' :: (Block.mark s.toList ++ '\n' ::
              (Printer.indented k true s.toList ++ Block.ending s.toList))) := by
  rw [Printer.text, Printer.style, Printer.isPlain]
  by_cases hn : s.toList.contains '\n' = true
  · rw [if_pos hn, hn]
    have hne : s.toList ≠ [] := List.ne_nil_of_mem (by simpa using hn)
    refine .inr ⟨rfl, .inr ?_⟩
    by_cases hliteral : literalAllowed s.toList = true
    · rw [if_pos hliteral]
      simp only [literalAllowed, Bool.and_eq_true, Bool.not_eq_true'] at hliteral
      exact .inr ⟨printable_of_needsEscapes hliteral.1, hne, endLine_literal k hne⟩
    · rw [if_neg hliteral]
      exact .inl (endLine_double _)
  · rw [if_neg hn]
    rw [Bool.not_eq_true] at hn
    rw [hn]
    by_cases hplain : (plainAllowed s.toList && !isTyped s.toList) = true
    · rw [if_pos hplain, hplain]
      rw [Bool.and_eq_true, Bool.not_eq_true'] at hplain
      have hne : s.toList ≠ [] := fun he => by
        rw [he] at hplain
        cases hplain.2
      exact .inl ⟨rfl, hplain.1, hne, endLine_plain hplain.1 hne⟩
    · rw [if_neg hplain]
      rw [Bool.not_eq_true] at hplain
      rw [hplain]
      refine .inr ⟨rfl, ?_⟩
      by_cases hsingle : singleAllowed s.toList = true
      · rw [if_pos hsingle]
        exact .inl ⟨single_of_allowed hsingle hn, endLine_single k _⟩
      · rw [if_neg hsingle]
        exact .inr (.inl (endLine_double _))

theorem reads_text (hm : p.indent = m) (hcolumn : m < column) (hj : j ≤ m) (hrest : Opens rest)
    (h : At l.settle column (Printer.endLine (Printer.text (m + 2) s) ++ (spaces j ++ rest)) p allowed) :
    Reads l [.scalar (Printer.isPlain s.toList) s] p j rest := by
  rcases text_cases (m + 2) s with ⟨hplain, hallowed, hne, he⟩ |
    ⟨hplain, ⟨hsingle, he⟩ | he | ⟨hprintable, hne, he⟩⟩
  · rw [he, List.append_assoc] at h
    have hreads := reads_plain hm hcolumn hj hrest h hallowed hne
    rwa [String.ofList_toList, ← hplain] at hreads
  · rw [he, List.append_assoc] at h
    rw [hplain]
    exact reads_single hm hcolumn hrest hsingle h
  · rw [he, List.append_assoc] at h
    rw [hplain]
    exact reads_double hm hcolumn hrest h
  · rw [he] at h
    rw [hplain]
    exact reads_literal hm hj hrest hprintable hne (by simpa using h)

theorem opens_cons {c : Char} {rest : List Char} (hblank : isBlank c = false) (hbreak : isBreak c = false)
    (hc : c ≠ '#') : Opens (c :: rest) :=
  ⟨⟨stops_cons.2 hblank, stops_cons.2 hbreak⟩, stops_cons.2 (by simpa using hc)⟩

theorem opens_plain {cs : List Char} (h : plainAllowed cs = true) (hne : cs ≠ []) (rest : List Char) :
    Opens (cs ++ rest) := by
  cases cs with
  | nil => exact absurd rfl hne
  | cons c cs =>
      have hw := (Plain.written_of_allowed h).1
      exact opens_cons (stops_cons.1 hw.blank) (hw.printable c (List.mem_cons_self ..)).2
        (by simpa using stops_cons.1 hw.comment)

theorem opens_text (k : Nat) (s : String) (rest : List Char) :
    Opens (Printer.endLine (Printer.text k s) ++ rest) := by
  rcases text_cases k s with ⟨-, hallowed, hne, he⟩ | ⟨-, ⟨-, he⟩ | he | ⟨-, -, he⟩⟩
  · rw [he, List.append_assoc]
    exact opens_plain hallowed hne _
  all_goals
    rw [he]
    exact opens_cons rfl rfl (by decide)

end Lexer

theorem allowed_of_printable {c : Char} (h : Printer.isPrintable c = true) : isAllowed c = true := by
  simp only [Printer.isPrintable, isAllowed, Bool.or_eq_true, Bool.and_eq_true, decide_eq_true_eq,
    beq_iff_eq, bne_iff_ne] at *
  omega

theorem all_allowed {cs : List Char} (h : ∀ c ∈ cs, Printer.isPrintable c = true) :
    cs.all isAllowed = true :=
  List.all_eq_true.2 fun c hc => allowed_of_printable (h c hc)

theorem allowed_spaces (k : Nat) : (spaces k).all isAllowed = true := by
  rw [spaces, List.all_replicate]
  cases k <;> rfl

theorem allowed_indented (k : Nat) (atStart : Bool) (cs : List Char) :
    (Printer.indented k atStart cs).all isAllowed = cs.all isAllowed := by
  induction cs generalizing atStart with
  | nil => rfl
  | cons c cs ih =>
      rw [Printer.indented]
      have hspaces := allowed_spaces k
      rw [spaces] at hspaces
      split
      next => simp [ih]
      next => split <;> simp [ih, hspaces]

theorem allowed_hexDigits (size n : Nat) :
    ((Text.hexDigits size n).map Char.toUpper).all isAllowed = true := by
  have hdigit : ∀ d < 16, isAllowed (Nat.digitChar d).toUpper = true := by decide
  induction size generalizing n with
  | zero => rfl
  | succ size ih =>
      rw [Text.hexDigits, List.map_append, List.all_append, ih]
      simpa using hdigit _ (Nat.mod_lt n (by decide))

theorem allowed_escape (c : Char) : (Printer.escape c).all isAllowed = true := by
  rw [Printer.escape]
  split
  next h =>
    simp only [Bool.and_eq_true] at h
    simpa using allowed_of_printable h.1.1.1
  next =>
    cases hl : Printer.shortEscapes.lookup c with
    | some letter =>
        obtain ⟨before, after, he, -⟩ := List.lookup_eq_some_iff.1 hl
        have hall : ∀ p ∈ Printer.shortEscapes, isAllowed p.2 = true := by decide
        have hletter := hall (c, letter) (by simp [he])
        simpa using ⟨rfl, hletter⟩
    | none =>
        have hcode {letter : Char} (hletter : isAllowed letter = true) (size : Nat) :
            ('\\' :: letter :: (Text.hexDigits size c.toNat).map Char.toUpper).all isAllowed = true := by
          rw [List.all_cons, List.all_cons, hletter, allowed_hexDigits]
          rfl
        dsimp only
        split
        next => exact hcode rfl 2
        next =>
          split
          next => exact hcode rfl 4
          next => exact hcode rfl 8

theorem allowed_text (k : Nat) (s : String) :
    (Printer.endLine (Printer.text k s)).all isAllowed = true := by
  rcases Lexer.text_cases k s with ⟨-, hallowed, -, he⟩ | ⟨-, ⟨hsingle, he⟩ | he | ⟨hprintable, -, he⟩⟩ <;>
    rw [he]
  · have hprintable : s.toList.all isAllowed = true :=
      all_allowed fun c hc => (Lexer.printable_of_plain hallowed c hc).1
    rw [List.all_append, hprintable]
    rfl
  · have hbody : (Quoted.singleBody k s.toList).all isAllowed = true := by
      have htwice : (Quoted.twice s.toList).all isAllowed = true := by
        rw [Quoted.twice, List.all_flatMap, List.all_eq_true]
        intro c hc
        have hchar := allowed_of_printable (hsingle.printable c hc).1
        split
        next => rfl
        next => simpa using hchar
      rw [Quoted.singleBody, List.all_append, allowed_indented, htwice]
      split
      next => exact allowed_spaces k
      next => rfl
    rw [Quoted.single_eq, List.all_append, List.all_cons, List.all_append, hbody]
    rfl
  · rw [Printer.double, List.all_append, List.cons_append, List.all_cons, List.all_append, List.all_flatMap,
      List.all_eq_true.2 fun c _ => allowed_escape c]
    rfl
  · have hmark : (Block.mark s.toList).all isAllowed = true := by
      rw [Block.mark]
      cases Block.showsIndent s.toList <;> cases Block.chompFor s.toList <;> rfl
    have hending : (Block.ending s.toList).all isAllowed = true := by
      rw [Block.ending]
      split <;> rfl
    rw [List.all_cons, List.all_append, hmark, List.all_cons, List.all_append, allowed_indented,
      all_allowed hprintable, hending]
    rfl

end ChangeFeed.Yaml
