import ChangeFeed.Proofs.Yaml.Block
import ChangeFeed.Proofs.Yaml.Plain
import ChangeFeed.Yaml.Token

namespace ChangeFeed.Yaml.Lexer

open Printer (spaces)
open Plain (IsWord CanStart)

structure Progress where
  tokens : List Token
  indent : Int
  outer : List Int

namespace Progress

variable (p : Progress) {column : Int}

def add (ts : List Token) : Progress := { p with tokens := p.tokens ++ ts }

def openAt (column : Int) (first : Token) (ts : List Token) : Progress :=
  if p.indent < column then ⟨p.tokens ++ first :: ts, column, p.indent :: p.outer⟩ else p.add ts

def close (column : Int) : Progress :=
  let r := closeFrom column p.indent p.outer
  ⟨p.tokens ++ List.replicate r.1 .blockEnd, r.2.1, r.2.2⟩

theorem closeFrom_of_le {indent : Int} (outer : List Int) (h : indent ≤ column) :
    closeFrom column indent outer = (0, indent, outer) := by
  cases outer with
  | nil => rfl
  | cons i outer => rw [closeFrom, if_neg (by omega)]

variable {p}

@[simp] theorem add_indent (ts : List Token) : (p.add ts).indent = p.indent := rfl

@[simp] theorem add_nil : p.add [] = p := by simp [add]

theorem add_add (ts us : List Token) : (p.add ts).add us = p.add (ts ++ us) := by simp [add]

theorem openAt_self (h : p.indent = column) (first : Token) (ts : List Token) :
    p.openAt column first ts = p.add ts :=
  if_neg (by omega)

theorem openAt_deeper (h : p.indent < column) (first : Token) (ts : List Token) :
    p.openAt column first ts = ⟨p.tokens ++ first :: ts, column, p.indent :: p.outer⟩ :=
  if_pos h

theorem openAt_indent (h : p.indent ≤ column) (first : Token) (ts : List Token) :
    (p.openAt column first ts).indent = column := by
  rcases Int.lt_or_eq_of_le h with h | h
  · rw [openAt_deeper h]
  · rw [openAt_self h, add_indent, h]

theorem close_of_le (h : p.indent ≤ column) : p.close column = p := by
  rw [close, closeFrom_of_le p.outer h]
  simp

theorem close_cons {ts : List Token} {indent i : Int} {outer : List Int} (h : column < indent) :
    close ⟨ts, indent, i :: outer⟩ column = close ⟨ts ++ [.blockEnd], i, outer⟩ column := by
  rw [close, close, closeFrom, if_pos h]
  simp [List.replicate_succ]

theorem close_close {column' : Int} (h : column' ≤ column) : (p.close column).close column' = p.close column' := by
  obtain ⟨ts, indent, outer⟩ := p
  induction outer generalizing ts indent with
  | nil => simp [close, closeFrom]
  | cons i outer ih =>
      by_cases hi : column < indent
      · rw [close_cons hi, close_cons (by omega), ih]
      · rw [close_of_le (show Progress.indent ⟨ts, indent, i :: outer⟩ ≤ column from by dsimp only; omega)]

end Progress

def progress (l : Lexer) : Progress := ⟨l.tokens, l.indent, l.outerIndents⟩

/-- Passes to the next token, and closes the blocks that end there. -/
def settle (l : Lexer) : Lexer :=
  let l := skipToToken (l.cursor.rest.length + 1) l
  l.closeBlocks l.cursor.column

theorem run_token {fuel : Nat} {l l' : Lexer} {c : Char} (hc : l.settle.cursor.peek = some c)
    (h : l.settle.readToken c = some l') : run (fuel + 1) l = run fuel l' := by
  rw [settle] at hc h
  rw [run, hc]
  dsimp only [Option.bind_eq_bind]
  rw [h]
  rfl

/-- Nothing but the position, the progress and whether a key may begin matters. -/
structure At (l : Lexer) (column : Nat) (rest : List Char) (p : Progress) (allowed : Bool) : Prop where
  rest : l.cursor.rest = rest
  column : l.cursor.column = column
  progress : l.progress = p
  allowed : l.keyAllowed = allowed
  unbracketed : l.outerKeys = []
  free : l.possibleKey.any (·.required) = false

/-- A place where a token can stand, or the end. -/
structure Opens (rest : List Char) : Prop where
  ink : Inked rest
  comment : Stops (· == '#') rest

section

variable {l : Lexer} {k column : Nat} {rest : List Char} {p : Progress} {allowed : Bool}

theorem skipToToken_spaces (fuel : Nat) (hc : l.cursor.rest = spaces k ++ rest) (hrest : Opens rest) :
    skipToToken (fuel + 1) l = { l with cursor := l.cursor.skip k } := by
  have hspaces : ∀ x ∈ spaces k, l.isBlockTab x = true := by simp [spaces, isBlockTab]
  have hstop : Stops l.isBlockTab rest := fun x hx => by
    have hblank := hrest.ink.1 x hx
    simp only [isBlank, Bool.or_eq_false_iff] at hblank
    simp [isBlockTab, hblank.1, hblank.2]
  have hr : (l.cursor.skip (spaces k).length).rest = rest := Cursor.skip_rest_append hc
  have hsees : (l.cursor.skip (spaces k).length).sees (· == '#') = false :=
    Cursor.sees_eq_false (hr ▸ hrest.comment)
  have hbreak : (l.cursor.skip (spaces k).length).takeBreak = none :=
    Cursor.takeBreak_stops (hr ▸ hrest.ink.2)
  have hskip : l.cursor.skipComment l.isBlockTab = l.cursor.skip (spaces k).length := by
    rw [Cursor.skipComment, Cursor.skipWhile_append hc hspaces hstop, hsees]
    rfl
  rw [skipToToken, hskip, hbreak]
  simp [spaces]

theorem skipToToken_newline (fuel : Nat) (hc : l.cursor.rest = '\n' :: (spaces k ++ rest))
    (hrest : Opens rest) (hl : l.outerKeys = []) :
    skipToToken (fuel + 2) l =
      { l with cursor := (l.cursor.nextLine 1).skip k, keyAllowed := true } := by
  have hskip : l.cursor.skipComment l.isBlockTab = l.cursor := by
    have hstop : Stops l.isBlockTab l.cursor.rest := hc ▸ stops_cons.2 (by simp [isBlockTab])
    have hsees : l.cursor.sees (· == '#') = false := Cursor.sees_eq_false (hc ▸ stops_cons.2 rfl)
    rw [Cursor.skipComment, Cursor.skipWhile_stops hstop, hsees]
    rfl
  have hbrackets : (l.keyAllowed || !l.inBrackets) = true := by simp [inBrackets, hl]
  rw [skipToToken, hskip, Cursor.takeBreak_cons hc rfl rfl, hbrackets]
  exact skipToToken_spaces fuel (Cursor.nextLine_rest_cons hc) hrest

theorem at_closeBlocks (h : At l column rest p allowed) (n : Int) :
    At (l.closeBlocks n) column rest (p.close n) allowed := by
  have hbrackets : l.inBrackets = false := by simp [inBrackets, h.unbracketed]
  rw [closeBlocks, hbrackets, if_neg (by simp)]
  exact ⟨h.rest, h.column, by rw [← h.progress]; rfl, h.allowed, h.unbracketed, h.free⟩

theorem At.settle_spaces (h : At l column (spaces k ++ rest) p allowed) (hrest : Opens rest) :
    At l.settle (column + k) rest (p.close (column + k : Nat)) allowed := by
  rw [settle, skipToToken_spaces _ h.rest hrest]
  have hcolumn : (l.cursor.skip k).column = column + k := by rw [Cursor.skip_column, h.column]
  have hat : At { l with cursor := l.cursor.skip k } (column + k) rest p allowed :=
    ⟨by simp [h.rest, spaces], hcolumn, h.progress, h.allowed, h.unbracketed, h.free⟩
  simpa only [hcolumn] using at_closeBlocks hat ((l.cursor.skip k).column : Nat)

theorem At.settle_here (h : At l column rest p allowed) (hrest : Opens rest) :
    At l.settle column rest (p.close column) allowed :=
  At.settle_spaces (k := 0) h hrest

theorem At.settle_newline (h : At l column ('\n' :: (spaces k ++ rest)) p allowed)
    (hrest : Opens rest) : At l.settle k rest (p.close k) true := by
  have hlength : l.cursor.rest.length = (spaces k ++ rest).length + 1 := by rw [h.rest]; rfl
  rw [settle, hlength, skipToToken_newline _ h.rest hrest h.unbracketed]
  have hcolumn : ((l.cursor.nextLine 1).skip k).column = k := by simp
  have hat : At { l with cursor := (l.cursor.nextLine 1).skip k, keyAllowed := true } k rest p true :=
    ⟨by simp [h.rest, spaces], hcolumn, h.progress, rfl, h.unbracketed, h.free⟩
  simpa only [hcolumn] using at_closeBlocks hat (((l.cursor.nextLine 1).skip k).column : Nat)

end

theorem insertIdx_append (ts us : List Token) (t : Token) :
    (ts ++ us).insertIdx ts.length t = ts ++ t :: us := by
  induction ts with
  | nil => rfl
  | cons u ts ih => simp [ih]

section

variable {l : Lexer} {column : Nat} {c : Char} {rest : List Char} {p : Progress} {allowed : Bool}

theorem peek_eq {c : Cursor} {x : Char} (h : c.rest = x :: rest) : c.peek = some x := by
  rw [Cursor.peek, h]
  rfl

theorem peekAt_eq {c : Cursor} {x : Char} (h : c.rest = x :: rest) : c.peekAt 1 = rest.head? := by
  rw [Cursor.peekAt, h]
  cases rest <;> rfl

theorem atMarker_of_first {c : Cursor} {x mark : Char} (h : c.rest = x :: rest) (hx : x ≠ mark) :
    c.atMarker mark = false := by
  simp [Cursor.atMarker, h, hx]

theorem readToken_plain (h : At l column (c :: rest) p allowed) (hc : CanStart c rest.head?)
    (hink : isBlank c = false ∧ isBreak c = false)
    (hmark : l.cursor.atMarker '-' = false ∧ l.cursor.atMarker '.' = false) :
    l.readToken c = l.plainScalar := by
  have hbrackets : l.inBrackets = false := by simp [inBrackets, h.unbracketed]
  have hstart := hc.1
  simp only [Printer.isStartIndicator, decide_eq_false_iff_not, List.mem_cons, not_or] at hstart
  have hends : c = '?' ∨ c = ':' ∨ c = '-' → endsWord rest.head? = false := hc.2
  have hstarts : startsPlain false c rest.head? = true := by
    by_cases hmarks : c = '?' ∨ c = ':' ∨ c = '-'
    · have hword := hends hmarks
      have hblank : rest.head?.any isBlank = false := by
        cases hr : rest.head? with
        | none => rfl
        | some d =>
            rw [hr] at hword
            simp only [endsWord, Bool.or_eq_false_iff] at hword
            exact hword.1
      rcases hmarks with rfl | rfl | rfl <;> simp [startsPlain, hword, hblank]
    · simp only [not_or] at hmarks
      simp [startsPlain, hstart, hmarks, hink]
  have hmarks (d : Char) (hd : d = '?' ∨ d = ':' ∨ d = '-') : ¬(c = d ∧ endsWord rest.head? = true) := by
    rintro ⟨rfl, he⟩
    rw [hends hd] at he
    cases he
  have hminus := hmarks '-' (by simp)
  have hquestion := hmarks '?' (by simp)
  have hcolon := hmarks ':' (by simp)
  simp [readToken, peekAt_eq h.rest, hbrackets, hmark, hstart, hstarts, hminus, hquestion, hcolon]

theorem settle_self (hl : l.outerKeys = []) (hc : Opens l.cursor.rest) (h : l.indent ≤ l.cursor.column) :
    l.settle = l := by
  have hskip : skipToToken (l.cursor.rest.length + 1) l = l := skipToToken_spaces (k := 0) _ rfl hc
  rw [settle, hskip, closeBlocks, if_neg (by simp [inBrackets, hl]), Progress.closeFrom_of_le _ h]
  simp

theorem dropKey_free (h : l.possibleKey.any (·.required) = false) :
    l.dropKey = some { l with possibleKey := none } := by
  rw [dropKey, h, if_neg (by simp)]

def keyed (l : Lexer) : Lexer :=
  { l with possibleKey := some ⟨!l.inBrackets && l.indent == l.cursor.column, l.tokens.length, l.cursor⟩ }

theorem saveKey_allowed (ha : l.keyAllowed = true) (h : l.possibleKey.any (·.required) = false) :
    l.saveKey = some l.keyed := by
  rw [saveKey, ha, if_pos rfl, dropKey_free h]
  rfl

theorem saveKey_not_allowed (ha : l.keyAllowed = false) : l.saveKey = some l := by
  rw [saveKey, ha]
  rfl

def afterKey (l : Lexer) (name : List Char) : Lexer :=
  { l.keyed with keyAllowed := false, cursor := l.cursor.skip name.length }.add
    (.scalar true (String.ofList name))

theorem plainScalar_key {name : List Char} {x : Char} (hname : IsWord name)
    (h : At l column (name ++ ':' :: x :: rest) p true) (hx : endsWord (some x) = true) :
    l.plainScalar = some (l.afterKey name) := by
  have hbrackets : l.keyed.inBrackets = false := by simp [keyed, inBrackets, h.unbracketed]
  rw [plainScalar, saveKey_allowed h.allowed h.free]
  dsimp only [Option.bind_eq_bind, Option.bind_some]
  rw [hbrackets, show l.keyed.cursor = l.cursor from rfl, Plain.read_key hname h.rest hx]
  rfl

theorem openBlock_eq (hl : l.outerKeys = []) (position : Nat) (t : Token) :
    l.openBlock column position t =
      if l.indent < column then
        { l with
          indent := column
          outerIndents := l.indent :: l.outerIndents
          tokens := l.tokens.insertIdx position t }
      else l := by
  rw [openBlock, inBrackets, hl]
  simp [addAt]

def afterColon (l : Lexer) (name : List Char) : Lexer :=
  { ((l.afterKey name).addAt l.tokens.length .key).openBlock l.cursor.column l.tokens.length
      .blockMapStart with possibleKey := none, keyAllowed := false }.add .value |>.skip 1

theorem mapValue_afterKey {name : List Char} (hlength : name.length ≤ 1024) :
    (l.afterKey name).mapValue = some (l.afterColon name) := by
  have hlive : (l.afterKey name).liveKey = some (l.afterKey name).possibleKey := by
    have hexpired : (l.afterKey name).keyExpired ⟨!l.inBrackets && l.indent == l.cursor.column,
        l.tokens.length, l.cursor⟩ = false := by
      simp [keyExpired, afterKey, add, Cursor.skip]
      omega
    rw [liveKey, show (l.afterKey name).possibleKey = some ⟨!l.inBrackets && l.indent == l.cursor.column,
      l.tokens.length, l.cursor⟩ from rfl]
    dsimp only
    rw [hexpired]
    rfl
  rw [mapValue, hlive]
  rfl

theorem at_afterColon {name : List Char} {x : Char} (h : At l column (name ++ ':' :: x :: rest) p true) :
    At (l.afterColon name) (column + name.length + 1) (x :: rest)
      (p.openAt column .blockMapStart [.key, .scalar true (String.ofList name), .value]) false := by
  obtain ⟨hr, rfl, rfl, -, hl, -⟩ := h
  have htokens (us : List Token) (t : Token) :
      (l.tokens ++ us).insertIdx l.tokens.length t = l.tokens ++ t :: us := insertIdx_append ..
  have hrest : ((l.cursor.skip name.length).skip 1).rest = x :: rest := by simp [hr]
  rw [afterColon, openBlock_eq (show ((l.afterKey name).addAt l.tokens.length .key).outerKeys = [] from hl),
    Progress.openAt]
  by_cases hopen : l.indent < l.cursor.column
  · rw [if_pos (show ((l.afterKey name).addAt l.tokens.length .key).indent < _ from hopen),
      if_pos (show l.progress.indent < _ from hopen)]
    refine ⟨hrest, rfl, ?_, rfl, hl, rfl⟩
    simp [progress, skip, add, addAt, afterKey, keyed, htokens]
  · rw [if_neg (show ¬((l.afterKey name).addAt l.tokens.length .key).indent < _ from hopen),
      if_neg (show ¬l.progress.indent < _ from hopen)]
    refine ⟨hrest, rfl, ?_, rfl, hl, rfl⟩
    simp [progress, Progress.add, skip, add, addAt, afterKey, keyed, htokens]

theorem readToken_colon {x : Char} (h : l.cursor.rest = ':' :: x :: rest)
    (hx : endsWord (some x) = true) : l.readToken ':' = l.mapValue := by
  simp [readToken, peekAt_eq h, hx, atMarker_of_first h]

theorem key {name : List Char} {x : Char} (hname : IsWord name) (hlength : name.length ≤ 1024)
    (h : At l.settle column (name ++ ':' :: x :: rest) p true) (hx : endsWord (some x) = true)
    (hindent : p.indent ≤ column) :
    ∃ l', At l' (column + name.length + 1) (x :: rest)
        (p.openAt column .blockMapStart [.key, .scalar true (String.ofList name), .value]) false ∧
      ∀ fuel, run (fuel + 2) l = run fuel l' := by
  refine ⟨l.settle.afterColon name, at_afterColon h, fun fuel => ?_⟩
  have hfirst : run (fuel + 2) l = run (fuel + 1) (l.settle.afterKey name) := by
    cases name with
    | nil => exact absurd rfl hname.nonempty
    | cons d name =>
        obtain ⟨-, hbreak, hblank, hstart, hd⟩ := Plain.wordChar (hname.chars d (List.mem_cons_self ..))
        simp only [List.mem_cons, not_or] at hd
        refine run_token (peek_eq h.rest) ?_
        rw [readToken_plain h ⟨hstart, fun hm => by simp [hd] at hm⟩ ⟨hblank, hbreak⟩
          ⟨atMarker_of_first h.rest hd.2.2.1, atMarker_of_first h.rest hd.2.2.2.1⟩]
        exact plainScalar_key hname h hx
  have hrest : (l.settle.afterKey name).cursor.rest = ':' :: x :: rest :=
    Cursor.skip_rest_append h.rest
  have hsettle : (l.settle.afterKey name).settle = l.settle.afterKey name := by
    refine settle_self h.unbracketed (hrest ▸ ⟨⟨stops_cons.2 rfl, stops_cons.2 rfl⟩, stops_cons.2 rfl⟩) ?_
    have hi : l.settle.indent = p.indent := congrArg Progress.indent h.progress
    have hc : (l.settle.afterKey name).cursor.column = column + name.length := by
      rw [← h.column]
      rfl
    rw [hc, show (l.settle.afterKey name).indent = l.settle.indent from rfl, hi]
    omega
  rw [hfirst]
  refine run_token (hsettle ▸ peek_eq hrest) ?_
  rw [hsettle, readToken_colon hrest hx, mapValue_afterKey hlength]

theorem readToken_dash {x : Char} (h : l.cursor.rest = '-' :: x :: rest)
    (hx : endsWord (some x) = true) : l.readToken '-' = l.blockEntry := by
  have hne : x ≠ '-' := fun he => absurd (he ▸ hx) (by decide)
  have hmark : l.cursor.atMarker '-' = false := by simp [Cursor.atMarker, h, hne]
  simp [readToken, peekAt_eq h, hx, hmark, atMarker_of_first h]

def afterDash (l : Lexer) : Lexer :=
  { l.openBlock l.cursor.column l.tokens.length .blockListStart with
    possibleKey := none, keyAllowed := true }.add .blockEntry |>.skip 1

theorem openBlock_possibleKey (l : Lexer) (column position : Nat) (t : Token) :
    (l.openBlock column position t).possibleKey = l.possibleKey := by
  rw [openBlock]
  split <;> rfl

theorem blockEntry_eq (ha : l.keyAllowed = true) (h : l.possibleKey.any (·.required) = false) :
    l.blockEntry = some l.afterDash := by
  have hfree := (openBlock_possibleKey l l.cursor.column l.tokens.length .blockListStart).symm ▸ h
  rw [blockEntry, ha, if_neg (by simp), dropKey_free hfree]
  rfl

theorem at_afterDash {x : Char} (h : At l column ('-' :: x :: rest) p true) :
    At l.afterDash (column + 1) (x :: rest) (p.openAt column .blockListStart [.blockEntry]) true := by
  obtain ⟨hr, rfl, rfl, -, hl, -⟩ := h
  have htokens (t : Token) : l.tokens.insertIdx l.tokens.length t = l.tokens ++ [t] := by
    simp
  have hrest : (l.cursor.skip 1).rest = x :: rest := by simp [hr]
  rw [afterDash, openBlock_eq hl, Progress.openAt]
  by_cases hopen : l.indent < l.cursor.column
  · rw [if_pos hopen, if_pos (show l.progress.indent < _ from hopen)]
    refine ⟨hrest, rfl, ?_, rfl, hl, rfl⟩
    simp [progress, skip, add, htokens]
  · rw [if_neg hopen, if_neg (show ¬l.progress.indent < _ from hopen)]
    exact ⟨hrest, rfl, rfl, rfl, hl, rfl⟩

theorem dash {x : Char} (h : At l.settle column ('-' :: x :: rest) p true)
    (hx : endsWord (some x) = true) :
    ∃ l', At l' (column + 1) (x :: rest) (p.openAt column .blockListStart [.blockEntry]) true ∧
      ∀ fuel, run (fuel + 1) l = run fuel l' := by
  refine ⟨l.settle.afterDash, at_afterDash h, fun fuel => run_token (peek_eq h.rest) ?_⟩
  rw [readToken_dash h.rest hx, blockEntry_eq h.allowed h.free]

/-- A lexer goes on to the given place, past the given tokens. -/
def Reads (l : Lexer) (ts : List Token) (p : Progress) (j : Nat) (rest : List Char) : Prop :=
  ∃ l', At l'.settle j rest ((p.add ts).close j) true ∧ ∀ fuel, run (fuel + ts.length) l = run fuel l'

theorem At.saveKey (h : At l column rest p allowed) (hindent : p.indent < column) :
    ∃ l', l.saveKey = some l' ∧ l'.cursor = l.cursor ∧ At l' column rest p allowed := by
  cases allowed with
  | false => exact ⟨l, saveKey_not_allowed h.allowed, rfl, h⟩
  | true =>
      refine ⟨l.keyed, saveKey_allowed h.allowed h.free, rfl, h.rest, h.column, h.progress, h.allowed,
        h.unbracketed, ?_⟩
      have hne : l.indent ≠ l.cursor.column := by
        rw [show l.indent = p.indent from congrArg Progress.indent h.progress, h.column]
        omega
      simp [keyed, hne]

theorem At.inBrackets (h : At l column rest p allowed) : l.inBrackets = false := by
  simp [Lexer.inBrackets, h.unbracketed]

theorem At.indent (h : At l column rest p allowed) : l.indent = p.indent :=
  congrArg Progress.indent h.progress

theorem At.moved {rest' : List Char} {next : Cursor} {j : Nat} (h : At l column rest p allowed)
    (t : Token) (goesOn : Bool) (hrest : next.rest = rest') (hcolumn : next.column = j) :
    At ({ l with keyAllowed := goesOn, cursor := next }.add t) j rest' (p.add [t]) goesOn :=
  ⟨hrest, hcolumn, by rw [← h.progress]; rfl, rfl, h.unbracketed, h.free⟩

def afterOpen (l : Lexer) (t : Token) : Lexer :=
  { l with
    outerKeys := l.possibleKey :: l.outerKeys
    possibleKey := none
    keyAllowed := true }.add t |>.skip 1

def afterPair (l : Lexer) (first last : Token) : Lexer :=
  { l with
    tokens := l.tokens ++ [first, last]
    cursor := (l.cursor.skip 1).skip 1
    keyAllowed := false }

variable {m j : Nat} (hm : p.indent = m) (hcolumn : m < column) (hj : j ≤ m) (hrest : Opens rest)
include hm hcolumn hj hrest

theorem reads_plain {cs : List Char} (h : At l.settle column (cs ++ '\n' :: (spaces j ++ rest)) p allowed)
    (hcs : Printer.plainAllowed cs = true) (hne : cs ≠ []) :
    Reads l [.scalar true (String.ofList cs)] p j rest := by
  cases cs with
  | nil => exact absurd rfl hne
  | cons c cs =>
      obtain ⟨hwritten, hstart⟩ := Plain.written_of_allowed hcs
      have hc : isBlank c = false ∧ isBreak c = false :=
        ⟨stops_cons.1 hwritten.blank, (hwritten.printable c (List.mem_cons_self ..)).2⟩
      have hcan : CanStart c (cs ++ '\n' :: (spaces j ++ rest)).head? := by
        refine ⟨hstart.1, fun hmark => ?_⟩
        have hends := hstart.2 hmark
        cases cs with
        | nil => cases hends
        | cons d cs => exact hends
      obtain ⟨l₁, hsave, -, hl₁⟩ := h.saveKey (by omega)
      obtain ⟨next, hread, hnext, hj'⟩ := Plain.read_written hwritten hne hl₁.rest
        (show m < l₁.cursor.column by rw [hl₁.column]; exact hcolumn) hj hrest.ink
      have hmoved := hl₁.moved (.scalar true (String.ofList (c :: cs))) true hnext hj'
      refine ⟨_, hmoved.settle_here hrest, fun fuel => run_token (peek_eq h.rest) ?_⟩
      rw [readToken_plain h hcan hc ⟨Cursor.atMarker_of_column (by rw [h.column]; omega) _,
        Cursor.atMarker_of_column (by rw [h.column]; omega) _⟩, plainScalar, hsave]
      dsimp only [Option.bind_eq_bind, Option.bind_some]
      rw [hl₁.inBrackets, hl₁.indent, hm, hread]
      rfl

omit hj in
theorem reads_keyLike {c : Char} {body : List Char} {s : String} {next : Cursor}
    {read : Nat → Cursor → Option (List Char × Cursor)} (h : At l.settle column (c :: body) p allowed)
    (htoken : l.settle.readToken c = l.settle.keyLike (readQuoted read))
    (hread : read (body.length + 2) (l.settle.cursor.skip 1) = some (s.toList, next))
    (hnext : next.rest = '\n' :: (spaces j ++ rest)) : Reads l [.scalar false s] p j rest := by
  obtain ⟨l₁, hsave, hcursor, hl₁⟩ := h.saveKey (by omega)
  have hmoved := hl₁.moved (.scalar false s) false hnext rfl
  refine ⟨_, hmoved.settle_newline hrest, fun fuel => run_token (peek_eq h.rest) ?_⟩
  have hlength : l.settle.cursor.rest.length + 1 = body.length + 2 := by rw [h.rest]; rfl
  rw [htoken, keyLike, hsave]
  dsimp only [Option.bind_eq_bind, Option.bind_some]
  rw [hcursor, readQuoted, hlength, hread]
  simp

omit hj in
theorem reads_single {s : String} (hs : Quoted.Single s.toList)
    (h : At l.settle column (Printer.single (m + 2) s.toList ++ '\n' :: (spaces j ++ rest)) p allowed) :
    Reads l [.scalar false s] p j rest := by
  rw [Quoted.single_eq, List.cons_append, List.append_assoc] at h
  have hr : (l.settle.cursor.skip 1).rest =
      Quoted.singleBody (m + 2) s.toList ++ '\'' :: '\n' :: (spaces j ++ rest) := by simp [h.rest]
  have hlength := Quoted.length_le_singleBody (m + 2) s.toList
  obtain ⟨next, hread, hnext, -⟩ := Quoted.readSingle_written hs hr
    (show _ < (Quoted.singleBody (m + 2) s.toList ++ ('\'' :: '\n' :: (spaces j ++ rest))).length + 2 by
      rw [List.length_append]
      omega)
    (by rw [Cursor.skip_column]; omega) (by omega) (stops_cons.2 rfl)
  refine reads_keyLike hm hcolumn hrest h ?_ hread hnext
  simp [readToken, h.inBrackets, atMarker_of_first h.rest]

omit hj in
theorem reads_double {s : String}
    (h : At l.settle column (Printer.double s.toList ++ '\n' :: (spaces j ++ rest)) p allowed) :
    Reads l [.scalar false s] p j rest := by
  rw [Printer.double, List.cons_append, List.cons_append, List.append_assoc] at h
  have hr : (l.settle.cursor.skip 1).rest =
      s.toList.flatMap Printer.escape ++ '"' :: '\n' :: (spaces j ++ rest) := by simp [h.rest]
  have hlength := Quoted.length_le_escape s.toList
  obtain ⟨next, hread, hnext, -⟩ := Quoted.readDouble_written hr
    (show _ < (s.toList.flatMap Printer.escape ++ ('"' :: '\n' :: (spaces j ++ rest))).length + 2 by
      rw [List.length_append]
      omega)
    (by rw [Cursor.skip_column]; omega)
  refine reads_keyLike hm hcolumn hrest h ?_ hread hnext
  simp [readToken, h.inBrackets, atMarker_of_first h.rest]

omit hcolumn in
theorem reads_literal {s : String} (hs : ∀ c ∈ s.toList, Printer.isPrintable c = true)
    (hne : s.toList ≠ []) (h : At l.settle column ('|' :: (Block.mark s.toList ++ '\n' ::
      (Printer.indented (m + 2) true s.toList ++ (Block.ending s.toList ++ (spaces j ++ rest))))) p allowed) :
    Reads l [.scalar false s] p j rest := by
  have hdrop := dropKey_free h.free
  have hl₁ : At { l.settle with possibleKey := none } column _ p allowed :=
    ⟨h.rest, h.column, h.progress, h.allowed, h.unbracketed, rfl⟩
  have hr : (l.settle.cursor.skip 1).rest = Block.mark s.toList ++ '\n' ::
      (Printer.indented (m + 2) true s.toList ++ (Block.ending s.toList ++ (spaces j ++ rest))) := by
    simp [h.rest]
  obtain ⟨next, hread, hnext, hj'⟩ := Block.read_written hs hne hr hj hrest.ink
  have hmoved := hl₁.moved (.scalar false s) true hnext hj'
  refine ⟨_, hmoved.settle_here hrest, fun fuel => run_token (peek_eq h.rest) ?_⟩
  have htoken : l.settle.readToken '|' = l.settle.blockScalar true := by
    simp [readToken, h.inBrackets, atMarker_of_first h.rest]
  rw [htoken, blockScalar, hdrop]
  dsimp only [Option.bind_eq_bind, Option.bind_some]
  rw [h.indent, hm, hread]
  simp

omit hm hcolumn hj hrest in
theorem settle_bracket {o : Lexer} {k : Option PossibleKey} {ks : List (Option PossibleKey)}
    (hkeys : o.outerKeys = k :: ks) (hc : Opens o.cursor.rest) : o.settle = o := by
  have hskip : skipToToken (o.cursor.rest.length + 1) o = o := skipToToken_spaces (k := 0) _ rfl hc
  rw [settle, hskip, closeBlocks, if_pos (by simp [Lexer.inBrackets, hkeys])]

omit hj in
theorem reads_brackets {o c : Char} {first last : Token}
    (hpair : (o = '[' ∧ c = ']' ∧ first = .flowListStart ∧ last = .flowListEnd) ∨
      (o = '\x7b' ∧ c = '\x7d' ∧ first = .flowMapStart ∧ last = .flowMapEnd))
    (h : At l.settle column (o :: c :: '\n' :: (spaces j ++ rest)) p allowed) :
    Reads l [first, last] p j rest := by
  obtain ⟨l₁, hsave, -, hl₁⟩ := h.saveKey (by omega)
  have hopen : l.settle.readToken o = some (l₁.afterOpen first) := by
    have hbrackets (t : Token) : l.settle.openBrackets t = some (l₁.afterOpen t) := by
      rw [openBrackets, hsave]
      rfl
    rcases hpair with ⟨rfl, rfl, rfl, rfl⟩ | ⟨rfl, rfl, rfl, rfl⟩ <;>
      simp [readToken, atMarker_of_first h.rest, hbrackets]
  have hr : (l₁.afterOpen first).cursor.rest = c :: '\n' :: (spaces j ++ rest) := by
    simp [afterOpen, skip, add, hl₁.rest]
  have hsettle : (l₁.afterOpen first).settle = l₁.afterOpen first := by
    refine settle_bracket rfl (hr ▸ ⟨⟨stops_cons.2 ?_, stops_cons.2 ?_⟩, stops_cons.2 ?_⟩) <;>
      rcases hpair with ⟨-, rfl, -⟩ | ⟨-, rfl, -⟩ <;> rfl
  have hclose : (l₁.afterOpen first).readToken c = some (l₁.afterPair first last) := by
    have hbrackets : (l₁.afterOpen first).closeBrackets last = some (l₁.afterPair first last) := by
      rw [closeBrackets, dropKey_free rfl]
      simp [afterOpen, afterPair, add, skip]
    rcases hpair with ⟨rfl, rfl, rfl, rfl⟩ | ⟨rfl, rfl, rfl, rfl⟩ <;>
      simp [readToken, atMarker_of_first hr, hbrackets]
  have hl₃ : At (l₁.afterPair first last) (column + 2) ('\n' :: (spaces j ++ rest))
      (p.add [first, last]) false :=
    ⟨by simp [afterPair, hl₁.rest], by simp [afterPair, hl₁.column], by rw [← hl₁.progress]; rfl, rfl,
      hl₁.unbracketed, hl₁.free⟩
  have hfirst (fuel : Nat) : run (fuel + 1) l = run fuel (l₁.afterOpen first) :=
    run_token (peek_eq h.rest) hopen
  have hlast (fuel : Nat) : run (fuel + 1) (l₁.afterOpen first) = run fuel (l₁.afterPair first last) :=
    run_token (hsettle ▸ peek_eq hr) (hsettle.symm ▸ hclose)
  exact ⟨_, hl₃.settle_newline hrest, fun fuel => (hfirst (fuel + 1)).trans (hlast fuel)⟩

end

end ChangeFeed.Yaml.Lexer
