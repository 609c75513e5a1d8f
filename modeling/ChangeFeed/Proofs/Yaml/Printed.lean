import ChangeFeed.Proofs.Yaml.Text

namespace ChangeFeed.Yaml

open Printer (spaces plainAllowed)

mutual

/-- The tokens of a value. As the value of a key, a list is not indented. -/
def tokensOf (unindented : Bool) : Data → List Token
  | .null => [.scalar true "null"]
  | .bool true => [.scalar true "true"]
  | .bool false => [.scalar true "false"]
  | .int n => [.scalar true (String.ofList (Data.intText n))]
  | .text s => [.scalar (Printer.isPlain s.toList) s]
  | .list [] => [.flowListStart, .flowListEnd]
  | .record [] => [.flowMapStart, .flowMapEnd]
  | .list (d :: rest) =>
    if unindented then .blockEntry :: tokensOf false d ++ itemTokens rest
    else .blockListStart :: .blockEntry :: tokensOf false d ++ itemTokens rest ++ [.blockEnd]
  | .record ((name, d) :: rest) =>
    .blockMapStart :: .key :: .scalar true name :: .value :: tokensOf true d ++ memberTokens rest ++
      [.blockEnd]

def itemTokens : List Data → List Token
  | [] => []
  | d :: rest => .blockEntry :: tokensOf false d ++ itemTokens rest

def memberTokens : List (String × Data) → List Token
  | [] => []
  | (name, d) :: rest => .key :: .scalar true name :: .value :: tokensOf true d ++ memberTokens rest

end

theorem tokensOf_items (unindented : Bool) (d : Data) (ds : List Data) :
    tokensOf unindented (.list (d :: ds)) =
      if unindented then itemTokens (d :: ds)
      else .blockListStart :: itemTokens (d :: ds) ++ [.blockEnd] := by
  cases unindented <;> simp [tokensOf, itemTokens]

theorem tokensOf_members (unindented : Bool) (member : String × Data) (ms : List (String × Data)) :
    tokensOf unindented (.record (member :: ms)) =
      .blockMapStart :: memberTokens (member :: ms) ++ [.blockEnd] := by
  obtain ⟨name, d⟩ := member
  simp [tokensOf, memberTokens]

def isName (name : String) : Bool :=
  !name.toList.isEmpty && name.toList.all Plain.isWordChar && name.toList.length ≤ 1024

theorem isWord_of_isName {name : String} (h : isName name = true) :
    Plain.IsWord name.toList ∧ name.toList.length ≤ 1024 := by
  simp only [isName, Bool.and_eq_true, Bool.not_eq_true', List.isEmpty_eq_false_iff, List.all_eq_true,
    decide_eq_true_eq] at h
  exact ⟨⟨h.1.1, h.1.2⟩, h.2⟩

inductive Named : Data → Prop
  | null : Named .null
  | bool (b : Bool) : Named (.bool b)
  | int (n : Int) : Named (.int n)
  | text (s : String) : Named (.text s)
  | list {items : List Data} (h : ∀ d ∈ items, Named d) : Named (.list items)
  | record {members : List (String × Data)} (hnames : ∀ m ∈ members, isName m.1 = true)
    (h : ∀ m ∈ members, Named m.2) : Named (.record members)

theorem plain_intText (n : Int) : plainAllowed (Data.intText n) = true ∧ Data.intText n ≠ [] := by
  have hdigits (n : Nat) : ∀ c ∈ Nat.toDigits 10 n, Plain.isWordChar c = true := fun c hc => by
    have hdigit := Nat.isDigit_of_mem_toDigits (by decide) (by decide) hc
    rw [Plain.isWordChar, Char.isAlphanum, hdigit, Bool.or_true]
    rfl
  cases n with
  | ofNat n =>
      rw [Data.intText]
      cases hn : Nat.toDigits 10 n with
      | nil => exact absurd hn Nat.toDigits_ne_nil
      | cons a w =>
          have hw := hn ▸ hdigits n
          exact ⟨Plain.plainAllowed_cons (.inl (hw a (List.mem_cons_self ..)))
            fun c hc => hw c (List.mem_cons_of_mem _ hc), List.cons_ne_nil _ _⟩
  | negSucc n =>
      exact ⟨Plain.plainAllowed_cons (.inr ⟨rfl, Nat.toDigits_ne_nil⟩) (hdigits _), List.cons_ne_nil _ _⟩

namespace Lexer

/-- The text behind a place is read as the rest of the given tokens. -/
def Yields (result : List Token) (tail : List Char) (p : Progress) : Prop :=
  ∀ j rest, tail = spaces j ++ rest → Opens rest → ∀ l fuel, At l.settle j rest (p.close j) true →
    rest.length < fuel → run fuel l = some result

/-- The line behind a value is not deeper than the block that the value is in. -/
def Below (m : Nat) (tail : List Char) : Prop :=
  ∃ j rest, tail = spaces j ++ rest ∧ j ≤ m ∧ Opens rest

section

variable {l : Lexer} {ts result : List Token} {p : Progress} {j fuel : Nat} {tail rest : List Char}

theorem Reads.run_eq (h : Reads l ts p j rest) (hrest : Opens rest)
    (hy : Yields result (spaces j ++ rest) (p.add ts)) (hfuel : rest.length + ts.length < fuel) :
    run fuel l = some result := by
  obtain ⟨l', hat, hrun⟩ := h
  obtain ⟨n, rfl⟩ : ∃ n, fuel = n + ts.length := ⟨fuel - ts.length, by omega⟩
  rw [hrun]
  exact hy j rest rfl hrest l' n hat (by omega)

end

/-- A value is read back, on the line of its key or of the mark of its item, or behind that line. -/
def ReadsBack (d : Data) : Prop :=
  ∀ (compact : Bool) (m column : Nat) (p : Progress) (tail : List Char) (result : List Token) (l : Lexer)
    (fuel : Nat), p.indent = m → m < column → (compact = true → column = m + 1) → Below m tail →
    Yields result tail (p.add (tokensOf (!compact) d)) →
    At l column (Printer.render compact (if compact then m + 2 else m) (m + 2) d ++ tail) p compact →
    (Printer.render compact (if compact then m + 2 else m) (m + 2) d ++ tail).length < fuel →
    run fuel l = some result

theorem readsBack_line {d : Data} {ts : List Token} (line : Nat → List Char)
    (hrender : ∀ compact items m, Printer.render compact items (m + 2) d = ' ' :: line m)
    (htokens : ∀ unindented, tokensOf unindented d = ts) (hlength : ∀ m, ts.length ≤ (line m).length)
    (hopens : ∀ m tail, Opens (line m ++ tail))
    (hreads : ∀ {l : Lexer} {column m j : Nat} {p : Progress} {rest : List Char} {allowed : Bool},
      p.indent = m → m < column → j ≤ m → Opens rest →
      At l.settle column (line m ++ (spaces j ++ rest)) p allowed → Reads l ts p j rest) :
    ReadsBack d := by
  rintro compact m column p tail result l fuel hm hcolumn - ⟨j, rest, rfl, hj, hrest⟩ hy hat hfuel
  rw [hrender] at hat hfuel
  rw [htokens] at hy
  have hat' : At l column (spaces 1 ++ (line m ++ (spaces j ++ rest))) p compact := hat
  have hsettled := hat'.settle_spaces (hopens m _)
  rw [Progress.close_of_le (by omega)] at hsettled
  refine (hreads hm (by omega) hj hrest hsettled).run_eq hrest hy ?_
  have := hlength m
  simp only [List.length_append, List.length_cons] at hfuel
  omega

theorem readsBack_word {d : Data} {w : List Char} (hw : plainAllowed w = true) (hne : w ≠ [])
    (hrender : ∀ compact items members, Printer.render compact items members d = ' ' :: (w ++ ['\n']))
    (htokens : ∀ unindented, tokensOf unindented d = [.scalar true (String.ofList w)]) : ReadsBack d := by
  refine readsBack_line (fun _ => w ++ ['\n']) (fun compact items m => hrender ..) htokens
    (fun m => by simp) (fun m tail => ?_) fun hm hcolumn hj hrest hat => ?_
  · rw [List.append_assoc]
    exact opens_plain hw hne _
  · rw [List.append_assoc] at hat
    exact reads_plain hm hcolumn hj hrest hat hw hne

theorem readsBack_text (s : String) : ReadsBack (.text s) := by
  refine readsBack_line (fun m => Printer.endLine (Printer.text (m + 2) s))
    (fun compact items m => by rw [Printer.render]) (fun unindented => by rw [tokensOf]) (fun m => ?_)
    (fun m tail => opens_text ..) fun hm hcolumn hj hrest hat => reads_text hm hcolumn hj hrest hat
  rcases text_cases (m + 2) s with ⟨-, -, -, he⟩ | ⟨-, ⟨-, he⟩ | he | ⟨-, -, he⟩⟩ <;> simp [he]

theorem readsBack_emptyList : ReadsBack (.list []) := by
  refine readsBack_line (fun _ => ['[', ']', '\n']) (fun compact items m => by rw [Printer.render])
    (fun unindented => by rw [tokensOf]) (fun m => by simp) (fun m tail => ?_)
    fun hm hcolumn _ hrest hat => reads_brackets hm hcolumn hrest (.inl ⟨rfl, rfl, rfl, rfl⟩) hat
  exact opens_cons rfl rfl (by decide)

theorem readsBack_emptyRecord : ReadsBack (.record []) := by
  refine readsBack_line (fun _ => ['\x7b', '\x7d', '\n'])
    (fun compact items m => by rw [Printer.render]) (fun unindented => by rw [tokensOf])
    (fun m => by simp) (fun m tail => ?_)
    fun hm hcolumn _ hrest hat => reads_brackets hm hcolumn hrest (.inr ⟨rfl, rfl, rfl, rfl⟩) hat
  exact opens_cons rfl rfl (by decide)

theorem readsBack_int (n : Int) : ReadsBack (.int n) :=
  readsBack_word (plain_intText n).1 (plain_intText n).2 (fun _ _ _ => by rw [Printer.render]; rfl)
    fun _ => by rw [tokensOf]

theorem readsBack_null : ReadsBack .null :=
  readsBack_word (w := ['n', 'u', 'l', 'l']) (by decide) (by decide)
    (fun _ _ _ => by rw [Printer.render]; rfl) fun _ => by rw [tokensOf]

theorem readsBack_bool (b : Bool) : ReadsBack (.bool b) := by
  cases b with
  | true =>
      exact readsBack_word (w := ['t', 'r', 'u', 'e']) (by decide) (by decide)
        (fun _ _ _ => by rw [Printer.render]; rfl) fun _ => by rw [tokensOf]
  | false =>
      exact readsBack_word (w := ['f', 'a', 'l', 's', 'e']) (by decide) (by decide)
        (fun _ _ _ => by rw [Printer.render]; rfl) fun _ => by rw [tokensOf]

theorem render_ends (compact : Bool) (items members : Nat) (d : Data) :
    ∃ x text, Printer.render compact items members d = x :: text ∧ endsWord (some x) = true := by
  have hline (xs : List Char) : ∃ x text,
      (if compact then [' '] else '\n' :: xs) = x :: text ∧ endsWord (some x) = true := by
    cases compact with
    | true => exact ⟨' ', [], rfl, rfl⟩
    | false => exact ⟨'\n', xs, rfl, rfl⟩
  match d with
  | .null | .bool true | .bool false | .int _ | .text _ | .list [] | .record [] =>
      rw [Printer.render]
      exact ⟨' ', _, rfl, rfl⟩
  | .list (d :: ds) =>
      obtain ⟨x, text, hx, hends⟩ := hline (spaces items)
      rw [Printer.render, hx]
      exact ⟨x, _, rfl, hends⟩
  | .record ((name, d) :: ms) =>
      obtain ⟨x, text, hx, hends⟩ := hline (spaces members)
      rw [Printer.render, hx]
      exact ⟨x, _, rfl, hends⟩

theorem Opens.unique {j k : Nat} {xs ys : List Char} (hx : Opens xs) (hy : Opens ys)
    (h : spaces j ++ xs = spaces k ++ ys) : j = k ∧ xs = ys := by
  induction j generalizing k with
  | zero =>
      cases k with
      | zero => exact ⟨rfl, h⟩
      | succ k =>
          rw [show xs = ' ' :: (spaces k ++ ys) from h] at hx
          cases stops_cons.1 hx.ink.1
  | succ j ih =>
      cases k with
      | zero =>
          rw [show ys = ' ' :: (spaces j ++ xs) from h.symm] at hy
          cases stops_cons.1 hy.ink.1
      | succ k =>
          obtain ⟨rfl, rfl⟩ := ih (List.tail_eq_of_cons_eq h)
          exact ⟨rfl, rfl⟩

theorem Below.mono {m k : Nat} {tail : List Char} (h : Below m tail) (hk : m ≤ k) : Below k tail := by
  obtain ⟨j, rest, he, hj, hrest⟩ := h
  exact ⟨j, rest, he, by omega, hrest⟩

theorem Yields.close {result ts : List Token} {m k : Nat} {tail : List Char} {p : Progress}
    (hbelow : Below m tail) (hk : m < k) (hy : Yields result tail (p.add (ts ++ [.blockEnd]))) :
    Yields result tail ⟨p.tokens ++ ts, k, p.indent :: p.outer⟩ := by
  obtain ⟨i, line, rfl, hi, hline⟩ := hbelow
  intro j rest he hrest l fuel hat hfuel
  obtain ⟨rfl, rfl⟩ := hline.unique hrest he
  refine hy i line rfl hrest l fuel ?_ hfuel
  rw [Progress.close_cons (by omega), List.append_assoc] at hat
  exact hat

section

variable {l : Lexer} {result : List Token} {p : Progress} {m fuel : Nat} {tail : List Char}

theorem run_item {d : Data} (hd : ReadsBack d) (hindent : p.indent ≤ m) (hbelow : Below m tail)
    (hy : Yields result tail ((p.openAt m .blockListStart [.blockEntry]).add (tokensOf false d)))
    (hat : At l.settle m ('-' :: (Printer.render true (m + 2) (m + 2) d ++ tail)) p true)
    (hfuel : (Printer.render true (m + 2) (m + 2) d ++ tail).length + 1 < fuel) :
    run fuel l = some result := by
  obtain ⟨x, text, hx, hends⟩ := render_ends true (m + 2) (m + 2) d
  rw [hx] at hat hfuel
  obtain ⟨l', hat', hrun⟩ := dash hat hends
  obtain ⟨fuel, rfl⟩ : ∃ n, fuel = n + 1 := ⟨fuel - 1, by omega⟩
  rw [hrun]
  refine hd true m (m + 1) _ tail result l' fuel (Progress.openAt_indent hindent ..) (by omega)
    (fun _ => rfl) hbelow hy ?_ ?_ <;> rw [if_pos rfl, hx]
  · exact hat'
  · omega

theorem run_member {name : String} {d : Data} (hname : isName name = true) (hd : ReadsBack d)
    (hindent : p.indent ≤ m) (hbelow : Below m tail)
    (hy : Yields result tail
      ((p.openAt m .blockMapStart [.key, .scalar true name, .value]).add (tokensOf true d)))
    (hat : At l.settle m (name.toList ++ ':' :: (Printer.render false m (m + 2) d ++ tail)) p true)
    (hfuel : (name.toList ++ ':' :: (Printer.render false m (m + 2) d ++ tail)).length < fuel) :
    run fuel l = some result := by
  obtain ⟨x, text, hx, hends⟩ := render_ends false m (m + 2) d
  obtain ⟨hword, hshort⟩ := isWord_of_isName hname
  rw [hx] at hat hfuel
  obtain ⟨l', hat', hrun⟩ := key hword hshort hat hends hindent
  have hlength := List.length_pos_iff.2 hword.nonempty
  simp only [List.length_append, List.length_cons] at hfuel
  obtain ⟨fuel, rfl⟩ : ∃ n, fuel = n + 2 := ⟨fuel - 2, by omega⟩
  rw [hrun]
  rw [String.ofList_toList] at hat'
  refine hd false m (m + name.toList.length + 1) _ tail result l' fuel (Progress.openAt_indent hindent ..)
    (by omega) nofun hbelow hy ?_ ?_ <;> rw [if_neg (by decide), hx]
  · exact hat'
  · simp only [List.length_append, List.length_cons]
    omega

theorem opens_member {name : String} (hname : isName name = true) (rest : List Char) :
    Opens (name.toList ++ rest) := by
  obtain ⟨hword, -⟩ := isWord_of_isName hname
  cases hn : name.toList with
  | nil => exact absurd hn hword.nonempty
  | cons c cs =>
      obtain ⟨-, hbreak, hblank, hstart, -⟩ := Plain.wordChar (hword.chars c (hn ▸ List.mem_cons_self ..))
      refine opens_cons hblank hbreak ?_
      rintro rfl
      cases hstart

theorem renderItems_cons (m : Nat) (d : Data) (ds : List Data) (tail : List Char) :
    Printer.renderItems m (d :: ds) ++ tail =
      spaces m ++ '-' :: (Printer.render true (m + 2) (m + 2) d ++ (Printer.renderItems m ds ++ tail)) := by
  simp [Printer.renderItems]

theorem renderMembers_cons (m : Nat) (name : String) (d : Data) (ms : List (String × Data))
    (tail : List Char) :
    Printer.renderMembers m ((name, d) :: ms) ++ tail =
      spaces m ++ (name.toList ++
        ':' :: (Printer.render false m (m + 2) d ++ (Printer.renderMembers m ms ++ tail))) := by
  simp [Printer.renderMembers]

theorem below_items (hbelow : Below m tail) (ds : List Data) :
    Below m (Printer.renderItems m ds ++ tail) := by
  cases ds with
  | nil => exact hbelow
  | cons d ds => exact ⟨m, _, renderItems_cons m d ds tail, Nat.le_refl m, opens_cons rfl rfl (by decide)⟩

theorem below_members (hbelow : Below m tail) {ms : List (String × Data)}
    (hnames : ∀ member ∈ ms, isName member.1 = true) : Below m (Printer.renderMembers m ms ++ tail) := by
  cases ms with
  | nil => exact hbelow
  | cons member ms =>
      exact ⟨m, _, renderMembers_cons m member.1 member.2 ms tail, Nat.le_refl m,
        opens_member (hnames member (List.mem_cons_self ..)) _⟩

/-- The items of a list, each on a line of its own. The block that they are in is open, or the first
of them opens it. -/
theorem yields_items {ds : List Data} (hds : ∀ d ∈ ds, ReadsBack d) (hindent : p.indent = m)
    (hbelow : Below m tail) (hy : Yields result tail (p.add (itemTokens ds))) :
    Yields result (Printer.renderItems m ds ++ tail) p := by
  induction ds generalizing p with
  | nil => simpa [Printer.renderItems, itemTokens] using hy
  | cons d ds ih =>
      have hopen := Progress.openAt_self hindent .blockListStart [.blockEntry]
      intro j rest he hrest l fuel hat hfuel
      rw [renderItems_cons] at he
      obtain ⟨rfl, rfl⟩ := Opens.unique (opens_cons rfl rfl (by decide)) hrest he
      rw [Progress.close_of_le (by omega)] at hat
      refine run_item (hds d (List.mem_cons_self ..)) (by omega) (below_items hbelow ds) ?_ hat
        (by simpa using hfuel)
      rw [hopen, Progress.add_add]
      refine ih (fun d hd => hds d (List.mem_cons_of_mem _ hd)) hindent ?_
      rw [Progress.add_add]
      exact hy

theorem yields_members {ms : List (String × Data)} (hms : ∀ member ∈ ms, ReadsBack member.2)
    (hnames : ∀ member ∈ ms, isName member.1 = true) (hindent : p.indent = m)
    (hbelow : Below m tail) (hy : Yields result tail (p.add (memberTokens ms))) :
    Yields result (Printer.renderMembers m ms ++ tail) p := by
  induction ms generalizing p with
  | nil => simpa [Printer.renderMembers, memberTokens] using hy
  | cons member ms ih =>
      obtain ⟨name, d⟩ := member
      have hopen := Progress.openAt_self hindent .blockMapStart [.key, .scalar true name, .value]
      have hnames' := fun m hm => hnames m (List.mem_cons_of_mem _ hm)
      have hname := hnames _ (List.mem_cons_self ..)
      intro j rest he hrest l fuel hat hfuel
      rw [renderMembers_cons] at he
      obtain ⟨rfl, rfl⟩ := Opens.unique (opens_member hname _) hrest he
      rw [Progress.close_of_le (by omega)] at hat
      refine run_member hname (hms _ (List.mem_cons_self ..)) (by omega) (below_members hbelow hnames') ?_
        hat hfuel
      rw [hopen, Progress.add_add]
      refine ih (fun m hm => hms m (List.mem_cons_of_mem _ hm)) hnames' hindent ?_
      rw [Progress.add_add]
      exact hy

theorem run_items {d : Data} {ds : List Data} (hds : ∀ item ∈ d :: ds, ReadsBack item)
    (hindent : p.indent < m) (hbelow : Below m tail)
    (hy : Yields result tail ⟨p.tokens ++ .blockListStart :: itemTokens (d :: ds), m, p.indent :: p.outer⟩)
    (hat : At l.settle m ('-' :: (Printer.render true (m + 2) (m + 2) d ++
      (Printer.renderItems m ds ++ tail))) p true)
    (hfuel : (Printer.render true (m + 2) (m + 2) d ++ (Printer.renderItems m ds ++ tail)).length + 1 < fuel) :
    run fuel l = some result := by
  refine run_item (hds d (List.mem_cons_self ..)) (by omega) (below_items hbelow ds) ?_ hat hfuel
  rw [Progress.openAt_deeper hindent]
  refine yields_items (fun item h => hds item (List.mem_cons_of_mem _ h)) rfl hbelow ?_
  rw [Progress.add_add]
  simpa [Progress.add, itemTokens] using hy

theorem run_members {name : String} {d : Data} {ms : List (String × Data)}
    (hms : ∀ member ∈ (name, d) :: ms, ReadsBack member.2)
    (hnames : ∀ member ∈ (name, d) :: ms, isName member.1 = true)
    (hindent : p.indent < m) (hbelow : Below m tail)
    (hy : Yields result tail
      ⟨p.tokens ++ .blockMapStart :: memberTokens ((name, d) :: ms), m, p.indent :: p.outer⟩)
    (hat : At l.settle m (name.toList ++ ':' :: (Printer.render false m (m + 2) d ++
      (Printer.renderMembers m ms ++ tail))) p true)
    (hfuel : (name.toList ++ ':' :: (Printer.render false m (m + 2) d ++
      (Printer.renderMembers m ms ++ tail))).length < fuel) : run fuel l = some result := by
  have hnames' := fun member h => hnames member (List.mem_cons_of_mem _ h)
  refine run_member (hnames _ (List.mem_cons_self ..)) (hms _ (List.mem_cons_self ..)) (by omega)
    (below_members hbelow hnames') ?_ hat hfuel
  rw [Progress.openAt_deeper hindent]
  refine yields_members (fun member h => hms member (List.mem_cons_of_mem _ h)) hnames' rfl hbelow ?_
  rw [Progress.add_add]
  simpa [Progress.add, memberTokens] using hy

theorem readsBack_list {d : Data} {ds : List Data} (hds : ∀ item ∈ d :: ds, ReadsBack item) :
    ReadsBack (.list (d :: ds)) := by
  intro compact m column p tail result l fuel hm hcolumn hcompact hbelow hy hat hfuel
  rw [tokensOf_items] at hy
  have hopens : Opens ('-' :: (Printer.render true (m + 2) (m + 2) d ++
      (Printer.renderItems m ds ++ tail))) := opens_cons rfl rfl (by decide)
  cases compact with
  | true =>
      -- Behind the mark of an item, the first item is two columns deeper and opens a block.
      obtain rfl := hcompact rfl
      have hrender : Printer.render true (m + 2) (m + 2) (.list (d :: ds)) ++ tail =
          spaces 1 ++ '-' :: (Printer.render true (m + 2 + 2) (m + 2 + 2) d ++
            (Printer.renderItems (m + 2) ds ++ tail)) := by
        simp [Printer.render, spaces]
      rw [if_pos rfl, hrender] at hat hfuel
      have hsettled : At l.settle (m + 2) _ _ true := hat.settle_spaces (opens_cons rfl rfl (by decide))
      rw [Progress.close_of_le (by omega)] at hsettled
      refine run_items hds (by omega) (hbelow.mono (by omega)) (.close hbelow (by omega) hy) hsettled ?_
      simp only [spaces, List.length_append, List.length_cons] at hfuel ⊢
      omega
  | false =>
      -- Behind a key, the items are no deeper than the key, so that no block begins or ends.
      have hrender : Printer.render false m (m + 2) (.list (d :: ds)) ++ tail =
          '\n' :: (Printer.renderItems m (d :: ds) ++ tail) := by
        simp [Printer.render, Printer.renderItems]
      rw [if_neg (by decide), hrender] at hat hfuel
      have hitems := renderItems_cons m d ds tail
      rw [hitems] at hat
      refine yields_items hds hm hbelow hy m _ hitems hopens l fuel (hat.settle_newline hopens) ?_
      rw [hitems] at hfuel
      simp only [List.length_append, List.length_cons] at hfuel ⊢
      omega

theorem readsBack_record {member : String × Data} {ms : List (String × Data)}
    (hms : ∀ m ∈ member :: ms, ReadsBack m.2) (hnames : ∀ m ∈ member :: ms, isName m.1 = true) :
    ReadsBack (.record (member :: ms)) := by
  obtain ⟨name, d⟩ := member
  intro compact m column p tail result l fuel hm hcolumn hcompact hbelow hy hat hfuel
  rw [tokensOf_members] at hy
  have hopens := opens_member (hnames _ (List.mem_cons_self ..)) (':' ::
    (Printer.render false (m + 2) (m + 2 + 2) d ++ (Printer.renderMembers (m + 2) ms ++ tail)))
  have hrender : Printer.render compact (if compact then m + 2 else m) (m + 2) (.record ((name, d) :: ms)) ++
      tail = (if compact then spaces 1 else '\n' :: spaces (m + 2)) ++ (name.toList ++ ':' ::
        (Printer.render false (m + 2) (m + 2 + 2) d ++ (Printer.renderMembers (m + 2) ms ++ tail))) := by
    simp [Printer.render, spaces]
  rw [hrender] at hat hfuel
  have hsettled : At l.settle (m + 2) (name.toList ++ ':' ::
      (Printer.render false (m + 2) (m + 2 + 2) d ++ (Printer.renderMembers (m + 2) ms ++ tail))) p true := by
    rw [← Progress.close_of_le (show p.indent ≤ (m + 2 : Nat) by omega)]
    cases compact with
    | true =>
        obtain rfl := hcompact rfl
        exact At.settle_spaces (k := 1) hat hopens
    | false => exact At.settle_newline hat hopens
  refine run_members hms hnames (by omega) (hbelow.mono (by omega)) (.close hbelow (by omega) hy) hsettled ?_
  rw [List.length_append] at hfuel
  omega

end

theorem readsBack {d : Data} (h : Named d) : ReadsBack d := by
  induction h with
  | null => exact readsBack_null
  | bool b => exact readsBack_bool b
  | int n => exact readsBack_int n
  | text s => exact readsBack_text s
  | @list items h ih =>
      cases items with
      | nil => exact readsBack_emptyList
      | cons d ds => exact readsBack_list ih
  | @record members hnames h ih =>
      cases members with
      | nil => exact readsBack_emptyRecord
      | cons member ms => exact readsBack_record ih hnames

end Lexer

section

variable {d : Data} {ds : List Data} {ms : List (String × Data)}

def Clean (d : Data) : Prop :=
  ∀ compact items members, (Printer.render compact items members d).all isAllowed = true

theorem clean_items (h : ∀ d ∈ ds, Clean d) (k : Nat) :
    (Printer.renderItems k ds).all isAllowed = true := by
  induction ds with
  | nil => rfl
  | cons d ds ih =>
      rw [Printer.renderItems, List.all_append, List.all_append, List.all_cons, allowed_spaces,
        h d (List.mem_cons_self ..), ih fun d hd => h d (List.mem_cons_of_mem _ hd)]
      rfl

theorem allowed_name {name : String} (h : isName name = true) : name.toList.all isAllowed = true :=
  all_allowed fun c hc => (Plain.wordChar ((isWord_of_isName h).1.chars c hc)).1

theorem clean_members (h : ∀ m ∈ ms, Clean m.2) (hnames : ∀ m ∈ ms, isName m.1 = true) (k : Nat) :
    (Printer.renderMembers k ms).all isAllowed = true := by
  induction ms with
  | nil => rfl
  | cons member ms ih =>
      rw [Printer.renderMembers, List.all_append, List.all_append, List.all_append, List.all_cons,
        allowed_spaces, allowed_name (hnames _ (List.mem_cons_self ..)), h _ (List.mem_cons_self ..),
        ih (fun m hm => h m (List.mem_cons_of_mem _ hm)) fun m hm => hnames m (List.mem_cons_of_mem _ hm)]
      rfl

theorem clean (h : Named d) : Clean d := by
  have hline (compact : Bool) (k : Nat) :
      (if compact then [' '] else '\n' :: spaces k).all isAllowed = true := by
    cases compact with
    | true => rfl
    | false =>
        rw [if_neg (by decide), List.all_cons, allowed_spaces]
        rfl
  intro compact items members
  induction h generalizing compact items members with
  | null =>
      rw [Printer.render]
      rfl
  | bool b => cases b <;> rw [Printer.render] <;> rfl
  | int n =>
      have hdigits : (Data.intText n).all isAllowed = true :=
        all_allowed fun c hc => (Lexer.printable_of_plain (plain_intText n).1 c hc).1
      rw [Printer.render, List.cons_append, List.all_cons, List.all_append, hdigits]
      rfl
  | text s =>
      rw [Printer.render, List.all_cons, allowed_text]
      rfl
  | @list ds h ih =>
      cases ds with
      | nil =>
          rw [Printer.render]
          rfl
      | cons d ds =>
          rw [Printer.render, List.all_append, List.all_append, List.all_cons, hline,
            ih d (List.mem_cons_self ..), clean_items fun d hd => ih d (List.mem_cons_of_mem _ hd)]
          rfl
  | @record ms hnames h ih =>
      cases ms with
      | nil =>
          rw [Printer.render]
          rfl
      | cons member ms =>
          rw [Printer.render, List.all_append, List.all_append, List.all_append, List.all_cons, hline,
            allowed_name (hnames _ (List.mem_cons_self ..)), ih _ (List.mem_cons_self ..),
            clean_members (fun m hm => ih m (List.mem_cons_of_mem _ hm)) fun m hm =>
              hnames m (List.mem_cons_of_mem _ hm)]
          rfl

theorem Lexer.yields_end (p : Progress) : Yields (p.close (-1)).tokens [] p := by
  intro j rest he hrest l fuel hat hfuel
  obtain ⟨rfl, rfl⟩ := Opens.unique (j := 0) ⟨⟨stops_nil _, stops_nil _⟩, stops_nil _⟩ hrest he
  obtain ⟨fuel, rfl⟩ : ∃ n, fuel = n + 1 := ⟨fuel - 1, by omega⟩
  have hpeek : l.settle.cursor.peek = none := by rw [Cursor.peek, hat.rest]; rfl
  have hclose := at_closeBlocks hat (-1)
  have htokens : (l.settle.closeBlocks (-1)).tokens = (p.close (-1)).tokens := by
    rw [show (l.settle.closeBlocks (-1)).tokens = ((p.close 0).close (-1)).tokens from
      congrArg Progress.tokens hclose.progress, Progress.close_close (by decide)]
  rw [settle] at hpeek hclose htokens
  rw [run, hpeek]
  dsimp only [Option.bind_eq_bind]
  rw [dropKey_free hclose.free]
  exact congrArg some htokens

theorem tokenize_eq {text : List Char} (hall : text.all isAllowed = true)
    (hmark : Stops (· == '\ufeff') text) :
    tokenize text = Lexer.run (text.length + 1) { cursor := { rest := text } } := by
  have hsees : Cursor.sees { rest := text } (· == '\ufeff') = false := Cursor.sees_eq_false hmark
  rw [tokenize, if_pos hall]
  dsimp only
  rw [hsees, if_neg (by decide)]

/-- A printed record has the tokens of that record. -/
theorem tokenize_print {member : String × Data} (h : Named (.record (member :: ms))) :
    tokenize (Printer.print (.record (member :: ms))).toList =
      some (tokensOf false (.record (member :: ms))) := by
  obtain ⟨name, d⟩ := member
  cases h with
  | record hnames h =>
      have hname := hnames _ (List.mem_cons_self ..)
      have hprint : Printer.renderMembers 0 ((name, d) :: ms) = name.toList ++ ':' ::
          (Printer.render false 0 2 d ++ (Printer.renderMembers 0 ms ++ [])) := by
        rw [← List.append_nil (Printer.renderMembers 0 _), Lexer.renderMembers_cons]
        rfl
      have hall := clean_members (fun m hm => clean (h m hm)) hnames 0
      have hmark : Stops (· == '\ufeff') name.toList := fun c hc => by
        have hprintable :=
          (Plain.wordChar ((isWord_of_isName hname).1.chars c (List.mem_of_mem_head? hc))).1
        simpa using fun he => absurd (he ▸ hprintable) (by decide)
      rw [Printer.print, String.toList_ofList]
      rw [hprint] at hall ⊢
      rw [tokenize_eq hall (hmark.append (isWord_of_isName hname).1.nonempty _)]
      refine Lexer.run_members (p := ⟨[], -1, []⟩) (m := 0) (fun m hm => Lexer.readsBack (h m hm)) hnames
        (by decide) ⟨0, [], rfl, Nat.le_refl 0, ?_⟩ ?_ ?_ (Nat.lt_succ_self _)
      · exact ⟨⟨stops_nil _, stops_nil _⟩, stops_nil _⟩
      · rw [tokensOf_members]
        exact Lexer.yields_end _
      · exact Lexer.At.settle_here ⟨rfl, rfl, rfl, rfl, rfl, rfl⟩ (Lexer.opens_member hname _)

end

end ChangeFeed.Yaml
