import ChangeFeed.Proofs.Yaml.Printed
import ChangeFeed.Yaml.Node

namespace ChangeFeed.Yaml

mutual

def Node.ofData : Data → Node
  | .null => .scalar none true "null"
  | .bool true => .scalar none true "true"
  | .bool false => .scalar none true "false"
  | .int n => .scalar none true (String.ofList (Data.intText n))
  | .text s => .scalar none (Printer.isPlain s.toList) s
  | .list items => .list (Node.ofItems items)
  | .record members => .map (Node.ofMembers members)

def Node.ofItems : List Data → List Node
  | [] => []
  | d :: rest => Node.ofData d :: Node.ofItems rest

def Node.ofMembers : List (String × Data) → List (Node × Node)
  | [] => []
  | (name, d) :: rest => (.scalar none true name, Node.ofData d) :: Node.ofMembers rest

end

namespace Compose

/-- A reader takes the tokens up to the rest, and gives a value. -/
def Gives {α : Type} (m : Compose α) (ts rest : List Token) (a : α) : Prop :=
  ∀ anchors handles, m.run ⟨ts, anchors, handles⟩ = some (a, ⟨rest, anchors, handles⟩)

section

variable {α β : Type} {m : Compose α} {f : α → Compose β} {ts us rest : List Token} {a : α} {b : β}
  {t : Token}

theorem Gives.pure (a : α) (ts : List Token) : Gives (Pure.pure a) ts ts a := fun _ _ => rfl

theorem Gives.bind (hm : Gives m ts us a) (hf : Gives (f a) us rest b) : Gives (m >>= f) ts rest b := by
  intro anchors handles
  rw [StateT.run_bind, hm anchors handles]
  exact hf anchors handles

theorem gives_peek (ts : List Token) : Gives peek ts ts ts.head? := fun _ _ => rfl

theorem gives_advance (t : Token) (ts : List Token) : Gives advance (t :: ts) ts () := fun _ _ => rfl

theorem gives_accept (t : Token) (ts : List Token) : Gives (accept t) (t :: ts) ts true := by
  refine (gives_peek _).bind ?_
  rw [List.head?_cons, if_pos rfl]
  exact (gives_advance t ts).bind (.pure _ _)

theorem gives_accept_other (h : ts.head? ≠ some t) : Gives (accept t) ts ts false := by
  refine (gives_peek _).bind ?_
  rw [if_neg h]
  exact .pure _ _

theorem gives_expect (t : Token) (ts : List Token) : Gives (expect t) (t :: ts) ts () :=
  (gives_accept t ts).bind (.pure _ _)

def startsValue : Token → Bool
  | .scalar .. | .flowListStart | .flowMapStart | .blockListStart | .blockMapStart | .blockEntry => true
  | _ => false

theorem gives_properties (ht : startsValue t = true) (ts : List Token) :
    Gives properties (t :: ts) (t :: ts) {} := by
  cases t with
  | scalar | flowListStart | flowMapStart | blockListStart | blockMapStart | blockEntry =>
      exact fun _ _ => rfl
  | _ => cases ht

theorem gives_node {unindented : Bool} {fuel : Nat} {n : Node} (ht : startsValue t = true)
    (h : Gives (content unindented {} fuel) (t :: ts) rest n) :
    Gives (node unindented (fuel + 1)) (t :: ts) rest n := by
  intro anchors handles
  have hproperties := gives_properties ht ts anchors handles
  have hcontent := h anchors handles
  rw [node, StateT.run_bind, gives_peek (t :: ts) anchors handles]
  cases t with
  | scalar | flowListStart | flowMapStart | blockListStart | blockMapStart | blockEntry =>
      simp [StateT.run_bind, hproperties, Anchors.start, hcontent]
  | _ => cases ht

theorem gives_nodeUnless {ends : List Token} {unindented : Bool} {fuel : Nat} {n : Node}
    (ht : t ∉ ends) (h : Gives (node unindented fuel) (t :: ts) rest n) :
    Gives (nodeUnless ends unindented (fuel + 1)) (t :: ts) rest n := by
  have hat : Gives (atAny ends) (t :: ts) (t :: ts) false := by
    refine (gives_peek _).bind ?_
    rw [List.head?_cons, Option.any_some, decide_eq_false ht]
    exact .pure _ _
  exact hat.bind h

end

section

variable {unindented : Bool} {fuel : Nat} {rest : List Token}

theorem gives_scalar (plain : Bool) (s : String) :
    Gives (node unindented (fuel + 2)) (.scalar plain s :: rest) rest (.scalar none plain s) :=
  gives_node rfl ((gives_peek _).bind ((gives_advance _ _).bind (.pure _ _)))

theorem gives_emptyList :
    Gives (node unindented (fuel + 3)) (.flowListStart :: .flowListEnd :: rest) rest (.list []) := by
  have hitems : Gives (flowItems true (fuel + 1)) (.flowListEnd :: rest) rest [] :=
    (gives_accept _ _).bind (.pure _ _)
  exact gives_node rfl ((gives_peek _).bind ((gives_advance _ _).bind (hitems.bind (.pure _ _))))

theorem gives_emptyMap :
    Gives (node unindented (fuel + 3)) (.flowMapStart :: .flowMapEnd :: rest) rest (.map []) := by
  have hmembers : Gives (flowMembers true (fuel + 1)) (.flowMapEnd :: rest) rest [] :=
    (gives_accept _ _).bind (.pure _ _)
  exact gives_node rfl ((gives_peek _).bind ((gives_advance _ _).bind (hmembers.bind (.pure _ _))))

/-- A value is composed from its tokens, with five steps for each. An unindented list ends where no item
follows. -/
def Composes (d : Data) : Prop :=
  ∀ unindented fuel rest, 5 * (tokensOf unindented d).length ≤ fuel →
    (unindented = true → rest.head? ≠ some .blockEntry) →
    Gives (node unindented fuel) (tokensOf unindented d ++ rest) rest (Node.ofData d)

theorem tokensOf_starts (unindented : Bool) (d : Data) :
    ∃ t ts, tokensOf unindented d = t :: ts ∧ startsValue t = true ∧ (t = .blockEntry → unindented = true) := by
  cases d with
  | null | int | text =>
      rw [tokensOf]
      exact ⟨_, _, rfl, rfl, by simp⟩
  | bool b =>
      cases b <;>
      · rw [tokensOf]
        exact ⟨_, _, rfl, rfl, by simp⟩
  | list ds =>
      cases ds with
      | nil =>
          rw [tokensOf]
          exact ⟨_, _, rfl, rfl, by simp⟩
      | cons d ds =>
          rw [tokensOf_items]
          cases unindented with
          | true => exact ⟨.blockEntry, _, by rw [itemTokens]; rfl, rfl, fun _ => rfl⟩
          | false => exact ⟨.blockListStart, _, rfl, rfl, by simp⟩
  | record ms =>
      cases ms with
      | nil =>
          rw [tokensOf]
          exact ⟨_, _, rfl, rfl, by simp⟩
      | cons member ms =>
          rw [tokensOf_members]
          exact ⟨_, _, rfl, rfl, by simp⟩

theorem Composes.nodeUnless {d : Data} (h : Composes d) {ends : List Token}
    (hends : ∀ t ∈ ends, startsValue t = false ∨ unindented = false ∧ t = .blockEntry)
    (hfuel : 5 * (tokensOf unindented d).length ≤ fuel)
    (hrest : unindented = true → rest.head? ≠ some .blockEntry) :
    Gives (nodeUnless ends unindented (fuel + 1)) (tokensOf unindented d ++ rest) rest (Node.ofData d) := by
  obtain ⟨t, ts, he, ht, hentry⟩ := tokensOf_starts unindented d
  have hnode := h unindented fuel rest hfuel hrest
  rw [he, List.cons_append] at hnode ⊢
  refine gives_nodeUnless (fun hmem => ?_) hnode
  rcases hends t hmem with hno | ⟨hindented, rfl⟩
  · rw [ht] at hno
    cases hno
  · rw [hentry rfl] at hindented
    cases hindented

theorem gives_blockItems {ds : List Data} (h : ∀ d ∈ ds, Composes d)
    (hfuel : 5 * (itemTokens ds).length < fuel) :
    Gives (blockItems fuel) (itemTokens ds ++ .blockEnd :: rest) rest (Node.ofItems ds) := by
  obtain ⟨fuel, rfl⟩ : ∃ n, fuel = n + 1 := ⟨fuel - 1, by omega⟩
  induction ds generalizing fuel with
  | nil => exact (gives_accept_other (by simp [itemTokens])).bind ((gives_expect _ _).bind (.pure _ _))
  | cons d ds ih =>
      rw [itemTokens] at hfuel ⊢
      simp only [List.length_append, List.length_cons, List.cons_append] at hfuel
      obtain ⟨fuel, rfl⟩ : ∃ n, fuel = n + 2 := ⟨fuel - 2, by omega⟩
      have hd : Gives (nodeUnless [.blockEntry, .blockEnd] false (fuel + 2))
          (tokensOf false d ++ (itemTokens ds ++ .blockEnd :: rest))
          (itemTokens ds ++ .blockEnd :: rest) (Node.ofData d) :=
        (h d (List.mem_cons_self ..)).nodeUnless (by simp [startsValue]) (by omega) (by simp)
      have hds := ih (fun d hd => h d (List.mem_cons_of_mem _ hd)) (fuel + 1) (by omega)
      rw [List.append_assoc]
      exact (gives_accept _ _).bind (hd.bind (hds.bind (.pure _ _)))

theorem gives_entries {ds : List Data} (h : ∀ d ∈ ds, Composes d)
    (hrest : rest.head? ≠ some .blockEntry) (hpos : 0 < fuel)
    (hfuel : 5 * (itemTokens ds).length ≤ fuel + 2) :
    Gives (entries fuel) (itemTokens ds ++ rest) rest (Node.ofItems ds) := by
  obtain ⟨fuel, rfl⟩ : ∃ n, fuel = n + 1 := ⟨fuel - 1, by omega⟩
  induction ds generalizing fuel with
  | nil => exact (gives_accept_other hrest).bind (.pure _ _)
  | cons d ds ih =>
      rw [itemTokens] at hfuel ⊢
      simp only [List.length_append, List.length_cons, List.cons_append] at hfuel
      obtain ⟨fuel, rfl⟩ : ∃ n, fuel = n + 2 := ⟨fuel - 2, by omega⟩
      have hd : Gives (nodeUnless [.blockEntry, .key, .value, .blockEnd] false (fuel + 2))
          (tokensOf false d ++ (itemTokens ds ++ rest)) (itemTokens ds ++ rest) (Node.ofData d) :=
        (h d (List.mem_cons_self ..)).nodeUnless (by simp [startsValue]) (by omega) (by simp)
      have hds := ih (fun d hd => h d (List.mem_cons_of_mem _ hd)) (fuel + 1) (by omega) (by omega)
      rw [List.append_assoc]
      exact (gives_accept _ _).bind (hd.bind (hds.bind (.pure _ _)))

theorem gives_blockMembers {ms : List (String × Data)} (h : ∀ m ∈ ms, Composes m.2)
    (hfuel : 5 * (memberTokens ms).length < fuel) :
    Gives (blockMembers fuel) (memberTokens ms ++ .blockEnd :: rest) rest (Node.ofMembers ms) := by
  obtain ⟨fuel, rfl⟩ : ∃ n, fuel = n + 1 := ⟨fuel - 1, by omega⟩
  induction ms generalizing fuel with
  | nil => exact (gives_accept_other (by simp [memberTokens])).bind ((gives_expect _ _).bind (.pure _ _))
  | cons member ms ih =>
      obtain ⟨name, d⟩ := member
      rw [memberTokens] at hfuel ⊢
      simp only [List.length_append, List.length_cons, List.cons_append] at hfuel
      obtain ⟨fuel, rfl⟩ : ∃ n, fuel = n + 3 := ⟨fuel - 3, by omega⟩
      have hvalue : Composes d := h _ (List.mem_cons_self ..)
      have hnext : (memberTokens ms ++ .blockEnd :: rest).head? ≠ some .blockEntry := by
        cases ms <;> simp [memberTokens]
      have hkey : Gives (nodeUnless [.key, .value, .blockEnd] true (fuel + 3))
          (.scalar true name :: .value :: (tokensOf true d ++ (memberTokens ms ++ .blockEnd :: rest)))
          (.value :: (tokensOf true d ++ (memberTokens ms ++ .blockEnd :: rest))) (.scalar none true name) :=
        gives_nodeUnless (by simp) (gives_scalar true name)
      have hd : Gives (nodeUnless [.key, .value, .blockEnd] true (fuel + 2))
          (tokensOf true d ++ (memberTokens ms ++ .blockEnd :: rest))
          (memberTokens ms ++ .blockEnd :: rest) (Node.ofData d) :=
        hvalue.nodeUnless (by simp [startsValue]) (by omega) fun _ => hnext
      have hmember : Gives (value [.key, .value, .blockEnd] true (fuel + 3))
          (.value :: (tokensOf true d ++ (memberTokens ms ++ .blockEnd :: rest)))
          (memberTokens ms ++ .blockEnd :: rest) (Node.ofData d) := (gives_accept _ _).bind hd
      have hms := ih (fun m hm => h m (List.mem_cons_of_mem _ hm)) (fuel + 2) (by omega)
      rw [List.append_assoc]
      exact (gives_accept _ _).bind (hkey.bind (hmember.bind (hms.bind (.pure _ _))))

theorem composes_list {d : Data} {ds : List Data} (h : ∀ item ∈ d :: ds, Composes item) :
    Composes (.list (d :: ds)) := by
  intro unindented fuel rest hfuel hrest
  have hne : 0 < (itemTokens (d :: ds)).length := by simp [itemTokens]
  rw [tokensOf_items] at hfuel ⊢
  cases unindented with
  | true =>
      rw [if_pos rfl] at hfuel ⊢
      obtain ⟨fuel, rfl⟩ : ∃ n, fuel = n + 2 := ⟨fuel - 2, by omega⟩
      have hentries : Gives (entries fuel) (itemTokens (d :: ds) ++ rest) rest (Node.ofItems (d :: ds)) :=
        gives_entries h (hrest rfl) (by omega) (by omega)
      rw [itemTokens, List.cons_append] at hentries ⊢
      exact gives_node rfl ((gives_peek _).bind (hentries.bind (.pure _ _)))
  | false =>
      rw [if_neg (by decide)] at hfuel ⊢
      simp only [List.length_append, List.length_cons, List.cons_append] at hfuel
      obtain ⟨fuel, rfl⟩ : ∃ n, fuel = n + 2 := ⟨fuel - 2, by omega⟩
      have hitems : Gives (blockItems fuel) (itemTokens (d :: ds) ++ .blockEnd :: rest) rest
          (Node.ofItems (d :: ds)) := gives_blockItems h (by omega)
      rw [List.cons_append, List.cons_append, List.append_assoc]
      exact gives_node rfl ((gives_peek _).bind ((gives_advance _ _).bind (hitems.bind (.pure _ _))))

theorem composes_record {member : String × Data} {ms : List (String × Data)}
    (h : ∀ m ∈ member :: ms, Composes m.2) : Composes (.record (member :: ms)) := by
  intro unindented fuel rest hfuel _
  rw [tokensOf_members] at hfuel ⊢
  simp only [List.length_append, List.length_cons, List.cons_append] at hfuel
  obtain ⟨fuel, rfl⟩ : ∃ n, fuel = n + 2 := ⟨fuel - 2, by omega⟩
  have hmembers : Gives (blockMembers fuel) (memberTokens (member :: ms) ++ .blockEnd :: rest) rest
      (Node.ofMembers (member :: ms)) := gives_blockMembers h (by omega)
  rw [List.cons_append, List.cons_append, List.append_assoc]
  exact gives_node rfl ((gives_peek _).bind ((gives_advance _ _).bind (hmembers.bind (.pure _ _))))

theorem composes {d : Data} (h : Named d) : Composes d := by
  have hscalar {d : Data} {plain : Bool} {s : String}
      (htokens : ∀ unindented, tokensOf unindented d = [.scalar plain s])
      (hnode : Node.ofData d = .scalar none plain s) : Composes d := by
    intro unindented fuel rest hfuel _
    rw [htokens, hnode] at *
    obtain ⟨fuel, rfl⟩ : ∃ n, fuel = n + 2 := ⟨fuel - 2, by simp at hfuel; omega⟩
    exact gives_scalar plain s
  induction h with
  | null => exact hscalar (fun _ => by rw [tokensOf]) (by rw [Node.ofData])
  | bool b => cases b <;> exact hscalar (fun _ => by rw [tokensOf]) (by rw [Node.ofData])
  | int n => exact hscalar (fun _ => by rw [tokensOf]) (by rw [Node.ofData])
  | text s => exact hscalar (fun _ => by rw [tokensOf]) (by rw [Node.ofData])
  | @list ds h ih =>
      cases ds with
      | nil =>
          intro unindented fuel rest hfuel _
          rw [tokensOf, Node.ofData] at *
          obtain ⟨fuel, rfl⟩ : ∃ n, fuel = n + 3 := ⟨fuel - 3, by simp at hfuel; omega⟩
          exact gives_emptyList
      | cons d ds => exact composes_list ih
  | @record ms hnames h ih =>
      cases ms with
      | nil =>
          intro unindented fuel rest hfuel _
          rw [tokensOf, Node.ofData] at *
          obtain ⟨fuel, rfl⟩ : ∃ n, fuel = n + 3 := ⟨fuel - 3, by simp at hfuel; omega⟩
          exact gives_emptyMap
      | cons member ms => exact composes_record ih

end

theorem gives_directives {t : Token} (ht : startsValue t = true) (fuel : Nat) (ts : List Token) :
    Gives (directives false (fuel + 1)) (t :: ts) (t :: ts) () := by
  cases t with
  | scalar | flowListStart | flowMapStart | blockListStart | blockMapStart | blockEntry =>
      exact fun _ _ => rfl
  | _ => cases ht

theorem run_root {t : Token} {ts rest : List Token} {n : Node} {fuel : Nat} (ht : startsValue t = true)
    (h : Gives (node false (fuel + 1)) (t :: ts) rest n) :
    (root (fuel + 1)).run ⟨t :: ts, {}, []⟩ = some (n, ⟨rest, {}, defaultHandles⟩) := by
  have hdirectives := gives_directives ht fuel ts {} []
  have hstart : Gives (accept .documentStart) (t :: ts) (t :: ts) false := by
    refine gives_accept_other ?_
    rw [List.head?_cons]
    rintro ⟨⟩
    cases ht
  simp [root, StateT.run_bind, hdirectives, hstart {} defaultHandles, h {} defaultHandles]

theorem run_document {t : Token} {ts : List Token} {n : Node} (ht : startsValue t = true)
    (h : Gives (node false (5 * (t :: ts).length + 10)) (t :: ts) [] n) :
    document.run ⟨t :: ts, {}, []⟩ = some (n, ⟨[], {}, defaultHandles⟩) := by
  have hroot := run_root ht h
  have hpeek := gives_peek (t :: ts) {} []
  have hend := gives_peek [] {} defaultHandles
  have hskip : Gives (skipEnds (5 * (t :: ts).length + 10)) [] [] () :=
    (gives_accept_other (by simp)).bind (.pure _ _)
  rw [List.length_cons] at hroot hskip
  simp [document, StateT.run_bind, hpeek, hroot, hskip {} defaultHandles, hend]

end Compose

theorem Node.ofTokens?_tokensOf {d : Data} (h : Named d) :
    Node.ofTokens? (tokensOf false d) = some (Node.ofData d) := by
  obtain ⟨t, ts, he, ht, -⟩ := Compose.tokensOf_starts false d
  have hnode := Compose.composes h false (5 * (tokensOf false d).length + 10) [] (by omega) (by simp)
  rw [List.append_nil, he] at hnode
  rw [Node.ofTokens?, he, StateT.run'_eq, Compose.run_document ht hnode]
  rfl

/-- A printed record is read back. -/
theorem Node.parse?_print {member : String × Data} {ms : List (String × Data)}
    (h : Named (.record (member :: ms))) :
    Node.parse? (Printer.print (.record (member :: ms))) = some (Node.ofData (.record (member :: ms))) := by
  rw [Node.parse?, tokenize_print h]
  exact Node.ofTokens?_tokensOf h

end ChangeFeed.Yaml
