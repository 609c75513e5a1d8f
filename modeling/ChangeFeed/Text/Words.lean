import ChangeFeed.Text.Alphanumeric
import ChangeFeed.Text.Lowercase

namespace ChangeFeed.Text

/-- A longest run of letters and digits, of any script, with its position among all words of the text.
-/
structure Word where
  position : Nat
  letters : String
  deriving DecidableEq

def runs (run : List Char) : List Char → List (List Char)
  | [] => if run = [] then [] else [run.reverse]
  | c :: rest =>
    if isAlphanumeric c then runs (c :: run) rest
    else if run = [] then runs [] rest
    else run.reverse :: runs [] rest

def overlong : Nat := 40

def words (s : String) : List Word :=
  (runs [] s.toList).zipIdx.filterMap fun r =>
    if overlong ≤ (String.ofList r.1).utf8ByteSize then none
    else some ⟨r.2, String.ofList (r.1.flatMap lowerChar)⟩

/-- The words of several texts, the first of which starts at position `base`. One position is left
free between two texts, so that no phrase runs from one into the next. -/
def wordsOfAll : Nat → List String → List Word
  | _, [] => []
  | base, s :: rest =>
    let ws := (words s).map fun w => { w with position := base + w.position }
    let next := (ws.getLast?.map (·.position + 1)).getD base
    ws ++ wordsOfAll (next + 1) rest

def occurs (phrase words : List Word) : Bool :=
  match phrase with
  | [] => false
  | first :: _ => words.any fun start =>
    phrase.all fun p => words.any fun w =>
      w.letters = p.letters && w.position + first.position = start.position + p.position

end ChangeFeed.Text
