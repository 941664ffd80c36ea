import Tradebook.Text.Blank
import Tradebook.Text.CapitalTable

/-!
# Capital form of a text

Market symbols are kept in capitals, so that two spellings of one market are one
market. The mapping is the full Unicode one: a letter may become several, and a
text may grow.
-/

namespace Tradebook.Text

/-- Whether the code point is one of the letters of the run. -/
def CapitalRun.covers (run : CapitalRun) (n : Nat) : Bool :=
  run.first ≤ n && n ≤ run.last && (n - run.first) % run.step == 0

/-- The capital form of one character; the character itself where it has none. -/
def capitals (c : Char) : List Char :=
  match capitalSequences.lookup c.toNat with
  | some codes => codes.map Char.ofNat
  | none =>
    match capitalRuns.find? (·.covers c.toNat) with
    | some run => [Char.ofNat (c.toNat + run.distance).toNat]
    | none => [c]

/-- The capital form of a text, character by character. -/
def upper (s : String) : String :=
  .ofList (s.toList.flatMap capitals)

end Tradebook.Text
