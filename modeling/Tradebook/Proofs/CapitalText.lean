import Mathlib.Data.List.Basic
import Mathlib.Data.List.Induction
import Tradebook.Text.Blank
import Tradebook.Text.Upper

/-!
# A text in capitals stays as it is

What becomes of a letter stands in two tables, and that capitals have no capitals of their own is
a matter of both tables as a whole: no code point that one of them leads to may be one that either
of them starts from. There are some 1600 on each side. They are not compared one with the other but
as two sets of bits, which have no bit in common (`capitalCodes_apart`). The same code points are
looked at once more for blanks (`capitalCodes_solid`): a letter may become several characters, but
none of them is a blank.

These two facts, and that no letter becomes nothing (`capitalSequences_ne_nil`), are all that is
said about the tables. They are closed, so they are computed, and will be again for other tables.
-/

namespace Tradebook.Text

/-! ## Sets of code points -/

/-- The number with just these bits. -/
def bitsOf : List Nat → Nat
  | [] => 0
  | code :: codes => 1 <<< code ||| bitsOf codes

theorem testBit_bitsOf (codes : List Nat) (n : Nat) :
    (bitsOf codes).testBit n = true ↔ n ∈ codes := by
  induction codes with
  | nil => simp [bitsOf]
  | cons code codes ih =>
      rw [bitsOf, Nat.testBit_or, Nat.one_shiftLeft, Nat.testBit_two_pow, Bool.or_eq_true,
        decide_eq_true_eq, ih, List.mem_cons, eq_comm]

theorem not_mem_of_bits_apart {codes others : List Nat} (h : bitsOf codes &&& bitsOf others = 0)
    {n : Nat} (hn : n ∈ codes) : n ∉ others := by
  intro hother
  have hboth : (bitsOf codes &&& bitsOf others).testBit n = true := by
    rw [Nat.testBit_and, (testBit_bitsOf codes n).2 hn, (testBit_bitsOf others n).2 hother]
    rfl
  rw [h, Nat.zero_testBit] at hboth
  cases hboth

/-! ## The tables -/

/-- The code points of the letters of a run. -/
def CapitalRun.letters (run : CapitalRun) : List Nat :=
  List.range' run.first ((run.last - run.first) / run.step + 1) run.step

theorem CapitalRun.mem_letters {run : CapitalRun} {n : Nat} (h : run.covers n = true) :
    n ∈ run.letters := by
  simp only [covers, Bool.and_eq_true, decide_eq_true_eq, beq_iff_eq] at h
  obtain ⟨⟨hfirst, hlast⟩, hstep⟩ := h
  refine List.mem_range'.2 ⟨(n - run.first) / run.step, ?_, ?_⟩
  · exact Nat.lt_succ_of_le (Nat.div_le_div_right (Nat.sub_le_sub_right hlast _))
  · rw [Nat.mul_div_cancel' (Nat.dvd_of_mod_eq_zero hstep)]
    omega

/-- The code points that the tables start from. -/
def letterCodes : List Nat :=
  capitalSequences.map Prod.fst ++ capitalRuns.flatMap CapitalRun.letters

/-- The code points that the tables lead to. -/
def capitalCodes : List Nat :=
  capitalSequences.flatMap Prod.snd ++
    capitalRuns.flatMap fun run => run.letters.map fun (n : Nat) => (n + run.distance).toNat

theorem capitalCodes_apart : bitsOf capitalCodes &&& bitsOf letterCodes = 0 := by
  decide +kernel

theorem capitalCodes_solid :
    ∀ code ∈ capitalCodes, (Char.ofNat code).toNat = code ∧ isBlank (Char.ofNat code) = false := by
  decide +kernel

theorem capitalSequences_ne_nil : ∀ entry ∈ capitalSequences, entry.2 ≠ [] := by
  decide

/-! ## One character -/

theorem capitals_of_not_mem {c : Char} (h : c.toNat ∉ letterCodes) : capitals c = [c] := by
  have hsequence : capitalSequences.lookup c.toNat = none := by
    rw [List.lookup_eq_none_iff]
    intro entry hentry
    rw [bne_iff_ne]
    intro heq
    exact h (List.mem_append_left _ (List.mem_map.2 ⟨entry, hentry, heq.symm⟩))
  have hrun : capitalRuns.find? (·.covers c.toNat) = none := by
    rw [List.find?_eq_none]
    intro run hmem hcovers
    exact h (List.mem_append_right _ (List.mem_flatMap.2 ⟨run, hmem, run.mem_letters hcovers⟩))
  rw [capitals, hsequence]
  dsimp only
  rw [hrun]

/-- A character stays as it is, or the tables say what it becomes. -/
theorem capitals_cases (c : Char) :
    capitals c = [c] ∨
      ∃ codes, codes ≠ [] ∧ (∀ code ∈ codes, code ∈ capitalCodes) ∧
        capitals c = codes.map Char.ofNat := by
  unfold capitals
  split
  · next codes hsequence =>
      obtain ⟨before, after, hentry, -⟩ := List.lookup_eq_some_iff.1 hsequence
      have hmem : (c.toNat, codes) ∈ capitalSequences := by simp [hentry]
      refine Or.inr ⟨codes, capitalSequences_ne_nil _ hmem, fun code hcode => ?_, rfl⟩
      exact List.mem_append_left _ (List.mem_flatMap.2 ⟨_, hmem, hcode⟩)
  · split
    · next run hrun =>
        have hmem := List.mem_of_find?_eq_some hrun
        have hcovers := List.find?_some hrun
        have hletter : c.toNat ∈ run.letters := run.mem_letters hcovers
        refine Or.inr ⟨[(c.toNat + run.distance).toNat], by simp, fun code hcode => ?_, rfl⟩
        rw [List.mem_singleton] at hcode
        subst hcode
        exact List.mem_append_right _
          (List.mem_flatMap.2 ⟨run, hmem, List.mem_map.2 ⟨c.toNat, hletter, rfl⟩⟩)
    · exact Or.inl rfl

theorem capitals_ne_nil (c : Char) : capitals c ≠ [] := by
  obtain hself | ⟨codes, hsome, -, hcodes⟩ := capitals_cases c
  · rw [hself]
    exact List.cons_ne_nil c []
  · rw [hcodes]
    simpa using hsome

/-- What the tables lead to goes no further. -/
theorem capitals_of_mem_capitalCodes {code : Nat} (h : code ∈ capitalCodes) :
    capitals (Char.ofNat code) = [Char.ofNat code] := by
  refine capitals_of_not_mem ?_
  rw [(capitalCodes_solid code h).1]
  exact not_mem_of_bits_apart capitalCodes_apart h

theorem capitals_of_mem {c d : Char} (h : d ∈ capitals c) : capitals d = [d] := by
  obtain hself | ⟨codes, -, htable, hcodes⟩ := capitals_cases c
  · rw [hself, List.mem_singleton] at h
    rw [h, hself]
  · rw [hcodes, List.mem_map] at h
    obtain ⟨code, hcode, rfl⟩ := h
    exact capitals_of_mem_capitalCodes (htable code hcode)

theorem isBlank_of_mem_capitals {c d : Char} (hc : isBlank c = false) (h : d ∈ capitals c) :
    isBlank d = false := by
  obtain hself | ⟨codes, -, htable, hcodes⟩ := capitals_cases c
  · rw [hself, List.mem_singleton] at h
    rw [h, hc]
  · rw [hcodes, List.mem_map] at h
    obtain ⟨code, hcode, rfl⟩ := h
    exact (capitalCodes_solid code (htable code hcode)).2

/-! ## A text -/

theorem upper_eq_self {s : String} (h : ∀ c ∈ s.toList, capitals c = [c]) : upper s = s := by
  rw [upper, List.flatMap_congr h, List.flatMap_singleton', String.ofList_toList]

theorem capitals_of_mem_upper {s : String} {d : Char} (h : d ∈ (upper s).toList) :
    capitals d = [d] := by
  rw [upper, String.toList_ofList, List.mem_flatMap] at h
  obtain ⟨c, -, hd⟩ := h
  exact capitals_of_mem hd

theorem upper_eq_empty_iff (s : String) : upper s = "" ↔ s = "" := by
  rw [upper, String.ofList_eq_empty_iff, List.flatMap_eq_nil_iff]
  constructor
  · intro h
    rw [← String.toList_eq_nil_iff, List.eq_nil_iff_forall_not_mem]
    intro c hc
    exact capitals_ne_nil c (h c hc)
  · rintro rfl c hc
    cases hc

-- No character becomes nothing, so the ends of a text come from its ends.
theorem head?_upper (s : String) :
    (upper s).toList.head? = s.toList.head?.bind fun c => (capitals c).head? := by
  rw [upper, String.toList_ofList]
  cases s.toList with
  | nil => rfl
  | cons c cs =>
      rw [List.flatMap_cons, List.head?_append_of_ne_nil _ (capitals_ne_nil c)]
      rfl

theorem getLast?_upper (s : String) :
    (upper s).toList.getLast? = s.toList.getLast?.bind fun c => (capitals c).getLast? := by
  rw [upper, String.toList_ofList]
  cases s.toList using List.reverseRecOn with
  | nil => rfl
  | append_singleton cs c =>
      rw [List.flatMap_append, List.flatMap_singleton,
        List.getLast?_append_of_ne_nil _ (capitals_ne_nil c), List.getLast?_concat]
      rfl

end Tradebook.Text
