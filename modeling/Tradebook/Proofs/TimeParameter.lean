import Tradebook.Ftx.Client
import Tradebook.Proofs.DigitText
import Tradebook.Proofs.TimestampOrder

/-!
# The bounds of a span, as the server reads them

A request names its span of time in text: seconds with six decimals. What the
server reads is a number of microseconds, so anything finer is gone, and that is
why a history is exact only about instants of whole microseconds.

`microsOf?` is a reader of such texts. `microsOf?_timeParameter` says that it reads
the microseconds of an instant from the epoch on; of an earlier one it reads a
negative number, though not always the right one (`microsOf?_before_epoch`). A
text with a leap second has seven decimals and is not read at all.
-/

namespace Tradebook

namespace Timestamp

/-- Whole microseconds since the epoch, rounded down. -/
def micros (t : Timestamp) : Int :=
  t.seconds * 1000000 + (t.nanos / 1000 : Nat)

/-- An instant of whole microseconds from the epoch on, outside leap seconds. -/
structure Exact (t : Timestamp) : Prop where
  since_epoch : 0 ≤ t.seconds
  no_leap : t.nanos < 1000000000
  whole : t.nanos % 1000 = 0

theorem Exact.le_iff_micros {a b : Timestamp} (ha : a.Exact) (hb : b.nanos < 1000000000) :
    a ≤ b ↔ a.micros ≤ b.micros := by
  have hleap := ha.no_leap
  have hwhole := ha.whole
  rw [le_iff_rank]
  unfold rank micros
  omega

theorem le_of_seconds_le {a b : Timestamp} (hseconds : a.seconds ≤ b.seconds)
    (hnanos : a.nanos = b.nanos) : a ≤ b := by
  rw [le_iff_rank]
  unfold rank
  omega

/-- An instant outside leap seconds. -/
def Plain (t : Timestamp) : Prop :=
  t.nanos < 1000000000

instance (t : Timestamp) : Decidable t.Plain :=
  inferInstanceAs (Decidable (t.nanos < 1000000000))

/-- The beginning of the microsecond that an instant lies in. -/
def microStart (t : Timestamp) : Timestamp where
  seconds := t.seconds
  nanos := t.nanos / 1000 * 1000
  first_le := t.first_le
  le_last := t.le_last
  nanos_lt := lt_of_le_of_lt (Nat.div_mul_le_self _ _) t.nanos_lt

theorem microStart_le (t : Timestamp) : t.microStart ≤ t := by
  rw [le_iff_rank]
  unfold rank microStart
  dsimp only
  omega

theorem microStart_mono {a b : Timestamp} (h : a ≤ b) : a.microStart ≤ b.microStart := by
  have ha := a.nanos_lt
  have hb := b.nanos_lt
  rw [le_iff_rank] at h ⊢
  unfold rank microStart at *
  dsimp only
  omega

theorem microStart_of_whole {t : Timestamp} (h : t.nanos % 1000 = 0) : t.microStart = t := by
  refine rank_injective ?_
  unfold rank microStart
  dsimp only
  omega

theorem Plain.microStart {t : Timestamp} (h : t.Plain) : t.microStart.Plain :=
  lt_of_le_of_lt (Nat.div_mul_le_self _ _) h

/-- No exact instant lies between the beginning of a microsecond and what is left of it. -/
theorem Exact.le_microStart {a b : Timestamp} (ha : a.Exact) :
    a ≤ b.microStart ↔ a ≤ b := by
  have hwhole := ha.whole
  rw [le_iff_rank, le_iff_rank]
  unfold rank Timestamp.microStart
  dsimp only
  omega

/-- Whole seconds after an exact instant there is another one. -/
theorem Exact.addSeconds? {t reach : Timestamp} {span : Nat} (h : t.Exact)
    (hreach : t.addSeconds? span = some reach) :
    reach.Exact ∧ t ≤ reach ∧ reach.seconds = t.seconds + span := by
  obtain ⟨hepoch, hleap, hwhole⟩ := h
  unfold Timestamp.addSeconds? at hreach
  split at hreach
  · next hspan =>
      obtain rfl := Option.some.inj hreach
      subst hspan
      exact ⟨⟨hepoch, hleap, hwhole⟩, le_refl t, by omega⟩
  · rw [if_pos (show t.nanos < perSecond from hleap)] at hreach
    unfold ofParts? at hreach
    split at hreach
    · obtain rfl := Option.some.inj hreach
      exact ⟨⟨by dsimp only; omega, hleap, hwhole⟩,
        le_of_seconds_le (by dsimp only; omega) rfl, rfl⟩
    · cases hreach

end Timestamp

namespace Ftx

open Tradebook.Text

/-- Reads a number with six decimals, without a sign, as so many millionths. -/
def millionths? (cs : List Char) : Option Nat :=
  let whole := cs.takeWhile (· ≠ '.')
  let decimals := (cs.dropWhile (· ≠ '.')).drop 1
  if whole ≠ [] ∧ (whole ++ decimals).all Char.isDigit ∧ decimals.length = 6 then
    some (ofDigits (whole ++ decimals))
  else none

/-- Reads seconds with six decimals as microseconds. -/
def microsOf? (text : String) : Option Int :=
  if text.toList.head? = some '-' then (millionths? text.toList.tail).map fun n : Nat => -(n : Int)
  else (millionths? text.toList).map Int.ofNat

theorem millionths?_decimals (n : Nat) {m : Nat} (hm : m < 1000000) :
    millionths? (decimalDigits n ++ '.' :: padZeros 6 (decimalDigits m)) =
      some (n * 1000000 + m) := by
  have hlength : (padZeros 6 (decimalDigits m)).length = 6 :=
    length_padZeros (length_decimalDigits_le 5 hm)
  have hwhole : ∀ c ∈ decimalDigits n, (c ≠ '.') := fun c hc =>
    isDigit_ne (isDigit_of_mem_decimalDigits n c hc) (by decide)
  have htake : (decimalDigits n ++ '.' :: padZeros 6 (decimalDigits m)).takeWhile (· ≠ '.') =
      decimalDigits n := by
    rw [List.takeWhile_append_of_pos (by simpa using hwhole)]
    simp
  have hdrop : (decimalDigits n ++ '.' :: padZeros 6 (decimalDigits m)).dropWhile (· ≠ '.') =
      '.' :: padZeros 6 (decimalDigits m) := by
    rw [List.dropWhile_append_of_pos (by simpa using hwhole)]
    simp
  have hdigits : (decimalDigits n ++ padZeros 6 (decimalDigits m)).all Char.isDigit = true := by
    rw [List.all_eq_true]
    intro c hc
    rcases List.mem_append.1 hc with hc | hc
    · exact isDigit_of_mem_decimalDigits n c hc
    · exact isDigit_of_mem_padZeros (isDigit_of_mem_decimalDigits m) c hc
  unfold millionths?
  simp only [htake, hdrop, List.drop_one, List.tail_cons]
  rw [if_pos ⟨decimalDigits_ne_nil n, hdigits, hlength⟩, ofDigits_append, hlength,
    ofDigits_decimalDigits, ofDigits_padZeros, ofDigits_decimalDigits]
  rfl

theorem toList_timeParameter (t : Timestamp) :
    (timeParameter t).toList =
      (intText t.seconds).toList ++ '.' :: padZeros 6 (decimalDigits (t.nanos / 1000)) := by
  simp [timeParameter]

/-- The server reads an instant from the epoch on to the microsecond. -/
theorem microsOf?_timeParameter {t : Timestamp} (hepoch : 0 ≤ t.seconds)
    (hleap : t.nanos < 1000000000) : microsOf? (timeParameter t) = some t.micros := by
  obtain ⟨n, hn⟩ := Int.eq_ofNat_of_zero_le hepoch
  have hdigits : (intText t.seconds).toList = decimalDigits n := by
    rw [hn]
    simp [intText, natText]
  have hhead : (decimalDigits n ++ '.' :: padZeros 6 (decimalDigits (t.nanos / 1000))).head? ≠
      some '-' := by
    obtain ⟨c, cs, hcs⟩ := List.exists_cons_of_ne_nil (decimalDigits_ne_nil n)
    rw [hcs, List.cons_append, List.head?_cons]
    intro heq
    have hc := isDigit_of_mem_decimalDigits n c (by rw [hcs]; simp)
    exact isDigit_ne hc (by decide) (Option.some.inj heq)
  rw [microsOf?, toList_timeParameter, hdigits, if_neg hhead,
    millionths?_decimals n (by omega), Timestamp.micros, hn]
  simp

/-- Before the epoch it reads a negative number. -/
theorem microsOf?_before_epoch {t : Timestamp} (hepoch : t.seconds < 0)
    (hleap : t.nanos < 1000000000) : ∃ m < 0, microsOf? (timeParameter t) = some m := by
  obtain ⟨n, hn⟩ := Int.eq_negSucc_of_lt_zero hepoch
  have hdigits : (intText t.seconds).toList = '-' :: decimalDigits (n + 1) := by
    rw [hn]
    simp [intText, natText]
  have hread : microsOf? (timeParameter t) =
      some (-(((n + 1) * 1000000 + t.nanos / 1000 : Nat) : Int)) := by
    rw [microsOf?, toList_timeParameter, hdigits, List.cons_append, List.head?_cons, if_pos rfl,
      List.tail_cons, millionths?_decimals (n + 1) (by omega)]
    rfl
  exact ⟨_, by omega, hread⟩

/-- As the beginning of a span it stands for that of its microsecond. -/
theorem microsOf?_low {start : Timestamp} (hstart : start.Plain) :
    ∃ low, microsOf? (timeParameter start) = some low ∧
      ∀ t : Timestamp, t.Exact → (low ≤ t.micros ↔ start.microStart ≤ t) := by
  by_cases hepoch : 0 ≤ start.seconds
  · refine ⟨_, microsOf?_timeParameter hepoch hstart, fun t ht => ?_⟩
    have hexact : start.microStart.Exact := ⟨hepoch, hstart.microStart, Nat.mul_mod_left _ _⟩
    have hmicros : start.microStart.micros = start.micros := by
      unfold Timestamp.micros Timestamp.microStart
      dsimp only
      omega
    rw [hexact.le_iff_micros ht.no_leap, hmicros]
  · obtain ⟨low, hneg, hread⟩ := microsOf?_before_epoch (not_le.1 hepoch) hstart
    refine ⟨low, hread, fun t ht => iff_of_true ?_ ?_⟩
    · have hsince := ht.since_epoch
      unfold Timestamp.micros
      omega
    · have hsince := ht.since_epoch
      have hnanos := start.microStart.nanos_lt
      rw [Timestamp.le_iff_rank]
      unfold Timestamp.rank
      rw [show start.microStart.seconds = start.seconds from rfl]
      omega

/-- As the end of a span it lets in what is not later. -/
theorem microsOf?_high {upper : Timestamp} (hupper : upper.Plain) :
    ∃ high, microsOf? (timeParameter upper) = some high ∧
      ∀ t : Timestamp, t.Exact → (t.micros ≤ high ↔ t ≤ upper) := by
  by_cases hepoch : 0 ≤ upper.seconds
  · exact ⟨_, microsOf?_timeParameter hepoch hupper, fun t ht => (ht.le_iff_micros hupper).symm⟩
  · -- No exact instant is from before the epoch, and the number that is read lies before it.
    obtain ⟨high, hneg, hread⟩ := microsOf?_before_epoch (not_le.1 hepoch) hupper
    refine ⟨high, hread, fun t ht => iff_of_false ?_ fun hle => ?_⟩
    · have hsince := ht.since_epoch
      unfold Timestamp.micros
      omega
    · exact hepoch (le_trans ht.since_epoch (Timestamp.seconds_le_of_le hle))

theorem timeParameter_microStart (t : Timestamp) :
    timeParameter t.microStart = timeParameter t := by
  unfold timeParameter Timestamp.microStart
  dsimp only
  rw [Nat.mul_div_cancel _ (by decide)]

theorem isSome_microsOf?_timeParameter {t : Timestamp} (hleap : t.nanos < 1000000000) :
    (microsOf? (timeParameter t)).isSome := by
  by_cases hepoch : 0 ≤ t.seconds
  · rw [microsOf?_timeParameter hepoch hleap]
    rfl
  · obtain ⟨m, -, hread⟩ := microsOf?_before_epoch (not_le.1 hepoch) hleap
    rw [hread]
    rfl

theorem mem_of_millionths? {cs : List Char} {n : Nat} (h : millionths? cs = some n) :
    ∀ c ∈ cs, c = '.' ∨ c.isDigit = true := by
  intro c hc
  simp only [millionths?] at h
  split at h
  · next hread =>
      have hdigits := List.all_eq_true.1 hread.2.1
      rw [← List.takeWhile_append_dropWhile (p := fun c => decide (c ≠ '.')) (l := cs)] at hc
      rcases List.mem_append.1 hc with hc | hc
      · exact Or.inr (hdigits c (List.mem_append_left _ hc))
      · cases hdrop : cs.dropWhile (· ≠ '.') with
        | nil =>
            rw [hdrop] at hc
            cases hc
        | cons point decimals =>
            rw [hdrop] at hc hdigits
            rcases List.mem_cons.1 hc with rfl | hc
            · have hstop := List.head?_dropWhile_not (fun c => decide (c ≠ '.')) cs
              rw [hdrop] at hstop
              exact Or.inl (by simpa using hstop)
            · exact Or.inr (hdigits c (List.mem_append_right _ hc))
  · cases h

/-- A text that can be read holds nothing but digits, a point and a sign. -/
theorem mem_of_microsOf? {text : String} {m : Int} (h : microsOf? text = some m) :
    ∀ c ∈ text.toList, c = '-' ∨ c = '.' ∨ c.isDigit = true := by
  intro c hc
  unfold microsOf? at h
  split at h
  · next hsign =>
      obtain ⟨n, hn, -⟩ := Option.map_eq_some_iff.1 h
      obtain ⟨rest, hrest⟩ := List.head?_eq_some_iff.1 hsign
      rw [hrest] at hc hn
      exact (List.mem_cons.1 hc).imp id (mem_of_millionths? hn c)
  · obtain ⟨n, hn, -⟩ := Option.map_eq_some_iff.1 h
    exact Or.inr (mem_of_millionths? hn c hc)

end Ftx

end Tradebook
