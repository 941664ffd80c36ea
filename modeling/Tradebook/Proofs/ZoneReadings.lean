import Mathlib.Data.List.Basic
import Tradebook.Proofs.CalendarMonths
import Tradebook.Time.Zone

/-!
# Instants and what the clocks show

A zone is asked in two directions. From an instant it is one look at the last change before
it (`offsetAt`); from a reading of the clock it is a walk along all stretches between two
changes (`offsetsFor`), each of which answers for itself. With the changes in order of time
the two agree: a distance found for a reading is the one that holds at the instant found
with it (`offset_of_mem_offsetsFor`), so at that instant the clocks do show the reading
(`wallClock?_of_mem_instants`).
-/

namespace Tradebook

theorem WallClock.ofSeconds_seconds {w : WallClock} (h : w.second < 86400) :
    ofSeconds w.seconds w.nanos = w := by
  have hday : w.seconds / 86400 = w.date.dayNumber := by
    unfold seconds
    omega
  have hsecond : (w.seconds % 86400).toNat = w.second := by
    unfold seconds
    omega
  unfold ofSeconds
  rw [hday, hsecond, Date.ofDayNumber_dayNumber]

theorem WallClock.seconds_ofSeconds (seconds : Int) (nanos : Nat) :
    (ofSeconds seconds nanos).seconds = seconds ∧ (ofSeconds seconds nanos).second < 86400 := by
  unfold ofSeconds WallClock.seconds
  dsimp only
  rw [Date.dayNumber_ofDayNumber]
  omega

theorem WallClock.toTimestamp?_eq_some {w : WallClock} {offset : Int} {t : Timestamp}
    (h : w.toTimestamp? offset = some t) :
    t.seconds = w.seconds - offset ∧ t.nanos = w.nanos := by
  unfold toTimestamp? Timestamp.ofParts? at h
  split at h
  · cases h
    exact ⟨rfl, rfl⟩
  · cases h

/-- The seconds that a clock may show at an instant that is handled. -/
def WallClock.Handled (w : WallClock) : Prop :=
  -8334601228800 ≤ w.seconds ∧ w.seconds ≤ 8210266876799

namespace Zone

theorem wallClock?_eq_some {z : Zone} {t : Timestamp} {w : WallClock}
    (h : z.wallClock? t = some w) :
    w.seconds = t.seconds + z.offsetAt t.seconds ∧ w.second < 86400 ∧ w.nanos = t.nanos := by
  unfold wallClock? WallClock.ofTimestamp? at h
  dsimp only at h
  split at h
  · obtain rfl := Option.some.inj h
    obtain ⟨hseconds, hsecond⟩ :=
      WallClock.seconds_ofSeconds (t.seconds + z.offsetAt t.seconds) t.nanos
    exact ⟨hseconds, hsecond, rfl⟩
  · cases h

/-- The changes stand in the order in which they came. -/
def Ordered (z : Zone) : Prop :=
  z.changes.Pairwise fun a b => a.1 < b.1

instance (z : Zone) : Decidable z.Ordered :=
  inferInstanceAs (Decidable (List.Pairwise _ _))

/-- No distance is found for a time before the stretch. -/
theorem le_of_mem_offsetsFor {reading : Int} {start : Option Int} {initial offset : Int}
    {changes : List (Int × Int)} (hordered : changes.Pairwise fun a b => a.1 < b.1)
    (hstart : ∀ s ∈ start, ∀ change ∈ changes, s ≤ change.1)
    (h : offset ∈ offsetsFor reading start initial changes) :
    ∀ s ∈ start, s ≤ reading - offset := by
  induction changes generalizing start initial with
  | nil =>
      intro s hs
      obtain rfl : start = some s := hs
      rw [offsetsFor] at h
      split at h
      · next hafter =>
          obtain rfl := List.mem_singleton.1 h
          simpa using hafter
      · cases h
  | cons change changes ih =>
      obtain ⟨hfirst, hrest⟩ := List.pairwise_cons.1 hordered
      intro s hs
      have hlater (hmem : offset ∈ offsetsFor reading (some change.1) change.2 changes) :
          s ≤ reading - offset := by
        have hbefore : ∀ s' ∈ some change.1, ∀ c ∈ changes, s' ≤ c.1 := by
          rintro _ ⟨⟩ c hc
          exact Int.le_of_lt (hfirst c hc)
        have hchange := ih hrest hbefore hmem change.1 rfl
        have hstretch := hstart s hs change List.mem_cons_self
        omega
      rw [offsetsFor] at h
      split at h
      · next hhere =>
          rcases List.mem_cons.1 h with rfl | hmem
          · obtain rfl : start = some s := hs
            simp only [Option.all_some, Bool.and_eq_true, decide_eq_true_eq] at hhere
            exact hhere.1
          · exact hlater hmem
      · exact hlater h

/-- A distance found for a reading is the one that holds at the instant found with it. -/
theorem offset_of_mem_offsetsFor {reading : Int} {start : Option Int} {initial offset : Int}
    {changes : List (Int × Int)} (hordered : changes.Pairwise fun a b => a.1 < b.1)
    (h : offset ∈ offsetsFor reading start initial changes) :
    (changes.filter (·.1 ≤ reading - offset)).foldl (fun _ change => change.2) initial =
      offset := by
  induction changes generalizing start initial with
  | nil =>
      rw [offsetsFor] at h
      split at h
      · exact (List.mem_singleton.1 h).symm
      · cases h
  | cons change changes ih =>
      obtain ⟨hfirst, hrest⟩ := List.pairwise_cons.1 hordered
      have hlater (hmem : offset ∈ offsetsFor reading (some change.1) change.2 changes) :
          ((change :: changes).filter (·.1 ≤ reading - offset)).foldl
            (fun _ change => change.2) initial = offset := by
        have hbefore : ∀ s ∈ some change.1, ∀ c ∈ changes, s ≤ c.1 := by
          rintro _ ⟨⟩ c hc
          exact Int.le_of_lt (hfirst c hc)
        have hchange := le_of_mem_offsetsFor hrest hbefore hmem change.1 rfl
        rw [List.filter_cons_of_pos (by simpa using hchange), List.foldl_cons]
        exact ih hrest hmem
      rw [offsetsFor] at h
      split at h
      · next hhere =>
          rcases List.mem_cons.1 h with rfl | hmem
          · -- no change has come yet
            simp only [Bool.and_eq_true, decide_eq_true_eq] at hhere
            have hnone : (change :: changes).filter (·.1 ≤ reading - offset) = [] := by
              refine List.filter_eq_nil_iff.2 fun c hc => ?_
              rcases List.mem_cons.1 hc with rfl | hc
              · simpa using hhere.2
              · have := hfirst c hc
                simp
                omega
            rw [hnone, List.foldl_nil]
          · exact hlater hmem
      · exact hlater h

theorem mem_of_mem_offsetsFor {reading : Int} {start : Option Int} {initial offset : Int}
    {changes : List (Int × Int)} (h : offset ∈ offsetsFor reading start initial changes) :
    offset ∈ initial :: changes.map Prod.snd := by
  induction changes generalizing start initial with
  | nil =>
      rw [offsetsFor] at h
      split at h
      · exact h
      · cases h
  | cons change changes ih =>
      rw [offsetsFor] at h
      split at h
      · rcases List.mem_cons.1 h with rfl | hmem
        · exact List.mem_cons_self
        · exact List.mem_cons_of_mem _ (ih hmem)
      · exact List.mem_cons_of_mem _ (ih h)

theorem mem_instants_of_single? {z : Zone} {w : WallClock} {t : Timestamp}
    (h : z.single? w = some t) : t ∈ z.instants w := by
  unfold single? at h
  split at h
  · next found heq =>
      rw [heq, Option.some.inj h]
      exact List.mem_singleton_self t
  · cases h

theorem mem_instants {z : Zone} {w : WallClock} {t : Timestamp} (h : t ∈ z.instants w) :
    ∃ offset ∈ offsetsFor w.seconds none z.initial z.changes, w.toTimestamp? offset = some t := by
  unfold instants at h
  dsimp only at h
  split at h
  · simpa using h
  · cases h

/-- At the instants found for a reading the clocks show it. -/
theorem wallClock?_of_mem_instants {z : Zone} (hordered : z.Ordered) {w : WallClock}
    (hsecond : w.second < 86400) (hhandled : w.Handled) {t : Timestamp} (h : t ∈ z.instants w) :
    z.wallClock? t = some w := by
  obtain ⟨offset, hmem, ht⟩ := mem_instants h
  obtain ⟨hseconds, hnanos⟩ := WallClock.toTimestamp?_eq_some ht
  have hoffset : z.offsetAt t.seconds = offset := by
    rw [hseconds]
    exact offset_of_mem_offsetsFor hordered hmem
  have hback : t.seconds + offset = w.seconds := by omega
  unfold wallClock? WallClock.ofTimestamp?
  dsimp only
  rw [hoffset, hback, hnanos, WallClock.ofSeconds_seconds hsecond]
  exact if_pos hhandled

/-! ## Clocks that are not changed, or not any more -/

theorem offsetAt_fixed (offset seconds : Int) : (fixed offset).offsetAt seconds = offset :=
  rfl

theorem earliest?_fixed (offset : Int) (w : WallClock) :
    (fixed offset).earliest? w = w.toTimestamp? offset := by
  unfold earliest? instants fixed offsetsFor
  cases h : w.toTimestamp? offset <;> simp [h]

/-- After the last change a reading has shown once, with the distance that holds from then on. -/
theorem offsetsFor_late {reading : Int} (most : Int) {start : Option Int} {initial : Int}
    {changes : List (Int × Int)} (hstart : ∀ s ∈ start, s ≤ reading - most)
    (hinitial : initial ≤ most)
    (hchanges : ∀ change ∈ changes, change.1 ≤ reading - most ∧ change.2 ≤ most) :
    offsetsFor reading start initial changes =
      [changes.foldl (fun _ change => change.2) initial] := by
  induction changes generalizing start initial with
  | nil =>
      rw [offsetsFor, if_pos]
      · rfl
      · rw [Option.all_eq_true]
        intro s hs
        have := hstart s hs
        simp
        omega
  | cons change changes ih =>
      obtain ⟨hchange, hrest⟩ := List.forall_mem_cons.1 hchanges
      have hover : ¬ reading - initial < change.1 := by omega
      rw [offsetsFor, List.foldl_cons, if_neg (by simp [hover])]
      refine ih ?_ hchange.2 hrest
      rintro _ ⟨⟩
      exact hchange.1

end Zone

end Tradebook
