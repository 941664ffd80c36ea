import Tradebook.Proofs.TimeParameter
import Tradebook.Proofs.WalkWindow

/-!
# A whole walk

A walk is one window after the other. Each begins at the instant at which the one
before it ended, and rows of that instant come in both; they are told apart like all
others. The invariant (`Walked`) is that the rows before the next window are taken in,
and no row that the next windows are yet to reach.

The walk ends where there are enough rows or nothing is left. In the first case rows
are missing, but only rows later than all that were found. So it makes no difference
to the oldest `limit` of them, once they are put in order (`take_mergeSort`), and
`since_exact` says that the answer is the one that a look at all rows would give.
-/

namespace Tradebook.Ftx.Walk

/-! ## The order of the rows -/

section Order

variable {ρ : Type} {view : RowView ρ}

theorem inOrder_iff {a b : ρ} : inOrder view a b = true ↔
    view.time a < view.time b ∨ view.time a = view.time b ∧ view.id a ≤ view.id b := by
  simp [inOrder]

theorem inOrder_trans (a b c : ρ) (hab : inOrder view a b = true)
    (hbc : inOrder view b c = true) : inOrder view a c = true := by
  rw [inOrder_iff] at hab hbc ⊢
  rcases hab with hab | ⟨hab, hid⟩
  · rcases hbc with hbc | ⟨hbc, -⟩
    · exact Or.inl (hab.trans hbc)
    · exact Or.inl (hbc ▸ hab)
  · rcases hbc with hbc | ⟨hbc, hid'⟩
    · exact Or.inl (hab ▸ hbc)
    · exact Or.inr ⟨hab.trans hbc, hid.trans hid'⟩

theorem inOrder_total (a b : ρ) : (inOrder view a b || inOrder view b a) = true := by
  rw [Bool.or_eq_true, inOrder_iff, inOrder_iff]
  rcases lt_trichotomy (view.time a) (view.time b) with h | h | h
  · exact Or.inl (Or.inl h)
  · exact (le_total (view.id a) (view.id b)).imp (fun hid => Or.inr ⟨h, hid⟩)
      fun hid => Or.inr ⟨h.symm, hid⟩
  · exact Or.inr (Or.inl h)

theorem id_eq_of_inOrder {a b : ρ} (hab : inOrder view a b = true)
    (hba : inOrder view b a = true) : view.id a = view.id b := by
  rw [inOrder_iff] at hab hba
  rcases hab with hab | ⟨hab, hid⟩
  · rcases hba with hba | ⟨hba, -⟩
    · exact absurd hba (not_lt_of_gt hab)
    · exact absurd hab (hba ▸ lt_irrefl _)
  · rcases hba with hba | ⟨-, hid'⟩
    · exact absurd hba (hab ▸ lt_irrefl _)
    · exact le_antisymm hid hid'

/-- Rows told apart by their ids come into one order, however they lay. -/
theorem mergeSort_eq_of_perm {rows sorted : List ρ} (hids : (rows.map view.id).Nodup)
    (hperm : rows.Perm sorted) (hsorted : sorted.Pairwise fun a b => inOrder view a b = true) :
    rows.mergeSort (inOrder view) = sorted := by
  have hsort := List.mergeSort_perm rows (inOrder view)
  refine List.Perm.eq_of_pairwise (fun a b ha hb hab hba => ?_)
    (List.pairwise_mergeSort inOrder_trans inOrder_total rows) hsorted (hsort.trans hperm)
  exact List.inj_on_of_nodup_map hids (hsort.mem_iff.1 ha) (hperm.mem_iff.2 hb)
    (id_eq_of_inOrder hab hba)

/-- Later rows do not matter to the oldest ones, if there are enough of these. -/
theorem take_mergeSort {rows early late : List ρ} {limit : Nat}
    (hids : (rows.map view.id).Nodup) (hperm : rows.Perm (early ++ late))
    (hlater : ∀ a ∈ early, ∀ b ∈ late, view.time a < view.time b)
    (henough : limit ≤ early.length ∨ late = []) :
    (rows.mergeSort (inOrder view)).take limit =
      (early.mergeSort (inOrder view)).take limit := by
  have hearly := List.mergeSort_perm early (inOrder view)
  have hlate := List.mergeSort_perm late (inOrder view)
  have hsorted : (early.mergeSort (inOrder view) ++ late.mergeSort (inOrder view)).Pairwise
      fun a b => inOrder view a b = true := by
    refine List.pairwise_append.2
      ⟨List.pairwise_mergeSort inOrder_trans inOrder_total early,
        List.pairwise_mergeSort inOrder_trans inOrder_total late, fun a ha b hb => ?_⟩
    rw [inOrder_iff]
    exact Or.inl (hlater a (hearly.mem_iff.1 ha) b (hlate.mem_iff.1 hb))
  rw [mergeSort_eq_of_perm hids (hperm.trans (hearly.append hlate).symm) hsorted]
  rcases henough with henough | rfl
  · exact List.take_append_of_le_length (by rwa [List.length_mergeSort])
  · rw [List.mergeSort_nil, List.append_nil]

end Order

/-! ## The windows of a walk -/

section Windows

variable {σ ρ : Type} {view : RowView ρ} {rows : List ρ} {ask : Ask σ ρ} {now since : Timestamp}
  {keep : ρ → Bool} {endpoint : String} {pageSize limit pages : Nat}

/-- The instants that a page can end at. -/
def Bound (now t : Timestamp) : Prop :=
  t.Exact ∨ t = now

theorem Bound.no_leap {t : Timestamp} (h : Bound now t) (hclock : now.nanos < 1000000000) :
    t.nanos < 1000000000 := by
  rcases h with hexact | rfl
  · exact hexact.no_leap
  · exact hclock

theorem bound_earlier {reach : Timestamp} (h : reach.Exact) : Bound now (reach.earlier now) := by
  rcases reach.earlier_cases now with heq | heq <;> rw [heq]
  · exact Or.inl h
  · exact Or.inr rfl

/-- A walk goes on only from the end of a whole window. -/
theorem earlier_of_not_le {reach : Timestamp} (h : ¬ now ≤ reach.earlier now) :
    reach.earlier now = reach ∧ reach < now := by
  have heq := (reach.earlier_cases now).resolve_right fun heq => h (le_of_eq heq.symm)
  rw [heq] at h
  exact ⟨heq, not_le.1 h⟩

/-- The rows before the next window were taken in, and none that lies behind its
beginning. -/
structure Walked (view : RowView ρ) (rows : List ρ) (since now start : Timestamp)
    (taken : List ρ) : Prop where
  nodup : (taken.map view.id).Nodup
  sound : ∀ r ∈ taken, r ∈ rows ∧ since ≤ view.time r ∧ view.time r ≤ start ∧ start ≤ now
  cover : ∀ r ∈ rows, since ≤ view.time r → view.time r < start → r ∈ taken

theorem walked_start : Walked view rows since now since [] :=
  ⟨by simp, by simp, fun _ _ hsince hlt => absurd hsince (not_le_of_gt hlt)⟩

/-- After a window all rows up to its end were taken in, and no others. -/
theorem Walked.perm {start upper : Timestamp} {taken more : List ρ}
    (h : Walked view rows since now start taken) (hids : (rows.map view.id).Nodup)
    (hsince : since ≤ start) (hupper : start ≤ now → start ≤ upper)
    (htook : Took view rows start upper taken more)
    (hspan : ∀ r ∈ spanOf view rows start upper, r ∈ more) :
    more.Perm (spanOf view rows since upper) := by
  refine (List.perm_ext_iff_of_nodup (htook.nodup.of_map _)
    ((nodup_ids_spanOf hids since upper).of_map _)).2 fun r => ?_
  rw [mem_spanOf]
  constructor
  · intro hr
    rcases htook.sound r hr with hr | hr
    · obtain ⟨hrow, hfrom, hstart, hnow⟩ := h.sound r hr
      exact ⟨hrow, hfrom, le_trans hstart (hupper hnow)⟩
    · obtain ⟨hrow, hstart, hend⟩ := mem_spanOf.1 hr
      exact ⟨hrow, le_trans hsince hstart, hend⟩
  · rintro ⟨hrow, hfrom, hend⟩
    by_cases hlt : view.time r < start
    · exact htook.kept r (h.cover r hrow hfrom hlt)
    · exact hspan r (mem_spanOf.2 ⟨hrow, not_lt.1 hlt, hend⟩)

theorem walked_of_perm {upper : Timestamp} {more : List ρ} (hids : (rows.map view.id).Nodup)
    (hupper : upper ≤ now) (hperm : more.Perm (spanOf view rows since upper)) :
    Walked view rows since now upper more := by
  refine ⟨?_, fun r hr => ?_, fun r hrow hfrom hlt => ?_⟩
  · exact (hperm.map view.id).nodup_iff.2 (nodup_ids_spanOf hids since upper)
  · obtain ⟨hrow, hfrom, hend⟩ := mem_spanOf.1 (hperm.mem_iff.1 hr)
    exact ⟨hrow, hfrom, hend, hupper⟩
  · exact hperm.mem_iff.2 (mem_spanOf.2 ⟨hrow, hfrom, le_of_lt hlt⟩)

/-- The window that begins where the walk is. -/
theorem window_walked (h : Serves view rows ask Timestamp.Exact (Bound now))
    (hpageSize : 1 ≤ pageSize) {start reach : Timestamp} {span : Nat} (hstart : start.Exact)
    (hsince : since ≤ start) {taken : List ρ} (hwalked : Walked view rows since now start taken)
    (hreach : start.addSeconds? span = some reach) {s s' : σ} {found : Found ρ}
    (hok : window view keep ask endpoint pageSize start pages (reach.earlier now) pageSize
      (.of view keep taken) s = (.ok found, s')) :
    ∃ more, found = .of view keep more ∧
      more.Perm (spanOf view rows since (reach.earlier now)) := by
  obtain ⟨hexact, hforward, -⟩ := hstart.addSeconds? hreach
  obtain ⟨more, hfound, htook, hspan⟩ := window_complete h hstart hpageSize
    (bound_earlier hexact) hpageSize (fun r hr => (hwalked.sound r hr).1) hwalked.nodup hok
  refine ⟨more, hfound, hwalked.perm h.ids hsince (fun hnow => ?_) htook hspan⟩
  rw [Timestamp.earlier_eq_min]
  exact le_min hforward hnow

/-- What a walk that ends well has found: all rows up to the end of its last window.
There are enough of them, or there are no more. -/
theorem windows_complete (h : Serves view rows ask Timestamp.Exact (Bound now))
    (hpageSize : 1 ≤ pageSize) {steps : Nat} {start : Timestamp} {span : Nat}
    (hstart : start.Exact) (hsince : since ≤ start) {taken : List ρ}
    (hwalked : Walked view rows since now start taken) {s s' : σ} {out : List ρ}
    (hok : windows view keep ask endpoint pageSize limit pages now steps start span
      (.of view keep taken) s = (.ok out, s')) :
    ∃ (more : List ρ) (upper : Timestamp), out = (more.filter keep).reverse ∧
      more.Perm (spanOf view rows since upper) ∧ upper ≤ now ∧
      (limit ≤ (more.filter keep).length ∨ upper = now) := by
  induction steps generalizing start span taken s with
  | zero => cases hok
  | succ steps ih =>
      rw [windows] at hok
      cases hreach : start.addSeconds? span with
      | none =>
          simp only [hreach] at hok
          cases hok
      | some reach =>
          simp only [hreach] at hok
          rcases hwindow : window view keep ask endpoint pageSize start pages
            (reach.earlier now) pageSize (.of view keep taken) s with ⟨found | cause | _ | _, s₁⟩
          case ok =>
            obtain ⟨more, rfl, hperm⟩ :=
              window_walked h hpageSize hstart hsince hwalked hreach hwindow
            have hupper := reach.earlier_le now
            simp only [hwindow] at hok
            split at hok
            · next hdone =>
                refine ⟨more, reach.earlier now, ?_, hperm, hupper, ?_⟩
                · exact (Outcome.ok.inj (Prod.mk.inj hok).1).symm
                · exact hdone.imp id fun hnow => le_antisymm hupper hnow
            · next hgo =>
                obtain ⟨hwhole, -⟩ := earlier_of_not_le fun hnow => hgo (Or.inr hnow)
                obtain ⟨hexact, hforward, -⟩ := hstart.addSeconds? hreach
                rw [hwhole] at hok hperm hupper
                exact ih hexact (le_trans hsince hforward) (walked_of_perm h.ids hupper hperm) hok
          all_goals
            simp only [hwindow] at hok
            cases hok

/-- Rows up to an earlier end are the rows up to a later one without those that lie
behind the earlier one. -/
theorem filter_spanOf {upper : Timestamp} (hupper : upper ≤ now) :
    ((spanOf view rows since now).filter keep).filter (fun r => view.time r ≤ upper) =
      (spanOf view rows since upper).filter keep := by
  unfold spanOf
  rw [List.filter_filter, List.filter_filter, List.filter_filter]
  refine List.filter_congr fun r _ => ?_
  by_cases hr : view.time r ≤ upper
  · simp [hr, le_trans hr hupper]
  · simp [hr]

/-- Rows later than all that were found do not matter, if enough were found. -/
theorem take_found {upper : Timestamp} {more : List ρ} (hids : (rows.map view.id).Nodup)
    (hupper : upper ≤ now) (hperm : more.Perm (spanOf view rows since upper))
    (henough : limit ≤ (more.filter keep).length ∨ upper = now) :
    ((more.filter keep).reverse.mergeSort (inOrder view)).take limit =
      (((spanOf view rows since now).filter keep).mergeSort (inOrder view)).take limit := by
  have hearly : ((more.filter keep).reverse).Perm ((spanOf view rows since upper).filter keep) :=
    (List.reverse_perm _).trans (hperm.filter keep)
  have hwanted : (((spanOf view rows since now).filter keep).map view.id).Nodup :=
    (nodup_ids_spanOf hids since now).sublist (List.filter_sublist.map _)
  have hsplit := List.filter_append_perm (fun r => decide (view.time r ≤ upper))
    ((spanOf view rows since now).filter keep)
  rw [filter_spanOf hupper] at hsplit
  refine (take_mergeSort hwanted (hsplit.symm.trans (hearly.symm.append_right _))
    (fun a ha b hb => ?_) ?_).symm
  · have hle := (mem_spanOf.1 (List.mem_filter.1 (hearly.mem_iff.1 ha)).1).2.2
    have hgt := (List.mem_filter.1 hb).2
    exact lt_of_le_of_lt hle (by simpa using hgt)
  · refine henough.imp (fun hlimit => by rwa [List.length_reverse]) fun hnow => ?_
    refine List.filter_eq_nil_iff.2 fun r hr => ?_
    have hle := (mem_spanOf.1 (List.mem_filter.1 hr).1).2.2
    simpa [hnow] using hle

/-- A walk that ends well has the oldest rows of all that are wanted. -/
theorem since_exact (h : Serves view rows ask Timestamp.Exact (Bound now)) (hsince : since.Exact)
    {steps : Nat} {s s' : σ} {out : List ρ}
    (hok : Walk.since view keep ask endpoint pageSize limit steps now since s =
      (.ok out, s')) :
    out = (((spanOf view rows since now).filter keep).mergeSort (inOrder view)).take limit := by
  unfold Walk.since at hok
  rw [show Found.none = Found.of view keep [] from rfl] at hok
  rcases hwindows : windows view keep ask endpoint (max 1 pageSize) limit steps now steps since
    firstSpan (.of view keep []) s with ⟨found | cause | _ | _, s₁⟩
  case ok =>
    obtain ⟨more, upper, rfl, hperm, hupper, henough⟩ := windows_complete h (by omega) hsince
      (le_refl since) walked_start hwindows
    -- Nothing was found from before the beginning of the walk.
    have hfound : (more.filter keep).reverse.filter (fun r => since ≤ view.time r) =
        (more.filter keep).reverse := by
      refine List.filter_eq_self.2 fun r hr => decide_eq_true ?_
      have hmem := (List.mem_filter.1 (List.mem_reverse.1 hr)).1
      exact (mem_spanOf.1 (hperm.mem_iff.1 hmem)).2.1
    simp only [hwindows, hfound] at hok
    rw [← Outcome.ok.inj (Prod.mk.inj hok).1]
    exact take_found h.ids hupper hperm henough
  all_goals
    simp only [hwindows] at hok
    cases hok

/-! ## The walk ends -/

/-- The windows that a walk from `since` may open: each begins where the one before it
ended, short of `now`, and is as long or twice as long. -/
inductive MayOpen (now since : Timestamp) : Timestamp → Nat → Prop
  | first : MayOpen now since since firstSpan
  | next {start reach : Timestamp} {span span' : Nat} (h : MayOpen now since start span)
      (hreach : start.addSeconds? span = some reach) (hless : reach < now)
      (hspan : span' = span ∨ span' = min (2 * span) longestSpan) : MayOpen now since reach span'

theorem MayOpen.spec {start : Timestamp} {span : Nat} (h : MayOpen now since start span)
    (hsince : since.Exact) : start.Exact ∧ since ≤ start ∧ firstSpan ≤ span := by
  induction h with
  | first => exact ⟨hsince, le_refl since, le_refl firstSpan⟩
  | next _ hreach _ hspan ih =>
      obtain ⟨hstart, hfrom, hlong⟩ := ih
      obtain ⟨hexact, hforward, -⟩ := hstart.addSeconds? hreach
      refine ⟨hexact, le_trans hfrom hforward, ?_⟩
      rcases hspan with rfl | rfl
      · exact hlong
      · unfold firstSpan longestSpan at *
        omega

/-- So many pages are enough for any window over `n` rows. -/
def enoughPages (n : Nat) : Nat :=
  (n + 1) * (greatestPage + 1)

theorem weight_lt_enoughPages (rows taken : List ρ) (size : Nat) :
    weight rows taken size < enoughPages rows.length := by
  have hmul : (rows.length - taken.length) * (greatestPage + 1) ≤
      rows.length * (greatestPage + 1) := Nat.mul_le_mul_right _ (Nat.sub_le _ _)
  unfold weight enoughPages
  rw [Nat.succ_mul]
  omega

/-- So many windows are enough from an instant on. -/
def enoughWindows (start now : Timestamp) : Nat :=
  (now.seconds - start.seconds).toNat / firstSpan + 1

theorem enoughWindows_lt {start reach : Timestamp} {span : Nat} (hspan : firstSpan ≤ span)
    (hseconds : reach.seconds = start.seconds + span) (hless : reach.seconds ≤ now.seconds) :
    enoughWindows reach now < enoughWindows start now := by
  unfold enoughWindows firstSpan at *
  omega

/-- If the server answers and there are fewer rows than fit the greatest page, a walk
ends well, unless the end of a window is out of range. -/
theorem windows_settle (h : Serves view rows ask Timestamp.Exact (Bound now))
    (hanswers : ∀ start upper size s, start.Exact → Bound now upper →
      ∃ page s', ask start upper size s = (.ok page, s'))
    (hpageSize : 1 ≤ pageSize) (hfew : (spanOf view rows since now).length < greatestPage)
    (hpages : enoughPages rows.length ≤ pages) {steps : Nat} {start : Timestamp} {span : Nat}
    (hexact : since.Exact) (hopen : MayOpen now since start span) {taken : List ρ}
    (hwalked : Walked view rows since now start taken) (hsteps : enoughWindows start now ≤ steps)
    (keep : ρ → Bool) (endpoint : String) (limit : Nat) (s : σ) :
    (∃ out s', windows view keep ask endpoint pageSize limit pages now steps start span
      (.of view keep taken) s = (.ok out, s')) ∨
    (windows view keep ask endpoint pageSize limit pages now steps start span
      (.of view keep taken) s).1 = .overflow ∧
      ∃ start span, MayOpen now since start span ∧ start.addSeconds? span = none := by
  induction steps generalizing start span taken s with
  | zero => exact absurd hsteps (Nat.not_succ_le_zero _)
  | succ steps ih =>
      rw [windows]
      cases hreach : start.addSeconds? span with
      | none => exact Or.inr ⟨rfl, start, span, hopen, hreach⟩
      | some reach =>
          obtain ⟨hstart, hsince, hlong⟩ := hopen.spec hexact
          obtain ⟨hreached, -, hseconds⟩ := hstart.addSeconds? hreach
          have hupper := reach.earlier_le now
          obtain ⟨found, s₁, hwindow⟩ := window_settles h keep endpoint hstart
            (fun upper size s => hanswers start upper size s hstart) hpageSize
            (bound_earlier hreached) hpageSize (fun r hr => (hwalked.sound r hr).1)
            hwalked.nodup (lt_of_le_of_lt (length_spanOf_le hsince hupper) hfew)
            (lt_of_lt_of_le (weight_lt_enoughPages rows taken pageSize) hpages) s
          obtain ⟨more, rfl, hperm⟩ :=
            window_walked h hpageSize hstart hsince hwalked hreach hwindow
          simp only [hwindow]
          split
          · exact Or.inl ⟨_, s₁, rfl⟩
          · next hgo =>
              obtain ⟨hwhole, hless⟩ := earlier_of_not_le fun hnow => hgo (Or.inr hnow)
              rw [hwhole] at hperm hupper ⊢
              have hnext := enoughWindows_lt hlong hseconds
                (Timestamp.seconds_le_of_le (le_of_lt hless))
              refine ih (.next hopen hreach hless ?_) (walked_of_perm h.ids hupper hperm)
                (by omega) s₁
              split
              · exact Or.inr rfl
              · exact Or.inl rfl

/-- A whole walk ends well likewise. -/
theorem since_settles (h : Serves view rows ask Timestamp.Exact (Bound now))
    (hanswers : ∀ start upper size s, start.Exact → Bound now upper →
      ∃ page s', ask start upper size s = (.ok page, s'))
    (hsince : since.Exact) (hfew : (spanOf view rows since now).length < greatestPage)
    {steps : Nat} (hpages : enoughPages rows.length ≤ steps)
    (hsteps : enoughWindows since now ≤ steps) (keep : ρ → Bool) (endpoint : String)
    (pageSize limit : Nat) (s : σ) :
    (∃ out s', Walk.since view keep ask endpoint pageSize limit steps now since s =
      (.ok out, s')) ∨
    (Walk.since view keep ask endpoint pageSize limit steps now since s).1 = .overflow ∧
      ∃ start span, MayOpen now since start span ∧ start.addSeconds? span = none := by
  have hsettle := windows_settle h hanswers (by omega : 1 ≤ max 1 pageSize) hfew hpages hsince
    .first walked_start hsteps keep endpoint limit s
  unfold Walk.since
  rcases hsettle with ⟨out, s', hwindows⟩ | ⟨hoverflow, hends⟩
  · rw [show Found.none = Found.of view keep [] from rfl, hwindows]
    exact Or.inl ⟨_, s', rfl⟩
  · refine Or.inr ⟨?_, hends⟩
    rw [show Found.none = Found.of view keep [] from rfl]
    rcases hwindows : windows view keep ask endpoint (max 1 pageSize) limit steps now steps since
      firstSpan (.of view keep []) s with ⟨result, s'⟩
    rw [hwindows] at hoverflow
    rw [show result = .overflow from hoverflow]

end Windows

end Tradebook.Ftx.Walk
