import Tradebook.Proofs.ShelfServer
import Tradebook.Proofs.WalkReach

/-!
# Instants that are too full

A history fails where more rows share an instant than fit the greatest page, or so it says. What
it knows is less. It was sent a page of the greatest size without anything new. So the rows of
the instant fill the page, and there need be no more of them. And where the page reaches back to
the beginning of a window, whose rows are known from the window before, the rows of two instants
may fill it together.

`history_crowded` says that there is no other way, and that an instant which fills the page
always makes a history fail that gets as far.
-/

namespace Tradebook.Ftx

open Walk

section Crowded

variable {σ ρ : Type} {c : Config} {wire : HttpWire σ} {decode : Json → Option ρ}
  {endpoint symbol : String} {view : RowView ρ} {rows : List ρ}

theorem refusal_ne_crowded (status : Nat) (detail : String) (instant : Timestamp) :
    refusal status detail ≠ crowded endpoint instant := by
  unfold refusal crowded
  split_ifs <;> simp

theorem readAnswer_ne_crowded {α : Type} (read : Json → Option α) (a : HttpAnswer)
    (instant : Timestamp) : readAnswer read a ≠ .error (crowded endpoint instant) := by
  unfold readAnswer
  dsimp only
  split
  · split <;> simp [crowded]
  · split
    · simpa using refusal_ne_crowded _ _ instant
    · split
      · simp
      · simp [crowded]

/-- No server makes a question fail as a walk does. -/
theorem perform_ne_crowded {α : Type} (read : Json → Option α) (call : Call) (s : σ)
    (instant : Timestamp) :
    (perform c wire read call s).1 ≠ .error (crowded endpoint instant) := by
  unfold perform
  split
  · split
    · split
      · exact readAnswer_ne_crowded read _ instant
      · simp [crowded]
    · simp [crowded]
  · next cause hrequest =>
      obtain ⟨detail, rfl⟩ : ∃ detail, cause = .unauthenticated detail := by
        unfold request at hrequest
        dsimp only at hrequest
        split at hrequest
        · split at hrequest
          · cases hrequest
          · exact ⟨_, (Outcome.error.inj hrequest).symm⟩
        · cases hrequest
      simp [crowded]
  all_goals simp

/-- A history fails for too many rows of an instant only where the rows of an instant fill the
greatest page, or those of the beginning of a later window and of the next instant do together.
It does not end well where an instant that it gets to fills that page. -/
theorem history_crowded (hserver : HonestServer c wire decode endpoint symbol view rows)
    (hrows : ∀ r ∈ rows, (view.time r).Exact) {since : Timestamp} (hsince : since.Plain) {s : σ}
    (hclock : (wire.now s).Plain) (hsize : c.historyPageSize ≤ greatestPage) (keep : ρ → Bool)
    (limit steps : Nat) :
    (∀ instant s', history c wire steps view decode endpoint keep symbol since limit s =
        (.error (crowded endpoint instant), s') →
      ∃ start span found reach,
        Opened view rows keep limit (wire.now s) since start span found ∧
        start.addSeconds? span = some reach ∧
        Crowd view rows (start ≠ since) start.microStart (reach.earlier (wire.now s))) ∧
    ∀ out s', history c wire steps view decode endpoint keep symbol since limit s =
        (.ok out, s') →
      ∃ upper, LastEnd view rows keep limit (wire.now s) since upper ∧
        ∀ t, since.microStart ≤ t → t ≤ upper → (rowsAt view rows t).length < greatestPage := by
  have hended := history_ended hserver hrows hsince hclock keep limit steps
  refine ⟨fun instant s' hrun => ?_, fun out s' hrun => ?_⟩
  all_goals rw [hrun] at hended
  · obtain ⟨start, span, found, reach, hopened, hreach, hask | ⟨-, hcrowd⟩⟩ := hended
    · obtain ⟨upper, size, s, s', -, hask⟩ := hask
      exact absurd (Prod.mk.inj hask).1 (perform_ne_crowded _ _ _ instant)
    · exact ⟨start, span, found, reach, hopened, hreach, hcrowd⟩
  · obtain ⟨upper, hlast, -, hroom⟩ := hended
    exact ⟨upper, hlast, hroom hsize⟩

/-- If every question is answered with rows of finitely many ids, there is a history or a crowd,
unless the end of a window is out of range. -/
theorem history_ok_or_crowded (hserver : HonestServer c wire decode endpoint symbol view rows)
    (hrows : ∀ r ∈ rows, (view.time r).Exact) {since : Timestamp} (hsince : since.Plain) {s : σ}
    (hclock : (wire.now s).Plain) (hanswers : AlwaysAnswers c wire decode endpoint symbol)
    {ids : Finset Nat}
    (hids : ∀ {start upper size s page s'},
      askHistory c wire decode endpoint symbol start upper size s = (.ok page, s') →
      ∀ r ∈ page, view.id r ∈ ids)
    (keep : ρ → Bool) (limit : Nat) :
    ∃ enough, ∀ steps, enough ≤ steps →
      (∃ out s', history c wire steps view decode endpoint keep symbol since limit s =
        (.ok out, s')) ∨
      (∃ instant s', history c wire steps view decode endpoint keep symbol since limit s =
        (.error (crowded endpoint instant), s')) ∨
      ∃ start span, MayOpen (wire.now s) since start span ∧ start.addSeconds? span = none := by
  obtain ⟨result, s', _, hrun, -, hends⟩ := recordedHistory_ends hids keep since limit s
  refine ⟨enoughSteps ids (wire.now s) since, fun steps hsteps => ?_⟩
  obtain ⟨hhistory, -⟩ := hrun steps hsteps
  have hended := history_ended hserver hrows hsince hclock keep limit steps
  rw [hhistory] at hended
  rcases hends with ⟨out, rfl⟩ | ⟨cause, rfl⟩ | ⟨-, hrange⟩
  · exact Or.inl ⟨out, s', hhistory⟩
  · obtain ⟨start, span, found, reach, hopened, -, hask | ⟨⟨instant, rfl⟩, -⟩⟩ := hended
    · obtain ⟨upper, size, s₁, s₂, hupper, hask⟩ := hask
      obtain ⟨page, s₃, hpage⟩ := hanswers _ _
        (isSome_microsOf?_timeParameter (hopened.mayOpen.plain hsince))
        (isSome_microsOf?_timeParameter hupper) size s₁
      rw [askHistory_eq_askPage, hpage] at hask
      cases (Prod.mk.inj hask).1
    · exact Or.inr (Or.inl ⟨instant, s', hhistory⟩)
  · exact Or.inr (Or.inr hrange)

end Crowded

/-! ## Rows that just fill a page -/

theorem exact_epochFills (n : Nat) : ∀ r ∈ fillsAt .epoch n, (fillView.time r).Exact := by
  intro r hr
  change r.time.Exact
  rw [time_fillsAt hr]
  exact exact_epoch

theorem length_rowsAt_epoch (n : Nat) :
    (rowsAt fillView (fillsAt .epoch n) .epoch).length = n := by
  have hall : rowsAt fillView (fillsAt .epoch n) .epoch = fillsAt .epoch n :=
    List.filter_eq_self.2 fun r hr => decide_eq_true (time_fillsAt hr)
  rw [hall, length_fillsAt]

theorem honest_epochFills (n pageSize : Nat) (hn : n ≤ idBound) :
    HonestServer (pager pageSize) (shelf (fillsAt .epoch n) n (twins.now ())) FillRow.ofJson?
      "/api/fills" "BTC/USD" fillView (fillsAt .epoch n) := by
  refine honest_shelf _ _ _ ?_ (readable_fillsAt (by decide) hn) (sorted_fillsAt _ _)
    (le_of_eq (length_fillsAt _ _))
  rw [ids_fillsAt]
  exact List.nodup_range

/-- As many rows of one instant as fit the greatest page, and no more, make a history fail. -/
theorem history_epochFills {pageSize : Nat} (hsize : pageSize ≤ greatestPage) (limit : Nat) :
    ∃ enough, ∀ steps, enough ≤ steps → ∃ instant s',
      history (pager pageSize) (shelf (fillsAt .epoch greatestPage) greatestPage (twins.now ()))
        steps fillView FillRow.ofJson? "/api/fills" (fun _ => true) "BTC/USD" .epoch limit () =
          (.error (crowded "/api/fills" instant), s') := by
  have hreadable : ∀ r ∈ fillsAt .epoch greatestPage, r.Readable :=
    readable_fillsAt (by decide) (by decide)
  have hserver := honest_epochFills greatestPage pageSize (by decide)
  have hanswers := alwaysAnswers_shelf greatestPage (twins.now ()) pageSize hreadable
  have hids : ∀ {start upper size s page s'},
      askHistory (pager pageSize) (shelf (fillsAt .epoch greatestPage) greatestPage (twins.now ()))
        FillRow.ofJson? "/api/fills" "BTC/USD" start upper size s = (.ok page, s') →
      ∀ r ∈ page, fillView.id r ∈ Finset.range greatestPage := by
    intro start upper size s page s' hask r hr
    obtain ⟨id, hid, rfl⟩ := mem_fillsAt.1 (page_of_shelf _ _ _ hreadable hask r hr)
    exact Finset.mem_range.2 hid
  obtain ⟨enough, hends⟩ := history_ok_or_crowded (s := ()) hserver (exact_epochFills _)
    (by decide : Timestamp.epoch.Plain) (by decide) hanswers hids (fun _ => true) limit
  refine ⟨enough, fun steps hsteps => ?_⟩
  rcases hends steps hsteps with ⟨out, s', hok⟩ | hcrowded | ⟨start, span, hopen, hrange⟩
  · -- All rows are of the instant that the history begins with, which it would have gone past.
    have hended := history_ended (s := ()) hserver (exact_epochFills _)
      (by decide : Timestamp.epoch.Plain) (by decide) (fun _ => true) limit steps
    rw [hok] at hended
    obtain ⟨upper, hlast, -, hroom⟩ := hended
    have hepoch := hroom hsize .epoch (Timestamp.microStart_le _) (hlast.since_le (by decide))
    rw [length_rowsAt_epoch] at hepoch
    exact absurd hepoch (lt_irrefl _)
  · exact hcrowded
  · exact absurd hrange (inRange_twins hopen)

/-- A history fails for more than five thousand rows of one instant where there are five
thousand. -/
theorem crowded_without_excess :
    HonestServer (pager 200) (shelf (fillsAt .epoch 5000) 5000 (twins.now ())) FillRow.ofJson?
      "/api/fills" "BTC/USD" fillView (fillsAt .epoch 5000) ∧
    (∀ r ∈ fillsAt .epoch 5000, (fillView.time r).Exact) ∧
    (∃ enough, ∀ steps, enough ≤ steps → ∃ instant s',
      history (pager 200) (shelf (fillsAt .epoch 5000) 5000 (twins.now ())) steps fillView
        FillRow.ofJson? "/api/fills" (fun _ => true) "BTC/USD" .epoch 100 () =
          (.error (crowded "/api/fills" instant), s')) ∧
    ∀ t, (rowsAt fillView (fillsAt .epoch 5000) t).length ≤ 5000 := by
  refine ⟨honest_epochFills 5000 200 (by decide), exact_epochFills 5000,
    history_epochFills (by decide) 100, fun t => ?_⟩
  exact le_trans (List.length_filter_le _ _) (le_of_eq (length_fillsAt _ _))

/-- It fails for a crowd in one of its windows. -/
theorem history_crowded_epochFills :
    (∀ r ∈ fillsAt .epoch 5000, (fillView.time r).Exact) ∧ Timestamp.epoch.Plain ∧
    (twins.now ()).Plain ∧ (pager 200).historyPageSize ≤ greatestPage ∧
    ∃ start span found reach,
      Opened fillView (fillsAt .epoch 5000) (fun _ => true) 100 (twins.now ()) .epoch start span
        found ∧
      start.addSeconds? span = some reach ∧
      Crowd fillView (fillsAt .epoch 5000) (start ≠ .epoch) start.microStart
        (reach.earlier (twins.now ())) := by
  obtain ⟨enough, hfails⟩ := history_epochFills (by decide : 200 ≤ greatestPage) 100
  obtain ⟨instant, s', hfails⟩ := hfails enough (le_refl enough)
  have hcrowded := history_crowded (s := ()) (honest_epochFills 5000 200 (by decide))
    (exact_epochFills 5000) (by decide : Timestamp.epoch.Plain) (by decide) (by decide)
    (fun _ => true) 100 enough
  exact ⟨exact_epochFills 5000, by decide, by decide, by decide, hcrowded.1 instant s' hfails⟩

end Tradebook.Ftx
