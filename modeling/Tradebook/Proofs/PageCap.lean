import Tradebook.Proofs.ShelfServer
import Tradebook.Proofs.WalkReach

/-!
# Pages larger than a server sends

A page that is shorter than what was asked for is the last one of its window. That is so where
a server sends what it has. One that never sends more than the greatest page, whatever it is
asked for, breaks it for whoever asks for more: its page is full and counts as the last one,
and the older rows of the window are left out without a word.

A walk widens its pages up to the greatest one and no further, so it asks for more only if it
is set up to. `gapless_iff` is that bound on the settings: a history is never missing a row
between others, whatever such a server does, exactly if the page size of the account is no
larger than the greatest page.
-/

namespace Tradebook.Ftx

open Walk

section Capped

variable {σ ρ : Type}

/-- A server that has some rows, and when it is asked for a page of them answers with the newest
rows between the bounds that it reads, but with no more than the greatest page holds. -/
structure CappedServer (c : Config) (wire : HttpWire σ) (decode : Json → Option ρ)
    (endpoint symbol : String) (view : RowView ρ) (rows : List ρ) : Prop where
  ids : (rows.map view.id).Nodup
  page : ∀ {low high : String} {a b : Int} {size : Nat} {s : σ} {page : List ρ} {s' : σ},
    microsOf? low = some a → microsOf? high = some b →
    askPage c wire decode endpoint symbol low high size s = (.ok page, s') →
    NewestPage view.time (microSpan view rows a b) (min size greatestPage) page

/-- A history is missing no row that is wanted and older than one that it has. -/
def Gapless (view : RowView ρ) (rows : List ρ) (keep : ρ → Bool) (since : Timestamp)
    (out : List ρ) : Prop :=
  ∀ last ∈ out, ∀ r ∈ rows, keep r = true → since ≤ view.time r →
    view.time r < view.time last → r ∈ out

/-- The questions that do not ask for more than the greatest page. -/
def modest (ask : Ask σ ρ) : Ask σ ρ := fun start upper size s =>
  if size ≤ greatestPage then ask start upper size s else (.exhausted, s)

theorem modest_eq {ask : Ask σ ρ} {size : Nat} (hsize : size ≤ greatestPage)
    (start upper : Timestamp) (s : σ) : modest ask start upper size s = ask start upper size s :=
  if_pos hsize

variable {c : Config} {wire : HttpWire σ} {decode : Json → Option ρ} {endpoint symbol : String}
  {view : RowView ρ} {rows : List ρ} {keep : ρ → Bool} {since upper : Timestamp} {limit : Nat}

theorem CappedServer.servesPlain (h : CappedServer c wire decode endpoint symbol view rows)
    (hrows : ∀ r ∈ rows, (view.time r).Exact) :
    ServesPlain view rows (modest (askHistory c wire decode endpoint symbol)) := by
  refine ⟨⟨h.ids, fun r hr => (hrows r hr).no_leap, ?_⟩, fun start upper size s => ?_, hrows⟩
  · rintro start upper size s page s' ⟨hstart, hwhole⟩ hupper hask
    by_cases hsize : size ≤ greatestPage
    · rw [modest_eq hsize, askHistory_eq_askPage] at hask
      obtain ⟨low, high, hlow, hhigh, hspan⟩ := exists_microSpan hrows hstart hwhole hupper
      have hpage := h.page hlow hhigh hask
      rwa [min_eq_left hsize, hspan] at hpage
    · rw [modest, if_neg hsize] at hask
      cases hask
  · unfold modest
    rw [coarse_askHistory start]

/-- A row before one of the oldest is one of the oldest. -/
theorem gapless_oldestWanted :
    Gapless view rows keep since (oldestWanted view rows keep since upper limit) := by
  intro last hlast r hr hkeep hfrom hlt
  unfold oldestWanted at hlast ⊢
  have hperm := List.mergeSort_perm ((spanOf view rows since upper).filter keep) (inOrder view)
  have hsorted : (((spanOf view rows since upper).filter keep).mergeSort (inOrder view)).Pairwise
      fun a b => inOrder view a b = true :=
    List.pairwise_mergeSort inOrder_trans inOrder_total _
  generalize ((spanOf view rows since upper).filter keep).mergeSort (inOrder view) = sorted
    at hperm hsorted hlast
  have hupper : view.time last ≤ upper :=
    (mem_spanOf.1 (List.mem_filter.1 (hperm.mem_iff.1 (List.mem_of_mem_take hlast))).1).2.2
  have hmem : r ∈ sorted := hperm.mem_iff.2 (List.mem_filter.2
    ⟨mem_spanOf.2 ⟨hr, hfrom, le_trans (le_of_lt hlt) hupper⟩, hkeep⟩)
  rw [← List.take_append_drop limit sorted] at hmem hsorted
  rcases List.mem_append.1 hmem with hmem | hmem
  · exact hmem
  · have horder := inOrder_iff.1 ((List.pairwise_append.1 hsorted).2.2 last hlast r hmem)
    rcases horder with hlt' | ⟨heq, -⟩
    · exact absurd hlt' (not_lt_of_gt hlt)
    · exact absurd hlt (heq ▸ lt_irrefl _)

/-- A history is never missing a row between others, whatever rows a server has that keeps to the
greatest page, if an account asks for so many rows at a time. -/
def AlwaysGapless (pageSize : Nat) : Prop :=
  ∀ {σ ρ : Type} (c : Config) (wire : HttpWire σ) (decode : Json → Option ρ)
    (endpoint symbol : String) (view : RowView ρ) (rows : List ρ) (keep : ρ → Bool)
    (since : Timestamp) (limit steps : Nat) (s s' : σ) (out : List ρ),
    c.historyPageSize = pageSize → CappedServer c wire decode endpoint symbol view rows →
    (∀ r ∈ rows, (view.time r).Exact) → since.Plain → since.nanos % 1000 = 0 →
    (wire.now s).Plain →
    history c wire steps view decode endpoint keep symbol since limit s = (.ok out, s') →
    Gapless view rows keep since out

theorem alwaysGapless_of_le {pageSize : Nat} (hsize : pageSize ≤ greatestPage) :
    AlwaysGapless pageSize := by
  intro σ ρ c wire decode endpoint symbol view rows keep since limit steps s s' out hpages hserver
    hrows hsince _ hclock hok
  have hended := since_ended (hserver.servesPlain hrows) hsince hclock keep endpoint
    c.historyPageSize limit steps s
  -- The walk never gets to ask for more than the server sends, so its questions are all modest.
  rw [← since_congr (max_le (by decide) (hpages ▸ hsize)) (le_refl greatestPage)
    fun start upper size s hle => (modest_eq hle start upper s).symm] at hended
  unfold history at hok
  rw [hok] at hended
  obtain ⟨upper, -, rfl, -⟩ := hended
  exact gapless_oldestWanted

end Capped

/-! ## A row that is left out -/

def secondIn : Timestamp :=
  epochPlus 1 0

/-- As many fills of an instant as fit the greatest page. -/
def fullPage : List FillRow :=
  fillsAt secondIn greatestPage

/-- A fill of the second before. -/
def buried : FillRow :=
  fillAt .epoch greatestPage

/-- The page and the fill behind it. -/
def pileOfFills : List FillRow :=
  fullPage ++ [buried]

theorem readable_pileOfFills : ∀ r ∈ pileOfFills, r.Readable := by
  intro r hr
  rcases List.mem_append.1 hr with hr | hr
  · exact readable_fillsAt (by decide) (by decide) r hr
  · rw [List.mem_singleton.1 hr]
    exact readable_fillAt (by decide) (by decide)

theorem exact_pileOfFills : ∀ r ∈ pileOfFills, (fillView.time r).Exact := by
  intro r hr
  change r.time.Exact
  rcases List.mem_append.1 hr with hr | hr
  · rw [time_fillsAt hr]
    exact ⟨by decide, by decide, by decide⟩
  · rw [List.mem_singleton.1 hr]
    exact exact_epoch

theorem capped_pileOfFills (pageSize : Nat) :
    CappedServer (pager pageSize) (shelf pileOfFills greatestPage (twins.now ())) FillRow.ofJson?
      "/api/fills" "BTC/USD" fillView pileOfFills := by
  refine ⟨?_, fun {low high a b size s page s'} hlow hhigh hask => ?_⟩
  · change (pileOfFills.map FillRow.id).Nodup
    rw [pileOfFills, fullPage, List.map_append, ids_fillsAt]
    exact List.range_succ ▸ List.nodup_range
  · rw [askPage_shelf _ _ _ readable_pileOfFills hlow hhigh] at hask
    rw [← Outcome.ok.inj (Prod.mk.inj hask).1]
    refine newestPage_shelf _ (List.pairwise_append.2 ⟨?_, List.pairwise_singleton _ _, ?_⟩) _ _ _
    · exact sorted_fillsAt _ _
    · intro a ha b hb
      rw [time_fillsAt ha, List.mem_singleton.1 hb]
      decide

/-- Of the history that is asked for in one large page the oldest row is missing. -/
theorem history_pileOfFills {pageSize : Nat} (hsize : greatestPage < pageSize) (steps : Nat) :
    history (pager pageSize) (shelf pileOfFills greatestPage (twins.now ())) (steps + 1) fillView
      FillRow.ofJson? "/api/fills" (fun _ => true) "BTC/USD" .epoch 1 () =
        (.ok ((fullPage.mergeSort (inOrder fillView)).take 1), ()) := by
  have hspan : microSpan fillView pileOfFills Timestamp.epoch.micros (twins.now ()).micros =
      pileOfFills := by
    refine List.filter_eq_self.2 fun r hr => ?_
    change decide (Timestamp.epoch.micros ≤ r.time.micros ∧
      r.time.micros ≤ (twins.now ()).micros) = true
    rcases List.mem_append.1 hr with hr | hr
    · rw [time_fillsAt hr]
      decide
    · rw [List.mem_singleton.1 hr]
      decide
  have hpage : shelfPage pileOfFills greatestPage Timestamp.epoch.micros (twins.now ()).micros
      (max 1 pageSize) = fullPage := by
    rw [shelfPage, hspan, min_eq_right (le_trans (le_of_lt hsize) (le_max_right _ _)), pileOfFills]
    exact List.take_left' (length_fillsAt _ _)
  have hask := askHistory_shelf greatestPage (twins.now ()) pageSize readable_pileOfFills
    (by decide : Timestamp.epoch.Plain) (by decide) (by decide : (twins.now ()).Plain) (by decide)
    (max 1 pageSize) ()
  rw [hpage] at hask
  obtain ⟨reach, hreach, hearlier⟩ : ∃ reach, Timestamp.epoch.addSeconds? firstSpan = some reach ∧
      reach.earlier (twins.now ()) = twins.now () := ⟨_, rfl, rfl⟩
  -- The other time that it is now is on the clock of the server.
  nth_rewrite 2 [← hearlier] at hask
  have hall : (fullPage.filter fun _ => true).filter
      (fun r => Timestamp.epoch ≤ fillView.time r) = fullPage := by
    rw [List.filter_true]
    refine List.filter_eq_self.2 fun r hr => ?_
    change decide (Timestamp.epoch ≤ r.time) = true
    rw [time_fillsAt hr]
    decide
  have hids : (fullPage.map fillView.id).Nodup :=
    ids_fillsAt secondIn greatestPage ▸ List.nodup_range
  have hsome : fullPage ≠ [] := List.ne_nil_of_length_pos (by rw [fullPage, length_fillsAt]; decide)
  have hshort : fullPage.length < max 1 pageSize := by
    rw [fullPage, length_fillsAt]
    exact lt_max_of_lt_right hsize
  change Walk.since fillView (fun _ => true) (askHistory (pager pageSize)
    (shelf pileOfFills greatestPage (twins.now ())) FillRow.ofJson? "/api/fills" "BTC/USD")
    "/api/fills" pageSize 1 (steps + 1) (twins.now ()) .epoch () = _
  rw [since_of_short_page hreach hask hids hsome hshort (Or.inr (le_of_eq hearlier.symm)), hall]

theorem not_gapless_pileOfFills :
    ¬ Gapless fillView pileOfFills (fun _ => true) .epoch
      ((fullPage.mergeSort (inOrder fillView)).take 1) := by
  intro h
  have hpage : ∀ r ∈ (fullPage.mergeSort (inOrder fillView)).take 1, r.time = secondIn :=
    fun r hr => time_fillsAt ((List.mergeSort_perm _ _).mem_iff.1 (List.mem_of_mem_take hr))
  obtain ⟨last, hlast⟩ : ∃ last, last ∈ (fullPage.mergeSort (inOrder fillView)).take 1 := by
    refine List.exists_mem_of_length_pos ?_
    rw [List.length_take, List.length_mergeSort, fullPage, length_fillsAt]
    decide
  have hlater : buried.time < last.time := by
    rw [hpage last hlast]
    decide
  have hmem := h last hlast buried (List.mem_append_right _ (List.mem_singleton_self _)) rfl
    (le_refl _) hlater
  exact absurd (hpage buried hmem) (by decide)

/-- A history is missing no row between others, whatever a server has that never sends more than
the greatest page, exactly if an account does not ask for more than that at a time. -/
theorem gapless_iff (pageSize : Nat) : AlwaysGapless pageSize ↔ pageSize ≤ greatestPage := by
  refine ⟨fun h => ?_, alwaysGapless_of_le⟩
  by_contra hlarge
  exact not_gapless_pileOfFills (h (pager pageSize) _ _ _ _ _ _ _ _ 1 1 () () _ rfl
    (capped_pileOfFills pageSize) exact_pileOfFills (by decide) (by decide) (by decide)
    (history_pileOfFills (Nat.not_le.1 hlarge) 0))

/-- An account that asks for six thousand rows at a time is sent five thousand, takes them for all
that there are and has a history without the oldest one. -/
theorem history_leaves_buried_out :
    CappedServer (pager 6000) (shelf pileOfFills 5000 (twins.now ())) FillRow.ofJson? "/api/fills"
      "BTC/USD" fillView pileOfFills ∧
    (∀ r ∈ pileOfFills, (fillView.time r).Exact) ∧ Timestamp.epoch.nanos % 1000 = 0 ∧
    ∃ out, (∀ steps, history (pager 6000) (shelf pileOfFills 5000 (twins.now ())) (steps + 1)
      fillView FillRow.ofJson? "/api/fills" (fun _ => true) "BTC/USD" .epoch 1 () =
        (.ok out, ())) ∧
      ¬ Gapless fillView pileOfFills (fun _ => true) .epoch out :=
  ⟨capped_pileOfFills 6000, exact_pileOfFills, by decide, _, history_pileOfFills (by decide),
    not_gapless_pileOfFills⟩

end Tradebook.Ftx
