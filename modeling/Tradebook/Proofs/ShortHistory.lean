import Tradebook.Proofs.ShelfServer
import Tradebook.Proofs.WalkReach

/-!
# Short histories

Whoever asks for so many rows and gets fewer takes it that there are no more. That is so
where a history begins with a whole microsecond. Where it does not, the rows of that
microsecond from before the instant are found with the others: they may stop the walk, and are
then not in the history. So a short history may be cut off.

`history_short` says when. A short history is whole exactly if no row that is wanted lies behind
the last window. That can only be where the rows that were dropped make up for what is missing.
-/

namespace Tradebook.Ftx

open Walk

section Short

variable {σ ρ : Type} {c : Config} {wire : HttpWire σ} {decode : Json → Option ρ}
  {endpoint symbol : String} {view : RowView ρ} {rows : List ρ}

/-- A history has all rows that are wanted from an instant to another. -/
def IsWhole (view : RowView ρ) (rows : List ρ) (keep : ρ → Bool) (since now : Timestamp)
    (out : List ρ) : Prop :=
  ∀ r ∈ rows, keep r = true → since ≤ view.time r → view.time r ≤ now → r ∈ out

/-- The rows that are wanted and lie before an instant, in the same microsecond. -/
def droppedRows (view : RowView ρ) (rows : List ρ) (keep : ρ → Bool) (since : Timestamp) :
    List ρ :=
  (rows.filter fun r => since.microStart ≤ view.time r ∧ view.time r < since).filter keep

/-- What a walk has found and what it drops of that. -/
theorem length_wantedFrom_le (view : RowView ρ) (rows : List ρ) (keep : ρ → Bool)
    (since upper : Timestamp) :
    (wantedFrom view rows keep since upper).length ≤
      ((spanOf view rows since upper).filter keep).length +
        (droppedRows view rows keep since).length := by
  have hsplit := List.filter_append_perm (fun r => decide (since ≤ view.time r))
    (wantedFrom view rows keep since upper)
  rw [filter_wantedFrom] at hsplit
  rw [← hsplit.length_eq, List.length_append]
  refine Nat.add_le_add_left (List.Sublist.length_le ?_) _
  unfold wantedFrom spanOf droppedRows
  rw [List.filter_filter, List.filter_filter, List.filter_filter]
  refine List.monotone_filter_right rows fun r hr => ?_
  simp only [Bool.and_eq_true, decide_eq_true_eq, Bool.not_eq_true', decide_eq_false_iff_not,
    not_le] at hr ⊢
  tauto

theorem mem_oldestWanted {keep : ρ → Bool} {since upper : Timestamp} {limit : Nat}
    (hshort : (oldestWanted view rows keep since upper limit).length < limit) :
    ((spanOf view rows since upper).filter keep).length =
        (oldestWanted view rows keep since upper limit).length ∧
      ∀ r, r ∈ oldestWanted view rows keep since upper limit ↔
        r ∈ rows ∧ keep r = true ∧ since ≤ view.time r ∧ view.time r ≤ upper := by
  have hperm := List.mergeSort_perm ((spanOf view rows since upper).filter keep) (inOrder view)
  have hall : oldestWanted view rows keep since upper limit =
      ((spanOf view rows since upper).filter keep).mergeSort (inOrder view) := by
    unfold oldestWanted at hshort ⊢
    rw [List.length_take] at hshort
    exact List.take_of_length_le (by omega)
  rw [hall]
  refine ⟨hperm.length_eq.symm, fun r => ?_⟩
  rw [hperm.mem_iff, List.mem_filter, mem_spanOf]
  tauto

/-- A history of fewer rows than were asked for ends with a window that is the last one, and it is
whole exactly if no row that is wanted lies between the end of this window and now. It is
whole in any case where the rows that were dropped do not make up for those that are missing,
and where it begins with a whole microsecond none are dropped. -/
theorem history_short (hserver : HonestServer c wire decode endpoint symbol view rows)
    (hrows : ∀ r ∈ rows, (view.time r).Exact) {since : Timestamp} (hsince : since.Plain) {s : σ}
    (hclock : (wire.now s).Plain) {keep : ρ → Bool} {limit steps : Nat} {out : List ρ} {s' : σ}
    (hok : history c wire steps view decode endpoint keep symbol since limit s = (.ok out, s'))
    (hshort : out.length < limit) :
    (∃ upper, LastEnd view rows keep limit (wire.now s) since upper ∧
      (IsWhole view rows keep since (wire.now s) out ↔
        ∀ r ∈ rows, keep r = true → since ≤ view.time r → view.time r ≤ wire.now s →
          view.time r ≤ upper)) ∧
    (out.length + (droppedRows view rows keep since).length < limit →
      IsWhole view rows keep since (wire.now s) out) ∧
    (since.nanos % 1000 = 0 → droppedRows view rows keep since = []) := by
  have hended := history_ended hserver hrows hsince hclock keep limit steps
  rw [hok] at hended
  obtain ⟨upper, hlast, rfl, -⟩ := hended
  obtain ⟨hlength, hmem⟩ := mem_oldestWanted hshort
  have hwhole : IsWhole view rows keep since (wire.now s)
      (oldestWanted view rows keep since upper limit) ↔
        ∀ r ∈ rows, keep r = true → since ≤ view.time r → view.time r ≤ wire.now s →
          view.time r ≤ upper := by
    unfold IsWhole
    refine forall₂_congr fun r hr => forall₃_congr fun hkeep hfrom _ => ?_
    rw [hmem]
    exact ⟨fun h => h.2.2.2, fun hto => ⟨hr, hkeep, hfrom, hto⟩⟩
  refine ⟨⟨upper, hlast, hwhole⟩, fun hfew => ?_, fun haligned => ?_⟩
  · have hfound := length_wantedFrom_le view rows keep since upper
    -- The walk found too little to end before now, even with what it dropped.
    have hnow : upper = wire.now s := hlast.enough.resolve_left (by omega)
    rw [hwhole, hnow]
    exact fun _ _ _ _ hto => hto
  · unfold droppedRows
    rw [Timestamp.microStart_of_whole haligned, List.filter_filter]
    refine List.filter_eq_nil_iff.2 fun r _ hr => ?_
    simp only [Bool.and_eq_true, decide_eq_true_eq] at hr
    exact absurd hr.2.2 (not_lt.2 hr.2.1)

end Short

/-! ## A short history that is cut off -/

def halfMicrosecond : Timestamp :=
  epochPlus 0 500

def twoDaysIn : Timestamp :=
  epochPlus 172800 0

def threeDaysIn : Timestamp :=
  epochPlus 259200 0

/-- A fill of the epoch, and one two days later. -/
def farFills : List FillRow :=
  [fillAt twoDaysIn 2, fillAt .epoch 1]

theorem readable_farFills : ∀ r ∈ farFills, r.Readable := by
  rw [farFills, List.forall_mem_cons, List.forall_mem_singleton]
  exact ⟨readable_fillAt (by decide) (by decide), readable_fillAt (by decide) (by decide)⟩

theorem exact_farFills : ∀ r ∈ farFills, (fillView.time r).Exact := by
  rw [farFills, List.forall_mem_cons, List.forall_mem_singleton]
  exact ⟨⟨by decide, by decide, by decide⟩, exact_epoch⟩

theorem honest_farFills :
    HonestServer (pager 200) (shelf farFills 2 threeDaysIn) FillRow.ofJson? "/api/fills"
      "BTC/USD" fillView farFills :=
  honest_shelf _ _ _ (by decide) readable_farFills (by decide) (by decide)

/-- The fill of the epoch stops the walk and is not in the history. -/
theorem history_farFills (steps : Nat) :
    history (pager 200) (shelf farFills 2 threeDaysIn) (steps + 1) fillView FillRow.ofJson?
      "/api/fills" (fun _ => true) "BTC/USD" halfMicrosecond 1 () = (.ok [], ()) := by
  have hreach : ∃ reach, halfMicrosecond.addSeconds? firstSpan = some reach ∧
      reach.earlier threeDaysIn = reach ∧ reach.Plain ∧ 0 ≤ reach.seconds ∧
      shelfPage farFills 2 halfMicrosecond.micros reach.micros 200 = [fillAt .epoch 1] := by
    exact ⟨_, rfl, rfl, by decide, by decide, rfl⟩
  obtain ⟨reach, hreach, hearlier, hplain, hfrom, hpage⟩ := hreach
  have hask := askHistory_shelf 2 threeDaysIn 200 readable_farFills
    (by decide : halfMicrosecond.Plain) (by decide) hplain hfrom 200 ()
  rw [hpage, ← hearlier] at hask
  have hdropped : ([fillAt .epoch 1].filter fun _ => true).filter
      (fun r => halfMicrosecond ≤ fillView.time r) = [] := rfl
  unfold history
  rw [since_of_short_page hreach hask (by decide) (by decide) (by decide) (Or.inl (by decide)),
    hdropped, List.mergeSort_nil, List.take_nil]

theorem not_isWhole_farFills :
    ¬ IsWhole fillView farFills (fun _ => true) halfMicrosecond threeDaysIn [] := by
  intro h
  have hmem := h (fillAt twoDaysIn 2) (List.mem_cons_self) rfl (by decide) (by decide)
  exact List.not_mem_nil hmem

/-- Of one row that is asked for none comes, and the one of two days later is left behind. -/
theorem short_history_cut_off :
    HonestServer (pager 200) (shelf farFills 2 threeDaysIn) FillRow.ofJson? "/api/fills"
      "BTC/USD" fillView farFills ∧
    (∀ r ∈ farFills, (fillView.time r).Exact) ∧ Timestamp.epoch ≤ halfMicrosecond ∧
    (∀ steps, history (pager 200) (shelf farFills 2 threeDaysIn) (steps + 1) fillView
      FillRow.ofJson? "/api/fills" (fun _ => true) "BTC/USD" halfMicrosecond 1 () =
        (.ok [], ())) ∧
    ¬ IsWhole fillView farFills (fun _ => true) halfMicrosecond threeDaysIn [] :=
  ⟨honest_farFills, exact_farFills, by decide, history_farFills, not_isWhole_farFills⟩

/-- The walk ends before the row that is left behind. -/
theorem history_short_farFills :
    (∀ r ∈ farFills, (fillView.time r).Exact) ∧ halfMicrosecond.Plain ∧ threeDaysIn.Plain ∧
    history (pager 200) (shelf farFills 2 threeDaysIn) 1 fillView FillRow.ofJson? "/api/fills"
      (fun _ => true) "BTC/USD" halfMicrosecond 1 () = (.ok [], ()) ∧
    ∃ upper, LastEnd fillView farFills (fun _ => true) 1 threeDaysIn halfMicrosecond upper ∧
      ∃ r ∈ farFills, upper < fillView.time r ∧ fillView.time r ≤ threeDaysIn := by
  have hshort := history_short honest_farFills exact_farFills (by decide : halfMicrosecond.Plain)
    (by decide) (history_farFills 0) (by decide)
  obtain ⟨⟨upper, hlast, hwhole⟩, -, -⟩ := hshort
  refine ⟨exact_farFills, by decide, by decide, history_farFills 0, upper, hlast, ?_⟩
  by_contra hnone
  refine not_isWhole_farFills (hwhole.2 fun r hr _ _ hto => ?_)
  exact not_lt.1 fun hlater => hnone ⟨r, hr, hlater, hto⟩

end Tradebook.Ftx
