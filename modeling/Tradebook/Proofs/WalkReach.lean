import Tradebook.Proofs.WalkCrowd
import Tradebook.Proofs.WalkEnds

/-!
# How far a walk goes

A walk may set out from any instant, and it names the beginning of a window by its
microsecond. So it is as if every window began with a microsecond (`Coarse`), and what a walk
has found at the end of a window are the rows from the first microsecond on, some of which may
be from before the instant that it set out from.

These count when the walk looks whether it has enough, and are dropped when it is over.
`LastEnd` is the instant where it has enough, and `windows_ended` and `since_ended` are the
account of a whole walk: of the rows that are wanted up to there it has the oldest, and if it
fails though every question is answered, some rows are a crowd.
-/

namespace Tradebook.Ftx

namespace Walk

/-! ## Questions that mean the same -/

section Congruence

variable {σ ρ : Type} {view : RowView ρ} {keep : ρ → Bool} {ask ask' : Ask σ ρ}
  {endpoint : String} {pageSize most : Nat}

/-- A window asks for no larger pages than the greatest one, or its own if that is larger. -/
theorem window_congr {start start' : Timestamp} (hpageSize : pageSize ≤ most)
    (hmost : greatestPage ≤ most)
    (h : ∀ upper size s, size ≤ most → ask start upper size s = ask' start' upper size s)
    (steps : Nat) (upper : Timestamp) {size : Nat} (hsize : size ≤ most) (found : Found ρ) (s : σ) :
    window view keep ask endpoint pageSize start steps upper size found s =
      window view keep ask' endpoint pageSize start' steps upper size found s := by
  induction steps generalizing upper size found s with
  | zero => rfl
  | succ steps ih =>
      rw [window, window, h upper size s hsize]
      rcases ask' start' upper size s with ⟨page | cause | _ | _, s₁⟩
      case ok =>
        cases holdest : earliest? (page.map view.time) with
        | none => simp only [holdest]
        | some oldest =>
            simp only [holdest]
            split_ifs
            · rfl
            · exact ih oldest hpageSize _ s₁
            · rfl
            · exact ih upper (le_trans (min_le_right _ _) hmost) _ s₁
      all_goals rfl

theorem windows_congr (hpageSize : pageSize ≤ most) (hmost : greatestPage ≤ most)
    (h : ∀ start upper size s, size ≤ most →
      ask start upper size s = ask' start upper size s)
    (limit pages : Nat) (now : Timestamp) (steps : Nat) (start : Timestamp) (span : Nat)
    (found : Found ρ) (s : σ) :
    windows view keep ask endpoint pageSize limit pages now steps start span found s =
      windows view keep ask' endpoint pageSize limit pages now steps start span found s := by
  induction steps generalizing start span found s with
  | zero => rfl
  | succ steps ih =>
      rw [windows, windows]
      cases start.addSeconds? span with
      | none => rfl
      | some reach =>
          dsimp only
          rw [window_congr hpageSize hmost (h start) pages (reach.earlier now) hpageSize found s]
          rcases window view keep ask' endpoint pageSize start pages (reach.earlier now) pageSize
            found s with ⟨more | cause | _ | _, s₁⟩
          case ok =>
            dsimp only
            rw [ih]
          all_goals rfl

/-- A walk does not either. -/
theorem since_congr (hpageSize : max 1 pageSize ≤ most) (hmost : greatestPage ≤ most)
    (h : ∀ start upper size s, size ≤ most →
      ask start upper size s = ask' start upper size s)
    (limit steps : Nat) (now since : Timestamp) (s : σ) :
    Walk.since view keep ask endpoint pageSize limit steps now since s =
      Walk.since view keep ask' endpoint pageSize limit steps now since s := by
  unfold Walk.since
  rw [windows_congr hpageSize hmost h]

/-- Questions that do not tell an instant from the beginning of its microsecond. -/
def Coarse (ask : Ask σ ρ) : Prop :=
  ∀ start upper size s, ask start upper size s = ask start.microStart upper size s

theorem Coarse.window (h : Coarse ask) (start : Timestamp) (steps : Nat) (upper : Timestamp)
    (size : Nat) (found : Found ρ) (s : σ) :
    window view keep ask endpoint pageSize start steps upper size found s =
      window view keep ask endpoint pageSize start.microStart steps upper size found s :=
  window_congr (le_trans (le_max_left _ _) (le_max_left _ _))
    (le_trans (le_max_right pageSize greatestPage) (le_max_left _ _))
    (fun upper size s _ => h start upper size s) steps upper (le_max_right _ size) found s

end Congruence

/-! ## Windows -/

section Windows

variable {σ ρ : Type} {view : RowView ρ} {rows : List ρ} {ask : Ask σ ρ} {now since : Timestamp}
  {keep : ρ → Bool} {endpoint : String} {pageSize limit pages : Nat}

/-- A server keeps its promise about rows of whole microseconds, whatever instants outside leap
seconds it is asked about. -/
structure ServesPlain (view : RowView ρ) (rows : List ρ) (ask : Ask σ ρ) : Prop where
  serves : Serves view rows ask (fun start => start.Plain ∧ start.microStart = start)
    Timestamp.Plain
  coarse : Coarse ask
  exact : ∀ r ∈ rows, (view.time r).Exact

theorem plain_addSeconds? {start reach : Timestamp} {span : Nat} (h : start.Plain)
    (hspan : 0 < span) (hreach : start.addSeconds? span = some reach) : reach.Plain := by
  obtain ⟨-, hnanos⟩ := addSeconds?_parts hspan hreach
  unfold Timestamp.Plain at h ⊢
  rwa [hnanos, if_pos h]

theorem MayOpen.span_pos {start : Timestamp} {span : Nat} (h : MayOpen now since start span) :
    0 < span :=
  lt_of_lt_of_le (by decide) h.firstSpan_le

theorem MayOpen.plain {start : Timestamp} {span : Nat} (h : MayOpen now since start span)
    (hsince : since.Plain) : start.Plain := by
  induction h with
  | first => exact hsince
  | next hopen hreach _ _ ih => exact plain_addSeconds? ih hopen.span_pos hreach

theorem MayOpen.since_le {start : Timestamp} {span : Nat} (h : MayOpen now since start span) :
    since ≤ start := by
  induction h with
  | first => exact le_refl since
  | next hopen hreach _ _ ih =>
      exact le_trans ih (le_of_lt (lt_addSeconds? hopen.firstSpan_le hreach))

/-- The rows that are wanted from the microsecond of `since` on. -/
def wantedFrom (view : RowView ρ) (rows : List ρ) (keep : ρ → Bool) (since upper : Timestamp) :
    List ρ :=
  (spanOf view rows since.microStart upper).filter keep

/-- The windows that a walk opens, each with its length in seconds and the number of rows that
were found before it. A walk goes on for want of rows as long as it is not now, and a window
that brought none is followed by one twice as long. -/
inductive Opened (view : RowView ρ) (rows : List ρ) (keep : ρ → Bool) (limit : Nat)
    (now since : Timestamp) : Timestamp → Nat → Nat → Prop
  | first : Opened view rows keep limit now since since firstSpan 0
  | next {start reach : Timestamp} {span found : Nat}
      (h : Opened view rows keep limit now since start span found)
      (hreach : start.addSeconds? span = some reach) (hless : reach < now)
      (hwant : (wantedFrom view rows keep since reach).length < limit) :
      Opened view rows keep limit now since reach
        (if (wantedFrom view rows keep since reach).length = found then min (2 * span) longestSpan
        else span)
        (wantedFrom view rows keep since reach).length

theorem Opened.mayOpen {start : Timestamp} {span found : Nat}
    (h : Opened view rows keep limit now since start span found) :
    MayOpen now since start span := by
  induction h with
  | first => exact .first
  | next _ hreach hless _ ih => exact .next ih hreach hless (by split <;> simp)

/-- The end of the last window of a walk: there are rows enough up to it, or it is now. -/
structure LastEnd (view : RowView ρ) (rows : List ρ) (keep : ρ → Bool) (limit : Nat)
    (now since upper : Timestamp) : Prop where
  window : ∃ start span found reach, Opened view rows keep limit now since start span found ∧
    start.addSeconds? span = some reach ∧ upper = reach.earlier now
  enough : limit ≤ (wantedFrom view rows keep since upper).length ∨ upper = now

theorem LastEnd.since_le {upper : Timestamp} (h : LastEnd view rows keep limit now since upper)
    (hnow : since ≤ now) : since ≤ upper := by
  obtain ⟨start, span, found, reach, hopened, hreach, rfl⟩ := h.window
  have hopen := hopened.mayOpen
  have hforward := lt_addSeconds? hopen.firstSpan_le hreach
  rw [Timestamp.earlier_eq_min]
  exact le_min (le_trans hopen.since_le (le_of_lt hforward)) hnow

theorem Walked.microStart {start : Timestamp} {taken : List ρ}
    (h : Walked view rows since now start taken) (hrows : ∀ r ∈ rows, (view.time r).Exact) :
    Walked view rows since now start.microStart taken := by
  refine ⟨h.nodup, fun r hr => ?_, fun r hr hfrom hlt => ?_⟩
  · obtain ⟨hrow, hfrom, hto, hnow⟩ := h.sound r hr
    exact ⟨hrow, hfrom, (hrows r hrow).le_microStart.2 hto, le_trans start.microStart_le hnow⟩
  · exact h.cover r hr hfrom (lt_of_lt_of_le hlt start.microStart_le)

/-- What becomes of a window that begins where the walk is. -/
theorem window_ended (h : ServesPlain view rows ask) (hsince : since.Plain) (hclock : now.Plain)
    (keep : ρ → Bool) (endpoint : String) (hpageSize : 1 ≤ pageSize) (pages : Nat)
    {start reach : Timestamp} {span : Nat} (hopen : MayOpen now since start span)
    (hreach : start.addSeconds? span = some reach) {taken : List ρ}
    (hwalked : Walked view rows since.microStart now start.microStart taken)
    (hfirst : start = since → taken = []) (s : σ) :
    match window view keep ask endpoint pageSize start pages (reach.earlier now) pageSize
      (.of view keep taken) s with
    | (.ok found, _) => ∃ more : List ρ, found = .of view keep more ∧
        more.Perm (spanOf view rows since.microStart (reach.earlier now)) ∧
        (pageSize ≤ greatestPage → ∀ t, start.microStart ≤ t → t ≤ reach.earlier now →
          (rowsAt view rows t).length < greatestPage)
    | (.error cause, _) =>
        (∃ upper size s s', upper.Plain ∧ ask start upper size s = (.error cause, s')) ∨
        (∃ instant, cause = crowded endpoint instant) ∧
          Crowd view rows (start ≠ since) start.microStart (reach.earlier now)
    | _ => True := by
  have hplain := hopen.plain hsince
  have hforward := le_of_lt (lt_addSeconds? hopen.firstSpan_le hreach)
  have hupper : (reach.earlier now).Plain := by
    rcases reach.earlier_cases now with heq | heq <;> rw [heq]
    · exact plain_addSeconds? hplain hopen.span_pos hreach
    · exact hclock
  have hlow : start.microStart.Plain ∧ start.microStart.microStart = start.microStart :=
    ⟨hplain.microStart, Timestamp.microStart_of_whole (Nat.mul_mod_left _ _)⟩
  have hin := fun r hr => (hwalked.sound r hr).1
  -- What was taken in so far is known before the window, and none of it is later than its start.
  have hcrowd := window_crowd h.serves keep endpoint hpageSize hlow
    (fun r hr => (hwalked.sound r hr).2.2.1) pages hupper hpageSize hin (fun r hr => Or.inl hr) s
  rw [h.coarse.window]
  rcases hwindow : window view keep ask endpoint pageSize start.microStart pages
    (reach.earlier now) pageSize (.of view keep taken) s with ⟨found | cause | _ | _, s₁⟩
  all_goals rw [hwindow] at hcrowd
  case ok =>
    obtain ⟨more, rfl, htook, hspan⟩ :=
      window_complete h.serves hlow hpageSize hupper hpageSize hin hwalked.nodup hwindow
    refine ⟨more, rfl, ?_, fun hpages => hcrowd hpages hpages⟩
    refine hwalked.perm h.serves.ids (Timestamp.microStart_mono hopen.since_le)
      (fun hnow => ?_) htook hspan
    rw [Timestamp.earlier_eq_min]
    exact le_min (le_trans start.microStart_le hforward) hnow
  case error =>
    rcases hcrowd with ⟨upper, size, s, s', hhigh, hask⟩ | ⟨hcause, hcrowd⟩
    · rw [← h.coarse] at hask
      exact Or.inl ⟨upper, size, s, s', hhigh, hask⟩
    · exact Or.inr ⟨hcause, hcrowd.mono (fun htaken heq => htaken (hfirst heq)) (le_refl _)⟩
  all_goals trivial

/-- A walk stops at a question that is answered with an error, or at a crowd. -/
def Stopped (view : RowView ρ) (rows : List ρ) (keep : ρ → Bool) (ask : Ask σ ρ) (endpoint : String)
    (limit : Nat) (now since : Timestamp) (cause : ExchangeError) : Prop :=
  ∃ start span found reach, Opened view rows keep limit now since start span found ∧
    start.addSeconds? span = some reach ∧
    ((∃ upper size s s', upper.Plain ∧ ask start upper size s = (.error cause, s')) ∨
      (∃ instant, cause = crowded endpoint instant) ∧
        Crowd view rows (start ≠ since) start.microStart (reach.earlier now))

/-- What becomes of the windows from one on. -/
theorem windows_ended (h : ServesPlain view rows ask) (hsince : since.Plain) (hclock : now.Plain)
    (keep : ρ → Bool) (endpoint : String) (hpageSize : 1 ≤ pageSize) (limit pages : Nat)
    (steps : Nat) {start : Timestamp} {span : Nat} {taken : List ρ}
    (hopened : Opened view rows keep limit now since start span
      (Found.of view keep taken).rows.length)
    (hwalked : Walked view rows since.microStart now start.microStart taken)
    (hfirst : start = since → taken = []) (s : σ) :
    match windows view keep ask endpoint pageSize limit pages now steps start span
      (.of view keep taken) s with
    | (.ok out, _) => ∃ (more : List ρ) (upper : Timestamp), out = (more.filter keep).reverse ∧
        more.Perm (spanOf view rows since.microStart upper) ∧
        LastEnd view rows keep limit now since upper ∧
        (pageSize ≤ greatestPage → ∀ t, start.microStart ≤ t → t ≤ upper →
          (rowsAt view rows t).length < greatestPage)
    | (.error cause, _) => Stopped view rows keep ask endpoint limit now since cause
    | _ => True := by
  induction steps generalizing start span taken s with
  | zero => trivial
  | succ steps ih =>
      rw [windows]
      cases hreach : start.addSeconds? span with
      | none => trivial
      | some reach =>
          have hopen := hopened.mayOpen
          have hended :=
            window_ended h hsince hclock keep endpoint hpageSize pages hopen hreach hwalked hfirst s
          dsimp only
          rcases hwindow : window view keep ask endpoint pageSize start pages (reach.earlier now)
            pageSize (.of view keep taken) s with ⟨found | cause | _ | _, s₁⟩
          all_goals rw [hwindow] at hended
          case ok =>
            obtain ⟨more, rfl, hperm, hroom⟩ := hended
            have hwanted : (Found.of view keep more).rows.length =
                (wantedFrom view rows keep since (reach.earlier now)).length :=
              (hperm.filter keep).length_eq
            dsimp only
            by_cases hdone : limit ≤ (Found.of view keep more).rows.length ∨
                now ≤ reach.earlier now
            · rw [if_pos hdone]
              rw [hwanted] at hdone
              exact ⟨more, reach.earlier now, rfl, hperm,
                ⟨⟨start, span, _, reach, hopened, hreach, rfl⟩,
                  hdone.imp_right fun hnow => le_antisymm (reach.earlier_le now) hnow⟩, hroom⟩
            · rw [if_neg hdone]
              obtain ⟨hwhole, hless⟩ := earlier_of_not_le fun hnow => hdone (Or.inr hnow)
              rw [hwhole] at hperm hroom hwanted ⊢
              -- Rows may be known before any window but the first.
              have hlater : reach ≠ since := (lt_of_le_of_lt hopen.since_le
                (lt_addSeconds? hopen.firstSpan_le hreach)).ne'
              have hnext := hopened.next hreach hless
                (hwanted ▸ Nat.not_le.1 fun hle => hdone (Or.inl hle))
              rw [← hwanted] at hnext
              -- What is found up to an instant is found up to its microsecond, as rows are whole.
              have hwalked' := (walked_of_perm h.serves.ids (le_of_lt hless) hperm).microStart
                h.exact
              have hrest := ih hnext hwalked' (fun heq => absurd heq hlater) s₁
              split
              · next heq =>
                  rw [heq] at hrest
                  obtain ⟨more, upper, hout, hperm, hlast, hroom'⟩ := hrest
                  refine ⟨more, upper, hout, hperm, hlast, fun hpages t hfrom hto => ?_⟩
                  rcases le_or_gt t reach with hle | hgt
                  · exact hroom hpages t hfrom hle
                  · exact hroom' hpages t (le_trans reach.microStart_le (le_of_lt hgt)) hto
              · next heq =>
                  rw [heq] at hrest
                  exact hrest
              · trivial
          case error => exact ⟨start, span, _, reach, hopened, hreach, hended⟩
          all_goals trivial

theorem filter_wantedFrom (upper : Timestamp) :
    (wantedFrom view rows keep since upper).filter (fun r => since ≤ view.time r) =
      (spanOf view rows since upper).filter keep := by
  unfold wantedFrom spanOf
  rw [List.filter_filter, List.filter_filter, List.filter_filter]
  refine List.filter_congr fun r _ => ?_
  by_cases hr : since ≤ view.time r
  · simp [hr, le_trans since.microStart_le hr]
  · simp [hr]

/-- The oldest `limit` of the rows that are wanted from an instant to another, by the rows that
lie from the microsecond of the first one on. -/
theorem oldestWanted_eq (hids : (rows.map view.id).Nodup) {upper : Timestamp} {more : List ρ}
    (hperm : more.Perm (spanOf view rows since.microStart upper)) :
    (((more.filter keep).reverse.filter fun r => since ≤ view.time r).mergeSort
        (inOrder view)).take limit = oldestWanted view rows keep since upper limit := by
  have hwanted : ((more.filter keep).reverse.filter fun r => since ≤ view.time r).Perm
      ((spanOf view rows since upper).filter keep) := by
    rw [← filter_wantedFrom]
    exact ((List.reverse_perm _).trans (hperm.filter keep)).filter _
  have hnodup : (((spanOf view rows since upper).filter keep).map view.id).Nodup :=
    (nodup_ids_spanOf hids since upper).sublist (List.filter_sublist.map _)
  unfold oldestWanted
  rw [mergeSort_eq_of_perm ((hwanted.map view.id).nodup_iff.2 hnodup)
    (hwanted.trans (List.mergeSort_perm _ (inOrder view)).symm)
    (List.pairwise_mergeSort inOrder_trans inOrder_total _)]

/-- What becomes of a whole walk. -/
theorem since_ended (h : ServesPlain view rows ask) (hsince : since.Plain) (hclock : now.Plain)
    (keep : ρ → Bool) (endpoint : String) (pageSize limit steps : Nat) (s : σ) :
    match Walk.since view keep ask endpoint pageSize limit steps now since s with
    | (.ok out, _) => ∃ upper, LastEnd view rows keep limit now since upper ∧
        out = oldestWanted view rows keep since upper limit ∧
        (pageSize ≤ greatestPage → ∀ t, since.microStart ≤ t → t ≤ upper →
          (rowsAt view rows t).length < greatestPage)
    | (.error cause, _) => Stopped view rows keep ask endpoint limit now since cause
    | _ => True := by
  have hended := windows_ended h hsince hclock keep endpoint (by omega : 1 ≤ max 1 pageSize) limit
    steps steps .first walked_start (fun _ => rfl) s
  unfold Walk.since
  rw [show Found.none = Found.of view keep [] from rfl]
  rcases hwindows : windows view keep ask endpoint (max 1 pageSize) limit steps now steps since
    firstSpan (.of view keep []) s with ⟨found | cause | _ | _, s₁⟩
  all_goals rw [hwindows] at hended
  case ok =>
    obtain ⟨more, upper, rfl, hperm, hlast, hroom⟩ := hended
    refine ⟨upper, hlast, oldestWanted_eq h.serves.ids hperm, fun hpages => hroom ?_⟩
    exact max_le (by decide) hpages
  case error => exact hended
  all_goals trivial

/-! ## A walk of one page -/

theorem foldl_takeIn_new {page taken : List ρ} (h : ((page ++ taken).map view.id).Nodup) :
    page.foldl (takeIn view) taken = page.reverse ++ taken := by
  induction page generalizing taken with
  | nil => rfl
  | cons row page ih =>
      have hmove : (row :: page ++ taken).Perm (page ++ row :: taken) := List.perm_middle.symm
      have hnew : takeIn view taken row = row :: taken := by
        refine if_neg fun hmem => ?_
        rw [List.cons_append, List.map_cons, List.nodup_cons, List.map_append] at h
        exact h.1 (List.mem_append_right _ hmem)
      rw [List.foldl_cons, hnew, ih ((hmove.map view.id).nodup_iff.1 h), List.reverse_cons,
        List.append_assoc, List.singleton_append]

/-- A first page that is not full is all there is to a walk, if it has enough or time is up. -/
theorem since_of_short_page {reach : Timestamp}
    (hreach : since.addSeconds? firstSpan = some reach) {page : List ρ} {s s' : σ}
    (hask : ask since (reach.earlier now) (max 1 pageSize) s = (.ok page, s'))
    (hids : (page.map view.id).Nodup) (hsome : page ≠ [])
    (hshort : page.length < max 1 pageSize)
    (hdone : limit ≤ (page.filter keep).length ∨ now ≤ reach.earlier now) (steps : Nat) :
    Walk.since view keep ask endpoint pageSize limit (steps + 1) now since s =
      (.ok ((((page.filter keep).filter fun r => since ≤ view.time r).mergeSort
        (inOrder view)).take limit), s') := by
  have hfound : page.foldl (Found.add view keep) (.of view keep []) =
      .of view keep page.reverse := by
    rw [foldl_add_of, foldl_takeIn_new (by rwa [List.append_nil]), List.append_nil]
  have hrows : (Found.of view keep page.reverse).rows = (page.filter keep).reverse := by
    rw [Found.of, List.filter_reverse]
  have hwindow : window view keep ask endpoint (max 1 pageSize) since (steps + 1)
      (reach.earlier now) (max 1 pageSize) (.of view keep []) s =
        (.ok (.of view keep page.reverse), s') := by
    rw [window, hask]
    cases holdest : earliest? (page.map view.time) with
    | none => exact absurd (List.map_eq_nil_iff.1 (earliest?_eq_none.1 holdest)) hsome
    | some oldest =>
        simp only [holdest]
        rw [if_pos hshort, hfound]
  have hwindows : windows view keep ask endpoint (max 1 pageSize) limit (steps + 1) now (steps + 1)
      since firstSpan (.of view keep []) s = (.ok (page.filter keep), s') := by
    rw [windows]
    simp only [hreach, hwindow]
    rw [hrows, List.length_reverse, if_pos hdone, List.reverse_reverse]
  unfold Walk.since
  rw [show Found.none = Found.of view keep [] from rfl, hwindows]

end Windows

end Walk

/-! ## The history of an account -/

section Account

open Walk

variable {σ ρ : Type} {c : Config} {wire : HttpWire σ} {decode : Json → Option ρ}
  {endpoint symbol : String} {view : RowView ρ} {rows : List ρ}

theorem coarse_askHistory : Coarse (askHistory c wire decode endpoint symbol) := by
  intro start upper size s
  rw [askHistory_eq_askPage, askHistory_eq_askPage, timeParameter_microStart]

theorem HonestServer.servesPlain (h : HonestServer c wire decode endpoint symbol view rows)
    (hrows : ∀ r ∈ rows, (view.time r).Exact) :
    ServesPlain view rows (askHistory c wire decode endpoint symbol) :=
  ⟨h.serves_plain hrows, coarse_askHistory, hrows⟩

/-- What becomes of the history of an account with an honest server. -/
theorem history_ended (hserver : HonestServer c wire decode endpoint symbol view rows)
    (hrows : ∀ r ∈ rows, (view.time r).Exact) {since : Timestamp} (hsince : since.Plain) {s : σ}
    (hclock : (wire.now s).Plain) (keep : ρ → Bool) (limit steps : Nat) :
    match history c wire steps view decode endpoint keep symbol since limit s with
    | (.ok out, _) => ∃ upper, LastEnd view rows keep limit (wire.now s) since upper ∧
        out = oldestWanted view rows keep since upper limit ∧
        (c.historyPageSize ≤ greatestPage → ∀ t, since.microStart ≤ t → t ≤ upper →
          (rowsAt view rows t).length < greatestPage)
    | (.error cause, _) => Stopped view rows keep (askHistory c wire decode endpoint symbol)
        endpoint limit (wire.now s) since cause
    | _ => True :=
  since_ended (hserver.servesPlain hrows) hsince hclock keep endpoint c.historyPageSize limit
    steps s

end Account

end Tradebook.Ftx
