import Tradebook.Proofs.HistoryLog
import Tradebook.Proofs.HonestServer

/-!
# A walk ends, whatever the server does

The server of this file may ignore what it is asked for: rows from outside the span,
the same rows again, more of them than asked for, in any order and with any times. All
that it has to keep to is a finite stock of ids.

Time is no measure of what is left of a window then, for its end may move either way. But
every page brings an id that is new or is asked for again at twice the size, and after
thirteen doublings in a row the size is the greatest. So a window asks for no more than
fourteen pages for each id that is missing, and fourteen beside them (`window_ends`).
Windows go forward whatever comes. Each is a day long at least unless it ends now, so
there is one for each day begun, and one more if the walk sets out from a leap second
(`windows_end`).

The steps that a walk is allowed do not matter beyond that: an end that was reached is
reached with more steps too (`since_more`). `history_ends` has all of it for the history
of an account, by the log of what it asks for.
-/

namespace Tradebook

namespace Timestamp

/-- Nanoseconds since the epoch, by a clock that goes on in a leap second as in any other. -/
def elapsed (t : Timestamp) : Int :=
  t.seconds * 1000000000 + t.nanos

/-- The days from one instant to another, a day that has begun counted in full. -/
def daysUntil (t now : Timestamp) : Nat :=
  if now ≤ t then 0 else (now.elapsed - t.elapsed).toNat ⌈/⌉ 86400000000000

end Timestamp

namespace Ftx

namespace Walk

/-! ## Steps do not matter once a walk has ended -/

section Steps

variable {σ ρ : Type} {view : RowView ρ} {keep : ρ → Bool} {ask : Ask σ ρ} {endpoint : String}
  {pageSize limit : Nat} {now : Timestamp}

theorem window_more {start : Timestamp} {steps steps' : Nat} {upper : Timestamp} {size : Nat}
    {found : Found ρ} {s s' : σ} {result : Outcome ExchangeError (Found ρ)}
    (h : window view keep ask endpoint pageSize start steps upper size found s = (result, s'))
    (hended : result ≠ .exhausted) (hsteps : steps ≤ steps') :
    window view keep ask endpoint pageSize start steps' upper size found s = (result, s') := by
  induction steps generalizing steps' upper size found s with
  | zero => exact absurd (Prod.mk.inj h).1.symm hended
  | succ steps ih =>
      obtain ⟨more, rfl⟩ : ∃ more, steps' = more + 1 := ⟨steps' - 1, by omega⟩
      rw [window_succ] at h ⊢
      cases hturn : turn view keep ask endpoint pageSize start upper size found s with
      | stop ended s₁ =>
          rw [hturn] at h
          exact h
      | again upper' size' found' s₁ =>
          rw [hturn] at h
          exact ih h (Nat.le_of_succ_le_succ hsteps)

theorem windows_more {pages pages' steps steps' : Nat} {start : Timestamp} {span : Nat}
    {found : Found ρ} {s s' : σ} {result : Outcome ExchangeError (List ρ)}
    (h : windows view keep ask endpoint pageSize limit pages now steps start span found s =
      (result, s'))
    (hended : result ≠ .exhausted) (hpages : pages ≤ pages') (hsteps : steps ≤ steps') :
    windows view keep ask endpoint pageSize limit pages' now steps' start span found s =
      (result, s') := by
  induction steps generalizing steps' start span found s with
  | zero => exact absurd (Prod.mk.inj h).1.symm hended
  | succ steps ih =>
      obtain ⟨more, rfl⟩ : ∃ more, steps' = more + 1 := ⟨steps' - 1, by omega⟩
      rw [windows] at h ⊢
      cases hreach : start.addSeconds? span with
      | none =>
          simp only [hreach] at h
          exact h
      | some reach =>
          simp only [hreach] at h ⊢
          rcases hwindow : window view keep ask endpoint pageSize start pages (reach.earlier now)
            pageSize found s with ⟨ended, s₁⟩
          rw [hwindow] at h
          have hmore := fun hne => window_more hwindow hne hpages
          cases ended with
          | ok found' =>
              rw [hmore (by simp)]
              dsimp only at h ⊢
              split at h
              · next hdone =>
                  rw [if_pos hdone]
                  exact h
              · next hgo =>
                  rw [if_neg hgo]
                  exact ih h (Nat.le_of_succ_le_succ hsteps)
          | error cause =>
              rw [hmore (by simp)]
              exact h
          | overflow =>
              rw [hmore (by simp)]
              exact h
          | exhausted => exact absurd (Prod.mk.inj h).1.symm hended

theorem since_more {steps steps' : Nat} {since : Timestamp} {s s' : σ}
    {result : Outcome ExchangeError (List ρ)}
    (h : Walk.since view keep ask endpoint pageSize limit steps now since s = (result, s'))
    (hended : result ≠ .exhausted) (hsteps : steps ≤ steps') :
    Walk.since view keep ask endpoint pageSize limit steps' now since s = (result, s') := by
  unfold Walk.since at h ⊢
  rcases hwindows : windows view keep ask endpoint (max 1 pageSize) limit steps now steps since
    firstSpan Found.none s with ⟨ended, s₁⟩
  rw [hwindows] at h
  rw [windows_more hwindows ?_ hsteps hsteps]
  · exact h
  · rintro rfl
    exact hended (Prod.mk.inj h).1.symm

end Steps

/-! ## One window -/

section Bounded

variable {σ ρ : Type} {view : RowView ρ} {ids : Finset Nat} {ask : Ask σ ρ}
  {trace : σ → List Timestamp}

/-- Questions that are answered with rows of some ids or with an error, in a world where they
leave a trace of the windows that they are about. -/
structure Traced (view : RowView ρ) (ids : Finset Nat) (ask : Ask σ ρ)
    (trace : σ → List Timestamp) : Prop where
  ids : ∀ {start upper size s page s'}, ask start upper size s = (.ok page, s') →
    ∀ r ∈ page, view.id r ∈ ids
  ends : ∀ start upper size s,
    (∃ page, (ask start upper size s).1 = .ok page) ∨
      ∃ cause, (ask start upper size s).1 = .error cause
  trace : ∀ start upper size s, trace (ask start upper size s).2 = trace s ++ [start]

/-- Rows with some of the ids, each once. -/
structure Within (view : RowView ρ) (ids : Finset Nat) (taken : List ρ) : Prop where
  nodup : (taken.map view.id).Nodup
  known : ∀ r ∈ taken, view.id r ∈ ids

theorem within_nil : Within view ids [] :=
  ⟨List.nodup_nil, by simp⟩

theorem Within.length_le {taken : List ρ} (h : Within view ids taken) :
    taken.length ≤ ids.card := by
  have hsub : (taken.map view.id).toFinset ⊆ ids := by
    intro id hid
    obtain ⟨r, hr, rfl⟩ := List.mem_map.1 (List.mem_toFinset.1 hid)
    exact h.known r hr
  have hle := Finset.card_le_card hsub
  rwa [List.toFinset_card_of_nodup h.nodup, List.length_map] at hle

theorem Within.foldl_takeIn {taken page : List ρ} (h : Within view ids taken)
    (hpage : ∀ r ∈ page, view.id r ∈ ids) : Within view ids (page.foldl (takeIn view) taken) :=
  ⟨nodup_foldl_takeIn h.nodup, fun r hr =>
    (mem_or_mem_of_foldl_takeIn hr).elim (h.known r) (hpage r)⟩

/-- A turn asks once. If it does not end the window, an id was new and the size is as at the
beginning, or nothing was new and the size has doubled. -/
theorem turn_traced (h : Traced view ids ask trace) (keep : ρ → Bool) (endpoint : String)
    (pageSize : Nat) (start upper : Timestamp) (size : Nat) {taken : List ρ}
    (htaken : Within view ids taken) (s : σ) :
    match turn view keep ask endpoint pageSize start upper size (.of view keep taken) s with
    | .stop result s' => trace s' = trace s ++ [start] ∧
        ((∃ more, result = .ok (.of view keep more) ∧ Within view ids more) ∨
          ∃ cause, result = .error cause)
    | .again _ size' found s' => trace s' = trace s ++ [start] ∧
        ∃ more, found = .of view keep more ∧ Within view ids more ∧
          (taken.length < more.length ∧ size' = pageSize ∨
            more = taken ∧ size < greatestPage ∧ size' = min (2 * size) greatestPage) := by
  have htrace := h.trace start upper size s
  have hends := h.ends start upper size s
  rw [turn]
  rcases hask : ask start upper size s with ⟨page | cause | _ | _, s₁⟩
  all_goals rw [hask] at htrace hends
  case ok =>
    cases holdest : earliest? (page.map view.time) with
    | none =>
        simp only [holdest]
        exact ⟨htrace, Or.inl ⟨taken, rfl, htaken⟩⟩
    | some oldest =>
        simp only [holdest]
        rw [foldl_add_of, length_seen_of, length_seen_of]
        have hmore := htaken.foldl_takeIn (h.ids hask)
        by_cases hshort : page.length < size
        · rw [if_pos hshort]
          exact ⟨htrace, Or.inl ⟨_, rfl, hmore⟩⟩
        · rw [if_neg hshort]
          by_cases hnew : taken.length < (page.foldl (takeIn view) taken).length
          · rw [if_pos hnew]
            exact ⟨htrace, _, rfl, hmore, Or.inl ⟨hnew, rfl⟩⟩
          · rw [if_neg hnew]
            have hsame := foldl_takeIn_eq (Nat.not_lt.1 hnew)
            by_cases hcrowded : greatestPage ≤ size
            · rw [if_pos hcrowded]
              exact ⟨htrace, Or.inr ⟨_, rfl⟩⟩
            · rw [if_neg hcrowded]
              exact ⟨htrace, _, rfl, hmore, Or.inr ⟨hsame, Nat.not_le.1 hcrowded, rfl⟩⟩
  case error => exact ⟨htrace, Or.inr ⟨cause, rfl⟩⟩
  all_goals
    rcases hends with ⟨_, hpage⟩ | ⟨_, hcause⟩
    · cases hpage
    · cases hcause

/-- A window asks for fourteen pages at most for each id that is missing, and for as many
more as there are doublings up to the greatest size. -/
theorem window_ends (h : Traced view ids ask trace) (keep : ρ → Bool) (endpoint : String)
    {pageSize : Nat} (hpageSize : 1 ≤ pageSize) (start : Timestamp) {steps : Nat}
    (upper : Timestamp) {size doublings : Nat} (hsize : greatestPage ≤ size * 2 ^ doublings)
    {taken : List ρ} (htaken : Within view ids taken)
    (hsteps : (ids.card - taken.length) * 14 + doublings + 1 ≤ steps) (s : σ) :
    ∃ result s' asked, window view keep ask endpoint pageSize start steps upper size
        (.of view keep taken) s = (result, s') ∧
      trace s' = trace s ++ List.replicate asked start ∧
      asked ≤ (ids.card - taken.length) * 14 + doublings + 1 ∧
      ((∃ more, result = .ok (.of view keep more) ∧ Within view ids more) ∨
        ∃ cause, result = .error cause) := by
  induction steps generalizing upper size doublings taken s with
  | zero => exact absurd hsteps (Nat.not_succ_le_zero _)
  | succ steps ih =>
      have hturn := turn_traced h keep endpoint pageSize start upper size htaken s
      rw [window_succ]
      cases hcase : turn view keep ask endpoint pageSize start upper size
        (.of view keep taken) s with
      | stop result s₁ =>
          rw [hcase] at hturn
          exact ⟨result, s₁, 1, rfl, hturn.1, by omega, hturn.2⟩
      | again upper' size' found s₁ =>
          rw [hcase] at hturn
          obtain ⟨htrace, more, rfl, hmore, hprogress⟩ := hturn
          have hroom := hmore.length_le
          -- What is left is fewer pages by one, whichever way the window goes on.
          obtain ⟨doublings', hsize', hless⟩ : ∃ doublings',
              greatestPage ≤ size' * 2 ^ doublings' ∧
              (ids.card - more.length) * 14 + doublings' + 1 <
                (ids.card - taken.length) * 14 + doublings + 1 := by
            rcases hprogress with ⟨hnew, rfl⟩ | ⟨rfl, hsmall, rfl⟩
            · exact ⟨13, by unfold greatestPage; omega, by omega⟩
            · cases doublings with
              | zero => omega
              | succ doublings =>
                  refine ⟨doublings, ?_, by omega⟩
                  rw [pow_succ] at hsize
                  rcases le_total (2 * size) greatestPage with hle | hle
                  · rw [min_eq_left hle]
                    calc greatestPage ≤ size * (2 ^ doublings * 2) := hsize
                      _ = 2 * size * 2 ^ doublings := by
                        rw [Nat.mul_comm (2 ^ doublings) 2, ← Nat.mul_assoc, Nat.mul_comm size 2]
                  · rw [min_eq_right hle]
                    exact Nat.le_mul_of_pos_right _ (Nat.two_pow_pos doublings)
          obtain ⟨result, s', asked, hwindow, hasked, hfew, hended⟩ :=
            ih upper' hsize' hmore (by omega) s₁
          refine ⟨result, s', asked + 1, hwindow, ?_, by omega, hended⟩
          rw [hasked, htrace, List.append_assoc, List.replicate_succ, List.singleton_append]

/-! ## All windows -/

variable {now since : Timestamp}

/-- So many windows are the most that begin from an instant on: one for each day begun, and
one more where a leap second is left behind. -/
def mostWindows (now start : Timestamp) : Nat :=
  if start.nanos < 1000000000 then max 1 (start.daysUntil now) else start.daysUntil now + 1

theorem mostWindows_pos (now start : Timestamp) : 1 ≤ mostWindows now start := by
  unfold mostWindows
  split <;> omega

theorem mostWindows_le (now start : Timestamp) :
    mostWindows now start ≤ start.daysUntil now + 1 := by
  unfold mostWindows
  split <;> omega

/-- The instant that lies so many seconds later, by the parts of it. -/
theorem addSeconds?_parts {start reach : Timestamp} {span : Nat} (hspan : 0 < span)
    (hreach : start.addSeconds? span = some reach) :
    reach.seconds = start.seconds + span ∧
      reach.nanos = if start.nanos < 1000000000 then start.nanos
        else start.nanos - 1000000000 := by
  unfold Timestamp.addSeconds? Timestamp.ofParts? at hreach
  rw [if_neg (by omega)] at hreach
  by_cases hrange : (-8334601228800 ≤ start.seconds + span ∧ start.seconds + span ≤ 8210266876799) ∧
      (if start.nanos < Timestamp.perSecond then start.nanos
        else start.nanos - Timestamp.perSecond) < 2000000000
  · rw [dif_pos hrange] at hreach
    obtain rfl := Option.some.inj hreach
    exact ⟨rfl, rfl⟩
  · rw [dif_neg hrange] at hreach
    cases hreach

theorem lt_addSeconds? {start reach : Timestamp} {span : Nat} (hspan : firstSpan ≤ span)
    (hreach : start.addSeconds? span = some reach) : start < reach := by
  unfold firstSpan at hspan
  obtain ⟨hseconds, hnanos⟩ := addSeconds?_parts (by omega) hreach
  have hstart := start.nanos_lt
  rw [Timestamp.lt_iff_rank]
  unfold Timestamp.rank
  split at hnanos <;> omega

theorem mostWindows_lt {start reach : Timestamp} {span : Nat} (hspan : firstSpan ≤ span)
    (hreach : start.addSeconds? span = some reach) (hless : reach < now) :
    mostWindows now reach < mostWindows now start := by
  have hlater := lt_trans (lt_addSeconds? hspan hreach) hless
  unfold firstSpan at hspan
  obtain ⟨hseconds, hnanos⟩ := addSeconds?_parts (by omega) hreach
  have hstart := start.nanos_lt
  have hplain : reach.nanos < 1000000000 := by split at hnanos <;> omega
  unfold mostWindows Timestamp.daysUntil
  rw [if_pos hplain, if_neg (not_le_of_gt hless), if_neg (not_le_of_gt hlater),
    Nat.ceilDiv_eq_add_pred_div, Nat.ceilDiv_eq_add_pred_div]
  rw [Timestamp.lt_iff_rank] at hless
  unfold Timestamp.rank at hless
  unfold Timestamp.elapsed
  split at hnanos
  · next hsecond =>
      rw [if_pos hsecond]
      omega
  · next hleap =>
      rw [if_neg hleap]
      omega

theorem MayOpen.firstSpan_le {start : Timestamp} {span : Nat} (h : MayOpen now since start span) :
    firstSpan ≤ span := by
  induction h with
  | first => exact le_refl firstSpan
  | next _ _ _ hspan ih =>
      rcases hspan with rfl | rfl
      · exact ih
      · unfold firstSpan longestSpan at *
        omega

/-- The windows of a walk are few, and so are the pages of each. -/
structure Few (ids : Finset Nat) (start : Timestamp) (most : Nat) (asked : List Timestamp) :
    Prop where
  later : ∀ t ∈ asked, start ≤ t
  windows : asked.toFinset.card ≤ most
  pages : ∀ t, asked.count t ≤ (ids.card + 1) * 14

theorem Few.cons {start next : Timestamp} {most : Nat} {asked : List Timestamp} {n : Nat}
    (hnext : start < next) (hn : n ≤ (ids.card + 1) * 14) (h : Few ids next most asked) :
    Few ids start (most + 1) (List.replicate n start ++ asked) := by
  have hfresh : start ∉ asked := fun hmem => absurd (h.later start hmem) (not_le_of_gt hnext)
  refine ⟨fun t ht => ?_, ?_, fun t => ?_⟩
  · rcases List.mem_append.1 ht with ht | ht
    · exact le_of_eq (List.eq_of_mem_replicate ht).symm
    · exact le_trans (le_of_lt hnext) (h.later t ht)
  · have hsub : (List.replicate n start ++ asked).toFinset ⊆ insert start asked.toFinset := by
      intro t ht
      rw [List.mem_toFinset, List.mem_append] at ht
      rw [Finset.mem_insert, List.mem_toFinset]
      exact ht.imp_left List.eq_of_mem_replicate
    have hinsert := Finset.card_insert_le start asked.toFinset
    have hwindows := h.windows
    exact le_trans (Finset.card_le_card hsub) (by omega)
  · rw [List.count_append, List.count_replicate]
    have hpages := h.pages t
    split
    · next heq =>
        obtain rfl : start = t := by simpa using heq
        rw [List.count_eq_zero_of_not_mem hfresh]
        omega
    · omega

theorem few_replicate (start : Timestamp) {most n : Nat} (hmost : 1 ≤ most)
    (hn : n ≤ (ids.card + 1) * 14) : Few ids start most (List.replicate n start) := by
  refine ⟨fun t ht => le_of_eq (List.eq_of_mem_replicate ht).symm, ?_, fun t => ?_⟩
  · have hsub : (List.replicate n start).toFinset ⊆ {start} := by
      intro t ht
      exact Finset.mem_singleton.2 (List.eq_of_mem_replicate (List.mem_toFinset.1 ht))
    exact le_trans (Finset.card_le_card hsub) (by simpa using hmost)
  · rw [List.count_replicate]
    split <;> omega

theorem windows_end (h : Traced view ids ask trace) (keep : ρ → Bool) (endpoint : String)
    {pageSize : Nat} (hpageSize : 1 ≤ pageSize) (limit : Nat) {pages : Nat}
    (hpages : (ids.card + 1) * 14 ≤ pages) {steps : Nat} {start : Timestamp} {span : Nat}
    (hopen : MayOpen now since start span) {taken : List ρ} (htaken : Within view ids taken)
    (hsteps : mostWindows now start ≤ steps) (s : σ) :
    ∃ result s' asked, windows view keep ask endpoint pageSize limit pages now steps start span
        (.of view keep taken) s = (result, s') ∧
      trace s' = trace s ++ asked ∧ Few ids start (mostWindows now start) asked ∧
      ((∃ out, result = .ok out) ∨ (∃ cause, result = .error cause) ∨
        result = .overflow ∧
          ∃ start span, MayOpen now since start span ∧ start.addSeconds? span = none) := by
  have hpos := mostWindows_pos now start
  induction steps generalizing start span taken s with
  | zero => omega
  | succ steps ih =>
      rw [windows]
      cases hreach : start.addSeconds? span with
      | none =>
          refine ⟨.overflow, s, [], rfl, (List.append_nil _).symm, ⟨by simp, by simp, by simp⟩,
            Or.inr (Or.inr ⟨rfl, start, span, hopen, hreach⟩)⟩
      | some reach =>
          have hsize : greatestPage ≤ pageSize * 2 ^ 13 := by
            unfold greatestPage
            omega
          have hbudget : (ids.card - taken.length) * 14 + 13 + 1 ≤ (ids.card + 1) * 14 := by omega
          obtain ⟨ended, s₁, n, hwindow, htrace, hn, hended⟩ := window_ends h keep endpoint
            hpageSize start (reach.earlier now) hsize htaken (le_trans hbudget hpages) s
          have hn' := le_trans hn hbudget
          simp only [hwindow]
          rcases hended with ⟨more, rfl, hmore⟩ | ⟨cause, rfl⟩
          · dsimp only
            split
            · exact ⟨_, s₁, _, rfl, htrace, few_replicate start hpos hn', Or.inl ⟨_, rfl⟩⟩
            · next hgo =>
                obtain ⟨hwhole, hless⟩ := earlier_of_not_le fun hnow => hgo (Or.inr hnow)
                have hspan := hopen.firstSpan_le
                have hfewer := mostWindows_lt hspan hreach hless
                have hnext : MayOpen now since reach
                    (if (Found.of view keep more).rows.length =
                      (Found.of view keep taken).rows.length then min (2 * span) longestSpan
                    else span) := .next hopen hreach hless (by split <;> simp)
                rw [hwhole]
                obtain ⟨result, s', asked, hrest, hasked, hfew, hends⟩ :=
                  ih hnext hmore (by omega) s₁ (mostWindows_pos now reach)
                refine ⟨result, s', List.replicate n start ++ asked, hrest, ?_, ?_, hends⟩
                · rw [hasked, htrace, List.append_assoc]
                · have hcons := hfew.cons (lt_addSeconds? hspan hreach) hn'
                  exact { hcons with windows := le_trans hcons.windows (by omega) }
          · exact ⟨_, s₁, _, rfl, htrace, few_replicate start hpos hn', Or.inr (Or.inl ⟨_, rfl⟩)⟩

/-- Enough steps for a walk over so many ids. -/
def enoughSteps (ids : Finset Nat) (now since : Timestamp) : Nat :=
  max ((ids.card + 1) * 14) (mostWindows now since)

theorem since_ends (h : Traced view ids ask trace) (keep : ρ → Bool) (endpoint : String)
    (pageSize limit : Nat) (now since : Timestamp) (s : σ) :
    ∃ result s' asked,
      (∀ steps, enoughSteps ids now since ≤ steps →
        Walk.since view keep ask endpoint pageSize limit steps now since s = (result, s')) ∧
      trace s' = trace s ++ asked ∧ Few ids since (mostWindows now since) asked ∧
      ((∃ out, result = .ok out) ∨ (∃ cause, result = .error cause) ∨
        result = .overflow ∧
          ∃ start span, MayOpen now since start span ∧ start.addSeconds? span = none) := by
  have hpages : (ids.card + 1) * 14 ≤ enoughSteps ids now since := le_max_left _ _
  have hsteps : mostWindows now since ≤ enoughSteps ids now since := le_max_right _ _
  obtain ⟨ended, s', asked, hwindows, htrace, hfew, hended⟩ := windows_end h keep endpoint
    (by omega : 1 ≤ max 1 pageSize) limit hpages .first within_nil hsteps s
  have hsince : ∃ result, Walk.since view keep ask endpoint pageSize limit
      (enoughSteps ids now since) now since s = (result, s') ∧
      ((∃ out, result = .ok out) ∨ (∃ cause, result = .error cause) ∨
        result = .overflow ∧
          ∃ start span, MayOpen now since start span ∧ start.addSeconds? span = none) := by
    unfold Walk.since
    rw [show Found.none = Found.of view keep [] from rfl, hwindows]
    rcases hended with ⟨out, rfl⟩ | ⟨cause, rfl⟩ | ⟨rfl, hrange⟩
    · exact ⟨_, rfl, Or.inl ⟨_, rfl⟩⟩
    · exact ⟨_, rfl, Or.inr (Or.inl ⟨_, rfl⟩)⟩
    · exact ⟨_, rfl, Or.inr (Or.inr ⟨rfl, hrange⟩)⟩
  obtain ⟨result, hsince, hresult⟩ := hsince
  refine ⟨result, s', asked, fun steps hsteps => since_more hsince ?_ hsteps, htrace, hfew,
    hresult⟩
  rintro rfl
  rcases hresult with ⟨_, hout⟩ | ⟨_, hcause⟩ | ⟨hoverflow, -⟩
  · cases hout
  · cases hcause
  · cases hoverflow

end Bounded

end Walk

/-! ## The history of an account -/

open Walk

section Account

variable {σ ρ : Type} (c : Config) (wire : HttpWire σ) (decode : Json → Option ρ)

/-- The beginning of the window that a page is asked for in. -/
def WalkEvent.start? : WalkEvent ρ → Option Timestamp
  | sent _ _ => none
  | asked start _ _ _ => some start

/-- The beginnings of the windows that pages were asked for in, one for each page. Windows begin
at different instants. -/
def windowStarts (log : List (WalkEvent ρ)) : List Timestamp :=
  log.filterMap WalkEvent.start?

/-- A call ends with what it is for or with an error. -/
theorem perform_ends {α : Type} (read : Json → Option α) (call : Call) (s : σ) :
    (∃ a, (perform c wire read call s).1 = .ok a) ∨
      ∃ cause, (perform c wire read call s).1 = .error cause := by
  unfold perform request
  split
  · next hsend =>
      split
      · split
        · unfold readAnswer
          dsimp only
          split
          · split <;> exact Or.inr ⟨_, rfl⟩
          · split
            · exact Or.inr ⟨_, rfl⟩
            · split
              · exact Or.inl ⟨_, rfl⟩
              · exact Or.inr ⟨_, rfl⟩
        · exact Or.inr ⟨_, rfl⟩
      · exact Or.inr ⟨_, rfl⟩
  · exact Or.inr ⟨_, rfl⟩
  all_goals
    next hsend =>
      dsimp only at hsend
      split at hsend
      · split at hsend <;> cases hsend
      · cases hsend

theorem windowStarts_perform {α : Type} (read : Json → Option α) (call : Call)
    (s : σ × List (WalkEvent ρ)) :
    windowStarts (perform c (recordedWire ρ wire) read call s).2.2 = windowStarts s.2 := by
  unfold perform
  split
  · split
    · simp only [recordedWire]
      split
      · next heq =>
          rw [← (Prod.mk.inj heq).2]
          simp [windowStarts, WalkEvent.start?]
      · next heq =>
          rw [← (Prod.mk.inj heq).2]
          simp [windowStarts, WalkEvent.start?]
    · rfl
  all_goals rfl

variable {c wire decode} {view : RowView ρ} {ids : Finset Nat} {endpoint symbol : String}

theorem traced_recordedAsk
    (hids : ∀ {start upper size s page s'},
      askHistory c wire decode endpoint symbol start upper size s = (.ok page, s') →
      ∀ r ∈ page, view.id r ∈ ids) :
    Traced view ids (recordedAsk (askHistory c (recordedWire ρ wire) decode endpoint symbol))
      (fun s => windowStarts s.2) := by
  refine ⟨fun {start upper size s page s'} hask => ?_, fun start upper size s => ?_,
    fun start upper size s => ?_⟩
  · obtain ⟨events, hlog, -⟩ :=
      recordedAsk_log c wire decode endpoint symbol start upper size s.1 s.2
    rw [hlog] at hask
    exact hids (Prod.ext (Prod.mk.inj hask).1 rfl)
  · exact perform_ends c (recordedWire ρ wire) (rows? decode) _ s
  · have hsame := windowStarts_perform c wire (rows? decode)
      (privateCall .get (historyPath endpoint symbol start upper size)) s
    unfold recordedAsk askHistory
    rw [← hsame]
    simp [windowStarts, WalkEvent.start?]

theorem recordedHistory_ends
    (hids : ∀ {start upper size s page s'},
      askHistory c wire decode endpoint symbol start upper size s = (.ok page, s') →
      ∀ r ∈ page, view.id r ∈ ids)
    (keep : ρ → Bool) (since : Timestamp) (limit : Nat) (s : σ) :
    ∃ result s' log,
      (∀ steps, enoughSteps ids (wire.now s) since ≤ steps →
        history c wire steps view decode endpoint keep symbol since limit s = (result, s') ∧
        recordedHistory c wire steps view decode endpoint keep symbol since limit s =
          (result, s', log)) ∧
      Few ids since (mostWindows (wire.now s) since) (windowStarts log) ∧
      ((∃ out, result = .ok out) ∨ (∃ cause, result = .error cause) ∨
        result = .overflow ∧
          ∃ start span, MayOpen (wire.now s) since start span ∧
            start.addSeconds? span = none) := by
  obtain ⟨result, ⟨s', log⟩, asked, hrun, hasked, hfew, hends⟩ :=
    since_ends (traced_recordedAsk hids) keep endpoint c.historyPageSize limit (wire.now s) since
      (s, [])
  obtain rfl : windowStarts log = asked := hasked
  refine ⟨result, s', log, fun steps hsteps => ?_, hfew, hends⟩
  have hrecorded := hrun steps hsteps
  have hmirror := (mirrors_recordedAsk c wire decode endpoint symbol).since view keep endpoint
    c.historyPageSize limit steps (wire.now s) since (s, [])
  rw [hrecorded] at hmirror
  exact ⟨hmirror, hrecorded⟩

/-- Whatever else a server does, if the ids of its rows are among finitely many, the history of
an account ends, and more steps do not change its end. It asks for at most fourteen pages in a
window for each id, and fourteen beside them. It opens at most one window for each day up to
now, and one beside them. It ends with rows or an error, unless the end of a window is out of
range. -/
theorem history_ends
    (hids : ∀ {start upper size s page s'},
      askHistory c wire decode endpoint symbol start upper size s = (.ok page, s') →
      ∀ r ∈ page, view.id r ∈ ids)
    (keep : ρ → Bool) (since : Timestamp) (limit : Nat) (s : σ) :
    ∃ enough result s' log,
      (∀ steps, enough ≤ steps →
        history c wire steps view decode endpoint keep symbol since limit s = (result, s') ∧
        recordedHistory c wire steps view decode endpoint keep symbol since limit s =
          (result, s', log)) ∧
      (∀ start, (windowStarts log).count start ≤ (ids.card + 1) * 14) ∧
      (windowStarts log).toFinset.card ≤ since.daysUntil (wire.now s) + 1 ∧
      ((∃ out, result = .ok out) ∨ (∃ cause, result = .error cause) ∨
        result = .overflow ∧
          ∃ start span, MayOpen (wire.now s) since start span ∧
            start.addSeconds? span = none) := by
  obtain ⟨result, s', log, hrun, hfew, hends⟩ := recordedHistory_ends hids keep since limit s
  exact ⟨enoughSteps ids (wire.now s) since, result, s', log, hrun, hfew.pages,
    le_trans hfew.windows (mostWindows_le _ _), hends⟩

end Account

/-- A server that sends one row twice, whatever it is asked for, an hour after the epoch. -/
def stubborn : HttpWire Unit where
  send _ s := (.ok ⟨200, Text.utf8 (idPage [7, 7]).compact⟩, s)
  now := twins.now

theorem page_of_stubborn {endpoint symbol : String} {start upper : Timestamp} {size : Nat}
    {s s' : Unit} {page : List Nat}
    (h : askHistory patient stubborn (Json.asNatural? idBound) endpoint symbol start upper size s =
      (.ok page, s')) : page = [7, 7] := by
  have hread := @readAnswer_page [7, 7] "\x7b\"success\":true,\"result\":[7,7]\x7d"
    (by cbv) (by cbv) (by cbv) rfl
  unfold askHistory perform at h
  split at h
  · split at h
    · simp only [stubborn, hread] at h
      exact (Outcome.ok.inj (Prod.mk.inj h).1).symm
    · cases (Prod.mk.inj h).1
  all_goals cases (Prod.mk.inj h).1

/-- One row again and again keeps an account that asks for a row at a time busy for twenty-eight
pages at most, in each of two windows. -/
theorem history_ends_stubborn :
    (∀ {start upper size s page s'},
      askHistory patient stubborn (Json.asNatural? idBound) "/api/fills" "BTC/USD" start upper size
        s = (.ok page, s') → ∀ r ∈ page, twinView.id r ∈ ({7} : Finset Nat)) ∧
    ∃ enough result s' log,
      (∀ steps, enough ≤ steps →
        history patient stubborn steps twinView (Json.asNatural? idBound) "/api/fills"
          (fun _ => true) "BTC/USD" .epoch 5 () = (result, s') ∧
        recordedHistory patient stubborn steps twinView (Json.asNatural? idBound) "/api/fills"
          (fun _ => true) "BTC/USD" .epoch 5 () = (result, s', log)) ∧
      (∀ start, (windowStarts log).count start ≤ 28) ∧ (windowStarts log).toFinset.card ≤ 2 := by
  have hids : ∀ {start upper size s page s'},
      askHistory patient stubborn (Json.asNatural? idBound) "/api/fills" "BTC/USD" start upper size
        s = (.ok page, s') → ∀ r ∈ page, twinView.id r ∈ ({7} : Finset Nat) := by
    intro start upper size s page s' hask r hr
    rw [page_of_stubborn hask] at hr
    simpa [twinView] using hr
  obtain ⟨enough, result, s', log, hsteps, hpages, hwindows, -⟩ :=
    history_ends hids (fun _ => true) .epoch 5 ()
  exact ⟨hids, enough, result, s', log, hsteps, hpages, hwindows⟩

end Ftx

end Tradebook
