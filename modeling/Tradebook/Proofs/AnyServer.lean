import Tradebook.Proofs.WalkExact

/-!
# A walk against any server

Here the server promises nothing. It may repeat rows, send rows from outside the span
or more of them than it was asked for, in any order and with any times, and it may fail.
What is left of a walk is what it sees to itself.

`Went` has the ends of a walk: pages came, and then it gave its result or something
stopped it (`Halt`). A turn either is such an end or has one more page (`turn_went`),
and the windows and the whole walk follow by induction. Rows are taken in once for each
id (`Drawn`), so those that are left in the end lie in strict order (`Proper`).
-/

namespace Tradebook.Ftx.Walk

/-! ## The ends of a walk -/

section Ends

variable {σ ρ α : Type}

/-- Pages came one after the other, with these rows on them. -/
inductive Pages (ask : Ask σ ρ) : σ → List ρ → σ → Prop
  | none {s : σ} : Pages ask s [] s
  | more {start upper : Timestamp} {size : Nat} {page rows : List ρ} {s s₁ s' : σ}
      (hask : ask start upper size s = (.ok page, s₁)) (hrest : Pages ask s₁ rows s') :
      Pages ask s (page ++ rows) s'

/-- What stops a walk: an answer that is no page, or something of its own. -/
inductive Halt (ask : Ask σ ρ) (endpoint : String) : Outcome ExchangeError α → σ → σ → Prop
  | failed {start upper : Timestamp} {size : Nat} {cause : ExchangeError} {s s' : σ}
      (hask : ask start upper size s = (.error cause, s')) :
      Halt ask endpoint (.error cause) s s'
  | overflow {start upper : Timestamp} {size : Nat} {s s' : σ}
      (hask : ask start upper size s = (.overflow, s')) : Halt ask endpoint .overflow s s'
  | exhausted {start upper : Timestamp} {size : Nat} {s s' : σ}
      (hask : ask start upper size s = (.exhausted, s')) : Halt ask endpoint .exhausted s s'
  | crowded (instant : Timestamp) {s : σ} :
      Halt ask endpoint (.error (crowded endpoint instant)) s s
  | outOfRange {s : σ} : Halt ask endpoint .overflow s s
  | outOfSteps {s : σ} : Halt ask endpoint .exhausted s s

/-- A walk, or a part of it: pages came, and then there was a result that is good for their
rows, or the walk was stopped. -/
inductive Went (ask : Ask σ ρ) (endpoint : String) (good : List ρ → α → Prop) :
    σ → Outcome ExchangeError α → σ → Prop
  | ok {s s' : σ} {rows : List ρ} {value : α} (hpages : Pages ask s rows s')
      (hgood : good rows value) : Went ask endpoint good s (.ok value) s'
  | halt {s s₁ s' : σ} {rows : List ρ} {result : Outcome ExchangeError α}
      (hpages : Pages ask s rows s₁) (hhalt : Halt ask endpoint result s₁ s') :
      Went ask endpoint good s result s'

variable {ask : Ask σ ρ} {endpoint : String}

theorem Pages.single {start upper : Timestamp} {size : Nat} {page : List ρ} {s s' : σ}
    (hask : ask start upper size s = (.ok page, s')) : Pages ask s page s' := by
  have h := Pages.more hask .none
  rwa [List.append_nil] at h

theorem Pages.append {s s₁ s' : σ} {rows rows' : List ρ} (h : Pages ask s rows s₁)
    (h' : Pages ask s₁ rows' s') : Pages ask s (rows ++ rows') s' := by
  induction h with
  | none => exact h'
  | more hask _ ih =>
      rw [List.append_assoc]
      exact .more hask (ih h')

/-- What stops a walk stops what goes on from it. -/
theorem Halt.bind {β : Type} {result : Outcome ExchangeError α} {s s' : σ}
    (h : Halt ask endpoint result s s') (f : α → Outcome ExchangeError β) :
    Halt ask endpoint (result.bind f) s s' := by
  cases h with
  | failed hask => exact .failed hask
  | overflow hask => exact .overflow hask
  | exhausted hask => exact .exhausted hask
  | crowded instant => exact .crowded instant
  | outOfRange => exact .outOfRange
  | outOfSteps => exact .outOfSteps

theorem Went.after {good good' : List ρ → α → Prop} {s s₁ s' : σ} {rows : List ρ}
    {result : Outcome ExchangeError α} (hpages : Pages ask s rows s₁)
    (h : Went ask endpoint good s₁ result s')
    (himp : ∀ rows' value, good rows' value → good' (rows ++ rows') value) :
    Went ask endpoint good' s result s' := by
  cases h with
  | ok hmore hgood => exact .ok (hpages.append hmore) (himp _ _ hgood)
  | halt hmore hhalt => exact .halt (hpages.append hmore) hhalt

end Ends

/-! ## What it takes in -/

section Drawing

variable {σ ρ : Type}

/-- Rows that were taken in, one for each id, from among those before and those that came. -/
structure Drawn (view : RowView ρ) (taken rows more : List ρ) : Prop where
  nodup : (more.map view.id).Nodup
  source : ∀ r ∈ more, r ∈ taken ∨ r ∈ rows

/-- What a walk sees to: rows that came, wanted and late enough, in strict order, and no
more than the limit. -/
structure Proper (view : RowView ρ) (keep : ρ → Bool) (since : Timestamp) (limit : Nat)
    (rows out : List ρ) : Prop where
  came : ∀ r ∈ out, r ∈ rows
  ids : (out.map view.id).Nodup
  wanted : ∀ r ∈ out, keep r = true
  late : ∀ r ∈ out, since ≤ view.time r
  ascending : out.Pairwise fun a b =>
    view.time a < view.time b ∨ view.time a = view.time b ∧ view.id a < view.id b
  few : out.length ≤ limit

variable {view : RowView ρ} {keep : ρ → Bool}

theorem Drawn.trans {taken rows more rows' more' : List ρ} (h : Drawn view taken rows more)
    (h' : Drawn view more rows' more') : Drawn view taken (rows ++ rows') more' := by
  refine ⟨h'.nodup, fun r hr => ?_⟩
  rw [List.mem_append, ← or_assoc]
  exact (h'.source r hr).imp_left (h.source r)

theorem mem_or_mem_of_foldl_takeIn {page taken : List ρ} {r : ρ}
    (h : r ∈ page.foldl (takeIn view) taken) : r ∈ taken ∨ r ∈ page := by
  induction page generalizing taken with
  | nil => exact Or.inl h
  | cons row page ih =>
      rw [List.mem_cons, ← or_assoc]
      refine (ih h).imp_left fun hr => ?_
      unfold takeIn at hr
      split at hr
      · exact Or.inl hr
      · exact (List.mem_cons.1 hr).symm

theorem drawn_foldl_takeIn {page taken : List ρ} (h : (taken.map view.id).Nodup) :
    Drawn view taken page (page.foldl (takeIn view) taken) :=
  ⟨nodup_foldl_takeIn h, fun _ => mem_or_mem_of_foldl_takeIn⟩

/-- Rows of one instant have different ids, so the order of rows told apart is strict. -/
theorem pairwise_mergeSort_inOrder {rows : List ρ} (h : (rows.map view.id).Nodup) :
    (rows.mergeSort (inOrder view)).Pairwise fun a b =>
      view.time a < view.time b ∨ view.time a = view.time b ∧ view.id a < view.id b := by
  have hsorted : (rows.mergeSort (inOrder view)).Pairwise fun a b => inOrder view a b = true :=
    List.pairwise_mergeSort inOrder_trans inOrder_total rows
  have hids : (rows.mergeSort (inOrder view)).Pairwise fun a b => view.id a ≠ view.id b :=
    List.pairwise_map.1 (((List.mergeSort_perm rows (inOrder view)).map view.id).nodup_iff.2 h)
  refine hsorted.imp₂ (fun a b hle hne => ?_) hids
  rcases inOrder_iff.1 hle with hlt | ⟨heq, hid⟩
  · exact Or.inl hlt
  · exact Or.inr ⟨heq, lt_of_le_of_ne hid hne⟩

theorem Drawn.proper {rows more : List ρ} (h : Drawn view [] rows more) (since : Timestamp)
    (limit : Nat) :
    Proper view keep since limit rows
      ((((more.filter keep).reverse.filter fun r => since ≤ view.time r).mergeSort
        (inOrder view)).take limit) := by
  have hfound : ((((more.filter keep).reverse.filter fun r => since ≤ view.time r)).map
      view.id).Nodup := by
    have hwanted : ((more.filter keep).map view.id).Nodup :=
      h.nodup.sublist (List.filter_sublist.map _)
    refine List.Nodup.sublist (List.filter_sublist.map _) ?_
    rw [List.map_reverse]
    exact List.nodup_reverse.2 hwanted
  have hmem : ∀ r ∈ (((more.filter keep).reverse.filter fun r => since ≤ view.time r).mergeSort
      (inOrder view)).take limit, (r ∈ more ∧ keep r = true) ∧ since ≤ view.time r := by
    intro r hr
    have hr := (List.mergeSort_perm _ (inOrder view)).mem_iff.1 (List.mem_of_mem_take hr)
    rwa [List.mem_filter, List.mem_reverse, List.mem_filter, decide_eq_true_iff] at hr
  have hsorted := pairwise_mergeSort_inOrder hfound
  refine ⟨fun r hr => ?_, ?_, fun r hr => (hmem r hr).1.2, fun r hr => (hmem r hr).2,
    hsorted.sublist (List.take_sublist _ _), List.length_take_le _ _⟩
  · exact (h.source r (hmem r hr).1.1).resolve_left List.not_mem_nil
  · refine List.Nodup.sublist ((List.take_sublist _ _).map _) ?_
    exact ((List.mergeSort_perm _ (inOrder view)).map view.id).nodup_iff.2 hfound

end Drawing

/-! ## From a turn to a walk -/

section Walking

variable {σ ρ : Type} (view : RowView ρ) (keep : ρ → Bool) (ask : Ask σ ρ) (endpoint : String)
  (pageSize : Nat)

theorem turn_went (start upper : Timestamp) (size : Nat) {taken : List ρ}
    (h : (taken.map view.id).Nodup) (s : σ) :
    match turn view keep ask endpoint pageSize start upper size (.of view keep taken) s with
    | .stop result s' =>
        Went ask endpoint (fun rows found => ∃ more, found = .of view keep more ∧
          Drawn view taken rows more) s result s'
    | .again _ _ found s' =>
        ∃ rows more, Pages ask s rows s' ∧ found = .of view keep more ∧
          Drawn view taken rows more := by
  rw [turn]
  rcases hask : ask start upper size s with ⟨page | cause | _ | _, s₁⟩
  case ok =>
    cases holdest : earliest? (page.map view.time) with
    | none =>
        simp only [holdest]
        exact .ok (.single hask) ⟨taken, rfl, h, fun r hr => Or.inl hr⟩
    | some oldest =>
        simp only [holdest]
        rw [foldl_add_of]
        have hdrawn : Drawn view taken page (page.foldl (takeIn view) taken) :=
          drawn_foldl_takeIn h
        by_cases hshort : page.length < size
        · rw [if_pos hshort]
          exact .ok (.single hask) ⟨_, rfl, hdrawn⟩
        · rw [if_neg hshort]
          split_ifs
          · exact ⟨page, _, .single hask, rfl, hdrawn⟩
          · exact .halt (.single hask) (.crowded oldest)
          · exact ⟨page, _, .single hask, rfl, hdrawn⟩
  case error => exact .halt .none (.failed hask)
  case overflow => exact .halt .none (.overflow hask)
  case exhausted => exact .halt .none (.exhausted hask)

theorem window_went (start : Timestamp) (steps : Nat) (upper : Timestamp) (size : Nat)
    {taken : List ρ} (h : (taken.map view.id).Nodup) (s : σ) {result : Outcome _ (Found ρ)}
    {s' : σ} (hwindow : window view keep ask endpoint pageSize start steps upper size
      (.of view keep taken) s = (result, s')) :
    Went ask endpoint (fun rows found => ∃ more, found = .of view keep more ∧
      Drawn view taken rows more) s result s' := by
  induction steps generalizing upper size taken s with
  | zero =>
      obtain ⟨rfl, rfl⟩ := Prod.mk.inj hwindow
      exact .halt .none .outOfSteps
  | succ steps ih =>
      rw [window_succ] at hwindow
      have hturn := turn_went view keep ask endpoint pageSize start upper size h s
      rcases hcase : turn view keep ask endpoint pageSize start upper size (.of view keep taken) s
        with ⟨ended, s₁⟩ | ⟨upper', size', found, s₁⟩
      · rw [hcase] at hwindow hturn
        obtain ⟨rfl, rfl⟩ := Prod.mk.inj hwindow
        exact hturn
      · rw [hcase] at hwindow hturn
        obtain ⟨rows, more, hpages, rfl, hdrawn⟩ := hturn
        refine (ih upper' size' hdrawn.nodup s₁ hwindow).after hpages ?_
        rintro rows' _ ⟨more', rfl, hdrawn'⟩
        exact ⟨more', rfl, hdrawn.trans hdrawn'⟩

theorem windows_went (limit pages : Nat) (now : Timestamp) (steps : Nat) (start : Timestamp)
    (span : Nat) {taken : List ρ} (h : (taken.map view.id).Nodup) (s : σ)
    {result : Outcome _ (List ρ)} {s' : σ}
    (hwindows : windows view keep ask endpoint pageSize limit pages now steps start span
      (.of view keep taken) s = (result, s')) :
    Went ask endpoint (fun rows out => ∃ more, out = (more.filter keep).reverse ∧
      Drawn view taken rows more) s result s' := by
  induction steps generalizing start span taken s with
  | zero =>
      obtain ⟨rfl, rfl⟩ := Prod.mk.inj hwindows
      exact .halt .none .outOfSteps
  | succ steps ih =>
      rw [windows] at hwindows
      cases hreach : start.addSeconds? span with
      | none =>
          simp only [hreach] at hwindows
          obtain ⟨rfl, rfl⟩ := Prod.mk.inj hwindows
          exact .halt .none .outOfRange
      | some reach =>
          simp only [hreach] at hwindows
          rcases hwindow : window view keep ask endpoint pageSize start pages
            (reach.earlier now) pageSize (.of view keep taken) s with ⟨ended, s₁⟩
          have hwent := window_went view keep ask endpoint pageSize start pages
            (reach.earlier now) pageSize h s hwindow
          rw [hwindow] at hwindows
          cases hwent with
          | ok hpages hgood =>
              obtain ⟨more, rfl, hdrawn⟩ := hgood
              dsimp only at hwindows
              split at hwindows
              · obtain ⟨rfl, rfl⟩ := Prod.mk.inj hwindows
                exact .ok hpages ⟨more, rfl, hdrawn⟩
              · refine (ih _ _ hdrawn.nodup s₁ hwindows).after hpages ?_
                rintro rows' _ ⟨more', rfl, hdrawn'⟩
                exact ⟨more', rfl, hdrawn.trans hdrawn'⟩
          | halt hpages hhalt =>
              have hstop := hhalt.bind fun more =>
                (.ok more.rows.reverse : Outcome ExchangeError (List ρ))
              cases hhalt
              all_goals
                obtain ⟨rfl, rfl⟩ := Prod.mk.inj hwindows
                exact .halt hpages hstop

/-- Whatever the answers are, a walk that ends well has proper rows of theirs. -/
theorem since_went (limit steps : Nat) (now since : Timestamp) (s : σ)
    {result : Outcome _ (List ρ)} {s' : σ}
    (hsince : Walk.since view keep ask endpoint pageSize limit steps now since s =
      (result, s')) :
    Went ask endpoint (Proper view keep since limit) s result s' := by
  unfold Walk.since at hsince
  rw [show Found.none = Found.of view keep [] from rfl] at hsince
  rcases hwindows : windows view keep ask endpoint (max 1 pageSize) limit steps now steps since
    firstSpan (.of view keep []) s with ⟨ended, s₁⟩
  have hnone : (([] : List ρ).map view.id).Nodup := List.nodup_nil
  have hwent := windows_went view keep ask endpoint (max 1 pageSize) limit steps now steps since
    firstSpan hnone s hwindows
  rw [hwindows] at hsince
  cases hwent with
  | ok hpages hgood =>
      obtain ⟨more, rfl, hdrawn⟩ := hgood
      obtain ⟨rfl, rfl⟩ := Prod.mk.inj hsince
      exact .ok hpages (hdrawn.proper since limit)
  | halt hpages hhalt =>
      have hstop := hhalt
      cases hhalt
      all_goals
        obtain ⟨rfl, rfl⟩ := Prod.mk.inj hsince
        exact .halt hpages hstop

end Walking

end Tradebook.Ftx.Walk
