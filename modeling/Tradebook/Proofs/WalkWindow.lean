import Mathlib.Data.List.Nodup
import Mathlib.Data.List.Perm.Subperm
import Tradebook.Ftx.Walk
import Tradebook.Proofs.TimestampOrder

/-!
# One window of a walk

The server promises the newest rows of a span of time and nothing about rows that
share an instant (`NewestPage`). This file is about the pages of one window, asked
for from its end backward.

A walk tells rows apart by id and forgets in which order pages brought them. So
what it has found is a list of rows taken in, each once: `Found.of` is that, and
taking in a page adds the rows that are new (`takeIn`). Then one turn of the loop
has three ends (`turn_spec`). The window is complete; or rows are new, and all rows
after the next bound are taken in; or no row is new, and the page grows.

`window_complete` follows by induction over the turns: whenever a window ends well,
every row of its span is taken in, and no row from outside. `window_settles` says
that it does end well if the server answers and the span has fewer rows than the
greatest page: a turn that goes on takes a row in or widens the page.
-/

namespace Tradebook.Ftx.Walk

section Pages

variable {ρ : Type}

/-- The newest `size` rows of a span: what is left out is no newer than what is in. -/
def NewestPage (time : ρ → Timestamp) (span : List ρ) (size : Nat) (page : List ρ) : Prop :=
  ∃ rest, (page ++ rest).Perm span ∧ page.length = min size span.length ∧
    ∀ p ∈ page, ∀ r ∈ rest, time r ≤ time p

namespace NewestPage

variable {time : ρ → Timestamp} {span page : List ρ} {size : Nat}

theorem mem_span (h : NewestPage time span size page) {r : ρ} (hr : r ∈ page) :
    r ∈ span := by
  obtain ⟨rest, hperm, -, -⟩ := h
  exact hperm.mem_iff.1 (List.mem_append_left rest hr)

theorem length_le (h : NewestPage time span size page) : page.length ≤ span.length := by
  obtain ⟨-, -, hlength, -⟩ := h
  omega

/-- A page that is not full holds the whole span. -/
theorem mem_of_short (h : NewestPage time span size page) (hshort : page.length < size)
    {r : ρ} (hr : r ∈ span) : r ∈ page := by
  obtain ⟨rest, hperm, hlength, -⟩ := h
  have htotal := hperm.length_eq
  rw [List.length_append] at htotal
  have hnil : rest = [] := List.eq_nil_of_length_eq_zero (by omega)
  rw [hnil, List.append_nil] at hperm
  exact hperm.mem_iff.2 hr

theorem mem_of_newer (h : NewestPage time span size page) {p r : ρ} (hp : p ∈ page)
    (hr : r ∈ span) (hlt : time p < time r) : r ∈ page := by
  obtain ⟨rest, hperm, -, hrest⟩ := h
  rcases List.mem_append.1 (hperm.mem_iff.2 hr) with hr | hr
  · exact hr
  · exact absurd hlt (not_lt.2 (hrest p hp r hr))

end NewestPage

theorem earliest?_eq_none {times : List Timestamp} : earliest? times = none ↔ times = [] := by
  cases times <;> simp [earliest?]

theorem earliest?_eq_some {times : List Timestamp} {t : Timestamp}
    (h : earliest? times = some t) : t ∈ times ∧ ∀ u ∈ times, t ≤ u := by
  cases times with
  | nil => simp [earliest?] at h
  | cons x xs =>
      simp only [earliest?, Option.some.injEq] at h
      subst h
      refine @foldl_choice _ (fun a b => a ≤ b) _ le_refl (fun _ _ _ => le_trans)
        (fun a b => ?_) xs x
      rw [Timestamp.earlier_eq_min]
      exact ⟨(le_total a b).imp min_eq_left min_eq_right, min_le_left a b, min_le_right a b⟩

end Pages

/-! ## What was found -/

section Taking

variable {ρ : Type} (view : RowView ρ) (keep : ρ → Bool)

/-- What a walk has found when it has taken in some rows. -/
def Found.of (taken : List ρ) : Found ρ :=
  ⟨taken.map view.id, taken.filter keep⟩

/-- Takes one more row in, unless it came before. -/
def takeIn (taken : List ρ) (row : ρ) : List ρ :=
  if view.id row ∈ taken.map view.id then taken else row :: taken

theorem add_of (taken : List ρ) (row : ρ) :
    (Found.of view keep taken).add view keep row = Found.of view keep (takeIn view taken row) := by
  unfold Found.add takeIn Found.of
  by_cases hid : view.id row ∈ taken.map view.id
  · rw [if_pos (by simpa using hid), if_pos hid]
  · rw [if_neg (by simpa using hid), if_neg hid, List.map_cons, List.filter_cons]

theorem foldl_add_of (page taken : List ρ) :
    page.foldl (Found.add view keep) (Found.of view keep taken) =
      Found.of view keep (page.foldl (takeIn view) taken) := by
  induction page generalizing taken with
  | nil => rfl
  | cons row page ih => rw [List.foldl_cons, List.foldl_cons, add_of, ih]

theorem length_seen_of (taken : List ρ) :
    (Found.of view keep taken).seen.length = taken.length :=
  List.length_map _

variable {view}

theorem length_le_takeIn (page taken : List ρ) :
    taken.length ≤ (page.foldl (takeIn view) taken).length := by
  induction page generalizing taken with
  | nil => exact le_refl _
  | cons row page ih =>
      refine le_trans ?_ (ih (takeIn view taken row))
      unfold takeIn
      split
      · exact le_refl _
      · exact Nat.le_succ _

/-- Where no row is new, nothing changes. -/
theorem foldl_takeIn_eq {page taken : List ρ}
    (h : (page.foldl (takeIn view) taken).length ≤ taken.length) :
    page.foldl (takeIn view) taken = taken := by
  induction page generalizing taken with
  | nil => rfl
  | cons row page ih =>
      rw [List.foldl_cons] at h ⊢
      by_cases hid : view.id row ∈ taken.map view.id
      · have hsame : takeIn view taken row = taken := if_pos hid
        rw [hsame] at h ⊢
        exact ih h
      · have hmore : takeIn view taken row = row :: taken := if_neg hid
        have hle : taken.length + 1 ≤ (page.foldl (takeIn view) (row :: taken)).length :=
          length_le_takeIn page (row :: taken)
        rw [hmore] at h
        omega

theorem mem_foldl_takeIn {rows page taken : List ρ} (hids : (rows.map view.id).Nodup)
    (hpage : ∀ r ∈ page, r ∈ rows) (htaken : ∀ r ∈ taken, r ∈ rows) {r : ρ} :
    r ∈ page.foldl (takeIn view) taken ↔ r ∈ taken ∨ r ∈ page := by
  induction page generalizing taken with
  | nil => simp
  | cons row page ih =>
      have hrow : row ∈ rows := hpage row (by simp)
      have hone : ∀ x, x ∈ takeIn view taken row ↔ x ∈ taken ∨ x = row := by
        intro x
        unfold takeIn
        split
        · next hid =>
            obtain ⟨t, ht, hsame⟩ := List.mem_map.1 hid
            obtain rfl := List.inj_on_of_nodup_map hids (htaken t ht) hrow hsame
            exact ⟨Or.inl, fun h => h.elim id fun h => h ▸ ht⟩
        · rw [List.mem_cons, or_comm]
      rw [List.foldl_cons, ih (fun x hx => hpage x (by simp [hx])) fun x hx => ?_]
      · rw [hone, List.mem_cons, or_assoc]
      · rcases (hone x).1 hx with hx | rfl
        · exact htaken x hx
        · exact hrow

theorem nodup_foldl_takeIn {page taken : List ρ} (h : (taken.map view.id).Nodup) :
    ((page.foldl (takeIn view) taken).map view.id).Nodup := by
  induction page generalizing taken with
  | nil => exact h
  | cons row page ih =>
      rw [List.foldl_cons]
      refine ih ?_
      unfold takeIn
      split
      · exact h
      · next hid => exact List.nodup_cons.2 ⟨hid, h⟩

end Taking

/-! ## One turn of the loop -/

/-- What one turn of the loop comes to. -/
inductive Turn (σ ρ : Type) where
  /-- The window ends. -/
  | stop (result : Outcome ExchangeError (Found ρ)) (s : σ)
  /-- The next page ends at `upper`. -/
  | again (upper : Timestamp) (size : Nat) (found : Found ρ) (s : σ)

section Turns

variable {σ ρ : Type} (view : RowView ρ) (keep : ρ → Bool) (ask : Ask σ ρ) (endpoint : String)
  (pageSize : Nat) (start : Timestamp)

/-- The turn of the loop at a page. -/
def turn (upper : Timestamp) (size : Nat) (found : Found ρ) (s : σ) : Turn σ ρ :=
  match ask start upper size s with
  | (.error cause, s) => .stop (.error cause) s
  | (.overflow, s) => .stop .overflow s
  | (.exhausted, s) => .stop .exhausted s
  | (.ok page, s) =>
    match earliest? (page.map view.time) with
    | none => .stop (.ok found) s
    | some oldest =>
      let more := page.foldl (Found.add view keep) found
      if page.length < size then .stop (.ok more) s
      else if found.seen.length < more.seen.length then .again oldest pageSize more s
      else if greatestPage ≤ size then .stop (.error (crowded endpoint oldest)) s
      else .again upper (min (2 * size) greatestPage) more s

theorem window_succ (steps : Nat) (upper : Timestamp) (size : Nat) (found : Found ρ) (s : σ) :
    window view keep ask endpoint pageSize start (steps + 1) upper size found s =
      match turn view keep ask endpoint pageSize start upper size found s with
      | .stop result s => (result, s)
      | .again upper size found s =>
        window view keep ask endpoint pageSize start steps upper size found s := by
  rw [window, turn]
  rcases ask start upper size s with ⟨page | cause | _ | _, s₁⟩
  case ok =>
    cases holdest : earliest? (page.map view.time) with
    | none => simp only [holdest]
    | some oldest =>
        simp only [holdest]
        by_cases hshort : page.length < size
        · rw [if_pos hshort, if_pos hshort]
        · rw [if_neg hshort, if_neg hshort]
          by_cases hnew : found.seen.length <
            (page.foldl (Found.add view keep) found).seen.length
          · rw [if_pos hnew, if_pos hnew]
          · rw [if_neg hnew, if_neg hnew]
            by_cases hcrowded : greatestPage ≤ size
            · rw [if_pos hcrowded, if_pos hcrowded]
            · rw [if_neg hcrowded, if_neg hcrowded]
  all_goals rfl

end Turns

/-! ## Turns where the promise is kept -/

/-- The rows of a span of time, both ends included. -/
def spanOf {ρ : Type} (view : RowView ρ) (rows : List ρ) (start upper : Timestamp) : List ρ :=
  rows.filter fun r => start ≤ view.time r ∧ view.time r ≤ upper

theorem length_spanOf_le {ρ : Type} {view : RowView ρ} {rows : List ρ}
    {start start' upper upper' : Timestamp} (hstart : start ≤ start') (hupper : upper' ≤ upper) :
    (spanOf view rows start' upper').length ≤ (spanOf view rows start upper).length := by
  refine (List.monotone_filter_right rows fun r hr => ?_).length_le
  obtain ⟨hlow, hhigh⟩ := of_decide_eq_true hr
  exact decide_eq_true ⟨le_trans hstart hlow, le_trans hhigh hupper⟩

theorem mem_spanOf {ρ : Type} {view : RowView ρ} {rows : List ρ} {start upper : Timestamp}
    {r : ρ} : r ∈ spanOf view rows start upper ↔
      r ∈ rows ∧ start ≤ view.time r ∧ view.time r ≤ upper := by
  rw [spanOf, List.mem_filter, decide_eq_true_iff]

theorem nodup_ids_spanOf {ρ : Type} {view : RowView ρ} {rows : List ρ}
    (h : (rows.map view.id).Nodup) (start upper : Timestamp) :
    ((spanOf view rows start upper).map view.id).Nodup :=
  h.sublist (List.filter_sublist.map _)

/-- A server keeps its promise about some rows, told apart by their ids, for the starts
and ends that it can be asked about. -/
structure Serves {σ ρ : Type} (view : RowView ρ) (rows : List ρ) (ask : Ask σ ρ)
    (low high : Timestamp → Prop) : Prop where
  ids : (rows.map view.id).Nodup
  high_time : ∀ r ∈ rows, high (view.time r)
  page : ∀ {start upper size s page s'}, low start → high upper →
    ask start upper size s = (.ok page, s') →
    NewestPage view.time (spanOf view rows start upper) size page

/-- Some rows were taken in, each once, beside those that were there. -/
structure Took {ρ : Type} (view : RowView ρ) (rows : List ρ) (start upper : Timestamp)
    (taken more : List ρ) : Prop where
  nodup : (more.map view.id).Nodup
  kept : ∀ r ∈ taken, r ∈ more
  sound : ∀ r ∈ more, r ∈ taken ∨ r ∈ spanOf view rows start upper

section Serving

variable {σ ρ : Type} {view : RowView ρ} {rows : List ρ} {ask : Ask σ ρ}
  {low high : Timestamp → Prop} {start : Timestamp} {keep : ρ → Bool} {endpoint : String}
  {pageSize : Nat}

/-- What a turn means where the promise is kept. -/
theorem turn_spec (h : Serves view rows ask low high) (keep : ρ → Bool) (endpoint : String)
    {pageSize : Nat} (hpageSize : 1 ≤ pageSize) (hlow : low start) {upper : Timestamp}
    (hhigh : high upper) {size : Nat} (hsize : 1 ≤ size) {taken : List ρ}
    (hin : ∀ r ∈ taken, r ∈ rows) (hnodup : (taken.map view.id).Nodup) (s : σ) :
    match turn view keep ask endpoint pageSize start upper size (.of view keep taken) s with
    | .stop result _ => ∀ found, result = .ok found → ∃ more, found = .of view keep more ∧
        Took view rows start upper taken more ∧ ∀ r ∈ spanOf view rows start upper, r ∈ more
    | .again upper' size' found _ => ∃ more, found = .of view keep more ∧
        Took view rows start upper taken more ∧ high upper' ∧ upper' ≤ upper ∧ 1 ≤ size' ∧
        (∀ r ∈ spanOf view rows start upper, upper' < view.time r → r ∈ more) ∧
        (taken.length < more.length ∧ size' = pageSize ∨
          more = taken ∧ size < greatestPage ∧ size' = min (2 * size) greatestPage) := by
  rw [turn]
  rcases hask : ask start upper size s with ⟨page | cause | _ | _, s₁⟩
  case ok =>
    have hpage := h.page hlow hhigh hask
    cases holdest : earliest? (page.map view.time) with
    | none =>
        simp only [holdest]
        have hnil : page = [] := List.map_eq_nil_iff.1 (earliest?_eq_none.1 holdest)
        intro found hfound
        refine ⟨taken, (Outcome.ok.inj hfound).symm, ⟨hnodup, fun _ => id, fun _ => Or.inl⟩, ?_⟩
        intro r hr
        have hmem := hpage.mem_of_short (by rw [hnil]; exact hsize) hr
        rw [hnil] at hmem
        cases hmem
    | some oldest =>
        simp only [holdest]
        obtain ⟨holdest, hle⟩ := earliest?_eq_some holdest
        obtain ⟨last, hlast, rfl⟩ := List.mem_map.1 holdest
        have hspan : ∀ r ∈ page, r ∈ spanOf view rows start upper := fun r => hpage.mem_span
        have hmem := fun r => mem_foldl_takeIn (r := r) h.ids
          (fun r hr => (mem_spanOf.1 (hspan r hr)).1) hin
        have htook : Took view rows start upper taken (page.foldl (takeIn view) taken) :=
          ⟨nodup_foldl_takeIn hnodup, fun r hr => (hmem r).2 (Or.inl hr),
            fun r hr => ((hmem r).1 hr).imp_right (hspan r)⟩
        rw [foldl_add_of, length_seen_of, length_seen_of]
        by_cases hshort : page.length < size
        · rw [if_pos hshort]
          intro found hfound
          refine ⟨_, (Outcome.ok.inj hfound).symm, htook, fun r hr => ?_⟩
          exact (hmem r).2 (Or.inr (hpage.mem_of_short hshort hr))
        · rw [if_neg hshort]
          by_cases hnew : taken.length < (page.foldl (takeIn view) taken).length
          · rw [if_pos hnew]
            refine ⟨_, rfl, htook, h.high_time last (mem_spanOf.1 (hspan last hlast)).1,
              (mem_spanOf.1 (hspan last hlast)).2.2, hpageSize, fun r hr hlt => ?_,
              Or.inl ⟨hnew, rfl⟩⟩
            exact (hmem r).2 (Or.inr (hpage.mem_of_newer hlast hr hlt))
          · rw [if_neg hnew]
            have hsame := foldl_takeIn_eq (Nat.not_lt.1 hnew)
            by_cases hcrowded : greatestPage ≤ size
            · rw [if_pos hcrowded]
              intro found hfound
              cases hfound
            · rw [if_neg hcrowded]
              refine ⟨_, rfl, htook, hhigh, le_refl _, ?_, fun r hr hlt => ?_,
                Or.inr ⟨hsame, Nat.not_le.1 hcrowded, rfl⟩⟩
              · unfold greatestPage
                omega
              · exact absurd hlt (not_lt.2 (mem_spanOf.1 hr).2.2)
  all_goals
    intro found hfound
    cases hfound

theorem Took.mem_rows {upper : Timestamp} {taken more : List ρ}
    (h : Took view rows start upper taken more) (hin : ∀ r ∈ taken, r ∈ rows) :
    ∀ r ∈ more, r ∈ rows := by
  intro r hr
  rcases h.sound r hr with hr | hr
  · exact hin r hr
  · exact (mem_spanOf.1 hr).1

/-- Rows of an earlier end are rows of a later one. -/
theorem Took.trans {upper upper' : Timestamp} {taken between more : List ρ}
    (h : Took view rows start upper taken between)
    (h' : Took view rows start upper' between more) (hle : upper' ≤ upper) :
    Took view rows start upper taken more := by
  refine ⟨h'.nodup, fun r hr => h'.kept r (h.kept r hr), fun r hr => ?_⟩
  rcases h'.sound r hr with hr | hr
  · exact h.sound r hr
  · obtain ⟨hrow, hstart, hupper⟩ := mem_spanOf.1 hr
    exact Or.inr (mem_spanOf.2 ⟨hrow, hstart, le_trans hupper hle⟩)

/-! ## A whole window -/

/-- A window that ends well has taken in its span. -/
theorem window_complete (h : Serves view rows ask low high) (hlow : low start)
    (hpageSize : 1 ≤ pageSize) {steps : Nat} {upper : Timestamp} (hhigh : high upper)
    {size : Nat} (hsize : 1 ≤ size) {taken : List ρ} (hin : ∀ r ∈ taken, r ∈ rows)
    (hnodup : (taken.map view.id).Nodup) {s s' : σ} {found : Found ρ}
    (hok : window view keep ask endpoint pageSize start steps upper size (.of view keep taken)
      s = (.ok found, s')) :
    ∃ more, found = .of view keep more ∧ Took view rows start upper taken more ∧
      ∀ r ∈ spanOf view rows start upper, r ∈ more := by
  induction steps generalizing upper size taken s with
  | zero => cases hok
  | succ steps ih =>
      have hturn := turn_spec h keep endpoint hpageSize hlow hhigh hsize hin hnodup s
      rw [window_succ] at hok
      cases hcase : turn view keep ask endpoint pageSize start upper size
        (.of view keep taken) s with
      | stop result s₁ =>
          rw [hcase] at hok hturn
          exact hturn found (Prod.mk.inj hok).1
      | again upper' size' found' s₁ =>
          rw [hcase] at hok hturn
          obtain ⟨between, rfl, htook, hhigh', hle, hsize', hlater, -⟩ := hturn
          obtain ⟨more, hfound, htook', hspan⟩ :=
            ih hhigh' hsize' (htook.mem_rows hin) htook.nodup hok
          refine ⟨more, hfound, htook.trans htook' hle, fun r hr => ?_⟩
          obtain ⟨hrow, hstart, -⟩ := mem_spanOf.1 hr
          by_cases hlt : upper' < view.time r
          · exact htook'.kept r (hlater r hr hlt)
          · exact hspan r (mem_spanOf.2 ⟨hrow, hstart, not_lt.1 hlt⟩)

/-- How much a window has yet to do: rows to take in, each weighing more than all
widenings of a page, and the widenings left. -/
def weight (rows taken : List ρ) (size : Nat) : Nat :=
  (rows.length - taken.length) * (greatestPage + 1) + (greatestPage - size)

theorem weight_lt {taken more : List ρ} {size size' : Nat} (hsize : 1 ≤ size)
    (hroom : more.length ≤ rows.length)
    (hprogress : taken.length < more.length ∨
      more = taken ∧ size < greatestPage ∧ size' = min (2 * size) greatestPage) :
    weight rows more size' < weight rows taken size := by
  unfold weight
  rcases hprogress with hmore | ⟨rfl, hless, rfl⟩
  · have hmul : (rows.length - more.length + 1) * (greatestPage + 1) ≤
        (rows.length - taken.length) * (greatestPage + 1) :=
      Nat.mul_le_mul_right _ (by omega)
    rw [Nat.succ_mul] at hmul
    omega
  · omega

theorem Took.length_le {upper : Timestamp} {taken more : List ρ}
    (h : Took view rows start upper taken more) (hin : ∀ r ∈ taken, r ∈ rows) :
    more.length ≤ rows.length :=
  (h.nodup.of_map _).subperm (h.mem_rows hin) |>.length_le

/-- If the server answers, only a page as long as the greatest one makes a window
give up. -/
theorem turn_ok (h : Serves view rows ask low high) (keep : ρ → Bool) (endpoint : String)
    (pageSize : Nat) (hlow : low start)
    (hanswers : ∀ upper size s, high upper → ∃ page s', ask start upper size s = (.ok page, s'))
    {upper : Timestamp} (hhigh : high upper) {size : Nat} {found : Found ρ}
    (hfew : (spanOf view rows start upper).length < greatestPage) {s s' : σ}
    {result : Outcome ExchangeError (Found ρ)}
    (hstop : turn view keep ask endpoint pageSize start upper size found s = .stop result s') :
    ∃ more, result = .ok more := by
  obtain ⟨page, s₁, hask⟩ := hanswers upper size s hhigh
  have hlength := (h.page hlow hhigh hask).length_le
  rw [turn, hask] at hstop
  cases holdest : earliest? (page.map view.time) with
  | none =>
      simp only [holdest] at hstop
      exact ⟨found, (Turn.stop.inj hstop).1.symm⟩
  | some oldest =>
      simp only [holdest] at hstop
      split at hstop
      · exact ⟨_, (Turn.stop.inj hstop).1.symm⟩
      · split at hstop
        · cases hstop
        · split at hstop
          · omega
          · cases hstop

/-- If the server answers and the span has fewer rows than the greatest page, the
window ends well, within a number of pages that depends on the rows alone. -/
theorem window_settles (h : Serves view rows ask low high) (keep : ρ → Bool)
    (endpoint : String) (hlow : low start)
    (hanswers : ∀ upper size s, high upper → ∃ page s', ask start upper size s = (.ok page, s'))
    (hpageSize : 1 ≤ pageSize) {steps : Nat} {upper : Timestamp} (hhigh : high upper)
    {size : Nat} (hsize : 1 ≤ size) {taken : List ρ} (hin : ∀ r ∈ taken, r ∈ rows)
    (hnodup : (taken.map view.id).Nodup)
    (hfew : (spanOf view rows start upper).length < greatestPage)
    (hsteps : weight rows taken size < steps) (s : σ) :
    ∃ found s', window view keep ask endpoint pageSize start steps upper size
      (.of view keep taken) s = (.ok found, s') := by
  induction steps generalizing upper size taken s with
  | zero => exact absurd hsteps (Nat.not_lt_zero _)
  | succ steps ih =>
      have hturn := turn_spec h keep endpoint hpageSize hlow hhigh hsize hin hnodup s
      rw [window_succ]
      cases hcase : turn view keep ask endpoint pageSize start upper size
        (.of view keep taken) s with
      | stop result s₁ =>
          obtain ⟨found, rfl⟩ := turn_ok h keep endpoint pageSize hlow hanswers hhigh hfew hcase
          exact ⟨found, s₁, rfl⟩
      | again upper' size' found' s₁ =>
          rw [hcase] at hturn
          obtain ⟨more, rfl, htook, hhigh', hle, hsize', -, hprogress⟩ := hturn
          have hless : weight rows more size' < weight rows taken size :=
            weight_lt hsize (htook.length_le hin) (hprogress.imp_left And.left)
          exact ih hhigh' hsize' (htook.mem_rows hin) htook.nodup
            (lt_of_le_of_lt (length_spanOf_le (le_refl _) hle) hfew) (by omega) s₁

end Serving

end Tradebook.Ftx.Walk
