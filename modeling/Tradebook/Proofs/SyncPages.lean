import Mathlib.Data.List.Perm.Basic
import Tradebook.Proofs.StoreRows
import Tradebook.Sync

/-!
# The loop that copies a history

An exchange promises the oldest records from an instant on (`OldestPage`), and
nothing about the order of records that share an instant: it may break such ties
differently each time. This file proves that the loop of `Sync.pages` needs no
more than that promise.

The loop is read one turn at a time. `Sync.turn` says what a single turn comes
to, `Sync.pages_succ` that the loop is its turns, and `Serving.turn_spec` what a
turn means where the promise is kept. Two inductions over the turns follow.

`Serving.pages_written` is about what was written when the loop ends. Whatever the
end, the rows written are records from the cursor on, and a record that was not
written is no older than any that was; so a run that is cut short leaves a store
that is complete up to its newest instant. At a good end nothing is missing.

`Serving.pages_settles` is about the loop ending at all. A turn that goes on
either moves the cursor to a later record or asks for more records at the same
instant, and the history is too short for either to go on for ever.
-/

namespace Tradebook

/-- What a history query promises of its answer: of the records from an instant
on it is the oldest `limit`, oldest first, and what it leaves out is no older than
what it holds. -/
def OldestPage {ρ : Type} (time : ρ → Timestamp) (records : List ρ) (since : Timestamp)
    (limit : Nat) (page : List ρ) : Prop :=
  ∃ rest, (page ++ rest).Perm (records.filter fun r => since ≤ time r) ∧
    page.length = min limit (records.filter fun r => since ≤ time r).length ∧
    page.Pairwise (fun a b => time a ≤ time b) ∧
    ∀ p ∈ page, ∀ r ∈ rest, time p ≤ time r

namespace OldestPage

variable {ρ : Type} {time : ρ → Timestamp} {records page : List ρ} {since : Timestamp}
  {limit : Nat}

/-- The beginning of the records in any order that has the oldest first. -/
theorem of_ordered {order : List ρ}
    (hperm : order.Perm (records.filter fun r => since ≤ time r))
    (hsorted : order.Pairwise fun a b => time a ≤ time b) :
    OldestPage time records since limit (order.take limit) := by
  refine ⟨order.drop limit, ?_, ?_, hsorted.sublist (List.take_sublist _ _), ?_⟩
  · rwa [List.take_append_drop]
  · rw [List.length_take, hperm.length_eq]
  · rw [← List.take_append_drop limit order] at hsorted
    exact (List.pairwise_append.1 hsorted).2.2

theorem mem_records (h : OldestPage time records since limit page) {r : ρ}
    (hr : r ∈ page) : r ∈ records ∧ since ≤ time r := by
  obtain ⟨rest, hperm, -, -, -⟩ := h
  have hmem := hperm.mem_iff.1 (List.mem_append_left rest hr)
  rw [List.mem_filter] at hmem
  exact ⟨hmem.1, by simpa using hmem.2⟩

theorem le_of_not_mem (h : OldestPage time records since limit page) {p r : ρ}
    (hp : p ∈ page) (hr : r ∈ records) (hsince : since ≤ time r) (hout : r ∉ page) :
    time p ≤ time r := by
  obtain ⟨rest, hperm, -, -, hrest⟩ := h
  have hmem : r ∈ page ++ rest :=
    hperm.mem_iff.2 (List.mem_filter.2 ⟨hr, by simpa using hsince⟩)
  exact hrest p hp r ((List.mem_append.1 hmem).resolve_left hout)

/-- A page that is not full holds everything there is. -/
theorem mem_of_short (h : OldestPage time records since limit page)
    (hshort : page.length < limit) {r : ρ} (hr : r ∈ records)
    (hsince : since ≤ time r) : r ∈ page := by
  obtain ⟨rest, hperm, hlength, -, -⟩ := h
  have htotal := hperm.length_eq
  rw [List.length_append] at htotal
  have hnil : rest = [] := List.eq_nil_of_length_eq_zero (by omega)
  rw [hnil, List.append_nil] at hperm
  exact hperm.mem_iff.2 (List.mem_filter.2 ⟨hr, by simpa using hsince⟩)

theorem length_le (h : OldestPage time records since limit page) :
    page.length ≤ records.length := by
  obtain ⟨-, -, hlength, -, -⟩ := h
  have hfilter := List.length_filter_le (fun r => decide (since ≤ time r)) records
  omega

end OldestPage

/-! ## One turn of the loop -/

namespace Sync

variable {σ ρ : Type}

/-- What one turn of the loop comes to. -/
inductive Turn (σ ρ : Type) where
  /-- The loop ends and nothing is written. -/
  | stop (result : Outcome SyncError Unit) (s : σ)
  /-- The rows are written, and the loop ends well. -/
  | last (rows : List ρ) (s : σ)
  /-- The rows are written, and more may follow. -/
  | more (rows : List ρ) (newest : Timestamp) (s : σ)

/-- The turn of the loop at a cursor. -/
def turn (around : Surroundings σ) (history : History σ ρ) (cursor : Timestamp)
    (limit : Nat) (s : σ) : Turn σ ρ :=
  if around.stopped s then .stop (.error .cancelled) s
  else
    match history.fetch cursor limit s with
    | (.failed cause, s) => .stop (.error (.exchange cause)) s
    | (.interrupted, s) => .stop (.error .cancelled) s
    | (.overflow, s) => .stop .overflow s
    | (.page rows, s) =>
      match latest? (rows.map history.time) with
      | none => .stop (.ok ()) s
      | some newest =>
        match around.refusal history.writeCall s with
        | (some reason, s) => .stop (.error (.store reason)) s
        | (none, s) => if rows.length < limit then .last rows s else .more rows newest s

theorem pages_succ (around : Surroundings σ) (history : History σ ρ)
    (pageLimit steps : Nat) (cursor : Timestamp) (limit : Nat) (store : Store) (s : σ) :
    pages around history pageLimit (steps + 1) cursor limit store s =
      match turn around history cursor limit s with
      | .stop result s => (result, store, s)
      | .last rows s => (.ok (), history.write rows store, s)
      | .more rows newest s =>
        let next := nextPage cursor newest limit pageLimit
        pages around history pageLimit steps next.1 next.2 (history.write rows store) s := by
  rw [pages, turn]
  by_cases hstop : around.stopped s = true
  · rw [if_pos hstop, if_pos hstop]
  · rw [if_neg hstop, if_neg hstop]
    rcases history.fetch cursor limit s with ⟨rows | cause | _ | _, s₁⟩
    case page =>
      cases hlatest : latest? (rows.map history.time) with
      | none => simp only [hlatest]
      | some newest =>
          simp only [hlatest]
          rcases around.refusal history.writeCall s₁ with ⟨_ | reason, s₂⟩
          · by_cases hshort : rows.length < limit <;> simp only [hshort, if_true, if_false]
          · rfl
    all_goals rfl

end Sync

/-! ## Turns where the promise is kept -/

/-- An exchange keeps its promise about some records while the world stays where
`inv` holds, and neither it nor the store's failures lead out of there. -/
structure Serving {σ ρ : Type} (around : Surroundings σ) (history : History σ ρ)
    (records : List ρ) (inv : σ → Prop) : Prop where
  page : ∀ {since limit s rows s'}, inv s →
    history.fetch since limit s = (.page rows, s') →
    OldestPage history.time records since limit rows
  fetch : ∀ since limit s, inv s → inv (history.fetch since limit s).2
  refusal : ∀ call s, inv s → inv (around.refusal call s).2

namespace Serving

open Sync

variable {σ ρ : Type} {around : Surroundings σ} {history : History σ ρ}
  {records : List ρ} {inv : σ → Prop}

/-- What a turn of the loop means where the promise is kept. -/
theorem turn_spec (h : Serving around history records inv) (cursor : Timestamp)
    {limit : Nat} (hlimit : 1 ≤ limit) {s : σ} (hs : inv s) :
    match turn around history cursor limit s with
    | .stop result s' => inv s' ∧ result ≠ .exhausted ∧
        (result = .ok () → ∀ r ∈ records, ¬ cursor ≤ history.time r)
    | .last rows s' => inv s' ∧ OldestPage history.time records cursor limit rows ∧
        rows.length < limit
    | .more rows newest s' => inv s' ∧
        OldestPage history.time records cursor limit rows ∧ limit ≤ rows.length ∧
        (∃ r ∈ rows, history.time r = newest) ∧ ∀ r ∈ rows, history.time r ≤ newest := by
  rw [turn]
  by_cases hstop : around.stopped s = true
  · rw [if_pos hstop]
    simp [hs]
  · rw [if_neg hstop]
    have hinv := h.fetch cursor limit s hs
    rcases hfetch : history.fetch cursor limit s with ⟨rows | cause | _ | _, s₁⟩
    case page =>
      have hpage := h.page hs hfetch
      rw [hfetch] at hinv
      cases hlatest : latest? (rows.map history.time) with
      | none =>
          simp only [hlatest]
          have hnil : rows = [] := List.map_eq_nil_iff.1 (latest?_eq_none.1 hlatest)
          refine ⟨hinv, by simp, fun _ r hr hsince => ?_⟩
          have hmem := hpage.mem_of_short (by simp [hnil]; omega) hr hsince
          simp [hnil] at hmem
      | some newest =>
          simp only [hlatest]
          obtain ⟨hnewest, hle⟩ := latest?_eq_some hlatest
          have hinv₂ := h.refusal history.writeCall s₁ hinv
          rcases hrefusal : around.refusal history.writeCall s₁ with ⟨_ | reason, s₂⟩
          · rw [hrefusal] at hinv₂
            by_cases hshort : rows.length < limit
            · simp only [hshort, if_true]
              exact ⟨hinv₂, hpage, trivial⟩
            · simp only [hshort, if_false]
              refine ⟨hinv₂, hpage, by omega, List.mem_map.1 hnewest, fun r hr => ?_⟩
              exact hle _ (List.mem_map_of_mem hr)
          · rw [hrefusal] at hinv₂
            exact ⟨hinv₂, by simp, by simp⟩
    all_goals
      rw [hfetch] at hinv
      exact ⟨hinv, by simp, by simp⟩

end Serving

/-! ## What is written -/

namespace History

variable {σ ρ : Type}

/-- Writes some pages one after the other. -/
def writeAll (history : History σ ρ) (written : List (List ρ)) (store : Store) : Store :=
  written.foldl (fun store rows => history.write rows store) store

/-- Writing pages of fills comes to writing all their fills at once. -/
theorem writeAll_trades (exchange : Exchange σ) (symbol : String)
    (written : List (List Trade)) (store : Store) :
    (trades exchange symbol).writeAll written store =
      store.insertTrades written.flatten := by
  induction written generalizing store with
  | nil => rfl
  | cons rows written ih =>
      rw [List.flatten_cons, Store.insertTrades, List.foldl_append]
      exact ih _

theorem writeAll_orders (exchange : Exchange σ) (symbol : String)
    (written : List (List Order)) (store : Store) :
    (orders exchange symbol).writeAll written store =
      store.upsertOrders written.flatten := by
  induction written generalizing store with
  | nil => rfl
  | cons rows written ih =>
      rw [List.flatten_cons, Store.upsertOrders, List.foldl_append]
      exact ih _

end History

/-- What a copy from a cursor on leaves behind, `written` being the pages that
were written: records from the cursor on, and none of them without those that are
older. After a good end no record is missing. -/
structure Copied {σ ρ : Type} (history : History σ ρ) (records : List ρ)
    (inv : σ → Prop) (cursor : Timestamp) (store : Store) (written : List (List ρ))
    (ended : Outcome SyncError Unit × Store × σ) : Prop where
  store_eq : ended.2.1 = history.writeAll written store
  world : inv ended.2.2
  sound : ∀ r ∈ written.flatten, r ∈ records ∧ cursor ≤ history.time r
  rest : ∀ r ∈ records, cursor ≤ history.time r → r ∉ written.flatten →
    ended.1 ≠ .ok () ∧ ∀ w ∈ written.flatten, history.time w ≤ history.time r

/-- A copy that ended well wrote the records from the cursor on, all of them. -/
theorem Copied.mem_iff {σ ρ : Type} {history : History σ ρ} {records : List ρ}
    {inv : σ → Prop} {cursor : Timestamp} {store : Store} {written : List (List ρ)}
    {ended : Outcome SyncError Unit × Store × σ}
    (h : Copied history records inv cursor store written ended) (hok : ended.1 = .ok ())
    {r : ρ} : r ∈ written.flatten ↔ r ∈ records ∧ cursor ≤ history.time r := by
  refine ⟨h.sound r, fun ⟨hr, hsince⟩ => ?_⟩
  by_contra hout
  exact (h.rest r hr hsince hout).1 hok

namespace Sync

variable {σ ρ : Type} {around : Surroundings σ} {history : History σ ρ}

/-- A run begins no later than a record that is neither before the start nor older
than a stored one. -/
theorem resumePoint_le_iff {start t : Timestamp} {newest : Option Timestamp} :
    resumePoint start newest ≤ t ↔ start ≤ t ∧ ∀ last ∈ newest, last ≤ t := by
  cases newest with
  | none => simp [resumePoint]
  | some last =>
      have hmax : resumePoint start (some last) = max start last :=
        Timestamp.later_eq_max start last
      rw [hmax, max_le_iff]
      simp

theorem one_le_nextPage {cursor newest : Timestamp} {limit pageLimit : Nat}
    (hlimit : 1 ≤ limit) (hpage : 1 ≤ pageLimit) :
    1 ≤ (nextPage cursor newest limit pageLimit).2 := by
  unfold nextPage
  split
  · exact hpage
  · show 1 ≤ min (2 * limit) greatestLimit
    have : 1 ≤ greatestLimit := by decide
    omega

theorem nextPage_le {cursor newest : Timestamp} (limit pageLimit : Nat)
    (h : cursor ≤ newest) : cursor ≤ (nextPage cursor newest limit pageLimit).1 ∧
      (nextPage cursor newest limit pageLimit).1 ≤ newest := by
  unfold nextPage
  split
  · exact ⟨h, le_refl _⟩
  · exact ⟨le_refl _, h⟩

end Sync

namespace Serving

open Sync

variable {σ ρ : Type} {around : Surroundings σ} {history : History σ ρ}
  {records : List ρ} {inv : σ → Prop}

theorem pages_written (h : Serving around history records inv) {pageLimit : Nat}
    (hpageLimit : 1 ≤ pageLimit) (steps : Nat) (cursor : Timestamp) {limit : Nat}
    (hlimit : 1 ≤ limit) (store : Store) {s : σ} (hs : inv s) :
    ∃ written, Copied history records inv cursor store written
      (pages around history pageLimit steps cursor limit store s) := by
  induction steps generalizing cursor limit store s with
  | zero =>
      refine ⟨[], rfl, hs, by simp, fun r _ _ _ => ⟨?_, by simp⟩⟩
      simp [pages]
  | succ steps ih =>
      have hturn := h.turn_spec cursor hlimit hs
      rw [pages_succ]
      cases hcase : turn around history cursor limit s with
      | stop result s' =>
          rw [hcase] at hturn
          obtain ⟨hinv, -, hdone⟩ := hturn
          refine ⟨[], rfl, hinv, by simp, fun r hr hsince _ => ⟨?_, by simp⟩⟩
          exact fun hok => hdone hok r hr hsince
      | last rows s' =>
          rw [hcase] at hturn
          obtain ⟨hinv, hpage, hshort⟩ := hturn
          refine ⟨[rows], rfl, hinv, ?_, fun r hr hsince hout => ?_⟩
          · intro r hr
            exact hpage.mem_records (by simpa using hr)
          · exact absurd (by simpa using hpage.mem_of_short hshort hr hsince) hout
      | more rows newest s' =>
          rw [hcase] at hturn
          obtain ⟨hinv, hpage, -, ⟨top, htop, rfl⟩, hle⟩ := hturn
          have hcursor : cursor ≤ history.time top := (hpage.mem_records htop).2
          obtain ⟨hnext, hnext'⟩ := nextPage_le limit pageLimit hcursor
          obtain ⟨written, hstore, hworld, hsound, hrest⟩ :=
            ih (nextPage cursor (history.time top) limit pageLimit).1
              (one_le_nextPage hlimit hpageLimit) (history.write rows store) hinv
          refine ⟨rows :: written, hstore, hworld, fun r hr => ?_,
            fun r hr hsince hout => ?_⟩
          · rcases List.mem_append.1 (List.flatten_cons ▸ hr) with hr | hr
            · exact hpage.mem_records hr
            · exact ⟨(hsound r hr).1, le_trans hnext (hsound r hr).2⟩
          · -- A record that the page leaves out is no older than the page, so the
            -- next cursor does not pass it by.
            rw [List.flatten_cons, List.mem_append, not_or] at hout
            have hpast := fun p hp => hpage.le_of_not_mem (p := p) hp hr hsince hout.1
            obtain ⟨hbad, hlater⟩ :=
              hrest r hr (le_trans hnext' (hpast top htop)) hout.2
            refine ⟨hbad, fun w hw => ?_⟩
            rcases List.mem_append.1 (List.flatten_cons ▸ hw) with hw | hw
            · exact hpast w hw
            · exact hlater w hw

end Serving

/-! ## The loop ends -/

namespace Sync

variable {σ ρ : Type} {around : Surroundings σ} {history : History σ ρ}

/-- An end that was reached is the end for any larger number of steps. -/
theorem pages_mono {pageLimit n m : Nat} (hle : n ≤ m) {cursor : Timestamp}
    {limit : Nat} {store : Store} {s : σ}
    (hend : (pages around history pageLimit n cursor limit store s).1 ≠ .exhausted) :
    pages around history pageLimit m cursor limit store s =
      pages around history pageLimit n cursor limit store s := by
  induction n generalizing m cursor limit store s with
  | zero => exact absurd rfl hend
  | succ n ih =>
      obtain ⟨k, rfl⟩ : ∃ k, m = k + 1 := ⟨m - 1, by omega⟩
      rw [pages_succ] at hend ⊢
      rw [pages_succ]
      cases hcase : turn around history cursor limit s with
      | stop result s' => rfl
      | last rows s' => rfl
      | more rows newest s' =>
          rw [hcase] at hend
          exact ih (by omega) hend

theorem run_mono {pageLimit n m : Nat} (hle : n ≤ m) {start : Timestamp} {store : Store}
    {s : σ} (hend : (run around history pageLimit n start store s).1 ≠ .exhausted) :
    run around history pageLimit m start store s =
      run around history pageLimit n start store s := by
  unfold run at hend ⊢
  rcases hrefusal : around.refusal history.newestCall s with ⟨_ | reason, s'⟩
  · rw [hrefusal] at hend
    exact pages_mono hle hend
  · rfl

/-- The records past an instant. -/
def past (history : History σ ρ) (records : List ρ) (cursor : Timestamp) : Nat :=
  (records.filter fun r => cursor < history.time r).length

/-- How much a copy has yet to do where no page is longer than `bound`: records past the
cursor, each weighing more than all widenings of a page at one instant, and the
widenings left at this one. -/
def weightWithin (history : History σ ρ) (records : List ρ) (bound : Nat)
    (cursor : Timestamp) (limit : Nat) : Nat :=
  past history records cursor * (bound + 2) + (bound + 1 - limit)

/-- So many turns are enough for `n` records where no page is longer than `bound`. -/
def enoughPagesWithin (n bound : Nat) : Nat :=
  n * (bound + 2) + (bound + 2)

theorem weightWithin_lt (history : History σ ρ) (records : List ρ) (bound : Nat)
    (cursor : Timestamp) (limit : Nat) :
    weightWithin history records bound cursor limit < enoughPagesWithin records.length bound := by
  have hpast : past history records cursor ≤ records.length := List.length_filter_le _ _
  have hmul := Nat.mul_le_mul_right (bound + 2) hpast
  unfold weightWithin enoughPagesWithin
  omega

/-- So many turns are enough for any history of `n` records, of which no page has more. -/
def enoughPages (n : Nat) : Nat :=
  enoughPagesWithin n n

theorem enoughPages_mono {n m : Nat} (h : n ≤ m) : enoughPages n ≤ enoughPages m := by
  have hmul := Nat.mul_le_mul h (Nat.add_le_add_right h 2)
  unfold enoughPages enoughPagesWithin
  omega

theorem past_lt_past {records : List ρ} {cursor newest : Timestamp} {r : ρ}
    (hr : r ∈ records) (htime : history.time r = newest) (hlt : cursor < newest) :
    past history records newest < past history records cursor := by
  have hnested : records.filter (fun r => decide (newest < history.time r)) =
      (records.filter fun r => decide (cursor < history.time r)).filter
        fun r => decide (newest < history.time r) := by
    rw [List.filter_filter]
    refine List.filter_congr fun x _ => ?_
    by_cases hx : newest < history.time x
    · simp [hx, lt_trans hlt hx]
    · simp [hx]
  unfold past
  rw [hnested, List.length_filter_lt_length_iff_exists]
  exact ⟨r, List.mem_filter.2 ⟨hr, by simpa [htime] using hlt⟩, by simp [htime]⟩

/-- A full page brings the loop nearer to its end: it moves the cursor past a record
or widens the next page. -/
theorem weightWithin_nextPage_lt {records rows : List ρ} {bound : Nat}
    {cursor newest : Timestamp} {limit pageLimit : Nat} (hbound : bound < greatestLimit)
    (hlimit : 1 ≤ limit) (hpageLimit : 1 ≤ pageLimit) (hlength : rows.length ≤ bound)
    (hfull : limit ≤ rows.length) {r : ρ} (hr : r ∈ records)
    (htime : history.time r = newest) :
    weightWithin history records bound (nextPage cursor newest limit pageLimit).1
        (nextPage cursor newest limit pageLimit).2 <
      weightWithin history records bound cursor limit := by
  unfold weightWithin nextPage
  split
  · next hlt =>
      have hpast := past_lt_past hr htime hlt
      have hmul := Nat.mul_le_mul_right (bound + 2) (Nat.succ_le_of_lt hpast)
      rw [Nat.succ_mul] at hmul
      dsimp only
      omega
  · dsimp only
    omega

end Sync

namespace Serving

open Sync

variable {σ ρ : Type} {around : Surroundings σ} {history : History σ ρ}
  {records : List ρ} {inv : σ → Prop}

theorem pages_settles (h : Serving around history records inv)
    (hfew : records.length < greatestLimit) {pageLimit : Nat}
    (hpageLimit : 1 ≤ pageLimit) (steps : Nat) (cursor : Timestamp) {limit : Nat}
    (hlimit : 1 ≤ limit) (store : Store) {s : σ} (hs : inv s)
    (hsteps : weightWithin history records records.length cursor limit < steps) :
    (pages around history pageLimit steps cursor limit store s).1 ≠ .exhausted := by
  induction steps generalizing cursor limit store s with
  | zero => exact absurd hsteps (Nat.not_lt_zero _)
  | succ steps ih =>
      have hturn := h.turn_spec cursor hlimit hs
      rw [pages_succ]
      cases hcase : turn around history cursor limit s with
      | stop result s' =>
          rw [hcase] at hturn
          exact hturn.2.1
      | last rows s' => simp
      | more rows newest s' =>
          rw [hcase] at hturn
          obtain ⟨hinv, hpage, hfull, ⟨top, htop, htime⟩, -⟩ := hturn
          have hless : weightWithin history records records.length
                (nextPage cursor newest limit pageLimit).1
                (nextPage cursor newest limit pageLimit).2 <
              weightWithin history records records.length cursor limit :=
            weightWithin_nextPage_lt hfew hlimit hpageLimit hpage.length_le hfull
              (hpage.mem_records htop).1 htime
          exact ih _ (one_le_nextPage hlimit hpageLimit) _ hinv (by omega)

/-! ## A whole run -/

/-- A run ends within a number of pages that depends on the length of the history
alone, and leaves behind what a copy from the resume point on leaves. -/
theorem run_copied (h : Serving around history records inv) (pageLimit steps : Nat)
    (start : Timestamp) (store : Store) {s : σ} (hs : inv s) :
    ∃ written, Copied history records inv (resumePoint start (history.newest store))
      store written (run around history pageLimit steps start store s) := by
  unfold run
  have hinv := h.refusal history.newestCall s hs
  rcases hrefusal : around.refusal history.newestCall s with ⟨_ | reason, s'⟩
  · rw [hrefusal] at hinv
    exact h.pages_written (by omega) steps _ (by omega) store hinv
  · rw [hrefusal] at hinv
    exact ⟨[], rfl, hinv, by simp, fun r _ _ _ => ⟨by simp, by simp⟩⟩

theorem run_settles (h : Serving around history records inv)
    (hfew : records.length < greatestLimit) (pageLimit : Nat) (start : Timestamp)
    (store : Store) {s : σ} (hs : inv s) :
    ∃ ended, ended.1 ≠ .exhausted ∧ ∀ steps, enoughPages records.length ≤ steps →
      run around history pageLimit steps start store s = ended := by
  have hends : (run around history pageLimit (enoughPages records.length) start store
      s).1 ≠ .exhausted := by
    unfold run
    have hinv := h.refusal history.newestCall s hs
    rcases hrefusal : around.refusal history.newestCall s with ⟨_ | reason, s'⟩
    · rw [hrefusal] at hinv
      exact h.pages_settles hfew (by omega) _ _ (by omega) store hinv
        (weightWithin_lt history records _ _ _)
    · simp
  exact ⟨_, hends, fun steps hsteps => run_mono hsteps hends⟩

end Serving

end Tradebook
