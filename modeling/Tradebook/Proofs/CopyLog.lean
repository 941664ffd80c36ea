import Mathlib
import Tradebook.Proofs.Desk

/-!
# What a copy does, whatever it meets

`SyncPages` reads the loop against an exchange that keeps its promise. Here nothing
is promised: a page may be longer than asked for, out of order, older than the
cursor, and any request may fail. What is left is what the loop itself sees to.

To say it, the surroundings and the history write down each request with its answer
(`recorded`), and `copy_is_orderly` is about that log. Page after page is asked for
and stored; whatever goes wrong is the last entry, and the store has the pages
before it. The cursor never goes back. Each further request at one cursor asks for
twice as much as the one before it (`Paced` is that rule for one request and the
next, `Paced.width` what it comes to along a log).

`pages_ends` is the measure: as long as the records come from a finite pool and
no page grows with what is asked for, only so many pages can be full.
-/

namespace Tradebook

/-- A request of a copy and its answer, that to an exchange with the world in which it was
made. -/
inductive SyncEvent (σ ρ : Type) where
  | asked (world : σ) (since : Timestamp) (limit : Nat) (answer : Fetched ρ)
  | requested (call : StoreCall) (refusal : Option String)

/-- Where a page was asked for from, and how many records. -/
def SyncEvent.query? {σ ρ : Type} : SyncEvent σ ρ → Option (Timestamp × Nat)
  | asked _ since limit _ => some (since, limit)
  | requested _ _ => none

/-- A request to an exchange was not made after the signal to stop. -/
def SyncEvent.Unstopped {σ ρ : Type} (around : Surroundings σ) : SyncEvent σ ρ → Prop
  | asked world _ _ _ => around.stopped world = false
  | requested _ _ => True

/-- The same surroundings, writing down what is requested of the store. -/
def Surroundings.recorded {σ : Type} (around : Surroundings σ) (ρ : Type) :
    Surroundings (σ × List (SyncEvent σ ρ)) where
  stopped s := around.stopped s.1
  refusal call s :=
    let answer := around.refusal call s.1
    (answer.1, answer.2, s.2 ++ [.requested call answer.1])

/-- The same history, writing down what is asked of the exchange. -/
def History.recorded {σ ρ : Type} (history : History σ ρ) :
    History (σ × List (SyncEvent σ ρ)) ρ where
  fetch since limit s :=
    let answer := history.fetch since limit s.1
    (answer.1, answer.2, s.2 ++ [.asked s.1 since limit answer.1])
  time := history.time
  newest := history.newest
  write := history.write
  newestCall := history.newestCall
  writeCall := history.writeCall

namespace Sync

variable {σ ρ : Type}

/-- A page that was asked for and stored. -/
structure StoredPage (σ ρ : Type) where
  world : σ
  since : Timestamp
  limit : Nat
  rows : List ρ

def StoredPage.events (history : History σ ρ) (p : StoredPage σ ρ) : List (SyncEvent σ ρ) :=
  [.asked p.world p.since p.limit (.page p.rows), .requested history.writeCall none]

/-- The ends of a copy that come without a page being stored, with the last requests. -/
inductive Stop (around : Surroundings σ) (history : History σ ρ) :
    Outcome SyncError Unit → List (SyncEvent σ ρ) → σ → Prop
  | signal {s : σ} (hstopped : around.stopped s = true) :
      Stop around history (.error .cancelled) [] s
  | interrupted (world : σ) (since : Timestamp) (limit : Nat) {s : σ} :
      Stop around history (.error .cancelled) [.asked world since limit .interrupted] s
  | failed (world : σ) (since : Timestamp) (limit : Nat) (cause : ExchangeError) {s : σ} :
      Stop around history (.error (.exchange cause))
        [.asked world since limit (.failed cause)] s
  | overflow (world : σ) (since : Timestamp) (limit : Nat) {s : σ} :
      Stop around history .overflow [.asked world since limit .overflow] s
  | nothing (world : σ) (since : Timestamp) (limit : Nat) {s : σ} :
      Stop around history (.ok ()) [.asked world since limit (.page [])] s
  | refused (world : σ) (since : Timestamp) (limit : Nat) (rows : List ρ) (reason : String)
      {s : σ} (hrows : rows ≠ []) :
      Stop around history (.error (.store reason))
        [.asked world since limit (.page rows),
          .requested history.writeCall (some reason)] s

/-- The queries of a log, the first one first. -/
def queries (log : List (SyncEvent σ ρ)) : List (Timestamp × Nat) :=
  log.filterMap SyncEvent.query?

/-- From one query to the next the cursor stays and the size doubles, or the cursor goes
forward and the size is that of a page again. -/
inductive Paced (pageLimit : Nat) : Timestamp → Nat → List (Timestamp × Nat) → Prop
  | none {cursor : Timestamp} {limit : Nat} : Paced pageLimit cursor limit []
  | stay {cursor : Timestamp} {limit : Nat} {rest : List (Timestamp × Nat)}
      (hrest : Paced pageLimit cursor (min (2 * limit) greatestLimit) rest) :
      Paced pageLimit cursor limit ((cursor, limit) :: rest)
  | move {cursor next : Timestamp} {limit : Nat} {rest : List (Timestamp × Nat)}
      (hlt : cursor < next) (hrest : Paced pageLimit next pageLimit rest) :
      Paced pageLimit cursor limit ((cursor, limit) :: rest)

/-! ## One turn, written down -/

theorem turn_log (around : Surroundings σ) (history : History σ ρ) (cursor : Timestamp)
    (limit : Nat) (s : σ) (log : List (SyncEvent σ ρ)) :
    match turn around history cursor limit s with
    | .stop result s' => ∃ events,
        turn (around.recorded ρ) history.recorded cursor limit (s, log) =
          .stop result (s', log ++ events) ∧
        Stop around history result events s' ∧ (∀ e ∈ events, e.Unstopped around) ∧
        (queries events = [] ∨ queries events = [(cursor, limit)])
    | .last rows s' =>
        turn (around.recorded ρ) history.recorded cursor limit (s, log) =
          .last rows (s', log ++ StoredPage.events history ⟨s, cursor, limit, rows⟩) ∧
        around.stopped s = false ∧ rows.length < limit
    | .more rows newest s' =>
        turn (around.recorded ρ) history.recorded cursor limit (s, log) =
          .more rows newest (s', log ++ StoredPage.events history ⟨s, cursor, limit, rows⟩) ∧
        around.stopped s = false ∧ limit ≤ rows.length ∧ newest ∈ rows.map history.time := by
  rw [turn, turn]
  by_cases hstop : around.stopped s = true
  · have hstop' : (around.recorded ρ).stopped (s, log) = true := hstop
    rw [if_pos hstop, if_pos hstop']
    exact ⟨[], by simp, .signal hstop, by simp, Or.inl rfl⟩
  · have hstop' : ¬ (around.recorded ρ).stopped (s, log) = true := hstop
    rw [if_neg hstop, if_neg hstop']
    have hunstopped : around.stopped s = false := by simpa using hstop
    simp only [History.recorded]
    rcases hfetch : history.fetch cursor limit s with ⟨rows | cause | _ | _, s₁⟩
    case page =>
      cases hlatest : latest? (rows.map history.time) with
      | none =>
          have hnil : rows = [] := List.map_eq_nil_iff.1 (latest?_eq_none.1 hlatest)
          subst hnil
          simp only [hlatest]
          exact ⟨_, rfl, .nothing s cursor limit, by simpa [SyncEvent.Unstopped],
            Or.inr rfl⟩
      | some newest =>
          have hnewest := (latest?_eq_some hlatest).1
          simp only [hlatest, Surroundings.recorded]
          rcases hrefusal : around.refusal history.writeCall s₁ with ⟨_ | reason, s₂⟩
          · by_cases hshort : rows.length < limit
            · simp only [hshort, if_true]
              exact ⟨by simp [StoredPage.events], hunstopped, trivial⟩
            · simp only [hshort, if_false]
              exact ⟨by simp [StoredPage.events], hunstopped, by omega, hnewest⟩
          · have hrows : rows ≠ [] := by
              rintro rfl
              simp at hnewest
            refine ⟨_, by rw [List.append_assoc]; rfl, .refused s cursor limit rows reason hrows,
              ?_, Or.inr rfl⟩
            simpa [SyncEvent.Unstopped]
    case failed =>
      exact ⟨_, rfl, .failed s cursor limit cause, by simpa [SyncEvent.Unstopped], Or.inr rfl⟩
    case interrupted =>
      exact ⟨_, rfl, .interrupted s cursor limit, by simpa [SyncEvent.Unstopped], Or.inr rfl⟩
    case overflow =>
      exact ⟨_, rfl, .overflow s cursor limit, by simpa [SyncEvent.Unstopped], Or.inr rfl⟩

/-! ## The loop, written down -/

/-- How a copy that has stored some pages comes to its end: the last of them was short, or it
stops before another one is stored, or it has had all the pages it was allowed. -/
def Ended (around : Surroundings σ) (history : History σ ρ) (steps : Nat)
    (result : Outcome SyncError Unit) (stored : List (StoredPage σ ρ))
    (last : List (SyncEvent σ ρ)) (s : σ) : Prop :=
  (result = .ok () ∧ last = [] ∧ ∃ p ∈ stored.getLast?, p.rows.length < p.limit) ∨
    Stop around history result last s ∨
    (result = .exhausted ∧ last = [] ∧ stored.length = steps)

/-- How a copy from a cursor on went: the pages it stored, and its last requests. -/
structure Went (around : Surroundings σ) (history : History σ ρ) (pageLimit steps : Nat)
    (cursor : Timestamp) (limit : Nat) (result : Outcome SyncError Unit)
    (stored : List (StoredPage σ ρ)) (last : List (SyncEvent σ ρ)) (s : σ) : Prop where
  ended : Ended around history steps result stored last s
  unstopped : ∀ e ∈ stored.flatMap (StoredPage.events history) ++ last, e.Unstopped around
  paced : Paced pageLimit cursor limit
    (queries (stored.flatMap (StoredPage.events history) ++ last))

theorem queries_append (log log' : List (SyncEvent σ ρ)) :
    queries (log ++ log') = queries log ++ queries log' :=
  List.filterMap_append ..

theorem queries_events (history : History σ ρ) (p : StoredPage σ ρ) :
    queries (p.events history) = [(p.since, p.limit)] := rfl

theorem unstopped_events {around : Surroundings σ} (history : History σ ρ)
    {p : StoredPage σ ρ} (h : around.stopped p.world = false) :
    ∀ e ∈ p.events history, e.Unstopped around := by
  intro e he
  rcases List.mem_pair.1 he with rfl | rfl
  · exact h
  · trivial

/-- One more page before the others. -/
theorem Went.cons {around : Surroundings σ} {history : History σ ρ} {pageLimit steps : Nat}
    {newest : Timestamp} {result : Outcome SyncError Unit} {p : StoredPage σ ρ}
    {stored : List (StoredPage σ ρ)} {last : List (SyncEvent σ ρ)} {s : σ}
    (hunstopped : around.stopped p.world = false)
    (h : Went around history pageLimit steps (nextPage p.since newest p.limit pageLimit).1
      (nextPage p.since newest p.limit pageLimit).2 result stored last s) :
    Went around history pageLimit (steps + 1) p.since p.limit result (p :: stored) last s := by
  constructor
  case ended =>
    rcases h.ended with ⟨hok, hlast, q, hq, hshort⟩ | hstop | ⟨hexhausted, hlast, hlength⟩
    · refine Or.inl ⟨hok, hlast, q, ?_, hshort⟩
      rw [List.getLast?_cons, Option.mem_def.1 hq]
      rfl
    · exact Or.inr (Or.inl hstop)
    · refine Or.inr (Or.inr ⟨hexhausted, hlast, ?_⟩)
      rw [List.length_cons, hlength]
  case unstopped =>
    intro e he
    rw [List.flatMap_cons, List.append_assoc] at he
    rcases List.mem_append.1 he with he | he
    · exact unstopped_events history hunstopped e he
    · exact h.unstopped e he
  case paced =>
    have hpaced := h.paced
    rw [List.flatMap_cons, List.append_assoc, queries_append, queries_events]
    unfold nextPage at hpaced
    split at hpaced
    · next hlt => exact .move hlt hpaced
    · exact .stay hpaced

theorem pages_log (around : Surroundings σ) (history : History σ ρ) (pageLimit steps : Nat)
    (cursor : Timestamp) (limit : Nat) (store : Store) (s : σ) (log : List (SyncEvent σ ρ)) :
    ∃ result stored last s',
      pages around history pageLimit steps cursor limit store s =
        (result, history.writeAll (stored.map StoredPage.rows) store, s') ∧
      pages (around.recorded ρ) history.recorded pageLimit steps cursor limit store (s, log) =
        (result, history.writeAll (stored.map StoredPage.rows) store, s',
          log ++ (stored.flatMap (StoredPage.events history) ++ last)) ∧
      Went around history pageLimit steps cursor limit result stored last s' := by
  induction steps generalizing cursor limit store s log with
  | zero =>
      refine ⟨.exhausted, [], [], s, rfl, ?_, ⟨Or.inr (Or.inr ⟨rfl, rfl, rfl⟩), ?_, .none⟩⟩
      · simp [pages, History.writeAll]
      · simp
  | succ steps ih =>
      have hturn := turn_log around history cursor limit s log
      rw [pages_succ, pages_succ]
      cases hcase : turn around history cursor limit s with
      | stop result s' =>
          rw [hcase] at hturn
          obtain ⟨events, hrecorded, hstop, hunstopped, hqueries⟩ := hturn
          rw [hrecorded]
          refine ⟨result, [], events, s', rfl, by simp [History.writeAll],
            Or.inr (Or.inl hstop), hunstopped, ?_⟩
          rcases hqueries with hnone | hone
          · rw [List.flatMap_nil, List.nil_append, hnone]
            exact .none
          · rw [List.flatMap_nil, List.nil_append, hone]
            exact .stay .none
      | last rows s' =>
          rw [hcase] at hturn
          obtain ⟨hrecorded, hunstopped, hshort⟩ := hturn
          rw [hrecorded]
          let p : StoredPage σ ρ := ⟨s, cursor, limit, rows⟩
          refine ⟨.ok (), [p], [], s', rfl, ?_, ?_, ?_, ?_⟩
          · simp only [List.flatMap_singleton, List.append_nil]
            rfl
          · exact Or.inl ⟨rfl, rfl, p, rfl, hshort⟩
          · simpa using unstopped_events history (p := p) hunstopped
          · show Paced pageLimit cursor limit [(cursor, limit)]
            exact .stay .none
      | more rows newest s' =>
          rw [hcase] at hturn
          obtain ⟨hrecorded, hunstopped, -, -⟩ := hturn
          rw [hrecorded]
          let p : StoredPage σ ρ := ⟨s, cursor, limit, rows⟩
          obtain ⟨result, stored, last, s'', hplain, hlogged, hwent⟩ :=
            ih (nextPage cursor newest limit pageLimit).1
              (nextPage cursor newest limit pageLimit).2 (history.write rows store) s'
              (log ++ p.events history)
          refine ⟨result, p :: stored, last, s'', hplain, ?_, hwent.cons (p := p) hunstopped⟩
          rw [List.flatMap_cons, List.append_assoc, ← List.append_assoc log]
          exact hlogged

/-- However it goes, a copy only adds to what is written down. -/
theorem mem_pages_log {around : Surroundings σ} {history : History σ ρ}
    {pageLimit steps : Nat} {cursor : Timestamp} {limit : Nat} {store : Store} {s : σ}
    {log : List (SyncEvent σ ρ)} {e : SyncEvent σ ρ} (he : e ∈ log) :
    e ∈ (pages (around.recorded ρ) history.recorded pageLimit steps cursor limit store
      (s, log)).2.2.2 := by
  obtain ⟨result, stored, last, s', -, hlogged, -⟩ :=
    pages_log around history pageLimit steps cursor limit store s log
  rw [hlogged]
  exact List.mem_append_left _ he

/-! ## The pace of the queries -/

theorem Paced.cursor_le {pageLimit : Nat} {cursor : Timestamp} {limit : Nat}
    {asks : List (Timestamp × Nat)} (h : Paced pageLimit cursor limit asks) :
    ∀ q ∈ asks, cursor ≤ q.1 := by
  induction h with
  | none => simp
  | stay _ ih =>
      intro q hq
      rcases List.mem_cons.1 hq with rfl | hq
      · exact le_refl _
      · exact ih q hq
  | move hlt _ ih =>
      intro q hq
      rcases List.mem_cons.1 hq with rfl | hq
      · exact le_refl _
      · exact le_trans (le_of_lt hlt) (ih q hq)

/-- The cursor never goes back. -/
theorem Paced.rising {pageLimit : Nat} {cursor : Timestamp} {limit : Nat}
    {asks : List (Timestamp × Nat)} (h : Paced pageLimit cursor limit asks) :
    (asks.map Prod.fst).Pairwise (· ≤ ·) := by
  induction h with
  | none => exact List.Pairwise.nil
  | stay hrest ih =>
      refine List.pairwise_cons.2 ⟨fun t ht => ?_, ih⟩
      obtain ⟨q, hq, rfl⟩ := List.mem_map.1 ht
      exact hrest.cursor_le q hq
  | move hlt hrest ih =>
      refine List.pairwise_cons.2 ⟨fun t ht => ?_, ih⟩
      obtain ⟨q, hq, rfl⟩ := List.mem_map.1 ht
      exact le_trans (le_of_lt hlt) (hrest.cursor_le q hq)

theorem Paced.head {pageLimit : Nat} {cursor : Timestamp} {limit : Nat}
    {asks : List (Timestamp × Nat)} (h : Paced pageLimit cursor limit asks) :
    ∀ q ∈ asks.head?, q.1 = cursor := by
  cases h <;> simp

/-- How many queries at a cursor come last in a list of queries. -/
def streak (cursor : Timestamp) (asks : List (Timestamp × Nat)) : Nat :=
  (asks.rtakeWhile fun q => q.1 = cursor).length

theorem streak_concat (cursor : Timestamp) (asks : List (Timestamp × Nat)) (limit : Nat) :
    streak cursor (asks ++ [(cursor, limit)]) = streak cursor asks + 1 := by
  unfold streak
  rw [List.rtakeWhile_concat_pos _ _ _ (by simp), List.length_append]
  rfl

theorem streak_concat_of_ne {cursor next : Timestamp} (hne : cursor ≠ next)
    (asks : List (Timestamp × Nat)) (limit : Nat) :
    streak next (asks ++ [(cursor, limit)]) = 0 := by
  unfold streak
  rw [List.rtakeWhile_concat_neg _ _ _ (by simpa using hne)]
  rfl

/-- After `k` queries in a row at its cursor a query asks for `2 ^ k` pages, or for as many
records as a number can say. -/
theorem Paced.width {pageLimit : Nat} (hword : pageLimit ≤ greatestLimit)
    {cursor : Timestamp} {limit : Nat} {asks : List (Timestamp × Nat)}
    (h : Paced pageLimit cursor limit asks) (before : List (Timestamp × Nat))
    (hlimit : limit = min (pageLimit * 2 ^ streak cursor before) greatestLimit)
    {earlier later : List (Timestamp × Nat)} {q : Timestamp × Nat}
    (hasks : asks = earlier ++ q :: later) :
    q.2 = min (pageLimit * 2 ^ streak q.1 (before ++ earlier)) greatestLimit := by
  induction h generalizing before earlier with
  | none => simp at hasks
  | @stay cursor limit rest hrest ih =>
      cases earlier with
      | nil =>
          obtain ⟨rfl, -⟩ := List.cons.inj hasks
          simpa using hlimit
      | cons first earlier =>
          obtain ⟨rfl, hrest'⟩ := List.cons.inj hasks
          have hnext := @ih (before ++ [(cursor, limit)]) ?_ earlier hrest'
          · rwa [List.append_assoc] at hnext
          · rw [streak_concat, hlimit, Nat.pow_succ, ← Nat.mul_assoc]
            omega
  | @move cursor next limit rest hlt hrest ih =>
      cases earlier with
      | nil =>
          obtain ⟨rfl, -⟩ := List.cons.inj hasks
          simpa using hlimit
      | cons first earlier =>
          obtain ⟨rfl, hrest'⟩ := List.cons.inj hasks
          have hnext := @ih (before ++ [(cursor, limit)]) ?_ earlier hrest'
          · rwa [List.append_assoc] at hnext
          · rw [streak_concat_of_ne (ne_of_lt hlt)]
            omega

/-! ## The end -/

/-- All records of a log are in a pool, and no page of it is longer than `bound`. -/
def DrawnFrom (pool : List ρ) (bound : Nat) (log : List (SyncEvent σ ρ)) : Prop :=
  ∀ world since limit rows, .asked world since limit (.page rows) ∈ log →
    (∀ r ∈ rows, r ∈ pool) ∧ rows.length ≤ bound

/-- Each full page takes the cursor past a record of the pool or is one of the few that may
be asked for at one cursor before a page must come back short. -/
theorem pages_ends (around : Surroundings σ) (history : History σ ρ) {pool : List ρ}
    {bound : Nat} (hbound : bound < greatestLimit) {pageLimit : Nat}
    (hpageLimit : 1 ≤ pageLimit) (steps : Nat) (cursor : Timestamp) {limit : Nat}
    (hlimit : 1 ≤ limit) (store : Store) (s : σ) (log : List (SyncEvent σ ρ))
    (hpool : DrawnFrom pool bound (pages (around.recorded ρ) history.recorded pageLimit steps
      cursor limit store (s, log)).2.2.2)
    (hsteps : weightWithin history pool bound cursor limit < steps) :
    (pages around history pageLimit steps cursor limit store s).1 ≠ .exhausted := by
  induction steps generalizing cursor limit store s log with
  | zero => exact absurd hsteps (Nat.not_lt_zero _)
  | succ steps ih =>
      have hturn := turn_log around history cursor limit s log
      rw [pages_succ] at hpool ⊢
      cases hcase : turn around history cursor limit s with
      | stop result s' =>
          rw [hcase] at hturn
          obtain ⟨events, -, hstop, -, -⟩ := hturn
          cases hstop <;> simp
      | last rows s' => simp
      | more rows newest s' =>
          rw [hcase] at hturn
          obtain ⟨hrecorded, -, hfull, hnewest⟩ := hturn
          rw [hrecorded] at hpool
          obtain ⟨hrows, hlength⟩ := hpool s cursor limit rows
            (mem_pages_log (List.mem_append_right _ List.mem_cons_self))
          obtain ⟨top, htop, htime⟩ := List.mem_map.1 hnewest
          have hless : weightWithin history pool bound (nextPage cursor newest limit pageLimit).1
                (nextPage cursor newest limit pageLimit).2 <
              weightWithin history pool bound cursor limit :=
            weightWithin_nextPage_lt hbound hlimit hpageLimit hlength hfull (hrows top htop) htime
          exact ih _ (one_le_nextPage hlimit hpageLimit) _ s' _ hpool (by omega)

/-- Whatever the exchange answers and whatever fails, a copy of fills or of orders is
orderly. Its queries begin at the start or at the newest stored record, never go back, and
double in size as long as they stay; none comes after the signal to stop. Its log is the
look-up of the newest record, the pages that were stored, and what it stopped at, if
anything; its store holds those pages, in order. With records from a finite pool in pages
that do not grow it comes to an end. -/
theorem copy_is_orderly (around : Surroundings σ) (history : History σ ρ) {pageLimit : Nat}
    (hword : pageLimit ≤ greatestLimit) (steps : Nat) (start : Timestamp) (store : Store)
    (s : σ) :
    ∃ result stored log s',
      run around history pageLimit steps start store s =
        (result, history.writeAll (stored.map StoredPage.rows) store, s') ∧
      run (around.recorded ρ) history.recorded pageLimit steps start store (s, []) =
        (result, history.writeAll (stored.map StoredPage.rows) store, s', log) ∧
      (∀ q ∈ (queries log).head?, q.1 = (history.newest store).elim start (max start)) ∧
      ((queries log).map Prod.fst).Pairwise (· ≤ ·) ∧
      (∀ before q after, queries log = before ++ q :: after →
        q.2 = min (max 1 pageLimit * 2 ^ streak q.1 before) greatestLimit) ∧
      (∀ e ∈ log, e.Unstopped around) ∧
      ((∃ reason, log = [.requested history.newestCall (some reason)] ∧ stored = [] ∧
          result = .error (.store reason)) ∨
        ∃ last, log = .requested history.newestCall none ::
            (stored.flatMap (StoredPage.events history) ++ last) ∧
          Ended around history steps result stored last s') ∧
      (∀ pool bound, bound < greatestLimit → DrawnFrom pool bound log →
        enoughPagesWithin pool.length bound ≤ steps → result ≠ .exhausted) := by
  rcases hrefusal : around.refusal history.newestCall s with ⟨_ | reason, s₁⟩
  case some =>
    refine ⟨.error (.store reason), [], [.requested history.newestCall (some reason)], s₁,
      ?_, ?_, ?_, ?_, ?_, ?_, Or.inl ⟨reason, rfl, rfl, rfl⟩, ?_⟩
    · simp [run, hrefusal, History.writeAll]
    · simp [run, Surroundings.recorded, History.recorded, hrefusal, History.writeAll]
    · simp [queries, SyncEvent.query?]
    · exact List.Pairwise.nil
    · intro before q after hsplit
      have hnone : ([] : List (Timestamp × Nat)) = before ++ q :: after := hsplit
      simp at hnone
    · simp [SyncEvent.Unstopped]
    · simp
  case none =>
    let opening : SyncEvent σ ρ := .requested history.newestCall none
    have hlimit : 1 ≤ max 1 pageLimit := Nat.le_max_left 1 pageLimit
    have hword' : max 1 pageLimit ≤ greatestLimit := Nat.max_le.2 ⟨by decide, hword⟩
    obtain ⟨result, stored, last, s', hplain, hlogged, hwent⟩ :=
      pages_log around history (max 1 pageLimit) steps
        (resumePoint start (history.newest store)) (max 1 pageLimit) store s₁ [opening]
    have hplain' : run around history pageLimit steps start store s =
        (result, history.writeAll (stored.map StoredPage.rows) store, s') := by
      simp only [run, hrefusal]
      exact hplain
    have hlogged' : run (around.recorded ρ) history.recorded pageLimit steps start store
        (s, []) = (result, history.writeAll (stored.map StoredPage.rows) store, s',
          opening :: (stored.flatMap (StoredPage.events history) ++ last)) := by
      simp only [run, Surroundings.recorded, History.recorded, hrefusal]
      exact hlogged
    have hqueries : queries (opening :: (stored.flatMap (StoredPage.events history) ++ last)) =
        queries (stored.flatMap (StoredPage.events history) ++ last) := rfl
    refine ⟨result, stored, _, s', hplain', hlogged', ?_, ?_, ?_, ?_,
      Or.inr ⟨last, rfl, hwent.ended⟩, ?_⟩
    · rw [hqueries]
      intro q hq
      rw [hwent.paced.head q hq]
      cases history.newest store with
      | none => rfl
      | some newest => exact Timestamp.later_eq_max start newest
    · rw [hqueries]
      exact hwent.paced.rising
    · rw [hqueries]
      intro before q after hsplit
      have hfirst : max 1 pageLimit =
          min (max 1 pageLimit * 2 ^ streak (resumePoint start (history.newest store)) [])
            greatestLimit := by
        show _ = min (max 1 pageLimit * 2 ^ 0) greatestLimit
        omega
      exact hwent.paced.width hword' [] hfirst hsplit
    · intro e he
      rcases List.mem_cons.1 he with rfl | he
      · trivial
      · exact hwent.unstopped e he
    · intro pool bound hbound hpool hsteps
      have hends := pages_ends around history hbound hlimit steps
        (resumePoint start (history.newest store)) hlimit store s₁ [opening]
        (by rw [hlogged]; exact hpool)
        (lt_of_lt_of_le (weightWithin_lt history pool bound _ _) hsteps)
      rwa [hplain] at hends

/-! ## An unruly exchange -/

def unrulyFill (id : String) (instant : Timestamp) : Trade :=
  { id, exchange := "sim", symbol := "BTCUSDT", side := .buy, price := .zero
    quantity := .zero, fee := .zero, feeCurrency := "", isMaker := false, orderId := none
    tradedAt := instant }

/-- More fills than asked for and the newest first, then one that is older than asked for,
and then a failure. -/
def unruly : History Nat Trade where
  fetch _ _ turn :=
    match turn with
    | 0 => (.page [unrulyFill "2" Desk.minute, unrulyFill "1" .epoch], 1)
    | 1 => (.page [unrulyFill "1" .epoch], 2)
    | turn + 2 => (.failed (.other "gone"), turn + 2)
  time := Trade.tradedAt
  newest := Store.lastTradeTime "sim" "BTCUSDT"
  write := Store.insertTrades
  newestCall := .lastTradeTime
  writeCall := .insertTrades

abbrev unrulyRun : Outcome SyncError Unit × Store × Nat × List (SyncEvent Nat Trade) :=
  run (Desk.undisturbed.recorded Trade) unruly.recorded 1 5 .epoch .empty (0, [])

/-- The second page does not get any further, so the third is to hold two records. -/
theorem copy_is_orderly_unruly :
    queries unrulyRun.2.2.2 = [(.epoch, 1), (Desk.minute, 1), (Desk.minute, 2)] ∧
    unrulyRun.1 = .error (.exchange (.other "gone")) ∧ 1 ≤ greatestLimit ∧
    (∀ before q after, queries unrulyRun.2.2.2 = before ++ q :: after →
      q.2 = min (max 1 1 * 2 ^ streak q.1 before) greatestLimit) ∧
    ∃ stored : List (StoredPage Nat Trade),
      unrulyRun.2.1 = unruly.writeAll (stored.map StoredPage.rows) .empty := by
  have hword : 1 ≤ greatestLimit := by decide
  obtain ⟨result, stored, log, s', -, hlogged, -, -, hwidths, -⟩ :=
    copy_is_orderly Desk.undisturbed unruly hword 5 .epoch .empty 0
  have hrun : unrulyRun = (result, _, s', log) := hlogged
  refine ⟨by cbv, by cbv, hword, ?_, stored, ?_⟩
  · rw [hrun]
    exact hwidths
  · rw [hrun]

end Sync

end Tradebook
