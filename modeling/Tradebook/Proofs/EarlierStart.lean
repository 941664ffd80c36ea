import Mathlib
import Tradebook.Proofs.Desk

/-!
# Copies from one start after the other

A copy resumes at the newest fill that is stored, so it looks back no further than
that, whatever start it is given. The first copy that finds a fill has them all from
its start on, the newest of the history among them. From then on every copy resumes
at that newest fill and finds what is stored already. A later copy with an earlier
start does not fill the gap before.

`CopiedInTurn` are the runs of copies, with any starts in any order.
`stored_iff_since_first_found` says what such a run leaves in the store: the fills
from the start of the first copy on that found any. The fills between an earlier
start and that one are missing (`earlier_start_leaves_gap`).
-/

namespace Tradebook

open Sync

/-- Copies of the fills of a symbol, the first one into an empty store, that all ended well.
What happens between them is up to the world. -/
inductive CopiedInTurn {σ : Type} (around : Surroundings σ) (x : Exchange σ) (symbol : String)
    (inv : σ → Prop) : List Timestamp → Store → Prop
  | none : CopiedInTurn around x symbol inv [] .empty
  | next {starts : List Timestamp} {start : Timestamp} {store store' : Store} {s s' : σ}
      {pageLimit steps : Nat} (h : CopiedInTurn around x symbol inv starts store) (hs : inv s)
      (hrun : run around (.trades x symbol) pageLimit steps start store s =
        (.ok (), store', s')) :
      CopiedInTurn around x symbol inv (starts ++ [start]) store'

/-- The start of the first copy that found a fill. -/
def firstFound (history : List Trade) (symbol : String) (starts : List Timestamp) :
    Option Timestamp :=
  starts.find? fun start => history.any fun t => t.symbol == symbol && start ≤ t.tradedAt

section Runs

variable {σ : Type} {around : Surroundings σ} {x : Exchange σ} {symbol : String}
  {history : List Trade} {inv : σ → Prop} {starts : List Timestamp} {store : Store}

/-- What one more copy adds to a store that holds fills of the history only. -/
theorem mem_after_copy
    (hserving : Serving around (.trades x symbol)
      (history.filter fun t => t.symbol == symbol) inv)
    (hkeys : (history.map Trade.key).Nodup) (hstore : store.Ascending)
    (hheld : ∀ t ∈ store.trades, t ∈ history) {pageLimit steps : Nat} {start : Timestamp}
    {store' : Store} {s s' : σ} (hs : inv s)
    (hrun : run around (.trades x symbol) pageLimit steps start store s =
      (.ok (), store', s')) :
    store'.Ascending ∧ ∀ t, t ∈ store'.trades ↔ t ∈ store.trades ∨
      t ∈ history ∧ t.symbol = symbol ∧ start ≤ t.tradedAt ∧
        ∀ last ∈ store.lastTradeTime x.name symbol, last ≤ t.tradedAt := by
  obtain ⟨written, hcopied⟩ := hserving.run_copied pageLimit steps start store hs
  rw [hrun] at hcopied
  have hstored : store' = store.insertTrades written.flatten := by
    rw [← History.writeAll_trades x symbol]
    exact hcopied.store_eq
  have hwritten : ∀ t, t ∈ written.flatten ↔ t ∈ history ∧ t.symbol = symbol ∧
      start ≤ t.tradedAt ∧ ∀ last ∈ store.lastTradeTime x.name symbol, last ≤ t.tradedAt := by
    intro t
    rw [hcopied.mem_iff rfl, List.mem_filter, beq_iff_eq, and_assoc]
    exact and_congr_right fun _ => and_congr_right fun _ => resumePoint_le_iff
  have hagree : ∀ a ∈ store.trades ++ written.flatten, ∀ b ∈ store.trades ++ written.flatten,
      a.key = b.key → a = b := by
    have hall : ∀ a ∈ store.trades ++ written.flatten, a ∈ history := fun a ha =>
      (List.mem_append.1 ha).elim (hheld a) fun ha => ((hwritten a).1 ha).1
    exact fun a ha b hb => List.inj_on_of_nodup_map hkeys (hall a ha) (hall b hb)
  rw [hstored]
  refine ⟨hstore.insertTrades _, fun t => ?_⟩
  rw [Store.mem_insertTrades_of_agree hstore hagree, hwritten]

theorem firstFound_concat (start : Timestamp) :
    firstFound history symbol (starts ++ [start]) =
      (firstFound history symbol starts).or (firstFound history symbol [start]) :=
  List.find?_append

theorem mem_firstFound_singleton {start first : Timestamp} :
    firstFound history symbol [start] = some first ↔
      first = start ∧ ∃ t ∈ history, t.symbol = symbol ∧ start ≤ t.tradedAt := by
  simp only [firstFound, List.find?_singleton]
  split
  · next hfound =>
      have hdue : ∃ t ∈ history, t.symbol = symbol ∧ start ≤ t.tradedAt := by simpa using hfound
      exact ⟨fun h => ⟨(Option.some.inj h).symm, hdue⟩, fun h => congrArg some h.1.symm⟩
  · next hnone =>
      simp only [reduceCtorEq, false_iff, not_and]
      rintro - ⟨t, ht, hsame, hle⟩
      exact hnone (List.any_eq_true.2 ⟨t, ht, by simp [hsame, hle]⟩)

theorem CopiedInTurn.stored
    (hserving : Serving around (.trades x symbol)
      (history.filter fun t => t.symbol == symbol) inv)
    (hkeys : (history.map Trade.key).Nodup) (hname : ∀ t ∈ history, t.exchange = x.name)
    (h : CopiedInTurn around x symbol inv starts store) :
    store.Ascending ∧ ∀ t, t ∈ store.trades ↔ t ∈ history ∧ t.symbol = symbol ∧
      ∃ first ∈ firstFound history symbol starts, first ≤ t.tradedAt := by
  induction h with
  | none =>
      refine ⟨Store.ascending_empty, fun t => ?_⟩
      simp [Store.empty, firstFound]
  | @next starts start store store' s s' pageLimit steps h hs hrun ih =>
      obtain ⟨hstore, hmem⟩ := ih
      obtain ⟨hstore', hmem'⟩ := mem_after_copy hserving hkeys hstore
        (fun t ht => ((hmem t).1 ht).1) hs hrun
      refine ⟨hstore', fun t => ?_⟩
      rw [hmem', hmem, firstFound_concat]
      cases hfirst : firstFound history symbol starts with
      | some first =>
          -- What the first copy found is stored, so this one resumes no earlier than that.
          obtain ⟨r, hr, hsymbol, hfound⟩ :
              ∃ r ∈ history, r.symbol = symbol ∧ first ≤ r.tradedAt := by
            simpa using List.find?_some hfirst
          have hstored : r ∈ store.trades := (hmem r).2 ⟨hr, hsymbol, first, hfirst, hfound⟩
          have hlast : (∀ last ∈ store.lastTradeTime x.name symbol, last ≤ t.tradedAt) →
              r.tradedAt ≤ t.tradedAt := by
            intro hlate
            refine latest?_le_iff.1 hlate _ (List.mem_map_of_mem (List.mem_filter.2 ⟨hstored, ?_⟩))
            simp [hname r hr, hsymbol]
          simp only [Option.some_or, Option.mem_def, Option.some.injEq, exists_eq_left']
          constructor
          · rintro (hold | ⟨hheld, hsame, -, hlate⟩)
            · exact hold
            · exact ⟨hheld, hsame, le_trans hfound (hlast hlate)⟩
          · exact Or.inl
      | none =>
          -- Nothing was found so far, so this copy begins at its own start.
          have hempty : store.trades = [] := by
            refine List.eq_nil_iff_forall_not_mem.2 fun u hu => ?_
            obtain ⟨-, -, first, hfound, -⟩ := (hmem u).1 hu
            rw [hfirst] at hfound
            cases hfound
          have hlate : ∀ last ∈ store.lastTradeTime x.name symbol, last ≤ t.tradedAt := by
            simp [Store.lastTradeTime, hempty, latest?]
          simp only [Option.none_or, Option.mem_def, reduceCtorEq, false_and, exists_const,
            and_false, false_or, mem_firstFound_singleton]
          constructor
          · rintro ⟨hheld, hsame, hstart, -⟩
            exact ⟨hheld, hsame, start, ⟨rfl, t, hheld, hsame, hstart⟩, hstart⟩
          · rintro ⟨hheld, hsame, first, ⟨rfl, -⟩, hle⟩
            exact ⟨hheld, hsame, hle, hlate⟩

end Runs

/-- After copies that all ended well, whatever their starts, exactly those fills are stored
that are not older than the start of the first copy that found any. -/
theorem stored_iff_since_first_found {σ : Type} {around : Surroundings σ} {x : Exchange σ}
    {symbol : String} {history : List Trade} {inv : σ → Prop}
    (hserving : Serving around (.trades x symbol)
      (history.filter fun t => t.symbol == symbol) inv)
    (hkeys : (history.map Trade.key).Nodup) (hname : ∀ t ∈ history, t.exchange = x.name)
    {starts : List Timestamp} {store : Store}
    (h : CopiedInTurn around x symbol inv starts store) (t : Trade) :
    t ∈ store.trades ↔ t ∈ history ∧ t.symbol = symbol ∧
      ∃ first ∈ firstFound history symbol starts, first ≤ t.tradedAt :=
  (h.stored hserving hkeys hname).2 t

/-! ## A gap that stays -/

/-- An account with a fill of the epoch and one of a minute later. -/
def gapDesk : Desk Unit :=
  let fill (x : Simulated) (instant : Timestamp) : Simulated :=
    (x.recordFill "BTCUSDT" .buy .zero .zero instant).2
  ⟨fun _ => fill (fill (.new "sim") .epoch) Desk.minute, .empty, ()⟩

def gapExchange : Exchange (Desk Unit) :=
  Desk.exchange (fun _ => .epoch) (fun _ => "sim") 0

/-- A copy of the fills from some start into some store. -/
def gapCopy (start : Timestamp) (store : Store) : Outcome SyncError Unit × Store × Desk Unit :=
  run (Desk.around Desk.undisturbed) (.trades gapExchange "BTCUSDT") 100 2 start store gapDesk

/-- The store after a copy from the later fill on, and then one from the earlier fill on. -/
def gapStore : Store :=
  (gapCopy .epoch (gapCopy Desk.minute .empty).2.1).2.1

def earlierFill : Trade where
  id := "1"
  exchange := "sim"
  symbol := "BTCUSDT"
  side := .buy
  price := .zero
  quantity := .zero
  fee := .zero
  feeCurrency := ""
  isMaker := false
  orderId := none
  tradedAt := .epoch

theorem gapCopy_ok (start : Timestamp) (store : Store)
    (h : (gapCopy start store).1 = .ok ()) :
    gapCopy start store = (.ok (), (gapCopy start store).2.1, (gapCopy start store).2.2) :=
  Prod.ext h rfl

theorem copiedInTurn_gapStore :
    CopiedInTurn (Desk.around Desk.undisturbed) gapExchange "BTCUSDT" (Desk.SameBooks gapDesk)
      [Desk.minute, .epoch] gapStore := by
  have hfirst : CopiedInTurn (Desk.around Desk.undisturbed) gapExchange "BTCUSDT"
      (Desk.SameBooks gapDesk) [Desk.minute] (gapCopy Desk.minute .empty).2.1 :=
    .next .none (.refl gapDesk) (gapCopy_ok Desk.minute .empty (by cbv))
  exact .next hfirst (.refl gapDesk) (gapCopy_ok .epoch _ (by cbv))

/-- Of the two fills the earlier one is not stored, because the first copy had found the
later one only. -/
theorem stored_iff_since_first_found_gap :
    (∀ t, t ∈ gapStore.trades ↔ t ∈ (gapDesk.account 0).trades ∧ t.symbol = "BTCUSDT" ∧
      Desk.minute ≤ t.tradedAt) ∧ gapStore.trades.length = 1 := by
  refine ⟨fun t => ?_, by cbv⟩
  rw [stored_iff_since_first_found
    (Desk.serving_fills Desk.undisturbed (fun _ => .epoch) (fun _ => "sim") 0 "BTCUSDT" gapDesk)
    (by decide +kernel) (by decide +kernel) copiedInTurn_gapStore t]
  have hfound : firstFound (gapDesk.account 0).trades "BTCUSDT" [Desk.minute, .epoch] =
      some Desk.minute := by
    cbv
  simp [hfound]

/-- The exchange keeps its promise, both copies ended well, and the earlier fill is not older
than the start of the second one; but it is not stored. -/
theorem earlier_start_leaves_gap :
    Serving (Desk.around Desk.undisturbed) (.trades gapExchange "BTCUSDT")
      ((gapDesk.account 0).trades.filter fun t => t.symbol == "BTCUSDT")
      (Desk.SameBooks gapDesk) ∧
    CopiedInTurn (Desk.around Desk.undisturbed) gapExchange "BTCUSDT" (Desk.SameBooks gapDesk)
      [Desk.minute, .epoch] gapStore ∧
    earlierFill ∈ (gapDesk.account 0).trades ∧ earlierFill.symbol = "BTCUSDT" ∧
    Timestamp.epoch ≤ earlierFill.tradedAt ∧ earlierFill ∉ gapStore.trades := by
  refine ⟨Desk.serving_fills Desk.undisturbed (fun _ => .epoch) (fun _ => "sim") 0 "BTCUSDT"
    gapDesk, copiedInTurn_gapStore, by decide +kernel, rfl, by decide, by decide +kernel⟩

end Tradebook
