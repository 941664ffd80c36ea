import Mathlib
import Tradebook.Proofs.Desk

/-!
# Copying the fills of a symbol

What the loop writes is a matter of `SyncPages`, what the store makes of it a
matter of `StoreRows`. Here the two meet for the fills of one symbol: a copy ends,
and where it ends well the store holds what it held before, every fill of the
symbol from the resume point on whose key was free, and nothing else.

This is so for every exchange that keeps its promise, whatever it does about fills
that share an instant, and whatever the size of a page.
-/

namespace Tradebook

open Sync

/-- A copy of the fills of a symbol ends within a number of pages that depends on
the length of the history alone. If it ends well, the store holds the old fills and
the fills of the symbol that are due and whose keys were free, each of them once. -/
theorem stored_fills_of_run {σ : Type} {around : Surroundings σ} {x : Exchange σ}
    {symbol : String} {history : List Trade} {inv : σ → Prop}
    (hserving : Serving around (.trades x symbol)
      (history.filter fun t => t.symbol == symbol) inv)
    (hkeys : (history.map Trade.key).Nodup) (hfew : history.length < greatestLimit)
    (pageLimit : Nat) (start : Timestamp) {store : Store} (hstore : store.Ascending)
    {s : σ} (hs : inv s) :
    ∃ ended : Outcome SyncError Unit × Store × σ, ended.1 ≠ .exhausted ∧
      (∀ steps, enoughPages history.length ≤ steps →
        run around (.trades x symbol) pageLimit steps start store s = ended) ∧
      (ended.1 = .ok () →
        (∀ t, t ∈ ended.2.1.trades ↔ t ∈ store.trades ∨
          t ∈ history ∧ t.symbol = symbol ∧ start ≤ t.tradedAt ∧
            (∀ last ∈ store.lastTradeTime x.name symbol, last ≤ t.tradedAt) ∧
            t.key ∉ store.trades.map Trade.key) ∧
        (ended.2.1.trades.map Trade.key).Nodup ∧ ended.2.1.orders = store.orders) := by
  have hlength : (history.filter fun t => t.symbol == symbol).length ≤ history.length :=
    List.length_filter_le _ _
  obtain ⟨ended, hends, hrun⟩ :=
    hserving.run_settles (by omega) pageLimit start store hs
  refine ⟨ended, hends, fun steps hsteps => hrun steps ?_, fun hok => ?_⟩
  · exact le_trans (enoughPages_mono hlength) hsteps
  · obtain ⟨written, hcopied⟩ := hserving.run_copied pageLimit
      (enoughPages (history.filter fun t => t.symbol == symbol).length) start store hs
    rw [hrun _ (le_refl _)] at hcopied
    have heq := hcopied.store_eq
    rw [History.writeAll_trades] at heq
    -- After a good end a fill was written exactly if it was due.
    have hdue : ∀ t, t ∈ written.flatten ↔ t ∈ history ∧ t.symbol = symbol ∧
        start ≤ t.tradedAt ∧ ∀ last ∈ store.lastTradeTime x.name symbol,
          last ≤ t.tradedAt := by
      intro t
      constructor
      · intro ht
        obtain ⟨hmem, hresume⟩ := hcopied.sound t ht
        obtain ⟨hheld, hsymbol⟩ := List.mem_filter.1 hmem
        exact ⟨hheld, by simpa using hsymbol, resumePoint_le_iff.1 hresume⟩
      · rintro ⟨hheld, hsymbol, hresume⟩
        by_contra hout
        refine (hcopied.rest t ?_ (resumePoint_le_iff.2 hresume) hout).1 hok
        exact List.mem_filter.2 ⟨hheld, by simpa using hsymbol⟩
    have hpage : ∀ a ∈ written.flatten, ∀ b ∈ written.flatten, a.key = b.key → a = b :=
      fun a ha b hb =>
        List.inj_on_of_nodup_map hkeys ((hdue a).1 ha).1 ((hdue b).1 hb).1
    rw [heq]
    refine ⟨fun t => ?_, (hstore.insertTrades _).trades.nodup_keys, rfl⟩
    rw [Store.mem_insertTrades hstore hpage, hdue]
    simp only [and_assoc]

/-- A desk whose only account has three fills of one symbol at one instant and one
of another symbol. The first fill is stored. -/
def crowdedDesk : Desk Unit :=
  let fill (x : Simulated) (symbol : String) : Simulated :=
    (x.recordFill symbol .buy .zero .zero .epoch).2
  let account := fill (fill (fill (fill (.new "sim") "BTCUSDT") "ETHUSDT") "BTCUSDT") "BTCUSDT"
  { account := fun _ => account
    store := Store.empty.insertTrades (account.trades.take 1)
    rest := () }

/-- A copy of the fills, in pages of two. -/
def crowdedRun (steps : Nat) : Outcome SyncError Unit × Store × Desk Unit :=
  run (Desk.around Desk.undisturbed)
    (.trades (Desk.exchange (fun _ => .epoch) (fun _ => "sim") 0) "BTCUSDT") 2 steps .epoch
    crowdedDesk.store crowdedDesk

theorem crowdedRun_ok : (crowdedRun 6).1 = .ok () := by
  cbv

theorem crowdedRun_length : (crowdedRun 6).2.1.trades.length = 3 := by
  cbv

/-- Pages of two fills get through three fills of one instant. -/
theorem stored_fills_of_run_crowded :
    ∃ ended : Outcome SyncError Unit × Store × Desk Unit,
      (∀ steps, 30 ≤ steps → crowdedRun steps = ended) ∧
      ended.1 = .ok () ∧ ended.2.1.trades.length = 3 ∧
      ∀ t, t ∈ ended.2.1.trades ↔ t ∈ crowdedDesk.store.trades ∨
        t ∈ (crowdedDesk.account 0).trades ∧ t.symbol = "BTCUSDT" ∧
          Timestamp.epoch ≤ t.tradedAt ∧
          (∀ last ∈ crowdedDesk.store.lastTradeTime "sim" "BTCUSDT", last ≤ t.tradedAt) ∧
          t.key ∉ crowdedDesk.store.trades.map Trade.key := by
  obtain ⟨ended, -, hrun, hstored⟩ := stored_fills_of_run
    (Desk.serving_fills Desk.undisturbed (fun _ => .epoch) (fun _ => "sim") 0 "BTCUSDT"
      crowdedDesk)
    (by decide +kernel) (by decide +kernel) 2 .epoch
    (Store.ascending_empty.insertTrades _) (Desk.SameBooks.refl crowdedDesk)
  have hrun : ∀ steps, 30 ≤ steps → crowdedRun steps = ended :=
    fun steps hsteps => hrun steps (le_trans (by decide +kernel) hsteps)
  have hended : crowdedRun 6 = ended := by
    rw [← hrun 30 (le_refl 30)]
    refine (run_mono (by decide) ?_).symm
    rw [show (run _ _ 2 6 _ _ _).1 = _ from crowdedRun_ok]
    decide
  have hok : ended.1 = .ok () := hended ▸ crowdedRun_ok
  exact ⟨ended, hrun, hok, hended ▸ crowdedRun_length, (hstored hok).1⟩

end Tradebook
