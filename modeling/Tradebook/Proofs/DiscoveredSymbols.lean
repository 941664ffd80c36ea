import Tradebook.Discovery
import Tradebook.Proofs.DecimalSum
import Tradebook.Proofs.Utf8Order

/-!
# Which symbols are worth copying

Three things could go wrong between an account and the list of its symbols. A sum may be rounded,
and its sign is what decides; the list is built by putting one symbol after the other in its
place; and the markets come in any order, some of them more than once. None of it shows: the list
is what the exact sums say it is (`symbols_exact`).

What is left is a sum that is out of range. Only the sums that matter are made: those of the
cash, and those of the coins that are traded against cash that is held (`Consulted`). Where
one of them is out of range, and nowhere else, there is no list (`symbols_eq_none_iff`).
-/

namespace Tradebook.Discovery

open Tradebook.Text

/-- Whether the exact sum of the two parts of a balance is above zero. -/
def Holds (balances : Balances) (currency : String) : Prop :=
  ∃ b ∈ balances.find? currency, 0 < b.available.toRat + b.locked.toRat

instance (balances : Balances) (currency : String) : Decidable (Holds balances currency) :=
  inferInstanceAs (Decidable (∃ b ∈ balances.find? currency, _))

/-- Whether what is held of a currency in all, if anything, can be written down. -/
def InRange (balances : Balances) (currency : String) : Prop :=
  ∀ b ∈ balances.find? currency, b.total?.isSome = true

instance (balances : Balances) (currency : String) : Decidable (InRange balances currency) :=
  inferInstanceAs (Decidable (∀ b ∈ balances.find? currency, _))

/-- A market quoted in cash that is held. -/
def QuotedInCash (balances : Balances) (market : Market) : Prop :=
  market.quoteCurrency ∈ cashCurrencies ∧ Holds balances market.quoteCurrency

/-- The currencies whose sums are made. -/
def Consulted (balances : Balances) (markets : List Market) (currency : String) : Prop :=
  currency ∈ cashCurrencies ∨
    ∃ m ∈ markets, QuotedInCash balances m ∧ m.baseCurrency = currency

/-! ## The sums -/

/-- The sign that is tested is the sign of the exact sum. -/
theorem isHeld_of_inRange {balances : Balances} {currency : String}
    (h : InRange balances currency) :
    isHeld? balances currency = some (decide (Holds balances currency)) := by
  cases hfind : balances.find? currency with
  | none => simp [isHeld?, Holds, hfind]
  | some b =>
      obtain ⟨total, htotal⟩ := Option.isSome_iff_exists.1 (h b hfind)
      have hsign : total.isPositive = true ↔ Holds balances currency := by
        rw [Decimal.isPositive_iff, Decimal.toRat_add_pos_iff htotal]
        simp [Holds, hfind]
      rw [isHeld?, hfind]
      simp only [htotal, Option.map_some, Option.some.injEq]
      rw [Bool.eq_iff_iff, decide_eq_true_iff, hsign]

theorem held_of_inRange {balances : Balances} {currencies : List String}
    (h : ∀ c ∈ currencies, InRange balances c) :
    held? balances currencies = some (currencies.filter (Holds balances ·)) := by
  induction currencies with
  | nil => rfl
  | cons currency rest ih =>
      obtain ⟨hcurrency, hrest⟩ := List.forall_mem_cons.1 h
      rw [held?, isHeld_of_inRange hcurrency, ih hrest, List.filter_cons]
      cases decide (Holds balances currency) <;> rfl

/-! ## The list -/

theorem mem_putSymbol {symbol other : String} {symbols : List String} :
    other ∈ putSymbol symbol symbols ↔ other = symbol ∨ other ∈ symbols := by
  induction symbols with
  | nil => simp [putSymbol]
  | cons head rest ih =>
      rw [putSymbol]
      split
      · next heq => simp [heq]
      · split
        · exact List.mem_cons
        · rw [List.mem_cons, ih, List.mem_cons]
          exact or_left_comm

theorem putSymbol_ascending {symbol : String} {symbols : List String}
    (h : symbols.Pairwise (· < ·)) : (putSymbol symbol symbols).Pairwise (· < ·) := by
  induction symbols with
  | nil => exact List.pairwise_singleton _ _
  | cons head rest ih =>
      obtain ⟨hhead, hrest⟩ := List.pairwise_cons.1 h
      rw [putSymbol]
      split
      · exact h
      · rename_i hne
        split
        · rename_i hlt
          refine List.pairwise_cons.2 ⟨fun other hother => ?_, h⟩
          rcases List.mem_cons.1 hother with rfl | hother
          · exact hlt
          · exact lt_trans hlt (hhead other hother)
        · rename_i hlt
          refine List.pairwise_cons.2 ⟨fun other hother => ?_, ih hrest⟩
          rcases mem_putSymbol.1 hother with rfl | hother
          · exact lt_of_le_of_ne (not_lt.1 hlt) (Ne.symm hne)
          · exact hhead other hother

theorem symbolsFor_ascending {balances : Balances} {cash : List String} {markets : List Market}
    {symbols : List String} (h : symbolsFor? balances cash markets = some symbols) :
    symbols.Pairwise (· < ·) := by
  induction markets generalizing symbols with
  | nil =>
      rw [symbolsFor?] at h
      cases h
      exact List.Pairwise.nil
  | cons market rest ih =>
      rw [symbolsFor?] at h
      split at h
      · split at h
        · rename_i hrest
          cases h
          exact putSymbol_ascending (ih hrest)
        · rename_i hrest
          cases h
          exact ih hrest
        · cases h
      · exact ih h

theorem symbols_ascending {balances : Balances} {markets : List Market} {symbols : List String}
    (h : symbols? balances markets = some symbols) : symbols.Pairwise (· < ·) := by
  rw [symbols?] at h
  split at h
  · exact symbolsFor_ascending h
  · cases h

/-- With the sums of the coins in range, the markets of a held coin are found, and no other. -/
theorem symbolsFor_of_inRange {balances : Balances} {cash : List String} {markets : List Market}
    (h : ∀ m ∈ markets, m.quoteCurrency ∈ cash → InRange balances m.baseCurrency) :
    ∃ symbols, symbolsFor? balances cash markets = some symbols ∧
      ∀ symbol, symbol ∈ symbols ↔
        ∃ m ∈ markets, m.quoteCurrency ∈ cash ∧ Holds balances m.baseCurrency ∧
          m.symbol = symbol := by
  induction markets with
  | nil => exact ⟨[], rfl, by simp⟩
  | cons market rest ih =>
      obtain ⟨hmarket, hrest⟩ := List.forall_mem_cons.1 h
      obtain ⟨symbols, hfound, hmem⟩ := ih hrest
      by_cases hquote : market.quoteCurrency ∈ cash
      · rw [symbolsFor?, if_pos (List.contains_iff_mem.2 hquote), hfound,
          isHeld_of_inRange (hmarket hquote)]
        by_cases hbase : Holds balances market.baseCurrency
        · refine ⟨putSymbol market.symbol symbols, by simp [hbase], fun symbol => ?_⟩
          rw [mem_putSymbol, hmem, List.exists_mem_cons_iff]
          simp only [hquote, hbase, true_and, eq_comm (a := symbol)]
        · refine ⟨symbols, by simp [hbase], fun symbol => ?_⟩
          rw [hmem, List.exists_mem_cons_iff]
          simp only [hbase, false_and, and_false, false_or]
      · refine ⟨symbols, ?_, fun symbol => ?_⟩
        · rw [symbolsFor?, if_neg (fun hcontains => hquote (List.contains_iff_mem.1 hcontains))]
          exact hfound
        · rw [hmem, List.exists_mem_cons_iff]
          simp only [hquote, false_and, false_or]

theorem symbols_of_inRange {balances : Balances} {markets : List Market}
    (h : ∀ c, Consulted balances markets c → InRange balances c) :
    ∃ symbols, symbols? balances markets = some symbols ∧
      ∀ symbol, symbol ∈ symbols ↔
        ∃ m ∈ markets, QuotedInCash balances m ∧ Holds balances m.baseCurrency ∧
          m.symbol = symbol := by
  have hcash : ∀ m : Market, m.quoteCurrency ∈ cashCurrencies.filter (Holds balances ·) ↔
      QuotedInCash balances m := fun m => by
    rw [List.mem_filter, decide_eq_true_iff, QuotedInCash]
  have hcoins : ∀ m ∈ markets, m.quoteCurrency ∈ cashCurrencies.filter (Holds balances ·) →
      InRange balances m.baseCurrency := fun m hm hquote =>
    h _ (Or.inr ⟨m, hm, (hcash m).1 hquote, rfl⟩)
  obtain ⟨symbols, hfound, hmem⟩ := symbolsFor_of_inRange hcoins
  refine ⟨symbols, ?_, fun symbol => ?_⟩
  · rw [symbols?, cash?, held_of_inRange fun c hc => h c (Or.inl hc)]
    exact hfound
  · rw [hmem]
    simp only [hcash]

/-- The list is ascending by the bytes of the symbols, and it has the symbol of a market exactly
if the market is quoted in cash that is held and its coin is held, by the exact sums. It stays
the same whatever order the markets come in and however often. -/
theorem symbols_exact {balances : Balances} {markets : List Market}
    (h : ∀ c, Consulted balances markets c → InRange balances c) :
    ∃ symbols, symbols? balances markets = some symbols ∧
      symbols.Pairwise (fun a b => utf8 a < utf8 b) ∧
      (∀ symbol, symbol ∈ symbols ↔
        ∃ m ∈ markets, QuotedInCash balances m ∧ Holds balances m.baseCurrency ∧
          m.symbol = symbol) ∧
      ∀ markets', (∀ m, m ∈ markets' ↔ m ∈ markets) →
        symbols? balances markets' = some symbols := by
  obtain ⟨symbols, hfound, hmem⟩ := symbols_of_inRange h
  have hascending := symbols_ascending hfound
  refine ⟨symbols, hfound, hascending.imp utf8_lt_utf8, hmem, fun markets' hsame => ?_⟩
  have h' : ∀ c, Consulted balances markets' c → InRange balances c := by
    simpa only [Consulted, hsame] using h
  obtain ⟨symbols', hfound', hmem'⟩ := symbols_of_inRange h'
  have hequal : symbols' = symbols :=
    (symbols_ascending hfound').eq_of_mem_iff hascending fun symbol => by
      rw [hmem, hmem']
      simp only [hsame]
  rw [hfound', hequal]

/-! ## Sums out of range -/

theorem inRange_of_isHeld {balances : Balances} {currency : String} {held : Bool}
    (h : isHeld? balances currency = some held) : InRange balances currency := by
  intro b hb
  rw [isHeld?, hb] at h
  obtain ⟨total, htotal, -⟩ := Option.map_eq_some_iff.1 h
  exact Option.isSome_iff_exists.2 ⟨total, htotal⟩

theorem inRange_of_held {balances : Balances} {currencies held : List String}
    (h : held? balances currencies = some held) : ∀ c ∈ currencies, InRange balances c := by
  induction currencies generalizing held with
  | nil => simp
  | cons currency rest ih =>
      rw [held?] at h
      split at h
      · rename_i hcurrency hrest
        exact List.forall_mem_cons.2 ⟨inRange_of_isHeld hcurrency, ih hrest⟩
      · rename_i hcurrency hrest
        exact List.forall_mem_cons.2 ⟨inRange_of_isHeld hcurrency, ih hrest⟩
      · cases h

theorem inRange_of_symbolsFor {balances : Balances} {cash : List String} {markets : List Market}
    {symbols : List String} (h : symbolsFor? balances cash markets = some symbols) :
    ∀ m ∈ markets, m.quoteCurrency ∈ cash → InRange balances m.baseCurrency := by
  induction markets generalizing symbols with
  | nil => simp
  | cons market rest ih =>
      rw [symbolsFor?] at h
      split at h
      · split at h
        · rename_i hbase hrest
          exact List.forall_mem_cons.2 ⟨fun _ => inRange_of_isHeld hbase, ih hrest⟩
        · rename_i hbase hrest
          exact List.forall_mem_cons.2 ⟨fun _ => inRange_of_isHeld hbase, ih hrest⟩
        · cases h
      · rename_i hquote
        refine List.forall_mem_cons.2 ⟨fun hmem => ?_, ih h⟩
        exact absurd (List.contains_iff_mem.2 hmem) hquote

/-- Where a list comes out, no sum it calls for was out of range. -/
theorem inRange_of_symbols {balances : Balances} {markets : List Market} {symbols : List String}
    (h : symbols? balances markets = some symbols) :
    ∀ c, Consulted balances markets c → InRange balances c := by
  rw [symbols?] at h
  split at h
  · rename_i cash hcash
    have hsums := inRange_of_held hcash
    have hheld : cash = cashCurrencies.filter (Holds balances ·) :=
      Option.some.inj (hcash.symm.trans (held_of_inRange hsums))
    rintro c (hc | ⟨m, hm, hquoted, rfl⟩)
    · exact hsums c hc
    · refine inRange_of_symbolsFor h m hm ?_
      rw [hheld, List.mem_filter, decide_eq_true_iff]
      exact hquoted
  · cases h

theorem symbols_eq_none_iff {balances : Balances} {markets : List Market} :
    symbols? balances markets = none ↔
      ∃ c, Consulted balances markets c ∧ ¬ InRange balances c := by
  constructor
  · intro hnone
    by_contra hall
    push Not at hall
    obtain ⟨symbols, hfound, -⟩ := symbols_of_inRange hall
    rw [hnone] at hfound
    cases hfound
  · rintro ⟨c, hconsulted, hout⟩
    cases hfound : symbols? balances markets with
    | none => rfl
    | some symbols => exact absurd (inRange_of_symbols hfound c hconsulted) hout

/-- What is held of a currency, as coefficients and numbers of decimals. -/
def holding (currency : String) (available locked : Int × Nat) : Balance :=
  ⟨currency, (Decimal.ofParts? available.1 available.2).getD .zero,
    (Decimal.ofParts? locked.1 locked.2).getD .zero⟩

/-- An account whose sum of dollars is rounded, whose coins nearly cancel out, and which has more
of one coin than can be written down. -/
def hoard : Balances :=
  .ofList [holding "USDT" (2 ^ 96 - 1, 0) (-5, 1), holding "BTC" (-1, 0) (10 ^ 28 + 1, 28),
    holding "ETH" (1 - 2 ^ 96, 0) (1, 1), holding "" (1, 0) (0, 0),
    holding "DOGE" (2 ^ 96 - 1, 0) (2 ^ 96 - 1, 0), holding "EUR" (1, 0) (-10, 1)]

/-- Markets in no order and one of them twice. Nobody asks for the coin of the one in euros. -/
def hoardMarkets : List Market :=
  [⟨"ÑUSDT", "", "USDT"⟩, ⟨"BTCUSDT", "BTC", "USDT"⟩, ⟨"ETHUSDT", "ETH", "USDT"⟩,
    ⟨"DOGEEUR", "DOGE", "EUR"⟩, ⟨"BTCUSDT", "BTC", "USDT"⟩]

theorem symbols_exact_hoard :
    (∀ c, Consulted hoard hoardMarkets c → InRange hoard c) ∧ ¬ InRange hoard "DOGE" ∧
      symbols? hoard hoardMarkets = some ["BTCUSDT", "ÑUSDT"] ∧
      symbols? hoard hoardMarkets.reverse = some ["BTCUSDT", "ÑUSDT"] ∧
      QuotedInCash hoard ⟨"BTCUSDT", "BTC", "USDT"⟩ ∧ ¬ Holds hoard "ETH" := by
  have hcash : ∀ c ∈ cashCurrencies, InRange hoard c := by decide +kernel
  have hcoins : ∀ m ∈ hoardMarkets,
      ¬ Holds hoard m.quoteCurrency ∨ InRange hoard m.baseCurrency := by decide +kernel
  have hrange : ∀ c, Consulted hoard hoardMarkets c → InRange hoard c := by
    rintro c (hc | ⟨m, hm, hquoted, rfl⟩)
    · exact hcash c hc
    · exact (hcoins m hm).resolve_left (not_not_intro hquoted.2)
  have hfirst : symbols? hoard hoardMarkets = some ["BTCUSDT", "ÑUSDT"] := by decide +kernel
  obtain ⟨symbols, hfound, -, -, hsame⟩ := symbols_exact hrange
  obtain rfl := Option.some.inj (hfirst.symm.trans hfound)
  exact ⟨hrange, by decide +kernel, hfirst, hsame _ fun m => List.mem_reverse,
    ⟨by decide, by decide +kernel⟩, by decide +kernel⟩

end Tradebook.Discovery
