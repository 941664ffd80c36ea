import Tradebook.Proofs.BlankText
import Tradebook.Proofs.CapitalText
import Tradebook.Proofs.OrderBody
import Tradebook.Proofs.StreamRun

/-!
# The form of a symbol

A symbol is trimmed and then put into capitals. `NormalSymbol` says what that makes of it without
saying how: there is no blank at either end, and every character is its own capital. The second
step does not undo the first, for no character becomes a blank or nothing at all, so every symbol
gets the form in one turn (`normalSymbol_normalizeSymbol`). And there is nothing left to do on a
text that has it. So the form is just what no further turn changes (`normalizeSymbol_eq_self_iff`).

Whatever is asked of an exchange names its market by the form. How a symbol was typed cannot be
told from what a stream has in its queue, sends or answers, neither in one call
(`subscribe_normalized`) nor over a whole run (`run_normalized`), and an order made of a symbol in
its form is an order for this very symbol (`symbol_settles`).
-/

namespace Tradebook

open Text

/-- The form in which symbols are compared and sent. -/
structure NormalSymbol (symbol : String) : Prop where
  first : ∀ c ∈ symbol.toList.head?, isBlank c = false
  last : ∀ c ∈ symbol.toList.getLast?, isBlank c = false
  capital : ∀ c ∈ symbol.toList, capitals c = [c]

theorem normalSymbol_normalizeSymbol (symbol : String) :
    NormalSymbol (normalizeSymbol symbol) where
  first := by
    intro d hd
    rw [normalizeSymbol, head?_upper, Option.mem_def, Option.bind_eq_some_iff] at hd
    obtain ⟨c, hc, hd⟩ := hd
    exact isBlank_of_mem_capitals (head?_trim symbol c hc) (List.mem_of_mem_head? hd)
  last := by
    intro d hd
    rw [normalizeSymbol, getLast?_upper, Option.mem_def, Option.bind_eq_some_iff] at hd
    obtain ⟨c, hc, hd⟩ := hd
    exact isBlank_of_mem_capitals (getLast?_trim symbol c hc) (List.mem_of_mem_getLast? hd)
  capital := by
    intro c hc
    exact capitals_of_mem_upper hc

theorem NormalSymbol.normalizeSymbol_eq {symbol : String} (h : NormalSymbol symbol) :
    normalizeSymbol symbol = symbol := by
  rw [normalizeSymbol, trim_eq_self h.first h.last, upper_eq_self h.capital]

theorem normalizeSymbol_eq_self_iff (symbol : String) :
    normalizeSymbol symbol = symbol ↔ NormalSymbol symbol := by
  constructor
  · intro h
    rw [← h]
    exact normalSymbol_normalizeSymbol symbol
  · exact NormalSymbol.normalizeSymbol_eq

theorem normalizeSymbol_again (symbol : String) :
    normalizeSymbol (normalizeSymbol symbol) = normalizeSymbol symbol :=
  (normalSymbol_normalizeSymbol symbol).normalizeSymbol_eq

theorem normalizeSymbol_eq_empty_iff (symbol : String) :
    normalizeSymbol symbol = "" ↔ ∀ c ∈ symbol.toList, isBlank c = true := by
  rw [normalizeSymbol, upper_eq_empty_iff, trim_eq_empty_iff]

/-! ## Requests -/

theorem SubscriptionRequest.ofSymbol_normalized (operation : Operation) (channel : Channel)
    (symbol : String) :
    ofSymbol operation channel (normalizeSymbol symbol) = ofSymbol operation channel symbol := by
  rw [ofSymbol, ofSymbol, normalizeSymbol_again]

theorem OrderRequest.make_normalized (symbol : String) (side : Side) (kind : OrderKind)
    (quantity : Decimal) (id : String) :
    make (normalizeSymbol symbol) side kind quantity id = make symbol side kind quantity id := by
  rw [make, make, normalizeSymbol_again]

namespace Ftx

variable {σ : Type}

namespace BookStream

theorem subscribe_normalized (wire : StreamWire σ) (channel : Channel) (symbol : String)
    (options : SubscribeOptions) (b : BookStream) (s : σ) :
    b.subscribe wire channel (normalizeSymbol symbol) options s =
      b.subscribe wire channel symbol options s := by
  rw [subscribe, subscribe, SubscriptionRequest.ofSymbol_normalized]

theorem unsubscribe_normalized (wire : StreamWire σ) (channel : Channel) (symbol : String)
    (b : BookStream) (s : σ) :
    b.unsubscribe wire channel (normalizeSymbol symbol) s =
      b.unsubscribe wire channel symbol s := by
  rw [unsubscribe, unsubscribe, SubscriptionRequest.ofSymbol_normalized,
    SubscriptionRequest.ofSymbol_normalized]

/-- One entry for a market, however often it is subscribed. -/
theorem subscribe_queue (wire : StreamWire σ) (symbol : String) (options : SubscribeOptions)
    (b : BookStream) (s : σ) :
    (b.subscribe wire .book symbol options s).2.1.queue =
      if .subscribe (normalizeSymbol symbol) ∈ b.queue then b.queue
      else b.queue ++ [.subscribe (normalizeSymbol symbol)] := by
  rw [subscribe_book]
  simp only [List.contains_iff_mem]
  split
  · rfl
  · rw [(sendNow_quiet ..).queue]

end BookStream

/-- The same move with its symbol in the form of symbols. -/
def Move.normalized : Move σ → Move σ
  | .subscribe channel symbol options => .subscribe channel (normalizeSymbol symbol) options
  | .unsubscribe channel symbol => .unsubscribe channel (normalizeSymbol symbol)
  | move => move

namespace Moment

theorem after_normalized (wire : StreamWire σ) (m : Moment σ) (move : Move σ) :
    m.after wire move.normalized = m.after wire move := by
  cases move with
  | subscribe channel symbol options =>
      show (m.subscribe wire channel (normalizeSymbol symbol) options).2 = _
      rw [subscribe, BookStream.subscribe_normalized]
      rfl
  | unsubscribe channel symbol =>
      show (m.unsubscribe wire channel (normalizeSymbol symbol)).2 = _
      rw [unsubscribe, BookStream.unsubscribe_normalized]
      rfl
  | publish | connect | close | receive | keepAlive | pass => rfl

/-- A stream cannot tell how its symbols were typed. -/
theorem run_normalized (wire : StreamWire σ) (m : Moment σ) (moves : List (Move σ)) :
    m.run wire (moves.map Move.normalized) = m.run wire moves := by
  induction moves using List.reverseRecOn with
  | nil => rfl
  | append_singleton moves move ih =>
      rw [List.map_append, List.map_singleton, run_concat, run_concat, ih, after_normalized]

end Moment

end Ftx

/-- One turn is enough: what it makes of a symbol is not changed by another. There is no blank at
either end of it, and it is empty just if the symbol was all blanks. So a symbol and its form ask
for the same subscription, which is one entry of a queue, and an order made of the form is for the
form. -/
theorem symbol_settles (symbol : String) :
    normalizeSymbol (normalizeSymbol symbol) = normalizeSymbol symbol ∧
    (∀ c ∈ (normalizeSymbol symbol).toList.head?, isBlank c = false) ∧
    (∀ c ∈ (normalizeSymbol symbol).toList.getLast?, isBlank c = false) ∧
    (normalizeSymbol symbol = "" ↔ ∀ c ∈ symbol.toList, isBlank c = true) ∧
    (∀ operation channel,
      SubscriptionRequest.ofSymbol operation channel (normalizeSymbol symbol) =
        SubscriptionRequest.ofSymbol operation channel symbol) ∧
    (∀ {σ : Type} (wire : Ftx.StreamWire σ) (channel : Channel) (options : SubscribeOptions)
        (b : Ftx.BookStream) (s : σ),
      b.subscribe wire channel (normalizeSymbol symbol) options s =
          b.subscribe wire channel symbol options s ∧
        b.unsubscribe wire channel (normalizeSymbol symbol) s =
          b.unsubscribe wire channel symbol s ∧
        (b.subscribe wire .book symbol options s).2.1.queue =
          if .subscribe (normalizeSymbol symbol) ∈ b.queue then b.queue
          else b.queue ++ [.subscribe (normalizeSymbol symbol)]) ∧
    (∀ side kind quantity id request,
      OrderRequest.make (normalizeSymbol symbol) side kind quantity id = .ok request ↔
        (∃ c ∈ symbol.toList, isBlank c = false) ∧ 0 < quantity.toRat ∧
          (∀ price, kind.price = some price → 0 < price.toRat) ∧
          request = ⟨normalizeSymbol symbol, side, kind, quantity, id⟩) := by
  have hform := normalSymbol_normalizeSymbol symbol
  refine ⟨normalizeSymbol_again symbol, hform.first, hform.last,
    normalizeSymbol_eq_empty_iff symbol, ?_, ?_, ?_⟩
  · intro operation channel
    exact SubscriptionRequest.ofSymbol_normalized operation channel symbol
  · intro σ wire channel options b s
    exact ⟨b.subscribe_normalized wire channel symbol options s,
      b.unsubscribe_normalized wire channel symbol s, b.subscribe_queue wire symbol options s⟩
  · intro side kind quantity id request
    have hsome : normalizeSymbol symbol ≠ "" ↔ ∃ c ∈ symbol.toList, isBlank c = false := by
      rw [normalizeSymbol, ne_eq, upper_eq_empty_iff]
      exact trim_ne_empty_iff symbol
    rw [OrderRequest.make_normalized, OrderRequest.make_ok_iff, hsome]

/-- A ligature and a sharp s at the ends become two letters each, where the blanks were. -/
theorem symbol_settles_ligature :
    let typed := "\u2003ﬁn/ß\u3000"
    let size : Decimal := ⟨false, 25, 2, by decide, by decide⟩
    normalizeSymbol typed = "FIN/SS" ∧ normalizeSymbol "FIN/SS" = "FIN/SS" ∧
    isBlank 'F' = false ∧ isBlank 'S' = false ∧ ¬ (∀ c ∈ typed.toList, isBlank c = true) ∧
    SubscriptionRequest.ofSymbol .subscribe .book "FIN/SS" =
      SubscriptionRequest.ofSymbol .subscribe .book typed ∧
    OrderRequest.make "FIN/SS" .buy .market size "7" =
      .ok ⟨"FIN/SS", .buy, .market, size, "7"⟩ := by
  intro typed size
  have hform : normalizeSymbol typed = "FIN/SS" := by decide +kernel
  have hletter : ∃ c ∈ typed.toList, isBlank c = false := ⟨'n', by decide +kernel, by decide⟩
  obtain ⟨hagain, hfirst, hlast, hempty, hrequest, -, horder⟩ := symbol_settles typed
  rw [hform] at hagain hfirst hlast hempty hrequest horder
  have hsome : ¬ ∀ c ∈ typed.toList, isBlank c = true := by
    rw [← hempty]
    decide
  refine ⟨hform, hagain, hfirst 'F' (by decide), hlast 'S' (by decide), hsome,
    hrequest .subscribe .book, ?_⟩
  exact (horder .buy .market size "7" _).2 ⟨hletter, by decide +kernel, nofun, rfl⟩

end Tradebook
