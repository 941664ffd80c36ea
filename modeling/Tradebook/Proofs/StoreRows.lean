import Mathlib.Data.String.Basic
import Mathlib.Data.List.Nodup
import Tradebook.Proofs.TimestampOrder
import Tradebook.Store

/-!
# The rows of a store are a map

A store keeps its rows ascending by key. Such rows hold every key at most once,
and then the list says no more than the look-up `rowAt` does: a row is in it
exactly if it is what stands at its key. So a new row is understood through what it
does to the look-up, and `rowAt_putRow` is that: it meets what stands at its own
key and leaves the other keys alone.

The two histories differ in what happens where a row meets one that stands
there. A fill stays as it is (`mem_insertTrades`). An order is brought up to date,
which changes nothing if it is the same order (`mem_putRows_of_agree`).
-/

namespace Tradebook

/-! ## The order of the keys -/

theorem RecordKey.lt_iff {a b : RecordKey} :
    a.lt b = true ↔ a.exchange < b.exchange ∨ a.exchange = b.exchange ∧ a.id < b.id := by
  simp [RecordKey.lt]

theorem RecordKey.not_lt_self (a : RecordKey) : ¬ a.lt a = true := by
  rw [lt_iff]
  rintro (h | ⟨-, h⟩) <;> exact h.ne rfl

theorem RecordKey.lt_trans {a b c : RecordKey} (hab : a.lt b = true)
    (hbc : b.lt c = true) : a.lt c = true := by
  rw [lt_iff] at hab hbc ⊢
  rcases hab with hab | ⟨hab, hid⟩
  · rcases hbc with hbc | ⟨hbc, -⟩
    · exact Or.inl (hab.trans hbc)
    · exact Or.inl (hbc ▸ hab)
  · rcases hbc with hbc | ⟨hbc, hid'⟩
    · exact Or.inl (hab ▸ hbc)
    · exact Or.inr ⟨hab.trans hbc, hid.trans hid'⟩

theorem RecordKey.lt_of_not_lt {a b : RecordKey} (hne : a ≠ b)
    (h : ¬ a.lt b = true) : b.lt a = true := by
  rw [lt_iff] at h ⊢
  push Not at h
  rcases lt_or_eq_of_le h.1 with hlt | heq
  · exact Or.inl hlt
  · refine Or.inr ⟨heq, lt_of_le_of_ne (h.2 heq.symm) fun hid => hne ?_⟩
    cases a
    cases b
    simp_all

/-! ## Ascending rows and their look-up -/

/-- Rows in ascending order of their keys. -/
def AscendingBy {α : Type} (key : α → RecordKey) (rows : List α) : Prop :=
  rows.Pairwise fun a b => (key a).lt (key b) = true

/-- The row that stands at a key. -/
def rowAt {α : Type} (key : α → RecordKey) (k : RecordKey) (rows : List α) : Option α :=
  rows.find? fun r => key r = k

/-- What stands at a key once a row of that key has come. -/
def settle {α : Type} (merge : α → α → α) (standing : Option α) (row : α) : α :=
  match standing with
  | some stored => merge stored row
  | none => row

/-- Puts the rows of a page in their places, one after the other. -/
def putRows {α : Type} (key : α → RecordKey) (merge : α → α → α) (page rows : List α) :
    List α :=
  page.foldl (fun stored row => putRow key merge row stored) rows

section Rows

variable {α : Type} {key : α → RecordKey} {merge : α → α → α}

theorem AscendingBy.nodup_keys {rows : List α} (h : AscendingBy key rows) :
    (rows.map key).Nodup := by
  rw [List.Nodup, List.pairwise_map]
  refine h.imp fun {a b} hlt (heq : key a = key b) => ?_
  rw [heq] at hlt
  exact RecordKey.not_lt_self (key b) hlt

theorem key_of_rowAt {k : RecordKey} {rows : List α} {r : α}
    (h : rowAt key k rows = some r) : r ∈ rows ∧ key r = k :=
  ⟨List.mem_of_find?_eq_some h, by simpa using List.find?_some h⟩

theorem rowAt_eq_none {k : RecordKey} {rows : List α} :
    rowAt key k rows = none ↔ k ∉ rows.map key := by
  simp [rowAt, List.find?_eq_none]

/-- In ascending rows a row is what stands at its key. -/
theorem mem_iff_rowAt {rows : List α} (h : AscendingBy key rows) {r : α} :
    r ∈ rows ↔ rowAt key (key r) rows = some r := by
  constructor
  · intro hr
    cases hat : rowAt key (key r) rows with
    | none => exact absurd (List.mem_map_of_mem hr) (rowAt_eq_none.1 hat)
    | some r' =>
        obtain ⟨hr', hkey⟩ := key_of_rowAt hat
        rw [List.inj_on_of_nodup_map h.nodup_keys hr' hr hkey]
  · exact fun hat => (key_of_rowAt hat).1

/-- Putting a row in brings no key but its own. -/
theorem key_of_mem_putRow (hmerge : ∀ a b, key (merge a b) = key a) {row r : α}
    {rows : List α} (hr : r ∈ putRow key merge row rows) :
    key r = key row ∨ ∃ r' ∈ rows, key r = key r' := by
  induction rows with
  | nil =>
      rw [putRow, List.mem_singleton] at hr
      exact Or.inl (by rw [hr])
  | cons stored rows ih =>
      rw [putRow] at hr
      split at hr
      · next heq =>
          rcases List.mem_cons.1 hr with rfl | hr
          · exact Or.inl ((hmerge _ _).trans heq.symm)
          · exact Or.inr ⟨r, by simp [hr], rfl⟩
      · split at hr
        · rcases List.mem_cons.1 hr with rfl | hr
          · exact Or.inl rfl
          · exact Or.inr ⟨r, hr, rfl⟩
        · rcases List.mem_cons.1 hr with rfl | hr
          · exact Or.inr ⟨r, by simp, rfl⟩
          · rcases ih hr with h | ⟨r', hr', h⟩
            · exact Or.inl h
            · exact Or.inr ⟨r', by simp [hr'], h⟩

theorem ascending_putRow (hmerge : ∀ a b, key (merge a b) = key a) (row : α)
    {rows : List α} (h : AscendingBy key rows) :
    AscendingBy key (putRow key merge row rows) := by
  induction rows with
  | nil => exact List.pairwise_singleton _ _
  | cons stored rows ih =>
      obtain ⟨hhead, htail⟩ := List.pairwise_cons.1 h
      rw [putRow]
      split
      · refine List.pairwise_cons.2 ⟨fun r hr => ?_, htail⟩
        rw [hmerge]
        exact hhead r hr
      · next hne =>
          split
          · next hlt =>
              refine List.pairwise_cons.2 ⟨fun r hr => ?_, h⟩
              rcases List.mem_cons.1 hr with rfl | hr
              · exact hlt
              · exact RecordKey.lt_trans hlt (hhead r hr)
          · next hnlt =>
              refine List.pairwise_cons.2 ⟨fun r hr => ?_, ih htail⟩
              rcases key_of_mem_putRow hmerge hr with hk | ⟨r', hr', hk⟩
              · rw [hk]
                exact RecordKey.lt_of_not_lt hne hnlt
              · rw [hk]
                exact hhead r' hr'

/-- A row meets what stands at its key, and no other key notices. -/
theorem rowAt_putRow (hmerge : ∀ a b, key (merge a b) = key a) (row : α)
    {rows : List α} (h : AscendingBy key rows) (k : RecordKey) :
    rowAt key k (putRow key merge row rows) =
      if key row = k then some (settle merge (rowAt key k rows) row)
      else rowAt key k rows := by
  induction rows with
  | nil =>
      by_cases hk : key row = k <;> simp [putRow, rowAt, settle, hk]
  | cons stored rows ih =>
      obtain ⟨hhead, htail⟩ := List.pairwise_cons.1 h
      rw [putRow]
      split
      · next heq =>
          by_cases hk : key row = k
          · have hs : key stored = k := heq.symm.trans hk
            simp [rowAt, settle, hk, hs, hmerge]
          · have hs : key stored ≠ k := fun hs => hk (heq.trans hs)
            simp [rowAt, hk, hs, hmerge]
      · next hne =>
          split
          · next hlt =>
              by_cases hk : key row = k
              · -- No row that follows can stand at the new row's key.
                have hnone : rowAt key k (stored :: rows) = none := by
                  rw [rowAt_eq_none, ← hk]
                  intro hmem
                  obtain ⟨r, hr, hkey⟩ := List.mem_map.1 hmem
                  rcases List.mem_cons.1 hr with rfl | hr
                  · exact hne hkey.symm
                  · refine RecordKey.not_lt_self (key row) ?_
                    exact RecordKey.lt_trans hlt (hkey ▸ hhead r hr)
                rw [hnone, if_pos hk]
                simp [rowAt, settle, hk]
              · rw [if_neg hk]
                simp [rowAt, hk]
          · have ih := ih htail
            by_cases hs : key stored = k
            · have hk : key row ≠ k := fun hk => hne (hk.trans hs.symm)
              simp [rowAt, hk, hs]
            · simp only [rowAt, List.find?_cons, hs, decide_false] at ih ⊢
              exact ih

theorem putRows_cons (row : α) (page rows : List α) :
    putRows key merge (row :: page) rows =
      putRows key merge page (putRow key merge row rows) := rfl

theorem ascending_putRows (hmerge : ∀ a b, key (merge a b) = key a) (page : List α)
    {rows : List α} (h : AscendingBy key rows) :
    AscendingBy key (putRows key merge page rows) := by
  induction page generalizing rows with
  | nil => exact h
  | cons row page ih => exact ih (ascending_putRow hmerge row h)

theorem mem_keys_putRow (hmerge : ∀ a b, key (merge a b) = key a) (row : α)
    {rows : List α} (h : AscendingBy key rows) {k : RecordKey} :
    k ∈ (putRow key merge row rows).map key ↔ k = key row ∨ k ∈ rows.map key := by
  rw [← not_iff_not, ← rowAt_eq_none, rowAt_putRow hmerge row h, not_or,
    ← rowAt_eq_none]
  by_cases hk : key row = k
  · simp [hk]
  · simp [hk, Ne.symm hk]

theorem key_merge_of_keep (hkeep : ∀ a b, merge a b = a) (a b : α) :
    key (merge a b) = key a := by
  rw [hkeep]

/-- Where a row that stands at its key is kept, a new row is only taken in if its
key is free. -/
theorem mem_putRow_of_keep (hkeep : ∀ a b, merge a b = a) (row : α) {rows : List α}
    (h : AscendingBy key rows) {r : α} :
    r ∈ putRow key merge row rows ↔ r ∈ rows ∨ r = row ∧ key r ∉ rows.map key := by
  have hmerge : ∀ a b, key (merge a b) = key a := key_merge_of_keep hkeep
  rw [mem_iff_rowAt (ascending_putRow hmerge row h), rowAt_putRow hmerge row h,
    mem_iff_rowAt h, ← rowAt_eq_none]
  by_cases hk : key row = key r
  · rw [if_pos hk]
    cases hat : rowAt key (key r) rows with
    | none => simp [settle, eq_comm]
    | some stored => simp [settle, hkeep]
  · have hne : r ≠ row := fun heq => hk (by rw [heq])
    simp [hk, hne]

/-- The same for a page, as long as it does not hold two rows of one key. -/
theorem mem_putRows_of_keep (hkeep : ∀ a b, merge a b = a) {page rows : List α}
    (h : AscendingBy key rows)
    (hpage : ∀ a ∈ page, ∀ b ∈ page, key a = key b → a = b) {r : α} :
    r ∈ putRows key merge page rows ↔
      r ∈ rows ∨ r ∈ page ∧ key r ∉ rows.map key := by
  induction page generalizing rows with
  | nil => simp [putRows]
  | cons row page ih =>
      have hmerge : ∀ a b, key (merge a b) = key a := key_merge_of_keep hkeep
      have hrest : ∀ a ∈ page, ∀ b ∈ page, key a = key b → a = b :=
        fun a ha b hb => hpage a (by simp [ha]) b (by simp [hb])
      rw [putRows_cons, ih (ascending_putRow hmerge row h) hrest,
        mem_putRow_of_keep hkeep row h, mem_keys_putRow hmerge row h]
      constructor
      · rintro ((hr | ⟨rfl, hk⟩) | ⟨hr, hk⟩)
        · exact Or.inl hr
        · exact Or.inr ⟨by simp, hk⟩
        · exact Or.inr ⟨by simp [hr], fun hmem => hk (Or.inr hmem)⟩
      · rintro (hr | ⟨hr, hk⟩)
        · exact Or.inl (Or.inl hr)
        · by_cases heq : r = row
          · exact Or.inl (Or.inr ⟨heq, hk⟩)
          · have hr' : r ∈ page := (List.mem_cons.1 hr).resolve_left heq
            refine Or.inr ⟨hr', ?_⟩
            rintro (hkey | hmem)
            · exact heq (hpage r hr row (by simp) hkey)
            · exact hk hmem

/-- Where rows of one key are one row and meeting itself does not change a row,
a page adds its rows and does nothing else. -/
theorem mem_putRows_of_agree (hmerge : ∀ a b, key (merge a b) = key a)
    (hself : ∀ a, merge a a = a) {page rows : List α} (h : AscendingBy key rows)
    (hagree : ∀ a ∈ rows ++ page, ∀ b ∈ rows ++ page, key a = key b → a = b) {r : α} :
    r ∈ putRows key merge page rows ↔ r ∈ rows ∨ r ∈ page := by
  induction page generalizing rows with
  | nil => simp [putRows]
  | cons row page ih =>
      have hone : ∀ x, x ∈ putRow key merge row rows ↔ x ∈ rows ∨ x = row := by
        intro x
        rw [mem_iff_rowAt (ascending_putRow hmerge row h), rowAt_putRow hmerge row h,
          mem_iff_rowAt h]
        by_cases hk : key row = key x
        · rw [if_pos hk]
          cases hat : rowAt key (key x) rows with
          | none => simp [settle, eq_comm]
          | some stored =>
              obtain ⟨hmem, hkey⟩ := key_of_rowAt hat
              have hsame : stored = row :=
                hagree stored (by simp [hmem]) row (by simp) (hkey.trans hk.symm)
              simp [settle, hsame, hself, eq_comm]
        · have hne : x ≠ row := fun heq => hk (by rw [heq])
          simp [hk, hne]
      have hmem : ∀ x, x ∈ putRow key merge row rows ++ page ↔
          x ∈ rows ++ row :: page := by
        intro x
        simp only [List.mem_append, List.mem_cons, hone]
        tauto
      rw [putRows_cons, ih (ascending_putRow hmerge row h)
          (fun a ha b hb => hagree a ((hmem a).1 ha) b ((hmem b).1 hb)), hone]
      simp only [List.mem_cons]
      tauto

end Rows

/-! ## The two histories of a store -/

theorem latest?_eq_none {times : List Timestamp} :
    latest? times = none ↔ times = [] := by
  cases times <;> simp [latest?]

theorem latest?_eq_some {times : List Timestamp} {t : Timestamp}
    (h : latest? times = some t) : t ∈ times ∧ ∀ u ∈ times, u ≤ t := by
  cases times with
  | nil => simp [latest?] at h
  | cons x xs =>
      simp only [latest?, Option.some.injEq] at h
      subst h
      refine @foldl_choice _ (fun a b => b ≤ a) _ le_refl
        (fun _ _ _ hab hbc => le_trans hbc hab) (fun a b => ?_) xs x
      rw [Timestamp.later_eq_max]
      exact ⟨(le_total b a).imp max_eq_left max_eq_right,
        le_max_left a b, le_max_right a b⟩

/-- The bound that the latest instant sets is the one that all of them set. -/
theorem latest?_le_iff {times : List Timestamp} {t : Timestamp} :
    (∀ last ∈ latest? times, last ≤ t) ↔ ∀ u ∈ times, u ≤ t := by
  constructor
  · intro h u hu
    cases hl : latest? times with
    | none =>
        rw [latest?_eq_none.1 hl] at hu
        cases hu
    | some last => exact le_trans ((latest?_eq_some hl).2 u hu) (h last hl)
  · exact fun h last hl => h last (latest?_eq_some hl).1

theorem Order.key_refresh (stored latest : Order) :
    (stored.refresh latest).key = stored.key := rfl

theorem Order.refresh_self (o : Order) : o.refresh o = o := rfl

namespace Store

/-- Both histories are ascending by key, as every store keeps them. -/
structure Ascending (s : Store) : Prop where
  trades : AscendingBy Trade.key s.trades
  orders : AscendingBy Order.key s.orders

theorem ascending_empty : empty.Ascending :=
  ⟨List.Pairwise.nil, List.Pairwise.nil⟩

theorem Ascending.insertTrades {s : Store} (h : s.Ascending) (page : List Trade) :
    (s.insertTrades page).Ascending :=
  ⟨ascending_putRows (fun _ _ => rfl) page h.trades, h.orders⟩

theorem Ascending.upsertOrders {s : Store} (h : s.Ascending) (page : List Order) :
    (s.upsertOrders page).Ascending :=
  ⟨h.trades, ascending_putRows Order.key_refresh page h.orders⟩

theorem mem_insertTrades {s : Store} (h : s.Ascending) {page : List Trade}
    (hpage : ∀ a ∈ page, ∀ b ∈ page, a.key = b.key → a = b) {t : Trade} :
    t ∈ (s.insertTrades page).trades ↔
      t ∈ s.trades ∨ t ∈ page ∧ t.key ∉ s.trades.map Trade.key :=
  mem_putRows_of_keep (fun _ _ => rfl) h.trades hpage

theorem mem_insertTrades_of_agree {s : Store} (h : s.Ascending) {page : List Trade}
    (hagree : ∀ a ∈ s.trades ++ page, ∀ b ∈ s.trades ++ page, a.key = b.key → a = b)
    {t : Trade} : t ∈ (s.insertTrades page).trades ↔ t ∈ s.trades ∨ t ∈ page :=
  mem_putRows_of_agree (fun _ _ => rfl) (fun _ => rfl) h.trades hagree

theorem mem_upsertOrders_of_agree {s : Store} (h : s.Ascending) {page : List Order}
    (hagree : ∀ a ∈ s.orders ++ page, ∀ b ∈ s.orders ++ page, a.key = b.key → a = b)
    {o : Order} : o ∈ (s.upsertOrders page).orders ↔ o ∈ s.orders ∨ o ∈ page :=
  mem_putRows_of_agree Order.key_refresh Order.refresh_self h.orders hagree

end Store

end Tradebook
