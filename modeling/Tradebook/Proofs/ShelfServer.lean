import Tradebook.Proofs.HonestServer
import Tradebook.Proofs.RecordText
import Tradebook.Proofs.Utf8Text

/-!
# A server with fills on a shelf

The shelf holds any fills, the newest in front. Whoever asks for a page is sent the first ones
between the bounds, as the texts that an exchange sends. A shelf may have a most that it sends
at once, whatever it is asked for.

All that a page goes through on its way is undone at the other end: the fills are written as
JSON and read back (`FillRow.ofJson?_toJson`), and so is the frame around them and the bytes of
the text (`readAnswer_granted`). So a page that is asked for is the page that comes
(`askPage_shelf`), and a shelf that sends as many as it has is an honest server
(`honest_shelf`).
-/

namespace Tradebook

open Json

/-- A text that is sent is read, unless it begins with a byte order mark. -/
theorem HttpAnswer.text_utf8 (status : Nat) {s : String}
    (h : ∀ c ∈ s.toList.head?, c.toNat ≠ 0xFEFF) : text ⟨status, Text.utf8 s⟩ = s := by
  unfold text
  rw [Text.decodeLossy_utf8]
  cases hs : s.toList with
  | nil => exact (String.toList_eq_nil_iff.1 hs).symm
  | cons c rest =>
      dsimp only
      rw [if_neg (h c (by rw [hs]; rfl)), ← hs, String.ofList_toList]

namespace Ftx

open Walk

namespace FillRow

/-- A fill as the exchange writes it. -/
def toJson (r : FillRow) : Json :=
  record [("id", natural r.id), ("market", nullable text r.market), ("side", text r.side),
    ("price", r.price.toJson), ("size", r.size.toJson), ("fee", r.fee.toJson),
    ("feeCurrency", text r.feeCurrency), ("liquidity", text r.liquidity),
    ("orderId", nullable natural r.orderId), ("time", r.time.toJson)]

/-- A fill that its text is read as: its numbers are some that there can be, no zero has a sign,
and no leap second is within a minute. -/
structure Readable (r : FillRow) : Prop where
  id : r.id < idBound
  order : ∀ n ∈ r.orderId, n < idBound
  price : r.price.asRead = r.price
  size : r.size.asRead = r.size
  fee : r.fee.asRead = r.fee
  time : r.time.asRead = r.time

theorem written_toJson (r : FillRow) : Written r.toJson :=
  written_record (by simp)

theorem ofJson?_toJson {r : FillRow} (h : r.Readable) : ofJson? r.toJson = some r := by
  have hid : asNatural? idBound (natural r.id) = some r.id := asNatural?_natural h.id (le_refl _)
  have hmarket : optional asText? (some (nullable text r.market)) = some r.market :=
    optional_nullable asText?_text (by simp [text]) r.market
  have horder : optional (asNatural? idBound) (some (nullable natural r.orderId)) =
      some r.orderId := by
    cases hn : r.orderId with
    | none => rfl
    | some n =>
        show (asNatural? idBound (natural n)).map some = some (some n)
        rw [asNatural?_natural (h.order n hn) (le_refl _), Option.map_some]
  unfold ofJson? toJson
  rw [fields?_record, Option.bind_eq_bind, Option.bind_some]
  · simp only [List.map_cons, List.map_nil, required_some]
    rw [hid, hmarket, asDecimal?_toJson, asDecimal?_toJson, asDecimal?_toJson, horder,
      asTimestamp?_toJson, h.price, h.size, h.fee, h.time]
    rfl
  · rfl
  · decide

end FillRow

/-- So many seconds and nanoseconds after the epoch. -/
def epochPlus (seconds nanos : Nat) : Timestamp :=
  (Timestamp.ofParts? seconds nanos).getD .epoch

/-- A fill that is told apart by its number and its time, and nothing else. -/
def fillAt (time : Timestamp) (id : Nat) : FillRow where
  id
  market := none
  side := Side.buy.name
  price := (Decimal.ofParts? 1 0).getD .zero
  size := (Decimal.ofParts? 1 0).getD .zero
  fee := .zero
  feeCurrency := "USD"
  liquidity := "taker"
  orderId := none
  time

theorem readable_fillAt {time : Timestamp} (htime : time.asRead = time) {id : Nat}
    (h : id < idBound) : (fillAt time id).Readable where
  id := h
  order := nofun
  price := rfl
  size := rfl
  fee := rfl
  time := htime

/-- So many fills of one instant. -/
def fillsAt (time : Timestamp) (n : Nat) : List FillRow :=
  (List.range n).map (fillAt time)

theorem mem_fillsAt {time : Timestamp} {n : Nat} {r : FillRow} :
    r ∈ fillsAt time n ↔ ∃ id < n, fillAt time id = r := by
  simp [fillsAt]

theorem length_fillsAt (time : Timestamp) (n : Nat) : (fillsAt time n).length = n := by
  rw [fillsAt, List.length_map, List.length_range]

theorem ids_fillsAt (time : Timestamp) (n : Nat) :
    (fillsAt time n).map FillRow.id = List.range n := by
  rw [fillsAt, List.map_map]
  exact List.map_id _

theorem time_fillsAt {time : Timestamp} {n : Nat} {r : FillRow} (h : r ∈ fillsAt time n) :
    r.time = time := by
  obtain ⟨id, -, rfl⟩ := mem_fillsAt.1 h
  rfl

theorem readable_fillsAt {time : Timestamp} (htime : time.asRead = time) {n : Nat}
    (hn : n ≤ idBound) : ∀ r ∈ fillsAt time n, r.Readable := by
  intro r hr
  obtain ⟨id, hid, rfl⟩ := mem_fillsAt.1 hr
  exact readable_fillAt htime (lt_of_lt_of_le hid hn)

theorem sorted_fillsAt (time : Timestamp) (n : Nat) :
    (fillsAt time n).Pairwise fun a b => b.time ≤ a.time := by
  refine List.pairwise_of_forall_mem_list fun a ha b hb => ?_
  rw [time_fillsAt ha, time_fillsAt hb]

/-- The answer that grants a list of rows. -/
def granted (rows : List Json) : Json :=
  record [("success", bool true), ("result", array rows), ("error", null)]

theorem written_granted {rows : List Json} (h : ∀ v ∈ rows, Written v) :
    Written (granted rows) :=
  written_record (by simp [Written.bool, Written.null, Written.array h])

theorem mapM_ofJson? {ρ : Type} {encode : ρ → Json} {decode : Json → Option ρ} {rows : List ρ}
    (h : ∀ r ∈ rows, decode (encode r) = some r) :
    (rows.map encode).mapM decode = some rows := by
  induction rows with
  | nil => rfl
  | cons r rows ih =>
      rw [List.map_cons, List.mapM_cons, h r (by simp), ih fun r hr => h r (by simp [hr])]
      rfl

/-- Rows that are written and sent are the rows that are read. -/
theorem readAnswer_granted {ρ : Type} {encode : ρ → Json} {decode : Json → Option ρ}
    {rows : List ρ} (hwritten : ∀ r, Written (encode r))
    (hread : ∀ r ∈ rows, decode (encode r) = some r) :
    readAnswer (rows? decode) ⟨200, Text.utf8 (granted (rows.map encode)).compact⟩ = .ok rows := by
  have hparse : parse (granted (rows.map encode)).compact = some (granted (rows.map encode)) := by
    refine parse_compact (written_granted fun v hv => ?_)
    obtain ⟨r, -, rfl⟩ := List.mem_map.1 hv
    exact hwritten r
  have htext : HttpAnswer.text ⟨200, Text.utf8 (granted (rows.map encode)).compact⟩ =
      (granted (rows.map encode)).compact := by
    refine HttpAnswer.text_utf8 200 fun c hc => ?_
    rw [compact, String.toList_ofList, granted, record] at hc
    obtain rfl : Char.ofNat 123 = c := by simpa [chars] using hc
    decide
  have hreply : Reply.ofJson? (rows? decode) (granted (rows.map encode)) =
      some ⟨true, some rows, none⟩ := by
    have hrows : optional (rows? decode) (some (array (rows.map encode))) = some (some rows) := by
      show (((rows.map encode).mapM decode).map some : Option (Option (List ρ))) = _
      rw [mapM_ofJson? hread, Option.map_some]
    unfold Reply.ofJson? granted
    rw [fields?_record, Option.bind_eq_bind, Option.bind_some]
    · simp only [List.map_cons, List.map_nil, required_some]
      rw [hrows]
      rfl
    · rfl
    · decide
  unfold readAnswer
  simp only [htext, hparse, Option.bind_some, hreply]
  exact if_neg (by simp [HttpAnswer.isSuccess])

/-- A refusal is read as no rows. -/
theorem readAnswer_ne_ok {α : Type} {decode : Json → Option α} {a : HttpAnswer}
    (h : a.isSuccess = false) (value : α) : readAnswer decode a ≠ .ok value := by
  unfold readAnswer
  dsimp only
  split
  · rw [h]
    simp
  · rw [if_pos (by simp [h])]
    simp

/-! ## The shelf -/

/-- The fills that are sent to one who asks for so many between two numbers of microseconds. -/
def shelfPage (rows : List FillRow) (most : Nat) (low high : Int) (size : Nat) : List FillRow :=
  (microSpan fillView rows low high).take (min size most)

/-- A server that has some fills, sends no more than `most` of them at once and has a clock that
stands still. -/
def shelf (rows : List FillRow) (most : Nat) (clock : Timestamp) : HttpWire Unit where
  send request s :=
    match microsOf? (queryValue request.url 1 "start_time="),
      microsOf? (queryValue request.url 2 "end_time=") with
    | some low, some high =>
      let size := Text.ofDigits (queryValue request.url 3 "limit=").toList
      let page := shelfPage rows most low high size
      (.ok ⟨200, Text.utf8 (granted (page.map FillRow.toJson)).compact⟩, s)
    | _, _ => (.ok ⟨400, []⟩, s)
  now _ := clock

/-- An account with credentials that asks for so many rows at a time. -/
def pager (size : Nat) : Config :=
  { Config.default.withCredentials "key" "secret" with historyPageSize := size }

section Shelf

variable {rows : List FillRow} (most : Nat) (clock : Timestamp) (pageSize : Nat)

theorem send_shelf (rows : List FillRow) (request : HttpRequest) (s : Unit) :
    (∃ low high size, (shelf rows most clock).send request s = (.ok ⟨200, Text.utf8
      (granted ((shelfPage rows most low high size).map FillRow.toJson)).compact⟩, s)) ∨
    (shelf rows most clock).send request s = (.ok ⟨400, []⟩, s) := by
  unfold shelf
  dsimp only
  split
  · exact Or.inl ⟨_, _, _, rfl⟩
  · exact Or.inr rfl

theorem mem_shelfPage {low high : Int} {size : Nat} {r : FillRow}
    (h : r ∈ shelfPage rows most low high size) : r ∈ rows :=
  List.mem_of_mem_filter (List.mem_of_mem_take h)

theorem readAnswer_shelf (hrows : ∀ r ∈ rows, r.Readable) (low high : Int) (size : Nat) :
    readAnswer (rows? FillRow.ofJson?) ⟨200, Text.utf8
      (granted ((shelfPage rows most low high size).map FillRow.toJson)).compact⟩ =
        .ok (shelfPage rows most low high size) :=
  readAnswer_granted FillRow.written_toJson fun r hr =>
    FillRow.ofJson?_toJson (hrows r (mem_shelfPage most hr))

theorem askPage_shelf (hrows : ∀ r ∈ rows, r.Readable) {low high : String} {a b : Int}
    (hlow : microsOf? low = some a) (hhigh : microsOf? high = some b) (size : Nat) (s : Unit) :
    askPage (pager pageSize) (shelf rows most clock) FillRow.ofJson? "/api/fills" "BTC/USD" low
      high size s = (.ok (shelfPage rows most a b size), s) := by
  obtain ⟨headers, hrequest, hheaders⟩ := request_signed (c := pager pageSize) rfl rfl
    (by decide) clock (pagePath "/api/fills" "BTC/USD" low high size)
  have hbase : '&' ∉ (baseUrl (pager pageSize)).toList := by
    change '&' ∉ (baseUrl Config.default).toList
    decide +kernel
  have hparts := splitOn_pagePath hbase hlow hhigh size
  have hlow' := queryValue_eq (i := 1) (by rw [hparts]; rfl)
  have hhigh' := queryValue_eq (i := 2) (by rw [hparts]; rfl)
  have hsize := queryValue_eq (i := 3) (by rw [hparts]; rfl)
  unfold askPage perform shelf
  simp only [hrequest, hheaders, if_true, hlow', hhigh', hsize, String.ofList_toList,
    String.toList_ofList, hlow, hhigh, Text.ofDigits_decimalDigits,
    readAnswer_shelf most hrows]

theorem askHistory_shelf (hrows : ∀ r ∈ rows, r.Readable) {start upper : Timestamp}
    (hstart : start.Plain) (hfrom : 0 ≤ start.seconds) (hupper : upper.Plain)
    (hto : 0 ≤ upper.seconds) (size : Nat) (s : Unit) :
    askHistory (pager pageSize) (shelf rows most clock) FillRow.ofJson? "/api/fills" "BTC/USD"
      start upper size s = (.ok (shelfPage rows most start.micros upper.micros size), s) := by
  rw [askHistory_eq_askPage]
  exact askPage_shelf most clock pageSize hrows (microsOf?_timeParameter hfrom hstart)
    (microsOf?_timeParameter hto hupper) size s

/-- The first rows of a list that has the newest in front are the newest. -/
theorem newestPage_take {ρ : Type} {view : RowView ρ} {span : List ρ}
    (hsorted : span.Pairwise fun a b => view.time b ≤ view.time a) (size : Nat) :
    NewestPage view.time span size (span.take size) := by
  refine ⟨span.drop size, by rw [List.take_append_drop], List.length_take, fun p hp r hr => ?_⟩
  rw [← List.take_append_drop size span, List.pairwise_append] at hsorted
  exact hsorted.2.2 p hp r hr

theorem newestPage_shelf (hsorted : rows.Pairwise fun a b => b.time ≤ a.time) (low high : Int)
    (size : Nat) :
    NewestPage fillView.time (microSpan fillView rows low high) (min size most)
      (shelfPage rows most low high size) :=
  newestPage_take (hsorted.sublist List.filter_sublist) _

theorem honest_shelf (hids : (rows.map FillRow.id).Nodup) (hrows : ∀ r ∈ rows, r.Readable)
    (hsorted : rows.Pairwise fun a b => b.time ≤ a.time) (hmost : rows.length ≤ most) :
    HonestServer (pager pageSize) (shelf rows most clock) FillRow.ofJson? "/api/fills" "BTC/USD"
      fillView rows := by
  refine ⟨hids, fun {low high a b size s page s'} hlow hhigh hask => ?_⟩
  rw [askPage_shelf most clock pageSize hrows hlow hhigh] at hask
  rw [← Outcome.ok.inj (Prod.mk.inj hask).1]
  -- A span has no more rows than the shelf, so the bound on what is sent is none.
  have hspan : (microSpan fillView rows a b).length ≤ most :=
    le_trans (List.length_filter_le _ _) hmost
  have hpage : shelfPage rows most a b size = (microSpan fillView rows a b).take size := by
    unfold shelfPage
    rcases le_total size most with hle | hle
    · rw [min_eq_left hle]
    · rw [min_eq_right hle, List.take_of_length_le hspan,
        List.take_of_length_le (le_trans hspan hle)]
  rw [hpage]
  exact newestPage_take (hsorted.sublist List.filter_sublist) size

theorem alwaysAnswers_shelf (hrows : ∀ r ∈ rows, r.Readable) :
    AlwaysAnswers (pager pageSize) (shelf rows most clock) FillRow.ofJson? "/api/fills"
      "BTC/USD" := by
  intro low high hlow hhigh size s
  obtain ⟨a, ha⟩ := Option.isSome_iff_exists.1 hlow
  obtain ⟨b, hb⟩ := Option.isSome_iff_exists.1 hhigh
  exact ⟨_, s, askPage_shelf most clock pageSize hrows ha hb size s⟩

/-- Whatever is asked for, what comes is from the shelf. -/
theorem page_of_shelf (hrows : ∀ r ∈ rows, r.Readable) {start upper : Timestamp} {size : Nat}
    {s s' : Unit} {page : List FillRow}
    (h : askHistory (pager pageSize) (shelf rows most clock) FillRow.ofJson? "/api/fills" "BTC/USD"
      start upper size s = (.ok page, s')) : ∀ r ∈ page, r ∈ rows := by
  unfold askHistory perform at h
  split at h
  · next request _ =>
      split at h
      · rcases send_shelf most clock rows request s with ⟨low, high, size, hsend⟩ | hsend
        · rw [hsend] at h
          simp only [readAnswer_shelf most hrows] at h
          intro r hr
          rw [← Outcome.ok.inj (Prod.mk.inj h).1] at hr
          exact mem_shelfPage most hr
        · rw [hsend] at h
          exact absurd (Prod.mk.inj h).1 (readAnswer_ne_ok rfl page)
      · cases (Prod.mk.inj h).1
  all_goals cases (Prod.mk.inj h).1

end Shelf

end Ftx

end Tradebook
