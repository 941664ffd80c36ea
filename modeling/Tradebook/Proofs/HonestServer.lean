import Mathlib
import Tradebook.Proofs.SentRequests
import Tradebook.Proofs.WalkExact

/-!
# A history from an honest server

The server sees texts. An honest one reads the bounds of a span as numbers of
microseconds and answers with the newest rows between them (`HonestServer`). That
is all it promises, and it may break ties differently each time it is asked.

Of rows whose times are whole microseconds this is what a walk counts on
(`HonestServer.serves`). So a history is exactly what was to be had, and there is one
where there are fewer rows than fill the greatest page (`history_exact`). Only the
clock gives other instants. A walk does not go beyond it, and what is lost of it in
the text lies between two rows.
-/

namespace Tradebook.Ftx

open Walk

section Honest

variable {σ ρ : Type}

/-- The path of a page of a history, whatever texts bound it. -/
def pagePath (endpoint symbol low high : String) (size : Nat) : String :=
  endpoint ++ "?market=" ++ symbol ++ "&start_time=" ++ low ++ "&end_time=" ++ high ++
    "&limit=" ++ Text.natText size

/-- Asks for a page of a history in any words. -/
def askPage (c : Config) (wire : HttpWire σ) (decode : Json → Option ρ)
    (endpoint symbol low high : String) (size : Nat) (s : σ) :
    Outcome ExchangeError (List ρ) × σ :=
  perform c wire (rows? decode) (privateCall .get (pagePath endpoint symbol low high size)) s

theorem askHistory_eq_askPage (c : Config) (wire : HttpWire σ) (decode : Json → Option ρ)
    (endpoint symbol : String) (start upper : Timestamp) (size : Nat) (s : σ) :
    askHistory c wire decode endpoint symbol start upper size s =
      askPage c wire decode endpoint symbol (timeParameter start) (timeParameter upper) size s :=
  rfl

/-- The rows between two numbers of microseconds, both included. -/
def microSpan (view : RowView ρ) (rows : List ρ) (low high : Int) : List ρ :=
  rows.filter fun r => low ≤ (view.time r).micros ∧ (view.time r).micros ≤ high

/-- A server that has some rows, and when it is asked for a page of them answers with the
newest rows between the bounds that it reads. -/
structure HonestServer (c : Config) (wire : HttpWire σ) (decode : Json → Option ρ)
    (endpoint symbol : String) (view : RowView ρ) (rows : List ρ) : Prop where
  ids : (rows.map view.id).Nodup
  page : ∀ {low high : String} {a b : Int} {size : Nat} {s : σ} {page : List ρ} {s' : σ},
    microsOf? low = some a → microsOf? high = some b →
    askPage c wire decode endpoint symbol low high size s = (.ok page, s') →
    NewestPage view.time (microSpan view rows a b) size page

/-- Every request for a page between bounds that can be read is answered with one. -/
def AlwaysAnswers (c : Config) (wire : HttpWire σ) (decode : Json → Option ρ)
    (endpoint symbol : String) : Prop :=
  ∀ low high : String, (microsOf? low).isSome → (microsOf? high).isSome → ∀ size s,
    ∃ page s', askPage c wire decode endpoint symbol low high size s = (.ok page, s')

/-! ## What it comes to between instants -/

variable {c : Config} {wire : HttpWire σ} {decode : Json → Option ρ} {endpoint symbol : String}
  {view : RowView ρ} {rows : List ρ} {now : Timestamp}

/-- The span that a request names is one of instants, if it begins with a microsecond. -/
theorem exists_microSpan (hrows : ∀ r ∈ rows, (view.time r).Exact) {start upper : Timestamp}
    (hstart : start.Plain) (hwhole : start.microStart = start) (hupper : upper.Plain) :
    ∃ low high, microsOf? (timeParameter start) = some low ∧
      microsOf? (timeParameter upper) = some high ∧
      microSpan view rows low high = spanOf view rows start upper := by
  obtain ⟨low, hlow, hfrom⟩ := microsOf?_low hstart
  obtain ⟨high, hhigh, hto⟩ := microsOf?_high hupper
  refine ⟨low, high, hlow, hhigh, ?_⟩
  unfold microSpan spanOf
  refine List.filter_congr fun r hr => ?_
  rw [decide_eq_decide, hfrom _ (hrows r hr), hto _ (hrows r hr), hwhole]

theorem HonestServer.serves_plain (h : HonestServer c wire decode endpoint symbol view rows)
    (hrows : ∀ r ∈ rows, (view.time r).Exact) :
    Serves view rows (askHistory c wire decode endpoint symbol)
      (fun start => start.Plain ∧ start.microStart = start) Timestamp.Plain := by
  refine ⟨h.ids, fun r hr => (hrows r hr).no_leap, ?_⟩
  rintro start upper size s page s' ⟨hstart, hwhole⟩ hupper hask
  obtain ⟨low, high, hlow, hhigh, hspan⟩ := exists_microSpan hrows hstart hwhole hupper
  rw [← hspan]
  rw [askHistory_eq_askPage] at hask
  exact h.page hlow hhigh hask

theorem HonestServer.serves (h : HonestServer c wire decode endpoint symbol view rows)
    (hrows : ∀ r ∈ rows, (view.time r).Exact) (hclock : now.nanos < 1000000000) :
    Serves view rows (askHistory c wire decode endpoint symbol) Timestamp.Exact (Bound now) := by
  refine ⟨h.ids, fun r hr => Or.inl (hrows r hr), ?_⟩
  intro start upper size s page s' hstart hupper hask
  exact (h.serves_plain hrows).page ⟨hstart.no_leap, Timestamp.microStart_of_whole hstart.whole⟩
    (hupper.no_leap hclock) hask

theorem AlwaysAnswers.ask (h : AlwaysAnswers c wire decode endpoint symbol)
    (hclock : now.nanos < 1000000000) {start upper : Timestamp} (hstart : start.Exact)
    (hupper : Bound now upper) (size : Nat) (s : σ) :
    ∃ page s', askHistory c wire decode endpoint symbol start upper size s = (.ok page, s') := by
  exact h _ _ (isSome_microsOf?_timeParameter hstart.no_leap)
    (isSome_microsOf?_timeParameter (hupper.no_leap hclock)) size s

/-! ## The history -/

/-- The oldest `limit` of the rows that are wanted from an instant to another, by time and
then by id. -/
def oldestWanted (view : RowView ρ) (rows : List ρ) (keep : ρ → Bool) (since now : Timestamp)
    (limit : Nat) : List ρ :=
  (((spanOf view rows since now).filter keep).mergeSort (inOrder view)).take limit

/-- The history that an account gets from an honest server is the oldest of the rows that it
wants, whatever it wants. It gets one whenever fewer rows than fill the greatest page lie
between `since` and now, unless the end of a window is out of range. -/
theorem history_exact (hserver : HonestServer c wire decode endpoint symbol view rows)
    (hrows : ∀ r ∈ rows, (view.time r).Exact) {since : Timestamp} (hsince : since.Exact) {s : σ}
    (hclock : (wire.now s).nanos < 1000000000) (keep : ρ → Bool) (limit : Nat) :
    (∀ steps out s', history c wire steps view decode endpoint keep symbol since limit s =
        (.ok out, s') → out = oldestWanted view rows keep since (wire.now s) limit) ∧
    (AlwaysAnswers c wire decode endpoint symbol →
      (spanOf view rows since (wire.now s)).length < greatestPage →
      ∃ enough, ∀ steps, enough ≤ steps →
        (∃ s', history c wire steps view decode endpoint keep symbol since limit s =
          (.ok (oldestWanted view rows keep since (wire.now s) limit), s')) ∨
        (history c wire steps view decode endpoint keep symbol since limit s).1 = .overflow ∧
          ∃ start span, MayOpen (wire.now s) since start span ∧
            start.addSeconds? span = none) := by
  have hserves := hserver.serves hrows hclock
  refine ⟨fun steps out s' hok => since_exact hserves hsince hok, fun hanswers hfew => ?_⟩
  refine ⟨enoughPages rows.length + enoughWindows since (wire.now s), fun steps hsteps => ?_⟩
  have hsettles := since_settles hserves
    (fun start upper size s hstart hupper => hanswers.ask hclock hstart hupper size s) hsince hfew
    (show enoughPages rows.length ≤ steps by omega)
    (show enoughWindows since (wire.now s) ≤ steps by omega) keep endpoint c.historyPageSize
    limit s
  rcases hsettles with ⟨out, s', hok⟩ | hends
  · refine Or.inl ⟨s', ?_⟩
    rw [oldestWanted, ← since_exact hserves hsince hok]
    exact hok
  · exact Or.inr hends

end Honest

/-! ## A small server

It has two rows of one instant and is asked for one at a time, so a walk gets on only by
asking for more. The server reads its bounds out of the address of the request. -/

/-- The ids of two rows of the epoch, as far as they are between the bounds. The second one
comes first. -/
def twinIds (low high : Option Int) (size : Nat) : List Nat :=
  if low.any (· ≤ 0) && high.any (0 ≤ ·) then [2, 1].take size else []

/-- An answer that holds ids and nothing else. -/
def idPage (ids : List Nat) : Json :=
  .record [("success", .bool true), ("result", .array (ids.map .natural))]

/-- The value of a part of an address, behind its name. -/
def queryValue (url : String) (part : Nat) (name : String) : String :=
  .ofList (((url.toList.splitOn '&').getD part []).drop name.length)

/-- A server that has the two rows, an hour after the epoch. -/
def twins : HttpWire Unit where
  send request s :=
    let ids := twinIds (microsOf? (queryValue request.url 1 "start_time="))
      (microsOf? (queryValue request.url 2 "end_time="))
      (Text.ofDigits (queryValue request.url 3 "limit=").toList)
    (.ok ⟨200, Text.utf8 (idPage ids).compact⟩, s)
  now _ := (Timestamp.epoch.addSeconds? 3600).getD .epoch

/-- An account with credentials that asks for one row at a time. -/
def patient : Config :=
  { Config.default.withCredentials "key" "secret" with historyPageSize := 1 }

/-- A row that is its own id, of the epoch. -/
def twinView : RowView Nat :=
  ⟨id, fun _ => .epoch⟩

theorem splitOn_pagePath {base low high : String} {a b : Int} (hbase : '&' ∉ base.toList)
    (hlow : microsOf? low = some a) (hhigh : microsOf? high = some b) (size : Nat) :
    (base ++ pagePath "/api/fills" "BTC/USD" low high size).toList.splitOn '&' =
      [base.toList ++ "/api/fills?market=BTC/USD".toList, "start_time=".toList ++ low.toList,
        "end_time=".toList ++ high.toList, "limit=".toList ++ Text.decimalDigits size] := by
  have hread : ∀ {text : String} {m : Int}, microsOf? text = some m → '&' ∉ text.toList := by
    intro text m hm hmem
    have := mem_of_microsOf? hm '&' hmem
    revert this
    decide
  have hsize : '&' ∉ Text.decimalDigits size := by
    intro hmem
    have := Text.isDigit_of_mem_decimalDigits size '&' hmem
    revert this
    decide
  have hjoin : (base ++ pagePath "/api/fills" "BTC/USD" low high size).toList =
      ['&'].intercalate [base.toList ++ "/api/fills?market=BTC/USD".toList,
        "start_time=".toList ++ low.toList, "end_time=".toList ++ high.toList,
        "limit=".toList ++ Text.decimalDigits size] := by
    simp [pagePath, List.intercalate, Text.natText]
  rw [hjoin]
  refine List.splitOn_intercalate '&' ?_ (List.cons_ne_nil _ _)
  simp [hbase, hread hlow, hread hhigh, hsize]

theorem queryValue_eq {url name : String} {i : Nat} {value : List Char}
    (h : (url.toList.splitOn '&').getD i [] = name.toList ++ value) :
    queryValue url i name = .ofList value := by
  rw [queryValue, h, ← String.length_toList, List.drop_left]

theorem readAnswer_page {ids : List Nat} {text : String} (hprint : (idPage ids).compact = text)
    (htext : HttpAnswer.text ⟨200, Text.utf8 text⟩ = text)
    (hparse : Json.parse text = some (idPage ids))
    (hreply : Reply.ofJson? (rows? (Json.asNatural? idBound)) (idPage ids) =
      some ⟨true, some ids, none⟩) :
    readAnswer (rows? (Json.asNatural? idBound)) ⟨200, Text.utf8 (idPage ids).compact⟩ =
      .ok ids := by
  rw [hprint]
  unfold readAnswer
  simp only [htext, hparse, Option.bind_some, hreply]
  exact if_neg (by simp [HttpAnswer.isSuccess])

theorem readAnswer_twinIds (low high : Option Int) (size : Nat) :
    readAnswer (rows? (Json.asNatural? idBound))
      ⟨200, Text.utf8 (idPage (twinIds low high size)).compact⟩ = .ok (twinIds low high size) := by
  have hnone := @readAnswer_page [] "\x7b\"success\":true,\"result\":[]\x7d"
    (by cbv) (by cbv) (by cbv) rfl
  have hone := @readAnswer_page [2] "\x7b\"success\":true,\"result\":[2]\x7d"
    (by cbv) (by cbv) (by cbv) rfl
  have htwo := @readAnswer_page [2, 1] "\x7b\"success\":true,\"result\":[2,1]\x7d"
    (by cbv) (by cbv) (by cbv) rfl
  unfold twinIds
  split
  · rcases size with _ | _ | size
    · exact hnone
    · exact hone
    · rw [List.take_of_length_le (by simp)]
      exact htwo
  · exact hnone

/-- A signed request can be sent if its key can. -/
theorem request_signed {c : Config} {key secret : String}
    (hcredentials : c.credentials? = some (key, secret)) (hsubaccount : c.subaccount = none)
    (hkey : isHeaderValue key = true) (now : Timestamp) (path : String) :
    ∃ headers, request c now (privateCall .get path) =
        .ok ⟨.get, baseUrl c ++ path, headers, none⟩ ∧
      headers.all (isHeaderValue ·.2) = true := by
  refine ⟨[("FTX-KEY", key),
    ("FTX-SIGN", Crypto.sign secret (requestPayload now.milliseconds "GET" path "")),
    ("FTX-TS", Text.intText now.milliseconds)], ?_, ?_⟩
  · unfold request privateCall signedHeaders
    simp only [hcredentials, hsubaccount]
    rfl
  · simp only [List.all_cons, List.all_nil, hkey, isHeaderValue_sign, isHeaderValue_intText]
    rfl

theorem send_twins {low high : String} {a b : Int} (hlow : microsOf? low = some a)
    (hhigh : microsOf? high = some b) (size : Nat) (headers : List (String × String)) (s : Unit) :
    twins.send ⟨.get, baseUrl patient ++ pagePath "/api/fills" "BTC/USD" low high size, headers,
      none⟩ s = (.ok ⟨200, Text.utf8 (idPage (twinIds (some a) (some b) size)).compact⟩, s) := by
  have hparts := splitOn_pagePath (by decide +kernel : '&' ∉ (baseUrl patient).toList) hlow hhigh
    size
  have hlow' := queryValue_eq (i := 1) (by rw [hparts]; rfl)
  have hhigh' := queryValue_eq (i := 2) (by rw [hparts]; rfl)
  have hsize := queryValue_eq (i := 3) (by rw [hparts]; rfl)
  simp only [twins, hlow', hhigh', hsize, String.ofList_toList, String.toList_ofList, hlow, hhigh,
    Text.ofDigits_decimalDigits]

theorem askPage_twins {low high : String} {a b : Int} (hlow : microsOf? low = some a)
    (hhigh : microsOf? high = some b) (size : Nat) (s : Unit) :
    askPage patient twins (Json.asNatural? idBound) "/api/fills" "BTC/USD" low high size s =
      (.ok (twinIds (some a) (some b) size), s) := by
  obtain ⟨headers, hrequest, hheaders⟩ := request_signed (c := patient) rfl rfl (by decide)
    (twins.now s) (pagePath "/api/fills" "BTC/USD" low high size)
  unfold askPage perform
  simp only [hrequest, hheaders, if_true, send_twins hlow hhigh, readAnswer_twinIds]

theorem newestPage_twins (a b : Int) (size : Nat) :
    NewestPage twinView.time (microSpan twinView [1, 2] a b) size
      (twinIds (some a) (some b) size) := by
  have hspan : microSpan twinView [1, 2] a b = if a ≤ 0 ∧ 0 ≤ b then [1, 2] else [] := by
    unfold microSpan
    split
    · next h => simpa [twinView, Timestamp.micros, Timestamp.epoch] using h
    · next h => simpa [twinView, Timestamp.micros, Timestamp.epoch] using h
  rw [hspan, twinIds]
  by_cases h : a ≤ 0 ∧ 0 ≤ b
  · rw [if_pos h, if_pos (by simpa using h)]
    refine ⟨[2, 1].drop size, ?_, by simp, fun p _ r _ => le_refl _⟩
    rw [List.take_append_drop]
    decide
  · rw [if_neg h, if_neg (by simpa using h)]
    exact ⟨[], List.Perm.refl _, by simp, fun p hp => absurd hp List.not_mem_nil⟩

theorem honest_twins :
    HonestServer patient twins (Json.asNatural? idBound) "/api/fills" "BTC/USD" twinView
      [1, 2] := by
  refine ⟨by decide, fun {low high a b size s page s'} hlow hhigh hask => ?_⟩
  rw [askPage_twins hlow hhigh] at hask
  rw [← Outcome.ok.inj (Prod.mk.inj hask).1]
  exact newestPage_twins a b size

theorem alwaysAnswers_twins :
    AlwaysAnswers patient twins (Json.asNatural? idBound) "/api/fills" "BTC/USD" := by
  intro low high hlow hhigh size s
  obtain ⟨a, ha⟩ := Option.isSome_iff_exists.1 hlow
  obtain ⟨b, hb⟩ := Option.isSome_iff_exists.1 hhigh
  exact ⟨_, s, askPage_twins ha hb size s⟩

theorem exact_epoch : Timestamp.epoch.Exact :=
  ⟨by decide, by decide, by decide⟩

theorem oldestWanted_twins :
    oldestWanted twinView [1, 2] (fun _ => true) .epoch (twins.now ()) 5 = [1, 2] := by
  cbv

/-- All windows of the first hour are in range. -/
theorem inRange_twins {start : Timestamp} {span : Nat}
    (h : MayOpen (twins.now ()) .epoch start span) : start.addSeconds? span ≠ none := by
  intro hrange
  cases h with
  | first => exact absurd hrange (by decide)
  | next hopen hreach hless =>
      obtain ⟨hstart, -, hlong⟩ := hopen.spec exact_epoch
      obtain ⟨-, -, hseconds⟩ := hstart.addSeconds? hreach
      have hle := Timestamp.seconds_le_of_le (le_of_lt hless)
      have hsince := hstart.since_epoch
      unfold firstSpan at hlong
      have hnow : (twins.now ()).seconds = 3600 := rfl
      omega

/-- Both rows come, though a page holds one and both are of one instant. -/
theorem history_exact_twins :
    (∀ r ∈ [1, 2], (twinView.time r).Exact) ∧ Timestamp.epoch.Exact ∧
    (twins.now ()).nanos < 1000000000 ∧
    ∃ enough, ∀ steps, enough ≤ steps →
      ∃ s', history patient twins steps twinView (Json.asNatural? idBound) "/api/fills"
        (fun _ => true) "BTC/USD" .epoch 5 () = (.ok [1, 2], s') := by
  have hrows : ∀ r ∈ [1, 2], (twinView.time r).Exact := fun r _ => exact_epoch
  have hclock : (twins.now ()).nanos < 1000000000 := by decide
  obtain ⟨-, hends⟩ := history_exact honest_twins hrows exact_epoch hclock (fun _ => true) 5
  obtain ⟨enough, hends⟩ := hends alwaysAnswers_twins (by decide)
  refine ⟨hrows, exact_epoch, hclock, enough, fun steps hsteps => ?_⟩
  rcases hends steps hsteps with hok | ⟨-, start, span, hopen, hrange⟩
  · rwa [oldestWanted_twins] at hok
  · exact absurd hrange (inRange_twins hopen)

end Tradebook.Ftx
