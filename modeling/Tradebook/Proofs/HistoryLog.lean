import Tradebook.Ftx.Client
import Tradebook.Proofs.AnyServer

/-!
# The log of a history

A history is a walk over the wire of an account. Here the wire writes down what it sends
and the walk what it asks for, into one log, and `history_is_proper` reads it: the rows of
a good history are in the answers, and a failure is the last entry and the end of the
history.

That writing things down changes nothing is a matter of the world alone: the same answers
lead the same way, whatever else a world holds (`Mirrors`). The log of a walk then falls
into the entries of its pages and those of the one question that stopped it
(`recordedHistory_log`).
-/

namespace Tradebook.Ftx

namespace Walk

/-! ## The same walk in another world -/

section Mirrored

variable {σ τ ρ : Type} {ask : Ask σ ρ} {ask' : Ask τ ρ} {plain : τ → σ}

/-- The same answers lead the same way, whatever else a world holds. -/
def Mirrors (plain : τ → σ) (ask' : Ask τ ρ) (ask : Ask σ ρ) : Prop :=
  ∀ start upper size t,
    ask start upper size (plain t) =
      ((ask' start upper size t).1, plain (ask' start upper size t).2)

theorem Mirrors.window (h : Mirrors plain ask' ask) (view : RowView ρ) (keep : ρ → Bool)
    (endpoint : String) (pageSize : Nat) (start : Timestamp) (steps : Nat) (upper : Timestamp)
    (size : Nat) (found : Found ρ) (t : τ) :
    window view keep ask endpoint pageSize start steps upper size found (plain t) =
      ((window view keep ask' endpoint pageSize start steps upper size found t).1,
        plain (window view keep ask' endpoint pageSize start steps upper size found t).2) := by
  induction steps generalizing upper size found t with
  | zero => rfl
  | succ steps ih =>
      rw [window_succ, window_succ, turn, turn, h]
      rcases ask' start upper size t with ⟨page | cause | _ | _, t₁⟩
      case ok =>
        cases holdest : earliest? (page.map view.time) with
        | none => simp only [holdest]
        | some oldest =>
            simp only [holdest]
            split_ifs
            · rfl
            · exact ih oldest pageSize _ t₁
            · rfl
            · exact ih upper (min (2 * size) greatestPage) _ t₁
      all_goals rfl

theorem Mirrors.windows (h : Mirrors plain ask' ask) (view : RowView ρ) (keep : ρ → Bool)
    (endpoint : String) (pageSize limit pages : Nat) (now : Timestamp) (steps : Nat)
    (start : Timestamp) (span : Nat) (found : Found ρ) (t : τ) :
    windows view keep ask endpoint pageSize limit pages now steps start span found (plain t) =
      ((windows view keep ask' endpoint pageSize limit pages now steps start span found t).1,
        plain (windows view keep ask' endpoint pageSize limit pages now steps start span found
          t).2) := by
  induction steps generalizing start span found t with
  | zero => rfl
  | succ steps ih =>
      rw [Walk.windows, Walk.windows]
      cases start.addSeconds? span with
      | none => rfl
      | some reach =>
          simp only [h.window]
          rcases Walk.window view keep ask' endpoint pageSize start pages (reach.earlier now)
            pageSize found t with ⟨more | cause | _ | _, t₁⟩
          case ok =>
            dsimp only
            split_ifs
            · rfl
            · exact ih _ _ more t₁
            · exact ih _ _ more t₁
          all_goals rfl

theorem Mirrors.since (h : Mirrors plain ask' ask) (view : RowView ρ) (keep : ρ → Bool)
    (endpoint : String) (pageSize limit steps : Nat) (now since : Timestamp) (t : τ) :
    Walk.since view keep ask endpoint pageSize limit steps now since (plain t) =
      ((Walk.since view keep ask' endpoint pageSize limit steps now since t).1,
        plain (Walk.since view keep ask' endpoint pageSize limit steps now since t).2) := by
  unfold Walk.since
  rw [h.windows]
  rcases Walk.windows view keep ask' endpoint (max 1 pageSize) limit steps now steps since
    firstSpan Found.none t with ⟨rows | cause | _ | _, t₁⟩
  all_goals rfl

end Mirrored

end Walk

/-! ## What goes over the wire -/

open Walk

section Logged

variable {σ ρ : Type}

/-- A request that was sent and its answer, or a page that was asked for and what came of it. -/
inductive WalkEvent (ρ : Type) where
  | sent (request : HttpRequest) (answer : Except String HttpAnswer)
  | asked (start upper : Timestamp) (size : Nat) (result : Outcome ExchangeError (List ρ))

/-- The same wire, writing down what is sent. -/
def recordedWire (ρ : Type) (wire : HttpWire σ) : HttpWire (σ × List (WalkEvent ρ)) where
  send request s :=
    let answer := wire.send request s.1
    (answer.1, answer.2, s.2 ++ [.sent request answer.1])
  now s := wire.now s.1

/-- The same questions, writing down what is asked for. -/
def recordedAsk (ask : Ask (σ × List (WalkEvent ρ)) ρ) : Ask (σ × List (WalkEvent ρ)) ρ :=
  fun start upper size s =>
    let answer := ask start upper size s
    (answer.1, answer.2.1, answer.2.2 ++ [.asked start upper size answer.1])

/-- What the answer to a request says of a page. -/
def pageOf (decode : Json → Option ρ) :
    Except String HttpAnswer → Outcome ExchangeError (List ρ)
  | .ok answer => readAnswer (rows? decode) answer
  | .error detail => .error (.unreachable detail)

/-- The rows in the answer to a request. -/
def WalkEvent.rows (decode : Json → Option ρ) : WalkEvent ρ → List ρ
  | sent _ answer =>
    match pageOf decode answer with
    | .ok page => page
    | _ => []
  | asked _ _ _ _ => []

/-- All rows that a server sent. -/
def rowsSent (decode : Json → Option ρ) (log : List (WalkEvent ρ)) : List ρ :=
  log.flatMap (WalkEvent.rows decode)

/-- The history of an account, with a log of all that is asked for and sent. -/
def recordedHistory (c : Config) (wire : HttpWire σ) (steps : Nat) (view : RowView ρ)
    (decode : Json → Option ρ) (endpoint : String) (keep : ρ → Bool) (symbol : String)
    (since : Timestamp) (limit : Nat) (s : σ) :
    Outcome ExchangeError (List ρ) × σ × List (WalkEvent ρ) :=
  Walk.since view keep (recordedAsk (askHistory c (recordedWire ρ wire) decode endpoint symbol))
    endpoint c.historyPageSize limit steps (wire.now s) since (s, [])

/-- What is written down when a page is asked for: the request, if it could be sent, and
then what came of it. -/
inductive CallLog (decode : Json → Option ρ) (result : Outcome ExchangeError (List ρ)) :
    List (WalkEvent ρ) → Prop
  | sent (request : HttpRequest) {answer : Except String HttpAnswer} (start upper : Timestamp)
      (size : Nat) (hanswer : pageOf decode answer = result) :
      CallLog decode result [.sent request answer, .asked start upper size result]
  | unsent (start upper : Timestamp) (size : Nat) (hnone : ∀ page, result ≠ .ok page) :
      CallLog decode result [.asked start upper size result]

/-- An event that says that a page came. -/
def WalkEvent.Granted (decode : Json → Option ρ) : WalkEvent ρ → Prop
  | sent _ answer => ∃ page, pageOf decode answer = .ok page
  | asked _ _ _ result => ∃ page, result = .ok page

section Calls

variable (c : Config) (wire : HttpWire σ) (decode : Json → Option ρ)

theorem recordedAsk_log (endpoint symbol : String) (start upper : Timestamp) (size : Nat) (s : σ)
    (log : List (WalkEvent ρ)) :
    ∃ events,
      recordedAsk (askHistory c (recordedWire ρ wire) decode endpoint symbol) start upper size
        (s, log) =
        ((askHistory c wire decode endpoint symbol start upper size s).1,
          (askHistory c wire decode endpoint symbol start upper size s).2, log ++ events) ∧
      CallLog decode (askHistory c wire decode endpoint symbol start upper size s).1 events := by
  unfold recordedAsk askHistory perform
  simp only [recordedWire]
  rcases request c (wire.now s) (privateCall .get (historyPath endpoint symbol start upper size))
    with request | cause | _ | _
  case ok =>
    dsimp only
    by_cases hheaders : request.headers.all fun header => isHeaderValue header.2
    · rw [if_pos hheaders, if_pos hheaders]
      rcases hsend : wire.send request s with ⟨answer, s₁⟩
      refine ⟨[.sent request answer, .asked start upper size (pageOf decode answer)], ?_, ?_⟩
      · cases answer <;> simp [pageOf]
      · cases answer <;> exact .sent request start upper size rfl
    · rw [if_neg hheaders, if_neg hheaders]
      exact ⟨_, rfl, .unsent start upper size fun _ => by simp⟩
  all_goals exact ⟨_, rfl, .unsent start upper size fun _ => by simp⟩

theorem mirrors_recordedAsk (endpoint symbol : String) :
    Mirrors Prod.fst (recordedAsk (askHistory c (recordedWire ρ wire) decode endpoint symbol))
      (askHistory c wire decode endpoint symbol) := by
  rintro start upper size ⟨s, log⟩
  obtain ⟨events, hlog, -⟩ := recordedAsk_log c wire decode endpoint symbol start upper size s log
  rw [hlog]

variable {decode}

theorem CallLog.granted {page : List ρ} {events : List (WalkEvent ρ)}
    (h : CallLog decode (.ok page) events) :
    (∀ e ∈ events, e.Granted decode) ∧ ∀ r ∈ page, r ∈ rowsSent decode events := by
  cases h with
  | sent request start upper size hanswer =>
      constructor
      · intro e he
        rcases List.mem_cons.1 he with rfl | he
        · exact ⟨page, hanswer⟩
        · obtain rfl := List.mem_singleton.1 he
          exact ⟨page, rfl⟩
      · intro r hr
        simpa [rowsSent, WalkEvent.rows, hanswer] using hr
  | unsent start upper size hnone => exact absurd rfl (hnone page)

theorem eq_of_singleton {α : Type} {before after : List α} {a b : α}
    (h : before ++ a :: after = [b]) : a = b ∧ after = [] := by
  rcases List.append_eq_singleton_iff.1 h with ⟨-, hlast⟩ | ⟨-, hnone⟩
  · exact List.cons.inj hlast
  · exact absurd hnone (List.cons_ne_nil a after)

/-- The result is written down last, right after the request if that was sent. -/
theorem CallLog.last {result : Outcome ExchangeError (List ρ)} {before after : List (WalkEvent ρ)}
    {e : WalkEvent ρ} (h : CallLog decode result (before ++ e :: after)) :
    (∃ start upper size, e = .asked start upper size result ∧ after = []) ∨
    ∃ request answer start upper size, e = .sent request answer ∧ pageOf decode answer = result ∧
      after = [.asked start upper size result] := by
  generalize hevents : before ++ e :: after = events at h
  cases h with
  | sent request start upper size hanswer =>
      rcases List.append_eq_cons_iff.1 hevents with ⟨-, hlast⟩ | ⟨before, -, hlast⟩
      · obtain ⟨rfl, rfl⟩ := List.cons.inj hlast
        exact Or.inr ⟨request, _, start, upper, size, rfl, hanswer, rfl⟩
      · obtain ⟨rfl, rfl⟩ := eq_of_singleton hlast.symm
        exact Or.inl ⟨start, upper, size, rfl, rfl⟩
  | unsent start upper size hnone =>
      obtain ⟨rfl, rfl⟩ := eq_of_singleton hevents
      exact Or.inl ⟨start, upper, size, rfl, rfl⟩

/-- Behind entries of one kind the first entry of another kind is in what follows them. -/
theorem exists_of_append_eq {α : Type} {p : α → Prop} {granted last before after : List α} {e : α}
    (hgranted : ∀ x ∈ granted, p x) (he : ¬ p e)
    (h : granted ++ last = before ++ e :: after) : ∃ middle, last = middle ++ e :: after := by
  rcases List.append_eq_append_iff.1 h with ⟨middle, -, hlast⟩ | ⟨middle, hsplit, hlast⟩
  · exact ⟨middle, hlast⟩
  · cases middle with
    | nil => exact ⟨[], hlast.symm⟩
    | cons x middle =>
        obtain ⟨rfl, -⟩ := List.cons.inj hlast
        exact absurd (hgranted e (by simp [hsplit])) he

theorem Walk.Pages.log {endpoint symbol : String} {s s' : σ × List (WalkEvent ρ)} {rows : List ρ}
    (h : Pages (recordedAsk (askHistory c (recordedWire ρ wire) decode endpoint symbol)) s rows
      s') :
    ∃ events, s'.2 = s.2 ++ events ∧ (∀ e ∈ events, e.Granted decode) ∧
      ∀ r ∈ rows, r ∈ rowsSent decode events := by
  induction h with
  | none => exact ⟨[], (List.append_nil _).symm, by simp, by simp⟩
  | @more start upper size page rows s s₁ s' hask _ ih =>
      obtain ⟨first, hfirst, hcall⟩ :=
        recordedAsk_log c wire decode endpoint symbol start upper size s.1 s.2
      rw [hask] at hfirst
      obtain ⟨hpage, hworld⟩ := Prod.mk.inj hfirst
      rw [← hpage] at hcall
      obtain ⟨hgranted, hrows⟩ := hcall.granted
      obtain ⟨events, hlog, hmore, hrest⟩ := ih
      refine ⟨first ++ events, ?_, ?_, ?_⟩
      · rw [hlog, hworld, List.append_assoc]
      · intro e he
        exact (List.mem_append.1 he).elim (hgranted e) (hmore e)
      · intro r hr
        rw [rowsSent, List.flatMap_append, List.mem_append]
        exact (List.mem_append.1 hr).imp (hrows r) (hrest r)

theorem Walk.Halt.log {endpoint symbol : String} {result : Outcome ExchangeError (List ρ)}
    {s s' : σ × List (WalkEvent ρ)}
    (h : Halt (recordedAsk (askHistory c (recordedWire ρ wire) decode endpoint symbol)) endpoint
      result s s') :
    ∃ events, s'.2 = s.2 ++ events ∧ (events = [] ∨ CallLog decode result events) := by
  have hcall : ∀ {start upper size}, recordedAsk
      (askHistory c (recordedWire ρ wire) decode endpoint symbol) start upper size s =
        (result, s') → ∃ events, s'.2 = s.2 ++ events ∧ CallLog decode result events := by
    intro start upper size hask
    obtain ⟨events, hlog, hcall⟩ :=
      recordedAsk_log c wire decode endpoint symbol start upper size s.1 s.2
    rw [hask] at hlog
    obtain ⟨hresult, hworld⟩ := Prod.mk.inj hlog
    rw [← hresult] at hcall
    exact ⟨events, by rw [hworld], hcall⟩
  have hquiet : ∃ events, s.2 = s.2 ++ events ∧ (events = [] ∨ CallLog decode result events) :=
    ⟨[], (List.append_nil _).symm, Or.inl rfl⟩
  cases h with
  | failed hask | overflow hask | exhausted hask =>
      obtain ⟨events, hlog, hcall⟩ := hcall hask
      exact ⟨events, hlog, Or.inr hcall⟩
  | crowded | outOfRange | outOfSteps => exact hquiet

/-- The log of a whole walk. Pages came, and after them there is nothing or the one question
whose answer is the result. -/
theorem recordedHistory_log (steps : Nat) (view : RowView ρ) (endpoint : String)
    (keep : ρ → Bool) (symbol : String) (since : Timestamp) (limit : Nat) (s : σ)
    {result : Outcome ExchangeError (List ρ)} {s' : σ} {log : List (WalkEvent ρ)}
    (h : recordedHistory c wire steps view decode endpoint keep symbol since limit s =
      (result, s', log)) :
    ∃ granted last, log = granted ++ last ∧ (∀ e ∈ granted, e.Granted decode) ∧
      (last = [] ∨ CallLog decode result last) ∧
      ∀ out, result = .ok out → Proper view keep since limit (rowsSent decode log) out := by
  have hwent := since_went view keep _ endpoint c.historyPageSize limit steps (wire.now s) since
    (s, []) h
  cases hwent with
  | ok hpages hproper =>
      obtain ⟨granted, hlog, hgranted, hrows⟩ := hpages.log
      obtain rfl : log = granted := hlog
      refine ⟨log, [], (List.append_nil _).symm, hgranted, Or.inl rfl, ?_⟩
      rintro out hout
      obtain rfl := Outcome.ok.inj hout
      exact { hproper with came := fun r hr => hrows r (hproper.came r hr) }
  | halt hpages hhalt =>
      obtain ⟨granted, hlog, hgranted, -⟩ := hpages.log
      obtain ⟨last, hlast, hcall⟩ := hhalt.log
      refine ⟨granted, last, ?_, hgranted, hcall, ?_⟩
      · rw [hlog] at hlast
        exact hlast
      · rintro out rfl
        cases hhalt

end Calls

/-- Whatever a server does, the rows of a history that ends well were sent by it, and are
wanted, not too early, told apart by their ids, in strict order and no more than the limit.
A page that fails is the last one that is asked for, with no request after its own, and the
history fails for its reason. -/
theorem history_is_proper (c : Config) (wire : HttpWire σ) (steps : Nat) (view : RowView ρ)
    (decode : Json → Option ρ) (endpoint : String) (keep : ρ → Bool) (symbol : String)
    (since : Timestamp) (limit : Nat) (s : σ) :
    ∃ result s' log,
      history c wire steps view decode endpoint keep symbol since limit s = (result, s') ∧
      recordedHistory c wire steps view decode endpoint keep symbol since limit s =
        (result, s', log) ∧
      (∀ out, result = .ok out → Proper view keep since limit (rowsSent decode log) out) ∧
      (∀ before start upper size cause after,
        log = before ++ .asked start upper size (.error cause) :: after →
          after = [] ∧ result = .error cause) ∧
      ∀ before request answer cause after, log = before ++ .sent request answer :: after →
        pageOf decode answer = .error cause →
          result = .error cause ∧ ∃ start upper size, after = [.asked start upper size result] := by
  rcases hrecorded : recordedHistory c wire steps view decode endpoint keep symbol since limit s
    with ⟨result, s', log⟩
  have hplain : history c wire steps view decode endpoint keep symbol since limit s =
      (result, s') := by
    have hmirror := (mirrors_recordedAsk c wire decode endpoint symbol).since view keep endpoint
      c.historyPageSize limit steps (wire.now s) since (s, [])
    rw [recordedHistory] at hrecorded
    rwa [hrecorded] at hmirror
  obtain ⟨granted, last, rfl, hgranted, hlast, hproper⟩ :=
    recordedHistory_log c wire steps view endpoint keep symbol since limit s hrecorded
  -- An entry that says of no page can only be the last question, or the request for it.
  have hfailed : ∀ {before after e}, ¬ e.Granted decode → granted ++ last = before ++ e :: after →
      (∃ start upper size, e = .asked start upper size result ∧ after = []) ∨
      ∃ request answer start upper size, e = .sent request answer ∧
        pageOf decode answer = result ∧ after = [.asked start upper size result] := by
    intro before after e he hsplit
    obtain ⟨middle, rfl⟩ := exists_of_append_eq hgranted he hsplit
    rcases hlast with hnone | hcall
    · exact absurd hnone (by simp)
    · exact hcall.last
  refine ⟨result, s', granted ++ last, hplain, rfl, hproper, ?_, ?_⟩
  · intro before start upper size cause after hsplit
    have hbad : ¬ (WalkEvent.asked start upper size (.error cause)).Granted decode := by
      rintro ⟨page, hpage⟩
      cases hpage
    rcases hfailed hbad hsplit with ⟨_, _, _, he, hafter⟩ | ⟨_, _, _, _, _, he, -, -⟩
    · obtain ⟨-, -, -, hresult⟩ := WalkEvent.asked.inj he
      exact ⟨hafter, hresult.symm⟩
    · cases he
  · intro before request answer cause after hsplit hcause
    have hbad : ¬ (WalkEvent.sent request answer : WalkEvent ρ).Granted decode := by
      rintro ⟨page, hpage⟩
      rw [hcause] at hpage
      cases hpage
    rcases hfailed hbad hsplit with
      ⟨_, _, _, he, -⟩ | ⟨_, _, start, upper, size, he, hresult, hafter⟩
    · cases he
    · obtain ⟨-, rfl⟩ := WalkEvent.sent.inj he
      exact ⟨by rw [← hresult, hcause], start, upper, size, hafter⟩

end Logged

end Tradebook.Ftx
