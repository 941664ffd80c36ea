import Tradebook.Proofs.SentRequests
import Tradebook.Proofs.ShelfServer
import Tradebook.Proofs.WalkEnds

/-!
# The answer to a cancellation

An answer is a frame around a result, and of a cancellation the result does not matter: it is
read as any value and forgotten. `Envelope` says which values are frames, and what the two parts
of a frame are that count. A frame and what is read of it are the same thing but for one point
(`reply_of_envelope`, `envelope_of_reply`): a result that is null is read as none, though null is
a value like any other.

So an order is taken for cancelled just if the server says so and gives a result other than null
(`cancelled_iff`). Where the result is null, or is left out, the server has cancelled the order and
the account says that it has not.
-/

namespace Tradebook

namespace Json

/-- What the members of a name hold: nothing, or what the only one holds. -/
inductive Named (members : List (Option String × Json)) (name : String) : Option Json → Prop
  | missing (h : ∀ m ∈ members, m.1 ≠ some name) : Named members name none
  | once {before after : List (Option String × Json)} {value : Json}
      (hmembers : members = before ++ (some name, value) :: after)
      (honly : ∀ m ∈ before ++ after, m.1 ≠ some name) : Named members name (some value)

/-- What is found of the members of a name, if there is no more than one. -/
def look (members : List (Option String × Json)) (name : String) : Option (Option Json) :=
  match members.filter (·.1 == some name) with
  | [] => some none
  | [(_, value)] => some (some value)
  | _ => none

theorem fields?_object (members : List (Option String × Json)) (names : List String) :
    (object members).fields? names =
      if members.all (·.1.isSome) then names.mapM (look members) else none :=
  rfl

theorem look_eq_some_iff {members : List (Option String × Json)} {name : String}
    {found : Option Json} : look members name = some found ↔ Named members name found := by
  unfold look
  constructor
  · intro h
    split at h
    · next hnone =>
        cases h
        refine .missing fun m hm hname => ?_
        exact List.filter_eq_nil_iff.1 hnone m hm (by simp [hname])
    · next other value hone =>
        cases h
        obtain ⟨before, after, rfl, hbefore, hname, hafter⟩ := List.filter_eq_cons_iff.1 hone
        obtain rfl : other = some name := by simpa using hname
        refine .once rfl fun m hm hsame => ?_
        rcases List.mem_append.1 hm with hm | hm
        · exact hbefore m hm (by simp [hsame])
        · exact List.filter_eq_nil_iff.1 hafter m hm (by simp [hsame])
    · cases h
  · intro h
    cases h with
    | missing hmissing =>
        rw [List.filter_eq_nil_iff.2 fun m hm hname => hmissing m hm (by simpa using hname)]
    | @once before after value hmembers honly =>
        have hbefore : before.filter (·.1 == some name) = [] :=
          List.filter_eq_nil_iff.2 fun m hm hname =>
            honly m (List.mem_append_left _ hm) (by simpa using hname)
        have hafter : after.filter (·.1 == some name) = [] :=
          List.filter_eq_nil_iff.2 fun m hm hname =>
            honly m (List.mem_append_right _ hm) (by simpa using hname)
        rw [hmembers, List.filter_append, hbefore, List.filter_cons_of_pos (by simp), hafter,
          List.nil_append]

end Json

namespace Ftx

open Json

/-! ## Frames -/

/-- The parts of a frame, each of which may be missing: whether the request was granted, what came
of it, and why it was refused. -/
inductive Parts : Json → Option Json → Option Json → Option Json → Prop
  | object {members : List (Option String × Json)} {success result error : Option Json}
      (hnames : ∀ m ∈ members, m.1.isSome = true) (hsuccess : Named members "success" success)
      (hresult : Named members "result" result) (herror : Named members "error" error) :
      Parts (.object members) success result error
  | array (success result error : Json) :
      Parts (.array [success, result, error]) (some success) (some result) (some error)

/-- A frame that says whether the request was granted and what came of it. Why it was refused is
said by a text or not at all, and what came of it is any value that can be kept. -/
structure Envelope (v : Json) (success : Bool) (result : Option Json) : Prop where
  parts : ∃ error, Parts v (some (.bool success)) result error ∧
    ∀ e ∈ error, e = .null ∨ ∃ detail, e = .text detail
  kept : ∀ value ∈ result, value.sound (deepest - 1) = true

theorem fields?_of_parts {v : Json} {success result error : Option Json}
    (h : Parts v success result error) :
    v.fields? ["success", "result", "error"] = some [success, result, error] := by
  cases h with
  | array success result error => rfl
  | object hnames hsuccess hresult herror =>
      rw [fields?_object, if_pos (List.all_eq_true.2 hnames)]
      simp only [List.mapM_cons, List.mapM_nil, look_eq_some_iff.2 hsuccess,
        look_eq_some_iff.2 hresult, look_eq_some_iff.2 herror]
      rfl

theorem parts_of_fields? {v : Json} {parts : List (Option Json)}
    (h : v.fields? ["success", "result", "error"] = some parts) :
    ∃ success result error, parts = [success, result, error] ∧ Parts v success result error := by
  cases v with
  | object members =>
      rw [fields?_object] at h
      split at h
      · next hnames =>
          simp only [List.mapM_cons, List.mapM_nil, Option.bind_eq_bind, Option.bind_eq_some_iff,
            Option.pure_def, Option.some.injEq] at h
          obtain ⟨success, hsuccess, _, ⟨result, hresult, _, ⟨error, herror, _, rfl, rfl⟩, rfl⟩,
            rfl⟩ := h
          exact ⟨success, result, error, rfl, .object (List.all_eq_true.1 hnames)
            (look_eq_some_iff.1 hsuccess) (look_eq_some_iff.1 hresult)
            (look_eq_some_iff.1 herror)⟩
      · cases h
  | array items =>
      obtain ⟨hlength, h⟩ := Option.ite_none_right_eq_some.1 h
      obtain ⟨success, result, error, rfl⟩ := List.length_eq_three.1 hlength
      exact ⟨_, _, _, (Option.some.inj h).symm, .array success result error⟩
  | null | bool | number | string => cases h

/-! ## Reading a frame -/

/-- A result as it is read: one that is null is none. -/
def given : Option Json → Option Json
  | some .null => none
  | result => result

theorem given_eq_some_iff {result : Option Json} {value : Json} :
    given result = some value ↔ result = some value ∧ value ≠ .null := by
  cases result with
  | none => simp [given]
  | some v =>
      cases v with
      | null => simp [given, eq_comm]
      | _ =>
          simp only [given, Option.some.injEq]
          exact ⟨fun h => ⟨h, by rw [← h]; nofun⟩, And.left⟩

theorem optional_some_of_ne_null {α : Type} (decode : Json → Option α) {v : Json}
    (h : v ≠ .null) : Json.optional decode (some v) = (decode v).map some := by
  cases v with
  | null => exact absurd rfl h
  | _ => rfl

theorem optional_of_kept {result : Option Json}
    (h : ∀ value ∈ result, value.sound (deepest - 1) = true) :
    Json.optional anyResult? result = some (given result) := by
  rcases result with _ | value
  · rfl
  · by_cases hnull : value = .null
    · rw [hnull]
      rfl
    · have hvalue : anyResult? value = some value := if_pos (h value rfl)
      rw [optional_some_of_ne_null _ hnull, hvalue, given_eq_some_iff.2 ⟨rfl, hnull⟩,
        Option.map_some]

theorem kept_of_optional {result out : Option Json}
    (h : Json.optional anyResult? result = some out) :
    ∀ value ∈ result, value.sound (deepest - 1) = true := by
  rintro value rfl
  by_cases hnull : value = .null
  · rw [hnull]
    rfl
  · rw [optional_some_of_ne_null _ hnull] at h
    obtain ⟨read, hread, -⟩ := Option.map_eq_some_iff.1 h
    exact (Option.ite_none_right_eq_some.1 hread).1

theorem detail_of_optional {error : Option Json} {out : Option String}
    (h : Json.optional asText? error = some out) :
    ∀ e ∈ error, e = .null ∨ ∃ detail, e = .text detail := by
  rintro e rfl
  by_cases hnull : e = .null
  · exact Or.inl hnull
  · rw [optional_some_of_ne_null _ hnull] at h
    obtain ⟨detail, hdetail, -⟩ := Option.map_eq_some_iff.1 h
    cases e with
    | string s =>
        obtain rfl : s = some detail := hdetail
        exact Or.inr ⟨detail, rfl⟩
    | _ => cases hdetail

/-- A frame is read, and what is read of its result is the result, if that is not null. -/
theorem reply_of_envelope {v : Json} {success : Bool} {result : Option Json}
    (h : Envelope v success result) :
    ∃ error, Reply.ofJson? anyResult? v = some ⟨success, given result, error⟩ := by
  obtain ⟨error, hparts, herror⟩ := h.parts
  have hdetail : ∃ detail, Json.optional asText? error = some detail := by
    cases error with
    | none => exact ⟨none, rfl⟩
    | some e =>
        rcases herror e rfl with rfl | ⟨detail, rfl⟩
        · exact ⟨none, rfl⟩
        · exact ⟨some detail, rfl⟩
  obtain ⟨detail, hdetail⟩ := hdetail
  refine ⟨detail, ?_⟩
  unfold Reply.ofJson?
  rw [fields?_of_parts hparts, Option.bind_eq_bind, Option.bind_some]
  dsimp only
  rw [optional_of_kept h.kept, hdetail]
  rfl

/-- Nothing else is read as a frame. -/
theorem envelope_of_reply {v : Json} {reply : Reply Json}
    (h : Reply.ofJson? anyResult? v = some reply) :
    ∃ result, Envelope v reply.success result ∧ reply.result = given result := by
  unfold Reply.ofJson? at h
  obtain ⟨parts, hfields, h⟩ := Option.bind_eq_some_iff.1 h
  obtain ⟨success, result, error, rfl, hparts⟩ := parts_of_fields? hfields
  simp only [Option.bind_eq_bind, Option.bind_eq_some_iff, Option.pure_def, Option.some.injEq] at h
  obtain ⟨granted, hgranted, out, hout, detail, hdetail, rfl⟩ := h
  refine ⟨result, ⟨⟨error, ?_, detail_of_optional hdetail⟩, kept_of_optional hout⟩, ?_⟩
  · cases success with
    | none => cases hgranted
    | some v =>
        cases v with
        | bool flag =>
            obtain rfl : flag = granted := Option.some.inj hgranted
            exact hparts
        | _ => cases hgranted
  · rw [optional_of_kept (kept_of_optional hout)] at hout
    exact (Option.some.inj hout).symm

/-! ## What the answer says -/

/-- The body of an answer is a frame that says this of the request. -/
def Says (a : HttpAnswer) (success : Bool) (result : Option Json) : Prop :=
  ∃ v, Json.parse a.text = some v ∧ Envelope v success result

theorem readAnswer_of_says {a : HttpAnswer} {success : Bool} {result : Option Json}
    (h : Says a success result) :
    ∃ error, (Json.parse a.text).bind (Reply.ofJson? anyResult?) =
      some ⟨success, given result, error⟩ := by
  obtain ⟨v, hparse, henvelope⟩ := h
  obtain ⟨error, hreply⟩ := reply_of_envelope henvelope
  refine ⟨error, ?_⟩
  rw [hparse, Option.bind_some, hreply]

/-- A refusal is an error, whatever the status. -/
theorem readAnswer_of_refused {a : HttpAnswer} {result : Option Json} (h : Says a false result) :
    ∃ cause, readAnswer anyResult? a = .error cause := by
  obtain ⟨error, hreply⟩ := readAnswer_of_says h
  unfold readAnswer
  dsimp only
  rw [hreply]
  exact ⟨_, rfl⟩

/-- What was granted without a result is an error too, and is said to lack a result. -/
theorem readAnswer_of_missing {a : HttpAnswer} {result : Option Json} (hstatus : a.isSuccess = true)
    (h : Says a true result) (hnone : given result = none) :
    readAnswer anyResult? a = .error (.unexpected ("missing result: " ++ a.text)) := by
  obtain ⟨error, hreply⟩ := readAnswer_of_says h
  unfold readAnswer
  dsimp only
  rw [hreply, hnone, hstatus]
  rfl

theorem readAnswer_eq_ok_iff (a : HttpAnswer) (value : Json) :
    readAnswer anyResult? a = .ok value ↔
      a.isSuccess = true ∧ value ≠ .null ∧ Says a true (some value) := by
  constructor
  · intro h
    unfold readAnswer at h
    dsimp only at h
    split at h
    · split at h <;> cases h
    · next reply hreply =>
        obtain ⟨v, hparse, hreply⟩ := Option.bind_eq_some_iff.1 hreply
        obtain ⟨result, henvelope, hresult⟩ := envelope_of_reply hreply
        split at h
        · cases h
        · next hgranted =>
            split at h
            · next read hread =>
                obtain rfl := Outcome.ok.inj h
                obtain ⟨rfl, hnull⟩ := given_eq_some_iff.1 (hresult.symm.trans hread)
                have hboth : reply.success = true ∧ a.isSuccess = true := by simpa using hgranted
                rw [hboth.1] at henvelope
                exact ⟨hboth.2, hnull, v, hparse, henvelope⟩
            · cases h
  · rintro ⟨hstatus, hnull, hsays⟩
    obtain ⟨error, hreply⟩ := readAnswer_of_says hsays
    unfold readAnswer
    dsimp only
    rw [hreply, given_eq_some_iff.2 ⟨rfl, hnull⟩, hstatus]
    rfl

/-- A request that could be sent and was answered ends as its answer says. -/
theorem perform_of_answer {σ α : Type} {c : Config} {wire : HttpWire σ} {decode : Json → Option α}
    {call : Call} {s s' : σ} {r : HttpRequest} {a : HttpAnswer}
    (hr : r ∈ call.requests c (wire.now s)) (ha : wire.send r s = (.ok a, s')) :
    perform c wire decode call s = (readAnswer decode a, s') := by
  have hrequest := request_of_mem_requests hr
  unfold Call.requests at hr
  unfold perform
  simp only [hrequest] at hr ⊢
  split at hr
  · next hheaders => rw [if_pos hheaders, ha]
  · cases hr

/-- A cancellation that the server answers ends well just if the server granted it with a result
that is not null. It ends with an error otherwise: when it was refused, and also when it was
granted and the result is null or left out. -/
theorem cancelled_iff {σ : Type} {c : Config} {wire : HttpWire σ} {order : CancelRequest}
    {s s' : σ} {r : HttpRequest} {a : HttpAnswer} (steps : Nat)
    (hr : r ∈ (privateCall .delete (cancelPath order)).requests c (wire.now s))
    (ha : wire.send r s = (.ok a, s')) :
    ∃ result, (exchange c wire steps).cancel order s = (result, s') ∧
      (result = .ok () ↔
        a.isSuccess = true ∧ ∃ value, value ≠ .null ∧ Says a true (some value)) ∧
      (result ≠ .ok () → ∃ cause, result = .error cause) ∧
      (∀ said, Says a false said → ∃ cause, result = .error cause) ∧
      ∀ said, a.isSuccess = true → Says a true said → said = none ∨ said = some .null →
        result = .error (.unexpected ("missing result: " ++ a.text)) := by
  have hends := perform_ends c wire anyResult? (privateCall .delete (cancelPath order)) s
  have hperform : perform c wire anyResult? (privateCall .delete (cancelPath order)) s =
      (readAnswer anyResult? a, s') := perform_of_answer hr ha
  rw [hperform] at hends
  refine ⟨readAnswer anyResult? a >>= fun _ => .ok (), ?_, ?_, ?_, ?_, ?_⟩
  · unfold exchange thenRead
    dsimp only
    rw [hperform]
  · constructor
    · intro hok
      rcases hends with ⟨value, hvalue⟩ | ⟨cause, hcause⟩
      · obtain ⟨hstatus, hnull, hsays⟩ := (readAnswer_eq_ok_iff a value).1 hvalue
        exact ⟨hstatus, value, hnull, hsays⟩
      · dsimp only at hcause
        rw [hcause] at hok
        cases hok
    · rintro ⟨hstatus, value, hnull, hsays⟩
      rw [(readAnswer_eq_ok_iff a value).2 ⟨hstatus, hnull, hsays⟩]
      rfl
  · intro hbad
    rcases hends with ⟨value, hvalue⟩ | ⟨cause, hcause⟩
    · dsimp only at hvalue
      rw [hvalue] at hbad
      exact absurd rfl hbad
    · dsimp only at hcause
      rw [hcause]
      exact ⟨cause, rfl⟩
  · intro said hsays
    obtain ⟨cause, hcause⟩ := readAnswer_of_refused hsays
    rw [hcause]
    exact ⟨cause, rfl⟩
  · intro said hstatus hsays hsaid
    have hnone : given said = none := by
      rcases hsaid with rfl | rfl <;> rfl
    rw [readAnswer_of_missing hstatus hsays hnone]
    rfl

/-! ## Two answers of a server -/

/-- A server that always answers with the same body. -/
def oneAnswer (status : Nat) (body : String) : HttpWire Unit where
  send _ s := (.ok ⟨status, Text.utf8 body⟩, s)
  now _ := .epoch

/-- An object whose members are the flag and the result is a frame of both. -/
theorem envelope_object {success : Bool} {result : Json}
    (hkept : result.sound (deepest - 1) = true) :
    Envelope (.object [(some "success", .bool success), (some "result", result)]) success
      (some result) := by
  have hsuccess : Named [(some "success", .bool success), (some "result", result)] "success"
      (some (.bool success)) := look_eq_some_iff.1 rfl
  have hresult : Named [(some "success", .bool success), (some "result", result)] "result"
      (some result) := look_eq_some_iff.1 rfl
  have herror : Named [(some "success", .bool success), (some "result", result)] "error" none :=
    look_eq_some_iff.1 rfl
  refine ⟨⟨none, .object (by simp) hsuccess hresult herror, nofun⟩, ?_⟩
  intro value hvalue
  rwa [← Option.some.inj hvalue]

/-- The answer to a cancellation that is queued. -/
def queuedBody : String :=
  "\x7b\"success\":true,\"result\":\"Order queued for cancellation\"\x7d"

/-- An answer that grants a request with a result that is null. -/
def nullBody : String :=
  "\x7b\"success\":true,\"result\":null\x7d"

/-- A text that begins with a brace is sent as it is. -/
theorem text_of_brace {body : String} (h : body.toList.head? = some (Char.ofNat 123)) :
    HttpAnswer.text ⟨200, Text.utf8 body⟩ = body := by
  refine HttpAnswer.text_utf8 200 fun c hc => ?_
  obtain rfl : Char.ofNat 123 = c := Option.some.inj (h.symm.trans hc)
  decide

theorem says_queuedBody :
    Says ⟨200, Text.utf8 queuedBody⟩ true (some (.text "Order queued for cancellation")) := by
  have hparse : Json.parse queuedBody = some (.object [(some "success", .bool true),
      (some "result", .text "Order queued for cancellation")]) := by
    cbv
  exact ⟨_, by rw [text_of_brace rfl, hparse], envelope_object rfl⟩

theorem says_nullBody : Says ⟨200, Text.utf8 nullBody⟩ true (some .null) := by
  have hparse : Json.parse nullBody =
      some (.object [(some "success", .bool true), (some "result", .null)]) := by
    cbv
  exact ⟨_, by rw [text_of_brace rfl, hparse], envelope_object rfl⟩

/-- An account with credentials asks such a server for a cancellation. -/
theorem asked_oneAnswer (status : Nat) (body id : String) :
    ∃ r ∈ (privateCall .delete (cancelPath (.byOrderId id))).requests
        (Config.default.withCredentials "key" "secret") ((oneAnswer status body).now ()),
      (oneAnswer status body).send r () = (.ok ⟨status, Text.utf8 body⟩, ()) := by
  have hcredentials : (Config.default.withCredentials "key" "secret").credentials? =
      some ("key", "secret") := rfl
  obtain ⟨r, hrequests⟩ : ∃ r, (privateCall .delete (cancelPath (.byOrderId id))).requests
      (Config.default.withCredentials "key" "secret") ((oneAnswer status body).now ()) = [r] :=
    requests_of_credentials hcredentials (by decide) (fun _ hname => by cases hname) _ rfl
  exact ⟨r, by rw [hrequests]; exact List.mem_singleton_self r, rfl⟩

/-- A cancellation that is queued, as the exchange answers it, is done. -/
theorem cancelled_iff_queued :
    let account := Config.default.withCredentials "key" "secret"
    (∃ r ∈ (privateCall .delete (cancelPath (.byOrderId "1"))).requests account
        ((oneAnswer 200 queuedBody).now ()),
      (oneAnswer 200 queuedBody).send r () = (.ok ⟨200, Text.utf8 queuedBody⟩, ())) ∧
    (exchange account (oneAnswer 200 queuedBody) 1).cancel (.byOrderId "1") () = (.ok (), ()) := by
  intro account
  obtain ⟨r, hr, hanswer⟩ := asked_oneAnswer 200 queuedBody "1"
  obtain ⟨result, hcancel, hok, -⟩ := cancelled_iff 1 hr hanswer
  have hresult : result = .ok () := hok.2 ⟨rfl, _, Json.noConfusion, says_queuedBody⟩
  refine ⟨⟨r, hr, hanswer⟩, ?_⟩
  rw [hcancel, hresult]

/-- A cancellation that the server grants with a result that is null is taken for failed. -/
theorem cancel_granted_with_null_fails :
    let answer : HttpAnswer := ⟨200, Text.utf8 nullBody⟩
    answer.isSuccess = true ∧ Says answer true (some .null) ∧
    (exchange (Config.default.withCredentials "key" "secret") (oneAnswer 200 nullBody) 1).cancel
      (.byOrderId "1") () = (.error (.unexpected ("missing result: " ++ nullBody)), ()) := by
  intro answer
  obtain ⟨r, hr, hanswer⟩ := asked_oneAnswer 200 nullBody "1"
  refine ⟨rfl, says_nullBody, ?_⟩
  unfold exchange thenRead
  dsimp only
  rw [perform_of_answer hr hanswer, readAnswer_of_missing rfl says_nullBody rfl,
    text_of_brace rfl]
  rfl

end Ftx

end Tradebook
