import Tradebook.Proofs.JsonText
import Tradebook.Proofs.SentRequests
import Tradebook.Proofs.StreamQueue

/-!
# What a signature is over

An account signs its private requests and the logins of its streams with one secret, and what
is signed is a text without any marks between its parts. The text still tells the message
(`payload_injective`). The millisecond ends where its digits end, for a method and the words of
a login begin with letters, and each of the three methods and the login with another letter. Of
a path and a body, which nothing divides either, one is always known: only an order that is
placed has a body, and all of those are sent to one path.

All that an account signs is meant (`Signed.Ours`): the requests of its errands
(`signed_of_sent`) and the logins of its streams (`signed_of_logged`).
-/

namespace Tradebook

namespace Text

/-- A number and what stands behind its digits are told from each other. -/
theorem intText_append_inj {m n : Int} {s t : List Char}
    (hs : ∀ c ∈ s.head?, c.isDigit = false) (ht : ∀ c ∈ t.head?, c.isDigit = false)
    (h : (intText m).toList ++ s = (intText n).toList ++ t) : m = n ∧ s = t := by
  have hread := Json.readPower_intText m hs
  rw [h, Json.readPower_intText n ht] at hread
  obtain ⟨hnumber, hrest⟩ := Prod.mk.inj (Option.some.inj hread)
  exact ⟨hnumber.symm, hrest.symm⟩

end Text

namespace Ftx

/-- Something that is signed in a millisecond. -/
inductive Signed where
  | request (milliseconds : Int) (call : Call)
  | login (milliseconds : Int)
  deriving DecidableEq, Repr

namespace Signed

/-- The text that is signed. -/
def payload : Signed → String
  | request milliseconds call =>
    requestPayload milliseconds call.method.name call.path (call.body.getD "")
  | login milliseconds => loginPayload milliseconds

/-- The messages that an account signs. -/
inductive Ours : Signed → Prop
  | request (milliseconds : Int) {errand : Errand} {call : Call} (hmakes : errand.Makes call)
      (hprivate : call.isPrivate = true) : Ours (.request milliseconds call)
  | login (milliseconds : Int) : Ours (.login milliseconds)

/-- The millisecond of a message. -/
def milliseconds : Signed → Int
  | request milliseconds _ => milliseconds
  | login milliseconds => milliseconds

/-- What is signed besides the millisecond. -/
def words : Signed → String
  | request _ call => call.method.name ++ (call.path ++ call.body.getD "")
  | login _ => "websocket_login"

theorem payload_eq (m : Signed) : m.payload = Text.intText m.milliseconds ++ m.words := by
  cases m with
  | request milliseconds call =>
      show requestPayload _ _ _ _ = _ ++ (_ ++ (_ ++ _))
      rw [requestPayload, String.append_assoc, String.append_assoc, Signed.milliseconds]
  | login milliseconds => rfl

/-- The letter that the words of a message begin with. -/
def letter : Signed → Char
  | request _ call =>
    match call.method with
    | .get => 'G'
    | .post => 'P'
    | .delete => 'D'
  | login _ => 'w'

theorem head?_words (m : Signed) : m.words.toList.head? = some m.letter := by
  cases m with
  | request _ call =>
      obtain ⟨method, path, body, isPrivate⟩ := call
      show (method.name ++ _).toList.head? = _
      rw [String.toList_append, List.head?_append]
      cases method <;> rfl
  | login =>
      show "websocket_login".toList.head? = some 'w'
      rfl

theorem isDigit_head?_words (m : Signed) : ∀ c ∈ m.words.toList.head?, c.isDigit = false := by
  intro c hc
  rw [m.head?_words] at hc
  obtain rfl : m.letter = c := by simpa using hc
  cases m with
  | request _ call =>
      obtain ⟨method, path, body, isPrivate⟩ := call
      cases method <;> rfl
  | login => rfl

theorem words_request_ne_login (milliseconds now : Int) (call : Call) :
    (request milliseconds call).words ≠ (login now).words := by
  intro h
  have hletter := (request milliseconds call).head?_words
  rw [h, head?_words] at hletter
  obtain ⟨method, path, body, isPrivate⟩ := call
  cases method <;> simp [letter] at hletter

end Signed

/-! ## What is signed -/

/-- The requests of an errand are signed as messages of the account. -/
theorem signed_of_sent {σ : Type} {c : Config} {wire : HttpWire σ} {steps : Nat} {s : σ}
    {errand : Errand} (hprivate : errand ≠ .markets) {r : HttpRequest}
    (hr : r ∈ errand.sent c wire steps s) :
    ∃ milliseconds call key secret, (Signed.request milliseconds call).Ours ∧ call.Carries c r ∧
      c.credentials? = some (key, secret) ∧
      r.headers.lookup "FTX-TS" = some (Text.intText milliseconds) ∧
      r.headers.lookup "FTX-SIGN" =
        some (Crypto.sign secret (Signed.request milliseconds call).payload) := by
  obtain ⟨call, now, hmakes, hcall⟩ := makes_of_sent c wire hr
  have hsigned := hmakes.isPrivate hprivate
  obtain ⟨key, secret, hcredentials, htime, hsign⟩ := signature_of_mem_requests hsigned hcall
  exact ⟨now.milliseconds, call, key, secret, .request _ hmakes hsigned,
    carries_of_mem_requests hcall, hcredentials, htime, hsign⟩

/-- A login that is signed as a message of the account. -/
def Login.IsSigned (config : Config) (login : Login) : Prop :=
  ∃ key secret, config.credentials? = some (key, secret) ∧ login.key = key ∧
    login.sign = Crypto.sign secret (Signed.login login.time).payload

section Stream

variable {σ : Type} {config : Config} {moves : List (Move σ)} {m : Moment σ}

/-- Only a connection that is opened brings a login. -/
theorem BookStream.login_of_dialled {b : BookStream} {queue : List Frame} {login : Login}
    {now : Timestamp} {made : List Emission} {url : String}
    (hplain : ∃ old markets, b.queue = queueOf old markets) (hat : b.queueAt now = .ok queue)
    (hmade : made <+: .dial url :: queue.map (.send ∘ .frame))
    (hmem : .send (.frame (.login login)) ∈ made) : login.IsSigned b.config := by
  obtain ⟨old, markets, hqueue⟩ := hplain
  rcases queueAt_ok hat hqueue with ⟨-, rfl⟩ | ⟨key, secret, -, hcredentials, rfl⟩
  · exact absurd hmem (not_login_of_public hmade login)
  · have hmem := hmade.subset hmem
    simp [queueOf] at hmem
    obtain rfl := hmem
    exact ⟨key, secret, hcredentials, rfl, rfl⟩

/-- What is said after something else and is no login brings none. -/
theorem mem_of_said {log said : List Emission} {login : Login}
    (hsaid : said = log ∨ ∃ e, said = log ++ [e] ∧ ∀ login, e ≠ .send (.frame (.login login)))
    (hmem : .send (.frame (.login login)) ∈ said) : .send (.frame (.login login)) ∈ log := by
  rcases hsaid with rfl | ⟨e, rfl, hother⟩
  · exact hmem
  · exact (List.mem_append.1 hmem).resolve_right
      fun heq => hother login (List.mem_singleton.1 heq).symm

theorem BookStream.mem_of_sendNow (wire : StreamWire σ) (b : BookStream) (s : σ)
    {log : List Emission} {frame : Frame} (hframe : frame.isLogin = false) {login : Login}
    (hmem : .send (.frame (.login login)) ∈ (sendNow wire.recorded frame b (s, log)).2.2.2) :
    .send (.frame (.login login)) ∈ log := by
  refine mem_of_said ((sendNow_log wire frame b s log).imp_right
    fun hlog => ⟨_, hlog, fun login heq => ?_⟩) hmem
  obtain rfl : frame = .login login := by simpa using heq
  cases hframe

theorem BookStream.mem_of_subscribe (wire : StreamWire σ) (b : BookStream) (channel : Channel)
    (symbol : String) (options : SubscribeOptions) (s : σ) {log : List Emission} {login : Login}
    (hmem : .send (.frame (.login login)) ∈
      (b.subscribe wire.recorded channel symbol options (s, log)).2.2.2) :
    .send (.frame (.login login)) ∈ log := by
  by_cases hchannel : channel = .book
  · subst hchannel
    rw [subscribe_book] at hmem
    split at hmem
    · exact hmem
    · exact mem_of_sendNow wire _ s rfl hmem
  · rw [subscribe_other _ hchannel] at hmem
    exact hmem

theorem BookStream.mem_of_unsubscribe (wire : StreamWire σ) (b : BookStream) (channel : Channel)
    (symbol : String) (s : σ) {log : List Emission} {login : Login}
    (hmem : .send (.frame (.login login)) ∈
      (b.unsubscribe wire.recorded channel symbol (s, log)).2.2.2) :
    .send (.frame (.login login)) ∈ log := by
  by_cases hchannel : channel = .book
  · subst hchannel
    rw [unsubscribe_book] at hmem
    split at hmem
    · exact mem_of_sendNow wire _ s rfl hmem
    · exact hmem
  · rw [unsubscribe_other _ hchannel] at hmem
    exact hmem

theorem Orderly.login_of_connect (h : Orderly config moves m) (wire : StreamWire σ) {login : Login}
    (hmem : .send (.frame (.login login)) ∈
      (m.stream.connect wire.recorded (m.world, m.log)).2.2.2) :
    .send (.frame (.login login)) ∈ m.log ∨ login.IsSigned config := by
  have hend := BookStream.connect_end wire.recorded m.stream (m.world, m.log)
  obtain ⟨old, hqueue, -⟩ := h.queue
  have hdialled {queue : List Frame} (hat : m.stream.queueAt (wire.now m.world) = .ok queue)
      (hmem : .send (.frame (.login login)) ∈
        (BookStream.establish wire.recorded m.stream.config.wsUrl queue (m.world, m.log)).2.2) :
      .send (.frame (.login login)) ∈ m.log ∨ login.IsSigned config := by
    obtain ⟨made, hmade, hout, -⟩ :=
      BookStream.establish_log wire m.stream.config.wsUrl queue m.world m.log
    rw [hout] at hmem
    exact (List.mem_append.1 hmem).imp_right fun hnew =>
      h.config ▸ BookStream.login_of_dialled ⟨old, _, hqueue⟩ hat hmade hnew
  generalize m.stream.connect wire.recorded (m.world, m.log) = ended at hend hmem
  obtain ⟨result, b, s, log⟩ := ended
  cases hend with
  | refused => exact Or.inl hmem
  | unsigned => exact Or.inl hmem
  | failed _ hat hfailed => exact hdialled hat (by rw [hfailed]; exact hmem)
  | up _ hat hup => exact hdialled hat (by rw [hup]; exact hmem)

/-- Only a connect brings a login. -/
theorem Orderly.login_after (h : Orderly config moves m) (wire : StreamWire σ) (move : Move σ)
    {login : Login} (hmem : .send (.frame (.login login)) ∈ (m.after wire move).log) :
    .send (.frame (.login login)) ∈ m.log ∨ login.IsSigned config := by
  cases move with
  | publish => exact Or.inl hmem
  | pass world => exact Or.inl hmem
  | connect => exact h.login_of_connect wire hmem
  | subscribe channel symbol options =>
      exact Or.inl (m.stream.mem_of_subscribe wire channel symbol options m.world hmem)
  | unsubscribe channel symbol =>
      exact Or.inl (m.stream.mem_of_unsubscribe wire channel symbol m.world hmem)
  | close =>
      exact Or.inl (mem_of_said ((BookStream.close_log wire m.stream m.world m.log).imp_right
        fun hlog => ⟨_, hlog, by simp⟩) hmem)
  | receive incoming =>
      exact Or.inl (mem_of_said ((BookStream.receive_log wire incoming m.stream m.world
        m.log).imp_right fun ⟨payload, hlog⟩ => ⟨_, hlog, by simp⟩) hmem)
  | keepAlive =>
      exact Or.inl (mem_of_said ((BookStream.keepAlive_log wire m.stream m.world m.log).imp_right
        fun hlog => ⟨_, hlog, by simp⟩) hmem)

/-- So are all logins of its streams. -/
theorem signed_of_logged (wire : StreamWire σ) (config : Config) (sink : Broadcast) (world : σ)
    (moves : List (Move σ)) {login : Login}
    (hmem : .send (.frame (.login login)) ∈
      (Moment.run wire (.start config sink world) moves).log) :
    login.IsSigned config := by
  induction moves using List.reverseRecOn with
  | nil => cases hmem
  | append_singleton moves move ih =>
      rw [Moment.run_concat] at hmem
      exact ((orderly_run wire config sink world moves).login_after wire move hmem).elim ih id

end Stream

/-! ## One text, one message -/

/-- Orders are placed at one path, and nothing else has a body. -/
theorem Errand.Makes.path_or_body {errand : Errand} {call : Call} (h : errand.Makes call) :
    (call.method = .post ∧ call.path = "/api/orders" ∧ call.body.isSome) ∨
      (call.method ≠ .post ∧ call.body = none) := by
  cases h
  case submit => exact Or.inl ⟨rfl, rfl, rfl⟩
  all_goals exact Or.inr ⟨nofun, rfl⟩

/-- Each method begins with a letter of its own. -/
theorem method_of_name_append {a b : HttpMethod} {s t : String}
    (h : a.name ++ s = b.name ++ t) : a = b ∧ s = t := by
  have htext := congrArg String.toList h
  rw [String.toList_append, String.toList_append] at htext
  cases a <;> cases b <;> simp [HttpMethod.name] at htext <;>
    exact ⟨rfl, String.toList_inj.1 htext⟩

/-- The path and the body of a call are told from each other, given its method. -/
theorem Errand.Makes.parts {errand errand' : Errand} {call call' : Call} (h : errand.Makes call)
    (h' : errand'.Makes call') (hmethod : call.method = call'.method)
    (htext : call.path ++ call.body.getD "" = call'.path ++ call'.body.getD "") :
    call.path = call'.path ∧ call.body = call'.body := by
  rcases h.path_or_body with ⟨hpost, hpath, hbody⟩ | ⟨hnot, hbody⟩
  · rcases h'.path_or_body with ⟨-, hpath', hbody'⟩ | ⟨hnot', -⟩
    · obtain ⟨body, hsome⟩ := Option.isSome_iff_exists.1 hbody
      obtain ⟨body', hsome'⟩ := Option.isSome_iff_exists.1 hbody'
      rw [hpath, hpath', hsome, hsome'] at htext
      have hsame : body = body' := (String.append_right_inj _).1 htext
      exact ⟨hpath.trans hpath'.symm, by rw [hsome, hsome', hsame]⟩
    · exact absurd (hmethod ▸ hpost) hnot'
  · rcases h'.path_or_body with ⟨hpost', -, -⟩ | ⟨-, hbody'⟩
    · exact absurd (hmethod.trans hpost') hnot
    · rw [hbody, hbody'] at htext ⊢
      exact ⟨(String.append_left_inj _).1 htext, rfl⟩

/-- What an account signs tells what it is about: no two messages have one text between them. -/
theorem payload_injective {m m' : Signed} (hm : m.Ours) (hm' : m'.Ours)
    (h : m.payload = m'.payload) : m = m' := by
  have htext := congrArg String.toList h
  rw [m.payload_eq, m'.payload_eq, String.toList_append, String.toList_append] at htext
  obtain ⟨htime, hwords⟩ := Text.intText_append_inj m.isDigit_head?_words m'.isDigit_head?_words
    htext
  replace hwords := String.toList_inj.1 hwords
  cases hm with
  | login milliseconds =>
      cases hm' with
      | login milliseconds' => exact congrArg Signed.login htime
      | request milliseconds' => exact absurd hwords.symm (Signed.words_request_ne_login _ _ _)
  | @request milliseconds errand call hmakes hprivate =>
      cases hm' with
      | login milliseconds' => exact absurd hwords (Signed.words_request_ne_login _ _ _)
      | @request milliseconds' errand' call' hmakes' hprivate' =>
          obtain ⟨hmethod, hrest⟩ := method_of_name_append hwords
          obtain ⟨hpath, hbody⟩ := hmakes.parts hmakes' hmethod hrest
          obtain ⟨method, path, body, isPrivate⟩ := call
          obtain ⟨method', path', body', isPrivate'⟩ := call'
          dsimp only at htime hmethod hpath hbody hprivate hprivate'
          subst hmethod hpath hbody hprivate hprivate'
          exact congrArg (Signed.request · _) htime

/-- Two ways to say which order is to be cancelled that are one to the exchange, and so are
signed alike. -/
theorem payload_injective_cancel :
    (Signed.request 1654041600000
      (privateCall .delete (cancelPath (.byOrderId "by_client_id/7")))).Ours ∧
    (Signed.request 1654041600000
      (privateCall .delete (cancelPath (.byClientOrderId "7")))).Ours ∧
    Signed.request 1654041600000
        (privateCall .delete (cancelPath (.byOrderId "by_client_id/7"))) =
      Signed.request 1654041600000 (privateCall .delete (cancelPath (.byClientOrderId "7"))) := by
  have hpath : cancelPath (.byOrderId "by_client_id/7") = cancelPath (.byClientOrderId "7") := by
    decide
  have horder :=
    Signed.Ours.request 1654041600000 (Errand.Makes.cancel (.byOrderId "by_client_id/7")) rfl
  have hclient :=
    Signed.Ours.request 1654041600000 (Errand.Makes.cancel (.byClientOrderId "7")) rfl
  exact ⟨horder, hclient, payload_injective horder hclient (by rw [hpath])⟩

end Ftx

end Tradebook
