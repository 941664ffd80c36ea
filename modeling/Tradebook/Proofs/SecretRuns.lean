import Tradebook.Proofs.SecretInStream

/-!
# Two clients that differ in the secret

A client has an account and a stream with the same settings. It does one thing after the other
with them, in any order: each is a `Deed`, and a `Client` is what there is after some of them, with
everything that was sent and everything that it was told so far.

Two clients whose settings differ in the secret alone do the same behind wires that look at no
signature. Each deed leaves them twins (`Client.after_twins`), and so does a whole run
(`Client.run_twins`): whoever does not know a secret learns nothing of it but what the signatures
tell.
-/

namespace Tradebook.Ftx

/-- Something a client is told. -/
inductive Report where
  | account (result : ErrandResult)
  | stream (result : Except StreamError Unit)
  | followed (result : Outcome StreamError Unit)
  /-- The number of a receiver of events. -/
  | listening (receiver : Nat)
  | delivered (delivery : Delivery)

/-- Something a client does with its account or its stream, or that happens to the latter. -/
inductive Deed (σ : Type) where
  | errand (errand : Errand)
  | move (move : Move σ)
  /-- So many arrivals at most are followed up. -/
  | follow (steps : Nat)
  | listen
  | take (receiver : Nat)

/-- A client after some deeds. The log of the moment is what went out on the stream. -/
structure Client (σ : Type) where
  moment : Moment σ
  requests : List HttpRequest
  reports : List Report

variable {σ : Type}

/-- What is told of a move at once. -/
def Moment.reports (wire : StreamWire σ) (m : Moment σ) : Move σ → List Report
  | .connect => [.stream (m.connect wire).1]
  | .subscribe channel symbol options => [.stream (m.subscribe wire channel symbol options).1]
  | .unsubscribe channel symbol => [.stream (m.unsubscribe wire channel symbol).1]
  | .publish | .close | .receive _ | .keepAlive | .pass _ => []

namespace Client

/-- A client that did nothing yet. -/
def start (config : Config) (sink : Broadcast) (world : σ) : Client σ :=
  ⟨.start config sink world, [], []⟩

/-- The client after a deed. `steps` bounds the windows of a history and the pages of each. -/
def after (config : Config) (http : HttpWire σ) (wire : StreamWire σ) (steps : Nat) (x : Client σ) :
    Deed σ → Client σ
  | .errand errand =>
    let ended := errand.run (exchange config http.noted steps) (x.moment.world, x.requests)
    ⟨{ x.moment with world := ended.2.1 }, ended.2.2, x.reports ++ [.account ended.1]⟩
  | .move move =>
    ⟨x.moment.after wire move, x.requests, x.reports ++ x.moment.reports wire move⟩
  | .follow arrivals =>
    let ended := x.moment.stream.follow wire.recorded arrivals (x.moment.world, x.moment.log)
    ⟨.ofParts ended.2, x.requests, x.reports ++ [.followed ended.1]⟩
  | .listen =>
    let heard := x.moment.stream.sink.subscribe
    ⟨{ x.moment with stream := { x.moment.stream with sink := heard.2 } }, x.requests,
      x.reports ++ [.listening heard.1]⟩
  | .take receiver =>
    let taken := x.moment.stream.sink.receive receiver
    ⟨{ x.moment with stream := { x.moment.stream with sink := taken.2 } }, x.requests,
      x.reports ++ [.delivered taken.1]⟩

def run (config : Config) (http : HttpWire σ) (wire : StreamWire σ) (steps : Nat) (x : Client σ)
    (deeds : List (Deed σ)) : Client σ :=
  deeds.foldl (after config http wire steps) x

/-- Two clients that are the same but for the secret and what was signed with it: they were told the
same, reported the same events, are in the same state and sent the same but for signatures. -/
structure Twins (c : Config) (secret secret' : String) (x x' : Client σ) : Prop where
  stream : x.moment.stream.Twins c secret secret' x'.moment.stream
  world : x.moment.world = x'.moment.world
  log : x.moment.log.map Emission.unsigned = x'.moment.log.map Emission.unsigned
  requests : x.requests.map HttpRequest.unsigned = x'.requests.map HttpRequest.unsigned
  reports : x.reports = x'.reports

end Client

variable {c : Config} {secret secret' : String} {http : HttpWire σ} {wire : StreamWire σ}

/-- A stream with its world and what went out. -/
def Moment.parts (m : Moment σ) : BookStream × σ × List Emission :=
  (m.stream, m.world, m.log)

/-- Twins are told the same of a move and stay twins. -/
theorem Moment.after_twins (hwire : wire.Blind) {m m' : Moment σ} (move : Move σ)
    (h : BookStream.Together c secret secret' (SameUpTo Emission.unsigned) m.parts m'.parts) :
    BookStream.Together c secret secret' (SameUpTo Emission.unsigned)
      (m.after wire move).parts (m'.after wire move).parts ∧
    m.reports wire move = m'.reports wire move := by
  obtain ⟨htwins, hworld⟩ := h
  have hrecorded := hwire.recorded
  cases move with
  | publish => exact ⟨⟨BookStream.setPublicOnly_twins htwins, hworld⟩, rfl⟩
  | connect =>
      have hended := BookStream.connect_twins hrecorded htwins hworld
      exact ⟨hended.world, congrArg (fun result => [Report.stream result]) hended.result⟩
  | subscribe channel symbol options =>
      have hended := BookStream.subscribe_twins hrecorded channel symbol options htwins hworld
      exact ⟨hended.world, congrArg (fun result => [Report.stream result]) hended.result⟩
  | unsubscribe channel symbol =>
      have hended := BookStream.unsubscribe_twins hrecorded channel symbol htwins hworld
      exact ⟨hended.world, congrArg (fun result => [Report.stream result]) hended.result⟩
  | close => exact ⟨BookStream.close_twins hrecorded htwins hworld, rfl⟩
  | receive incoming => exact ⟨BookStream.receive_twins hrecorded incoming htwins hworld, rfl⟩
  | keepAlive => exact ⟨BookStream.keepAlive_twins hrecorded htwins hworld, rfl⟩
  | pass world => exact ⟨⟨htwins, rfl, hworld.log⟩, rfl⟩

namespace Client

/-- Twins stay twins with every deed. -/
theorem after_twins (hhttp : http.Blind) (hwire : wire.Blind) (steps : Nat) {x x' : Client σ}
    (h : x.Twins c secret secret' x') (deed : Deed σ) :
    (x.after (c.keeping secret) http wire steps deed).Twins c secret secret'
      (x'.after (c.keeping secret') http wire steps deed) := by
  have hmoment : BookStream.Together c secret secret' (SameUpTo Emission.unsigned)
      x.moment.parts x'.moment.parts :=
    ⟨h.stream, h.world, h.log⟩
  cases deed with
  | errand errand =>
      have hended := errand.agree c secret secret' hhttp.noted steps
        (s := (x.moment.world, x.requests)) (t := (x'.moment.world, x'.requests))
        ⟨h.world, h.requests⟩
      refine ⟨h.stream, hended.world.world, h.log, hended.world.log, ?_⟩
      exact congrArg₂ (fun reports result => reports ++ [.account result]) h.reports hended.result
  | move move =>
      obtain ⟨hafter, hreports⟩ := Moment.after_twins hwire move hmoment
      exact ⟨hafter.twins, hafter.world.world, hafter.world.log, h.requests,
        congrArg₂ (· ++ ·) h.reports hreports⟩
  | follow arrivals =>
      have hended := BookStream.follow_twins hwire.recorded arrivals hmoment.twins hmoment.world
      refine ⟨hended.world.twins, hended.world.world.world, hended.world.world.log, h.requests, ?_⟩
      exact congrArg₂ (fun reports result => reports ++ [.followed result]) h.reports hended.result
  | listen =>
      refine ⟨{ h.stream with sink := ?_ }, h.world, h.log, h.requests, ?_⟩
      · exact congrArg (fun sink => sink.subscribe.2) h.stream.sink
      · exact congrArg₂ (fun reports sink => reports ++ [.listening sink.subscribe.1]) h.reports
          h.stream.sink
  | take receiver =>
      refine ⟨{ h.stream with sink := ?_ }, h.world, h.log, h.requests, ?_⟩
      · exact congrArg (fun sink => (sink.receive receiver).2) h.stream.sink
      · exact congrArg₂ (fun reports sink => reports ++ [.delivered (sink.receive receiver).1])
          h.reports h.stream.sink

theorem start_twins (c : Config) (secret secret' : String) (sink : Broadcast) (world : σ) :
    (start (c.keeping secret) sink world).Twins c secret secret'
      (start (c.keeping secret') sink world) where
  stream := ⟨rfl, rfl, rfl, rfl, rfl, rfl, .absent, rfl⟩
  world := rfl
  log := rfl
  requests := rfl
  reports := rfl

/-- With two secrets the same deeds lead to the same, but for the signatures: the headers of
requests and the logins of the stream are signed differently, and nothing else differs. -/
theorem run_twins (c : Config) (secret secret' : String) (hhttp : http.Blind) (hwire : wire.Blind)
    (steps : Nat) (sink : Broadcast) (world : σ) (deeds : List (Deed σ)) :
    (run (c.keeping secret) http wire steps (start (c.keeping secret) sink world) deeds).Twins
      c secret secret'
      (run (c.keeping secret') http wire steps (start (c.keeping secret') sink world) deeds) := by
  have hrun : ∀ {x x' : Client σ}, x.Twins c secret secret' x' →
      (run (c.keeping secret) http wire steps x deeds).Twins c secret secret'
        (run (c.keeping secret') http wire steps x' deeds) := by
    induction deeds with
    | nil => exact id
    | cons deed deeds ih => exact fun h => ih (after_twins hhttp hwire steps h deed)
  exact hrun (start_twins c secret secret' sink world)

/-- A server that answers from a list, whatever it is asked. -/
def answering : HttpWire (List HttpAnswer) where
  send
    | _, [] => (.error "connection refused", [])
    | _, answer :: answers => (.ok answer, answers)
  now _ := .epoch

/-- Another end of a stream that takes everything and says nothing. -/
def taking : StreamWire (List HttpAnswer) where
  dial _ answers := (none, answers)
  send _ answers := (none, answers)
  next answers := (.stop, answers)
  stopped _ := false
  now _ := .epoch

/-- A client asks for its balances, connects its stream, subscribes and closes it, with one secret
and with another one. What is sent does differ. -/
theorem run_twins_two_secrets :
    let account := Config.default.withCredentials "key" ""
    let deeds := [.errand .balances, .move .connect,
      .move (.subscribe .book "btc/usd" ⟨none, none⟩), .move .close]
    let client := fun secret => run (account.keeping secret) answering taking 1
      (start (account.keeping secret) .default [⟨503, []⟩]) deeds
    (client "one").Twins account "one" "two" (client "two") ∧
    (client "one").requests ≠ (client "two").requests ∧
    (client "one").moment.log ≠ (client "two").moment.log := by
  intro account deeds client
  have hanswering : answering.Blind := fun _ _ answers _ => by cases answers <;> rfl
  have htaking : taking.Blind := fun _ _ _ _ => rfl
  refine ⟨run_twins account "one" "two" hanswering htaking 1 .default _ deeds, ?_, ?_⟩
  · decide +kernel
  · decide +kernel

end Client

end Tradebook.Ftx
