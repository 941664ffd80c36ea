import Mathlib
import Tradebook.Ftx.BookStream

/-!
# A stream in the course of time

Whoever holds a stream makes it public, connects it, subscribes, unsubscribes and closes
it in any order, and in between the other end sends what it likes, the clock goes on and the
signal to stop comes. Each of these is a `Move`, and a `Moment` is the stream after some of
them, with the world it is in and everything that went out so far. For the latter the way to
the other end writes down what is done with it (`StreamWire.recorded`).

Below the definitions stand what one operation can do to a stream: what it leaves as it
is (`SameSettings`), what goes out, and for an attempt to connect the four ways it can end
(`ConnectEnd`). The laws of a whole run are derived from these in the modules that follow.
-/

namespace Tradebook.Ftx

/-- What goes out to the other end. -/
inductive Emission where
  | dial (url : String)
  | send (outgoing : Outgoing)
  deriving DecidableEq, Repr

/-- The same way to the other end, writing down what goes out. -/
def StreamWire.recorded {σ : Type} (wire : StreamWire σ) : StreamWire (σ × List Emission) where
  dial url s :=
    let answer := wire.dial url s.1
    (answer.1, answer.2, s.2 ++ [.dial url])
  send outgoing s :=
    let answer := wire.send outgoing s.1
    (answer.1, answer.2, s.2 ++ [.send outgoing])
  next s :=
    let arrival := wire.next s.1
    (arrival.1, arrival.2, s.2)
  stopped s := wire.stopped s.1
  now s := wire.now s.1

/-- What happens to a stream next. -/
inductive Move (σ : Type) where
  | publish
  | connect
  | subscribe (channel : Channel) (symbol : String) (options : SubscribeOptions)
  | unsubscribe (channel : Channel) (symbol : String)
  | close
  | receive (incoming : Incoming)
  | keepAlive
  /-- Nothing happens to the stream, and the world becomes another one. -/
  | pass (world : σ)

/-- A stream in a world, and what went out so far. -/
structure Moment (σ : Type) where
  stream : BookStream
  world : σ
  log : List Emission

namespace Moment

variable {σ : Type}

/-- A stream to which nothing happened yet. -/
def start (config : Config) (sink : Broadcast) (world : σ) : Moment σ :=
  ⟨.new config sink, world, []⟩

/-- The moment after an operation of the stream on the recording wire. -/
def ofParts (parts : BookStream × σ × List Emission) : Moment σ :=
  ⟨parts.1, parts.2.1, parts.2.2⟩

def connect (wire : StreamWire σ) (m : Moment σ) : Except StreamError Unit × Moment σ :=
  let ended := m.stream.connect wire.recorded (m.world, m.log)
  (ended.1, ofParts ended.2)

def subscribe (wire : StreamWire σ) (channel : Channel) (symbol : String)
    (options : SubscribeOptions) (m : Moment σ) : Except StreamError Unit × Moment σ :=
  let ended := m.stream.subscribe wire.recorded channel symbol options (m.world, m.log)
  (ended.1, ofParts ended.2)

def unsubscribe (wire : StreamWire σ) (channel : Channel) (symbol : String) (m : Moment σ) :
    Except StreamError Unit × Moment σ :=
  let ended := m.stream.unsubscribe wire.recorded channel symbol (m.world, m.log)
  (ended.1, ofParts ended.2)

def after (wire : StreamWire σ) (m : Moment σ) : Move σ → Moment σ
  | .publish => { m with stream := m.stream.setPublicOnly }
  | .connect => (m.connect wire).2
  | .subscribe channel symbol options => (m.subscribe wire channel symbol options).2
  | .unsubscribe channel symbol => (m.unsubscribe wire channel symbol).2
  | .close => ofParts (m.stream.close wire.recorded (m.world, m.log))
  | .receive incoming => ofParts (m.stream.receive wire.recorded incoming (m.world, m.log))
  | .keepAlive => ofParts (m.stream.keepAlive wire.recorded (m.world, m.log))
  | .pass world => { m with world }

def run (wire : StreamWire σ) (m : Moment σ) (moves : List (Move σ)) : Moment σ :=
  moves.foldl (after wire) m

theorem run_concat (wire : StreamWire σ) (m : Moment σ) (moves : List (Move σ)) (move : Move σ) :
    run wire m (moves ++ [move]) = (run wire m moves).after wire move := by
  rw [run, List.foldl_append, List.foldl_cons, List.foldl_nil, run]

/-- What holds at first and stays true with every move holds at every moment of a run. -/
theorem run_induction {wire : StreamWire σ} {m : Moment σ} {P : List (Move σ) → Moment σ → Prop}
    (first : P [] m)
    (step : ∀ moves m' move, P moves m' → P (moves ++ [move]) (m'.after wire move))
    (moves : List (Move σ)) : P moves (run wire m moves) := by
  induction moves using List.reverseRecOn with
  | nil => exact first
  | append_singleton moves move ih =>
      rw [run_concat]
      exact step moves _ move ih

end Moment

namespace BookStream

variable {σ : Type}

/-! ## What an operation leaves as it is -/

/-- Two states of a stream that is as public and was as much to be connected in both. -/
structure SameSettings (b b' : BookStream) : Prop where
  config : b'.config = b.config
  publicOnly : b'.publicOnly = b.publicOnly
  attempted : b'.attempted = b.attempted

/-- Two states of a stream that has the same to say on every connection. -/
structure Quiet (b b' : BookStream) : Prop extends SameSettings b b' where
  queue : b'.queue = b.queue

theorem sendNow_quiet (wire : StreamWire σ) (frame : Frame) (b : BookStream) (s : σ) :
    Quiet b (sendNow wire frame b s).2.1 := by
  unfold sendNow
  split
  · split <;> exact ⟨⟨rfl, rfl, rfl⟩, rfl⟩
  · exact ⟨⟨rfl, rfl, rfl⟩, rfl⟩

theorem lose_quiet (b : BookStream) (sent : List Frame) (reason : String) :
    Quiet b (b.lose sent reason) := by
  unfold lose
  dsimp only
  split <;> exact ⟨⟨rfl, rfl, rfl⟩, rfl⟩

theorem close_quiet (wire : StreamWire σ) (b : BookStream) (s : σ) :
    Quiet b (b.close wire s).1 := by
  unfold close
  split <;> exact ⟨⟨rfl, rfl, rfl⟩, rfl⟩

theorem receive_quiet (wire : StreamWire σ) (incoming : Incoming) (b : BookStream) (s : σ) :
    Quiet b (b.receive wire incoming s).1 := by
  have hsame : Quiet b b := ⟨⟨rfl, rfl, rfl⟩, rfl⟩
  unfold receive
  split
  · next sent _ =>
      cases incoming with
      | text payload => exact ⟨⟨rfl, rfl, rfl⟩, rfl⟩
      | binary payload => exact ⟨⟨rfl, rfl, rfl⟩, rfl⟩
      | ping payload =>
          dsimp only
          split
          · exact hsame
          · exact lose_quiet b sent _
      | pong => exact hsame
      | close reason => exact lose_quiet b sent _
      | broken detail => exact lose_quiet b sent _
      | ended => exact lose_quiet b sent _
  · exact hsame
  · exact hsame

theorem keepAlive_quiet (wire : StreamWire σ) (b : BookStream) (s : σ) :
    Quiet b (b.keepAlive wire s).1 := by
  unfold keepAlive
  split
  · next sent _ =>
      split
      · exact ⟨⟨rfl, rfl, rfl⟩, rfl⟩
      · exact lose_quiet b sent _
  · exact ⟨⟨rfl, rfl, rfl⟩, rfl⟩
  · exact ⟨⟨rfl, rfl, rfl⟩, rfl⟩

-- Without a connection there is nothing to send on, nothing to close, and nothing comes in.
theorem sendNow_absent (wire : StreamWire σ) (frame : Frame) {b : BookStream} (s : σ)
    (h : b.link = .absent) : sendNow wire frame b s = (.ok (), b, s) := by
  unfold sendNow
  split
  · next hlive =>
      rw [h] at hlive
      cases hlive
  · rfl

theorem close_absent (wire : StreamWire σ) {b : BookStream} (s : σ) (h : b.link = .absent) :
    b.close wire s = (b, s) := by
  rw [close, h]
  rfl

-- The same of coming in holds of a connection that nobody reads any more.
theorem receive_unread (wire : StreamWire σ) (incoming : Incoming) {b : BookStream} (s : σ)
    (h : ∀ sent, b.link ≠ .live sent) : b.receive wire incoming s = (b, s) := by
  unfold receive
  split
  · next sent hlink => exact absurd hlink (h sent)
  · rfl
  · rfl

theorem keepAlive_unread (wire : StreamWire σ) {b : BookStream} (s : σ)
    (h : ∀ sent, b.link ≠ .live sent) : b.keepAlive wire s = (b, s) := by
  unfold keepAlive
  split
  · next sent hlink => exact absurd hlink (h sent)
  · rfl
  · rfl

/-! ## Subscriptions -/

theorem subscribe_book (wire : StreamWire σ) (symbol : String) (options : SubscribeOptions)
    (b : BookStream) (s : σ) :
    b.subscribe wire .book symbol options s =
      if b.queue.contains (.subscribe (normalizeSymbol symbol)) then (.ok (), b, s)
      else
        sendNow wire (.subscribe (normalizeSymbol symbol))
          { b with queue := b.queue ++ [.subscribe (normalizeSymbol symbol)] } s :=
  rfl

theorem subscribe_other (wire : StreamWire σ) {channel : Channel} (hchannel : channel ≠ .book)
    (symbol : String) (options : SubscribeOptions) (b : BookStream) (s : σ) :
    b.subscribe wire channel symbol options s = (.error (.unsupportedChannel channel), b, s) := by
  cases channel with
  | book => exact absurd rfl hchannel
  | trade => rfl
  | bookTicker => rfl

theorem unsubscribe_book (wire : StreamWire σ) (symbol : String) (b : BookStream) (s : σ) :
    b.unsubscribe wire .book symbol s =
      if b.queue.contains (.subscribe (normalizeSymbol symbol)) then
        sendNow wire (.unsubscribe (normalizeSymbol symbol))
          { b with queue := b.queue.filter (· ≠ .subscribe (normalizeSymbol symbol)) } s
      else (.ok (), b, s) :=
  rfl

theorem unsubscribe_other (wire : StreamWire σ) {channel : Channel} (hchannel : channel ≠ .book)
    (symbol : String) (b : BookStream) (s : σ) :
    b.unsubscribe wire channel symbol s = (.error (.unsupportedChannel channel), b, s) := by
  cases channel with
  | book => exact absurd rfl hchannel
  | trade => rfl
  | bookTicker => rfl

/-! ## An attempt to connect -/

/-- How an attempt to connect ends. -/
inductive ConnectEnd (wire : StreamWire σ) (b : BookStream) (s : σ) :
    Except StreamError Unit → BookStream → σ → Prop
  /-- There is nothing to connect. -/
  | refused (hbusy : b.state = .connecting ∨ b.state = .connected ∨ b.state = .closed) :
      ConnectEnd wire b s (.error (.invalidState b.state)) b s
  /-- There is nothing to sign a login with. -/
  | unsigned (hidle : b.state = .disconnected ∨ b.state = .failed)
      (hprivate : b.publicOnly = false) (hnone : b.config.credentials? = none) :
      ConnectEnd wire b s (.error .missingCredentials)
        { b with attempted := true, queue := b.queue.filter (!·.isLogin) } s
  | failed {queue : List Frame} {cause : StreamError} {s' : σ}
      (hidle : b.state = .disconnected ∨ b.state = .failed)
      (hqueue : b.queueAt (wire.now s) = .ok queue)
      (hfailed : establish wire b.config.wsUrl queue s = (.error cause, s')) :
      ConnectEnd wire b s (.error cause)
        { b with attempted := true, queue, state := .failed, link := .absent } s'
  | up {queue sent : List Frame} {s' : σ} (hidle : b.state = .disconnected ∨ b.state = .failed)
      (hqueue : b.queueAt (wire.now s) = .ok queue)
      (hup : establish wire b.config.wsUrl queue s = (.ok sent, s')) :
      ConnectEnd wire b s (.ok ())
        { b with attempted := true, queue, state := .connected, link := .live sent,
                 sink := b.sink.emit (.connected exchangeName) } s'

theorem queueAt_error {b : BookStream} {now : Timestamp} {cause : StreamError}
    (h : b.queueAt now = .error cause) :
    cause = .missingCredentials ∧ b.publicOnly = false ∧ b.config.credentials? = none := by
  unfold queueAt at h
  dsimp only at h
  split at h
  · cases h
  · next hprivate =>
      split at h
      · cases h
      · next hnone =>
          cases h
          exact ⟨rfl, by simpa using hprivate, hnone⟩

theorem connect_idle (wire : StreamWire σ) (b : BookStream) (s : σ)
    (hidle : b.state = .disconnected ∨ b.state = .failed) :
    b.connect wire s =
      match b.queueAt (wire.now s) with
      | .error cause =>
        (.error cause, { b with attempted := true, queue := b.queue.filter (!·.isLogin) }, s)
      | .ok queue =>
        match establish wire b.config.wsUrl queue s with
        | (.ok sent, s) =>
          (.ok (), { b with attempted := true, queue, state := .connected, link := .live sent,
                            sink := b.sink.emit (.connected exchangeName) }, s)
        | (.error cause, s) =>
          (.error cause, { b with attempted := true, queue, state := .failed, link := .absent },
            s) := by
  rcases hidle with h | h
  · rw [connect, h]
    rfl
  · rw [connect, h]
    rfl

theorem connect_end (wire : StreamWire σ) (b : BookStream) (s : σ) :
    ConnectEnd wire b s (b.connect wire s).1 (b.connect wire s).2.1 (b.connect wire s).2.2 := by
  have hrefused (hbusy : b.state = .connecting ∨ b.state = .connected ∨ b.state = .closed)
      (h : b.connect wire s = (.error (.invalidState b.state), b, s)) :
      ConnectEnd wire b s (b.connect wire s).1 (b.connect wire s).2.1 (b.connect wire s).2.2 := by
    rw [h]
    exact .refused hbusy
  have htried (hidle : b.state = .disconnected ∨ b.state = .failed) :
      ConnectEnd wire b s (b.connect wire s).1 (b.connect wire s).2.1 (b.connect wire s).2.2 := by
    rw [connect_idle wire b s hidle]
    cases hqueue : b.queueAt (wire.now s) with
    | error cause =>
        obtain ⟨rfl, hprivate, hnone⟩ := queueAt_error hqueue
        exact .unsigned hidle hprivate hnone
    | ok queue =>
        dsimp only
        rcases hend : establish wire b.config.wsUrl queue s with ⟨cause | sent, s'⟩
        · exact .failed hidle hqueue hend
        · exact .up hidle hqueue hend
  cases hstate : b.state with
  | disconnected => exact htried (Or.inl hstate)
  | failed => exact htried (Or.inr hstate)
  | connecting => exact hrefused (Or.inl hstate) (by rw [connect, hstate])
  | connected => exact hrefused (Or.inr (Or.inl hstate)) (by rw [connect, hstate])
  | closed => exact hrefused (Or.inr (Or.inr hstate)) (by rw [connect, hstate])

/-! ## What goes out

When a connection is opened the queue goes out after the dial, from its first frame on, and all of
it if all goes well. Any other operation says one thing at most. -/

theorem sendAll_log (wire : StreamWire σ) (sent queue : List Frame) (s : σ)
    (log : List Emission) :
    ∃ made, made <+: queue ∧
      (sendAll wire.recorded sent queue (s, log)).2.2 = log ++ made.map (.send ∘ .frame) ∧
      ∀ sent', (sendAll wire.recorded sent queue (s, log)).1 = .ok sent' →
        made = queue ∧ sent' = sent ++ queue := by
  induction queue generalizing sent s log with
  | nil =>
      refine ⟨[], List.prefix_rfl, by rw [sendAll, List.map_nil, List.append_nil], ?_⟩
      intro sent' h
      cases h
      exact ⟨rfl, (List.append_nil sent).symm⟩
  | cons frame queue ih =>
      rcases hanswer : wire.send (.frame frame) s with ⟨failure, s'⟩
      have hfirst : wire.recorded.send (.frame frame) (s, log) =
          (failure, s', log ++ [.send (.frame frame)]) := by
        simp [StreamWire.recorded, hanswer]
      have hprefix : [frame] <+: frame :: queue := ⟨queue, rfl⟩
      rw [sendAll, hfirst]
      dsimp only
      split
      · exact ⟨[frame], hprefix, rfl, nofun⟩
      · cases failure with
        | some detail => exact ⟨[frame], hprefix, rfl, nofun⟩
        | none =>
            obtain ⟨made, hmade, hlog, hall⟩ :=
              ih (sent ++ [frame]) s' (log ++ [.send (.frame frame)])
            refine ⟨frame :: made, List.cons_prefix_cons.2 ⟨rfl, hmade⟩, ?_, ?_⟩
            · rw [hlog, List.append_assoc]
              rfl
            · intro sent' h
              obtain ⟨rfl, rfl⟩ := hall sent' h
              exact ⟨rfl, by simp⟩

theorem establish_log (wire : StreamWire σ) (url : String) (queue : List Frame) (s : σ)
    (log : List Emission) :
    ∃ made, made <+: .dial url :: queue.map (.send ∘ .frame) ∧
      (establish wire.recorded url queue (s, log)).2.2 = log ++ made ∧
      ∀ sent, (establish wire.recorded url queue (s, log)).1 = .ok sent →
        made = .dial url :: queue.map (.send ∘ .frame) ∧ sent = queue := by
  unfold establish
  split
  · exact ⟨[], List.nil_prefix, (List.append_nil log).symm, nofun⟩
  · rcases hanswer : wire.dial url s with ⟨failure, s'⟩
    have hdial : wire.recorded.dial url (s, log) = (failure, s', log ++ [.dial url]) := by
      simp [StreamWire.recorded, hanswer]
    have hprefix : [.dial url] <+: .dial url :: queue.map (Emission.send ∘ .frame) := ⟨_, rfl⟩
    rw [hdial]
    dsimp only
    split
    · exact ⟨[.dial url], hprefix, rfl, nofun⟩
    · cases failure with
      | some detail => exact ⟨[.dial url], hprefix, rfl, nofun⟩
      | none =>
          obtain ⟨made, hmade, hlog, hall⟩ := sendAll_log wire [] queue s' (log ++ [.dial url])
          refine ⟨.dial url :: made.map (.send ∘ .frame),
            List.cons_prefix_cons.2 ⟨rfl, hmade.map _⟩, ?_, ?_⟩
          · show (sendAll wire.recorded [] queue (s', log ++ [.dial url])).2.2 = _
            rw [hlog, List.append_assoc]
            rfl
          · intro sent h
            obtain ⟨rfl, rfl⟩ := hall sent h
            exact ⟨rfl, List.nil_append _⟩

theorem sendNow_log (wire : StreamWire σ) (frame : Frame) (b : BookStream) (s : σ)
    (log : List Emission) :
    (sendNow wire.recorded frame b (s, log)).2.2.2 = log ∨
      (sendNow wire.recorded frame b (s, log)).2.2.2 = log ++ [.send (.frame frame)] := by
  unfold sendNow
  split
  · refine Or.inr ?_
    split <;> next h => exact congrArg (fun answer => answer.2.2) h.symm
  · exact Or.inl rfl

theorem close_log (wire : StreamWire σ) (b : BookStream) (s : σ) (log : List Emission) :
    (b.close wire.recorded (s, log)).2.2 = log ∨
      (b.close wire.recorded (s, log)).2.2 = log ++ [.send .close] := by
  unfold close
  split
  · exact Or.inr rfl
  · exact Or.inl rfl

theorem receive_log (wire : StreamWire σ) (incoming : Incoming) (b : BookStream) (s : σ)
    (log : List Emission) :
    (b.receive wire.recorded incoming (s, log)).2.2 = log ∨
      ∃ payload, (b.receive wire.recorded incoming (s, log)).2.2 =
        log ++ [.send (.pong payload)] := by
  unfold receive
  split
  · cases incoming with
    | ping payload =>
        refine Or.inr ⟨payload, ?_⟩
        dsimp only
        split <;> next h => exact congrArg (fun answer => answer.2.2) h.symm
    | text payload => exact Or.inl rfl
    | binary payload => exact Or.inl rfl
    | pong => exact Or.inl rfl
    | close reason => exact Or.inl rfl
    | broken detail => exact Or.inl rfl
    | ended => exact Or.inl rfl
  · exact Or.inl rfl
  · exact Or.inl rfl

theorem keepAlive_log (wire : StreamWire σ) (b : BookStream) (s : σ) (log : List Emission) :
    (b.keepAlive wire.recorded (s, log)).2.2 = log ∨
      (b.keepAlive wire.recorded (s, log)).2.2 = log ++ [.send (.frame .ping)] := by
  unfold keepAlive
  split
  · refine Or.inr ?_
    split <;> next h => exact congrArg (fun answer => answer.2.2) h.symm
  · exact Or.inl rfl
  · exact Or.inl rfl

end BookStream

theorem Moment.connect_end {σ : Type} (wire : StreamWire σ) (m : Moment σ) :
    BookStream.ConnectEnd wire.recorded m.stream (m.world, m.log) (m.connect wire).1
      (m.connect wire).2.stream ((m.connect wire).2.world, (m.connect wire).2.log) :=
  BookStream.connect_end wire.recorded m.stream (m.world, m.log)

end Tradebook.Ftx
