import Mathlib
import Tradebook.Proofs.StreamRun

/-!
# How a stream stands

The state that a stream shows and the connection that it holds are kept in two places, and
each operation writes to both on its own. Seen from outside there are five ways to stand all the
same (`Coherent`): never connected, up, lost to the other end, failed, and closed.

`Turn` draws the roads between them, together with what is reported on the way. Every move
of a run is a turn (`Moment.turn_after`), and what is said about whole runs here and in the next
module rests on nothing else. Two laws are derived here. `standing_coherent` says what
the state tells about the connection and what each operation may do to either.
`close_final_iff` says when closing a stream is the end of it: always, but for a stream whose last
attempt to connect failed. That one has no connection to close, and closing passes it over.
-/

namespace Tradebook.Ftx

variable {σ : Type}

/-- A connection, whatever was sent on it. -/
inductive Phase where
  | absent
  | live
  | stale
  deriving DecidableEq, Repr

def Link.phase : Link → Phase
  | .absent => .absent
  | .live _ => .live
  | .stale _ => .stale

/-- What a report tells about the connection: that it is there, or that it is gone. -/
inductive Mark where
  | up
  | down
  deriving DecidableEq, Repr

def markOf : StreamEvent → Option Mark
  | .connected _ => some .up
  | .disconnected _ _ => some .down
  | .message _ _ => none

def marks (events : List StreamEvent) : List Mark :=
  events.filterMap markOf

theorem marks_append (events events' : List StreamEvent) :
    marks (events ++ events') = marks events ++ marks events' :=
  List.filterMap_append

/-- A stream as it is seen from outside. -/
structure Standing where
  state : StreamState
  phase : Phase
  /-- All that was reported so far. -/
  events : List StreamEvent

def BookStream.standing (b : BookStream) : Standing :=
  ⟨b.state, b.link.phase, b.sink.sent⟩

/-- The state and the connection go together. -/
inductive Coherent : Standing → Prop
  | fresh {events : List StreamEvent} : Coherent ⟨.disconnected, .absent, events⟩
  | up {events : List StreamEvent} : Coherent ⟨.connected, .live, events⟩
  | lost {events : List StreamEvent} : Coherent ⟨.disconnected, .stale, events⟩
  | failed {events : List StreamEvent} : Coherent ⟨.failed, .absent, events⟩
  | closed {events : List StreamEvent} : Coherent ⟨.closed, .absent, events⟩

namespace Coherent

variable {s : Standing}

theorem connected_iff (h : Coherent s) : s.state = .connected ↔ s.phase = .live := by
  cases h <;> simp

theorem idle (h : Coherent s) (hidle : s.state = .disconnected ∨ s.state = .failed) :
    s.phase ≠ .live ∧ s.state ≠ .closed := by
  cases h <;> simp at hidle ⊢

theorem absent_of_over (h : Coherent s) (hover : s.state = .failed ∨ s.state = .closed) :
    s.phase = .absent := by
  cases h <;> simp at hover ⊢

theorem ne_connecting (h : Coherent s) : s.state ≠ .connecting := by
  cases h <;> simp

theorem closed_or_held (h : Coherent s) (hopened : s.state = .disconnected → s.phase ≠ .absent)
    (hfailed : s.state ≠ .failed) : s.state = .closed ∨ s.phase ≠ .absent := by
  cases h with
  | fresh => exact Or.inr (hopened rfl)
  | up => exact Or.inr nofun
  | lost => exact Or.inr nofun
  | failed => exact absurd rfl hfailed
  | closed => exact Or.inl rfl

end Coherent

theorem phase_live_iff (link : Link) : link.phase = .live ↔ ∃ sent, link = .live sent := by
  cases link <;> simp [Link.phase]

theorem phase_stale_iff (link : Link) : link.phase = .stale ↔ ∃ sent, link = .stale sent := by
  cases link <;> simp [Link.phase]

theorem phase_absent_iff (link : Link) : link.phase = .absent ↔ link = .absent := by
  cases link <;> simp [Link.phase]

theorem isHeld_iff (link : Link) : link.isHeld = true ↔ link.phase ≠ .absent := by
  cases link <;> simp [Link.isHeld, Link.phase]

theorem not_isHeld_iff (link : Link) : link.isHeld = false ↔ link.phase = .absent := by
  rw [← Bool.not_eq_true, isHeld_iff, not_not]

/-- What a move can do to the standing of a stream. -/
inductive Turn : Move σ → Standing → Standing → Prop
  /-- Closing has no effect only where there is no connection. -/
  | stays {move : Move σ} {state : StreamState} {phase : Phase} {events said : List StreamEvent}
      (hclose : move = .close → phase = .absent) (hsaid : marks said = []) :
      Turn move ⟨state, phase, events⟩ ⟨state, phase, events ++ said⟩
  | opens {state : StreamState} {phase : Phase} {events : List StreamEvent}
      (hidle : state = .disconnected ∨ state = .failed) :
      Turn .connect ⟨state, phase, events⟩
        ⟨.connected, .live, events ++ [.connected exchangeName]⟩
  | fails {state : StreamState} {phase : Phase} {events : List StreamEvent}
      (hidle : state = .disconnected ∨ state = .failed) :
      Turn .connect ⟨state, phase, events⟩ ⟨.failed, .absent, events⟩
  | loses {move : Move σ} {events : List StreamEvent} (reason : String) (hmove : move ≠ .close) :
      Turn move ⟨.connected, .live, events⟩
        ⟨.disconnected, .stale, events ++ [.disconnected exchangeName reason]⟩
  /-- Whether the other end is still there makes no difference. -/
  | closes {state : StreamState} {phase : Phase} {events : List StreamEvent}
      (hheld : phase ≠ .absent) :
      Turn .close ⟨state, phase, events⟩
        ⟨.closed, .absent, events ++ [.disconnected exchangeName "closed"]⟩

section Turns

variable {τ : Type} {move : Move σ} {b b' : BookStream}

/-- The standing stays if state, connection and reports do. -/
theorem Turn.same (hclose : move = .close → b.link.phase = .absent) (hstate : b'.state = b.state)
    (hphase : b'.link.phase = b.link.phase) (hsent : b'.sink.sent = b.sink.sent) :
    Turn move b.standing b'.standing := by
  have hstanding : b'.standing = ⟨b.state, b.link.phase, b.sink.sent ++ []⟩ := by
    rw [BookStream.standing, hstate, hphase, hsent, List.append_nil]
  rw [hstanding]
  exact .stays hclose rfl

/-- A message that is handed on changes nothing else. -/
theorem Turn.message (hmove : move ≠ .close) (payload : String) :
    Turn move b.standing (b.emit (.message exchangeName payload)).standing :=
  .stays (fun h => absurd h hmove) rfl

/-- A stream that takes itself for connected notices the loss and reports it. -/
theorem lose_standing (hstate : b.state = .connected) (sent : List Frame) (reason : String) :
    (b.lose sent reason).standing =
      ⟨.disconnected, .stale, b.sink.sent ++ [.disconnected exchangeName reason]⟩ := by
  rw [BookStream.lose, if_pos (show ({ b with link := .stale sent } : BookStream).state =
    .connected from hstate)]
  rfl

theorem turn_lose {sent : List Frame} (hmove : move ≠ .close) (hlink : b.link = .live sent)
    (hstate : b.state = .connected) (reason : String) :
    Turn move b.standing (b.lose sent reason).standing := by
  have hbefore : b.standing = ⟨.connected, .live, b.sink.sent⟩ := by
    rw [BookStream.standing, hstate, hlink]
    rfl
  rw [hbefore, lose_standing hstate]
  exact .loses reason hmove

theorem turn_connect (wire : StreamWire τ) (b : BookStream) (s : τ) :
    Turn (.connect : Move σ) b.standing (b.connect wire s).2.1.standing := by
  have hend := BookStream.connect_end wire b s
  generalize (b.connect wire s).1 = result at hend
  generalize (b.connect wire s).2.1 = b', (b.connect wire s).2.2 = s' at hend ⊢
  cases hend with
  | refused _ => exact .same nofun rfl rfl rfl
  | unsigned _ _ _ => exact .same nofun rfl rfl rfl
  | failed hidle _ _ => exact .fails hidle
  | up hidle _ _ => exact .opens hidle

theorem sendNow_standing (wire : StreamWire τ) (frame : Frame) (b : BookStream) (s : τ) :
    (BookStream.sendNow wire frame b s).2.1.standing = b.standing := by
  unfold BookStream.sendNow
  split
  · next hlink =>
      split
      · rw [BookStream.standing, BookStream.standing, hlink]
        rfl
      · rfl
  · rfl

theorem subscribe_standing (wire : StreamWire τ) (channel : Channel) (symbol : String)
    (options : SubscribeOptions) (b : BookStream) (s : τ) :
    (b.subscribe wire channel symbol options s).2.1.standing = b.standing := by
  by_cases hchannel : channel = .book
  · subst hchannel
    rw [BookStream.subscribe_book]
    split
    · rfl
    · rw [sendNow_standing]
      rfl
  · rw [BookStream.subscribe_other _ hchannel]

theorem unsubscribe_standing (wire : StreamWire τ) (channel : Channel) (symbol : String)
    (b : BookStream) (s : τ) :
    (b.unsubscribe wire channel symbol s).2.1.standing = b.standing := by
  by_cases hchannel : channel = .book
  · subst hchannel
    rw [BookStream.unsubscribe_book]
    split
    · rw [sendNow_standing]
      rfl
    · rfl
  · rw [BookStream.unsubscribe_other _ hchannel]

/-- Whether the other end is still there or not, closing is the end of it. -/
theorem close_standing (wire : StreamWire τ) (hheld : b.link.phase ≠ .absent) (s : τ) :
    (b.close wire s).1.standing =
      ⟨.closed, .absent, b.sink.sent ++ [.disconnected exchangeName "closed"]⟩ := by
  rw [BookStream.close, if_pos ((isHeld_iff _).2 hheld)]
  rfl

theorem turn_close (wire : StreamWire τ) (b : BookStream) (s : τ) :
    Turn (.close : Move σ) b.standing (b.close wire s).1.standing := by
  by_cases hphase : b.link.phase = .absent
  · rw [BookStream.close_absent wire s ((phase_absent_iff _).1 hphase)]
    exact .same (fun _ => hphase) rfl rfl rfl
  · rw [close_standing wire hphase]
    exact .closes hphase

theorem turn_receive (wire : StreamWire τ) (incoming : Incoming) {b : BookStream} (s : τ)
    (hlive : ∀ sent, b.link = .live sent → b.state = .connected) :
    Turn (.receive incoming : Move σ) b.standing (b.receive wire incoming s).1.standing := by
  have hmove : (.receive incoming : Move σ) ≠ .close := nofun
  unfold BookStream.receive
  split
  · next sent hlink =>
      have hlose := turn_lose hmove hlink (hlive sent hlink)
      cases incoming with
      | text payload => exact .message hmove payload
      | binary payload => exact .message hmove _
      | ping payload =>
          dsimp only
          split
          · exact .same nofun rfl rfl rfl
          · exact hlose _
      | pong => exact .same nofun rfl rfl rfl
      | close reason => exact hlose _
      | broken detail => exact hlose _
      | ended => exact hlose _
  · exact .same nofun rfl rfl rfl
  · exact .same nofun rfl rfl rfl

theorem turn_keepAlive (wire : StreamWire τ) {b : BookStream} (s : τ)
    (hlive : ∀ sent, b.link = .live sent → b.state = .connected) :
    Turn (.keepAlive : Move σ) b.standing (b.keepAlive wire s).1.standing := by
  have hmove : (.keepAlive : Move σ) ≠ .close := nofun
  unfold BookStream.keepAlive
  split
  · next sent hlink =>
      split
      · exact .same nofun rfl (by rw [hlink]; rfl) rfl
      · exact turn_lose hmove hlink (hlive sent hlink) _
  · exact .same nofun rfl rfl rfl
  · exact .same nofun rfl rfl rfl

end Turns

/-! ## Every move is a turn, and every turn keeps the standing coherent -/

section Runs

variable {wire : StreamWire σ} {m : Moment σ} {move : Move σ} {s s' : Standing}

def Moment.standing (m : Moment σ) : Standing :=
  m.stream.standing

theorem Moment.turn_after (wire : StreamWire σ) (h : Coherent m.standing) (move : Move σ) :
    Turn move m.standing (m.after wire move).standing := by
  have hlive (sent : List Frame) (hlink : m.stream.link = .live sent) :
      m.stream.state = .connected :=
    h.connected_iff.2 ((phase_live_iff _).2 ⟨sent, hlink⟩)
  cases move with
  | publish =>
      show Turn _ _ m.stream.setPublicOnly.standing
      unfold BookStream.setPublicOnly
      split <;> exact .same nofun rfl rfl rfl
  | connect => exact turn_connect wire.recorded m.stream (m.world, m.log)
  | subscribe channel symbol options =>
      have hsame := subscribe_standing wire.recorded channel symbol options m.stream
        (m.world, m.log)
      show Turn _ _ (m.stream.subscribe wire.recorded channel symbol options _).2.1.standing
      rw [hsame]
      exact .same nofun rfl rfl rfl
  | unsubscribe channel symbol =>
      have hsame := unsubscribe_standing wire.recorded channel symbol m.stream (m.world, m.log)
      show Turn _ _ (m.stream.unsubscribe wire.recorded channel symbol _).2.1.standing
      rw [hsame]
      exact .same nofun rfl rfl rfl
  | close => exact turn_close wire.recorded m.stream (m.world, m.log)
  | receive incoming => exact turn_receive wire.recorded incoming (m.world, m.log) hlive
  | keepAlive => exact turn_keepAlive wire.recorded (m.world, m.log) hlive
  | pass world => exact .same nofun rfl rfl rfl

theorem Turn.coherent (h : Turn move s s') (hs : Coherent s) : Coherent s' := by
  cases h with
  | stays _ _ => cases hs <;> constructor
  | opens _ => exact .up
  | fails _ => exact .failed
  | loses _ _ => exact .lost
  | closes _ => exact .closed

/-- What holds at first, and stays true with every turn, holds of the standing at every moment
from then on. -/
theorem Moment.standing_induction {P : Standing → Prop} (h : Coherent m.standing)
    (first : P m.standing)
    (turn : ∀ {move : Move σ} {s s' : Standing}, Coherent s → Turn move s s' → P s → P s')
    (moves : List (Move σ)) : P (m.run wire moves).standing := by
  have hall : Coherent (m.run wire moves).standing ∧ P (m.run wire moves).standing :=
    run_induction (P := fun _ m => Coherent m.standing ∧ P m.standing) ⟨h, first⟩
      (fun _ m' move ⟨hcoherent, hp⟩ =>
        have hturn := m'.turn_after wire hcoherent move
        ⟨hturn.coherent hcoherent, turn hcoherent hturn hp⟩)
      moves
  exact hall.2

theorem coherent_run (wire : StreamWire σ) (config : Config) (sink : Broadcast) (world : σ)
    (moves : List (Move σ)) :
    Coherent (Moment.run wire (.start config sink world) moves).standing :=
  have hstart : Coherent (Moment.start config sink world).standing := .fresh
  Moment.standing_induction (P := Coherent) hstart hstart (fun h hturn _ => hturn.coherent h) moves

/-- Closed is where no road leads out of. -/
theorem Turn.closed (h : Turn move s s') (hs : s.state = .closed) : s'.state = .closed := by
  cases h with
  | stays _ _ => exact hs
  | opens hidle =>
      cases hs
      simp at hidle
  | fails hidle =>
      cases hs
      simp at hidle
  | loses _ _ => cases hs
  | closes _ => rfl

theorem Moment.closed_run (wire : StreamWire σ) (h : Coherent m.standing)
    (hclosed : m.stream.state = .closed) (moves : List (Move σ)) :
    (m.run wire moves).stream.state = .closed :=
  standing_induction (P := fun s => s.state = .closed) h hclosed
    (fun _ hturn hs => hturn.closed hs) moves

/-- A stream that was up once is at no later moment as if it had never been. -/
theorem Turn.opened (h : Turn move s s') (hs : s.state = .disconnected → s.phase ≠ .absent) :
    s'.state = .disconnected → s'.phase ≠ .absent := by
  cases h with
  | stays _ _ => exact hs
  | opens _ => nofun
  | fails _ => nofun
  | loses _ _ => exact fun _ => nofun
  | closes _ => nofun

/-! ## Attempts to connect, and closing -/

theorem Moment.connect_refused (wire : StreamWire σ)
    (hbusy : m.stream.state = .connected ∨ m.stream.state = .closed) :
    m.connect wire = (.error (.invalidState m.stream.state), m) := by
  have h : m.stream.connect wire.recorded (m.world, m.log) =
      (.error (.invalidState m.stream.state), m.stream, m.world, m.log) := by
    rcases hbusy with hstate | hstate <;> rw [BookStream.connect, hstate]
  rw [Moment.connect, h]
  rfl

/-- Of the ways to fail only two come before anything is dialled. -/
theorem Moment.failed_of_tried {m' : Moment σ} {cause : StreamError}
    (h : m.connect wire = (.error cause, m'))
    (htried : m'.log ≠ m.log ∨
      cause ≠ .missingCredentials ∧ cause ≠ .invalidState m.stream.state) :
    m'.stream.state = .failed := by
  have hend := Moment.connect_end wire m
  rw [h] at hend
  generalize hstream : m'.stream = stream at hend ⊢
  generalize hworld : (m'.world, m'.log) = world at hend
  cases hend with
  | refused _ =>
      rcases htried with hlog | ⟨-, hcause⟩
      · exact absurd (congrArg Prod.snd hworld) hlog
      · exact absurd rfl hcause
  | unsigned _ _ _ =>
      rcases htried with hlog | ⟨hcause, -⟩
      · exact absurd (congrArg Prod.snd hworld) hlog
      · exact absurd rfl hcause
  | failed _ _ _ => rfl

theorem Moment.close_absent (wire : StreamWire σ) (h : m.standing.phase = .absent) :
    m.after wire .close = m := by
  have hclose := BookStream.close_absent wire.recorded (m.world, m.log)
    ((phase_absent_iff _).1 h)
  rw [Moment.after, hclose]
  rfl

theorem Moment.close_held (wire : StreamWire σ) (h : m.standing.phase ≠ .absent) :
    (m.after wire .close).stream.state = .closed :=
  congrArg Standing.state (close_standing wire.recorded h (m.world, m.log))

/-- At every moment of every run: who is connected holds a connection, who failed or was closed
holds none, and nobody is seen connecting. Closed is for good. To connect a stream that is connected
or closed is refused and changes nothing, and an attempt that fails once it was under way leaves
the stream failed. To close without a connection changes nothing, and to subscribe or unsubscribe
never changes the state. -/
theorem standing_coherent (wire : StreamWire σ) (config : Config) (sink : Broadcast) (world : σ)
    (moves : List (Move σ)) :
    let m := Moment.run wire (.start config sink world) moves
    (m.stream.state = .connected → m.stream.link.isHeld = true) ∧
    (m.stream.state = .failed ∨ m.stream.state = .closed → m.stream.link.isHeld = false) ∧
    m.stream.state ≠ .connecting ∧
    (m.stream.state = .closed →
      ∀ moves', (Moment.run wire m moves').stream.state = .closed) ∧
    (m.stream.state = .connected ∨ m.stream.state = .closed →
      m.connect wire = (.error (.invalidState m.stream.state), m)) ∧
    (∀ cause m', m.connect wire = (.error cause, m') →
      m'.log ≠ m.log ∨ cause ≠ .missingCredentials ∧ cause ≠ .invalidState m.stream.state →
      m'.stream.state = .failed) ∧
    (m.stream.link.isHeld = false → m.after wire .close = m) ∧
    (∀ channel symbol options,
      (m.subscribe wire channel symbol options).2.stream.state = m.stream.state) ∧
    ∀ channel symbol, (m.unsubscribe wire channel symbol).2.stream.state = m.stream.state := by
  intro m
  have h : Coherent m.standing := coherent_run wire config sink world moves
  refine ⟨fun hup => ?_, fun hover => ?_, h.ne_connecting,
    fun hclosed => Moment.closed_run wire h hclosed, Moment.connect_refused wire,
    fun _ _ => Moment.failed_of_tried, fun hheld => ?_, ?_, ?_⟩
  · have hlive : m.stream.link.phase = .live := h.connected_iff.1 hup
    rw [isHeld_iff, hlive]
    nofun
  · have hphase : m.stream.link.phase = .absent := h.absent_of_over hover
    rw [not_isHeld_iff]
    exact hphase
  · rw [not_isHeld_iff] at hheld
    exact Moment.close_absent wire hheld
  · intro channel symbol options
    exact congrArg Standing.state (subscribe_standing wire.recorded channel symbol options m.stream
      (m.world, m.log))
  · intro channel symbol
    exact congrArg Standing.state (unsubscribe_standing wire.recorded channel symbol m.stream
      (m.world, m.log))

/-- A stream that was connected once is closed for good by closing it, exactly if it does not
stand failed at that moment. -/
theorem close_final_iff (wire : StreamWire σ) (config : Config) (sink : Broadcast) (world : σ)
    (before between : List (Move σ))
    (hup : (Moment.run wire (.start config sink world) before).stream.state = .connected) :
    let m := Moment.run wire (.start config sink world) (before ++ between)
    let closed := m.after wire .close
    (closed.stream.state = .closed ↔ m.stream.state ≠ .failed) ∧
    (m.stream.state ≠ .failed → ∀ after,
      let later := Moment.run wire closed after
      later.connect wire = (.error (.invalidState .closed), later)) ∧
    (m.stream.state = .failed → closed = m) := by
  intro m closed
  have h : Coherent m.standing := coherent_run wire config sink world _
  have hopened : m.standing.state = .disconnected → m.standing.phase ≠ .absent := by
    have hbetween : m = (Moment.run wire (.start config sink world) before).run wire between :=
      List.foldl_append
    rw [hbetween]
    refine Moment.standing_induction (P := fun s => s.state = .disconnected → s.phase ≠ .absent)
      (coherent_run wire config sink world before) ?_ (fun _ hturn => hturn.opened) between
    intro hstate
    rw [show (Moment.standing _).state = .connected from hup] at hstate
    cases hstate
  have hfailed (hstate : m.stream.state = .failed) : closed = m :=
    Moment.close_absent wire (h.absent_of_over (Or.inl hstate))
  have hclosed (hstate : m.stream.state ≠ .failed) : closed.stream.state = .closed := by
    rcases h.closed_or_held hopened hstate with hover | hheld
    · have hsame : closed = m := Moment.close_absent wire (h.absent_of_over (Or.inr hover))
      rw [hsame]
      exact hover
    · exact Moment.close_held wire hheld
  refine ⟨⟨fun hover hstate => ?_, hclosed⟩, fun hstate after => ?_, hfailed⟩
  · rw [hfailed hstate, hstate] at hover
    cases hover
  · have hlater := Moment.closed_run wire ((m.turn_after wire h .close).coherent h)
      (hclosed hstate) after
    have hrefused := Moment.connect_refused wire (Or.inr hlater)
    rw [hlater] at hrefused
    exact hrefused

end Runs

/-- An exchange on which every dial and every frame fares as the world has it: well, or badly for
the reason given. -/
def moody : StreamWire (Option String) :=
  ⟨fun _ s => (s, s), fun _ s => (s, s), fun s => (.due, s), fun _ => false, fun _ => .epoch⟩

-- The other end went away, and nobody has tried to connect again.
theorem close_final_iff_lost :
    let start : Moment (Option String) := .start .default .default none
    let lost := Moment.run moody start ([.publish, .connect] ++ [.receive .ended])
    (Moment.run moody start [.publish, .connect]).stream.state = .connected ∧
      lost.stream.state = .disconnected ∧ (lost.after moody .close).stream.state = .closed ∧
      ∀ after, ((lost.after moody .close).run moody after).connect moody =
        (.error (.invalidState .closed), (lost.after moody .close).run moody after) := by
  intro start lost
  have hup : (Moment.run moody start [.publish, .connect]).stream.state = .connected := rfl
  have hlost : lost.stream.state = .disconnected := rfl
  obtain ⟨hclosed, hlast, -⟩ :=
    close_final_iff moody .default .default none [.publish, .connect] [.receive .ended] hup
  have hstanding : lost.stream.state ≠ .failed := by
    rw [hlost]
    nofun
  exact ⟨hup, hlost, hclosed.2 hstanding, hlast hstanding⟩

/-- After an attempt to connect again that failed, closing does nothing, and the stream can be
connected once more. -/
theorem close_passes_over_failed :
    let start : Moment (Option String) := .start .default .default none
    let up := Moment.run moody start [.publish, .connect]
    let closed := Moment.run moody up
      [.receive .ended, .pass (some "refused"), .connect, .close]
    up.stream.state = .connected ∧ closed.stream.state = .failed ∧
      ((closed.after moody (.pass none)).connect moody).1 = .ok () ∧
      ((closed.after moody (.pass none)).connect moody).2.log =
        closed.log ++ [.dial "wss://ftx.com/ws/"] :=
  ⟨rfl, rfl, rfl, rfl⟩

end Tradebook.Ftx
