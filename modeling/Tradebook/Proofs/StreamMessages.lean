import Mathlib
import Tradebook.Proofs.StreamQueue
import Tradebook.Proofs.StreamStanding

/-!
# What a stream hands on

All connections of a run report to one sink, one after the other. `messages_of_connections` takes
the reports apart again: the connections of the run share them out without rest, and
the share of each is that it is there, then what came in on it while it was read, each once and in
this order, and then nothing but that it is gone.

A connection is read until either end closes it or reading fails (`Move.isEnd`). There is a
further end: the stream answers a ping and gives signs of life, and when such a word cannot be
sent, it stops to read as well (`Moment.fallsMute`). What comes in after that is lost
(`unsent_reply_silences`), though the other end may know nothing of it.

What one move can do is said once (`Course`), and the rest is an induction along the run that
keeps account of the connection that is held at the moment (`Held`).
-/

namespace Tradebook.Ftx

variable {σ : Type}

/-! ## The part of a run in which a connection is read -/

def Incoming.payload? : Incoming → Option String
  | .text payload => some payload
  | .binary payload => some (.ofList (Text.decodeLossy payload))
  | .ping _ | .pong | .close _ | .broken _ | .ended => none

/-- Whether there is nothing to read any more. -/
def Incoming.isEnd : Incoming → Bool
  | .close _ | .broken _ | .ended => true
  | .text _ | .binary _ | .ping _ | .pong => false

def Move.payload? : Move σ → Option String
  | .receive incoming => incoming.payload?
  | _ => none

/-- Whether one of the two ends gives the connection up, or reading fails. -/
def Move.isEnd : Move σ → Bool
  | .close => true
  | .receive incoming => incoming.isEnd
  | _ => false

/-- What the stream says of its own accord. -/
def Move.reply? : Move σ → Option Outgoing
  | .receive (.ping payload) => some (.pong payload)
  | .keepAlive => some (.frame .ping)
  | _ => none

namespace Moment

/-- What the stream would say of its own accord cannot be sent. -/
def fallsMute (wire : StreamWire σ) (m : Moment σ) (move : Move σ) : Bool :=
  move.reply?.any fun outgoing => (wire.send outgoing m.world).1.isSome

def endsReading (wire : StreamWire σ) (m : Moment σ) (move : Move σ) : Bool :=
  move.isEnd || m.fallsMute wire move

/-- The moves up to the one with which reading ends. -/
def reading (wire : StreamWire σ) : Moment σ → List (Move σ) → List (Move σ)
  | _, [] => []
  | m, move :: moves =>
    if m.endsReading wire move then [] else move :: reading wire (m.after wire move) moves

/-- What comes in to be handed on before reading ends. -/
def heard (wire : StreamWire σ) (m : Moment σ) (moves : List (Move σ)) : List String :=
  (m.reading wire moves).filterMap Move.payload?

def opens (wire : StreamWire σ) (m : Moment σ) : Move σ → Bool
  | .connect => (m.connect wire).1.isOk
  | _ => false

end Moment

/-- A connection: the moment at which it is there, and what happens from then on. -/
structure Connection (σ : Type) where
  opened : Moment σ
  moves : List (Move σ)

/-- The connections of a run, the first one first. -/
def connections (wire : StreamWire σ) : Moment σ → List (Move σ) → List (Connection σ)
  | _, [] => []
  | m, move :: moves =>
    let later := connections wire (m.after wire move) moves
    if m.opens wire move then ⟨m.after wire move, moves⟩ :: later else later

/-- Whatever the stream says of its own accord in a run gets through. -/
def Moment.Answers (wire : StreamWire σ) (m : Moment σ) (moves : List (Move σ)) : Prop :=
  ∀ before move after, moves = before ++ move :: after →
    (m.run wire before).fallsMute wire move = false

/-- If it does up to the end of a connection, the connection is read up to its end. -/
theorem Moment.Answers.reading_eq {wire : StreamWire σ} {m : Moment σ} {moves : List (Move σ)}
    (h : m.Answers wire (moves.takeWhile (!·.isEnd))) :
    m.reading wire moves = moves.takeWhile (!·.isEnd) := by
  induction moves generalizing m with
  | nil => rfl
  | cons move moves ih =>
      rw [reading, endsReading]
      cases hend : move.isEnd with
      | true => simp [hend]
      | false =>
          have htaken : (move :: moves).takeWhile (!·.isEnd) =
              move :: moves.takeWhile (!·.isEnd) := by simp [hend]
          rw [htaken] at h ⊢
          have hfirst : m.fallsMute wire move = false := h [] move _ rfl
          have hrest : (m.after wire move).Answers wire (moves.takeWhile (!·.isEnd)) := by
            intro before move' after hmoves
            exact h (move :: before) move' after (congrArg (move :: ·) hmoves)
          rw [hfirst, ih hrest]
          rfl

/-! ## What one move reports -/

def AllGone (events : List StreamEvent) : Prop :=
  ∀ event ∈ events, ∃ reason, event = .disconnected exchangeName reason

theorem allGone_nil : AllGone [] :=
  nofun

theorem AllGone.append {events events' : List StreamEvent} (h : AllGone events)
    (h' : AllGone events') : AllGone (events ++ events') :=
  List.forall_mem_append.2 ⟨h, h'⟩

theorem allGone_singleton (reason : String) : AllGone [.disconnected exchangeName reason] := by
  intro event hevent
  exact ⟨reason, List.mem_singleton.1 hevent⟩

/-- How a move can leave a stream, and what is reported with it. -/
inductive Course (wire : StreamWire σ) (m : Moment σ) (move : Move σ) : Standing → Prop
  | opens {state : StreamState} (hopens : m.opens wire move = true)
      (hphase : m.standing.phase ≠ .live) :
      Course wire m move ⟨state, .live, m.standing.events ++ [.connected exchangeName]⟩
  | reads {state : StreamState} (hopens : m.opens wire move = false)
      (hphase : m.standing.phase = .live) (hends : m.endsReading wire move = false) :
      Course wire m move
        ⟨state, .live, m.standing.events ++ move.payload?.toList.map (.message exchangeName)⟩
  | ends {state : StreamState} {phase : Phase} (reason : String)
      (hopens : m.opens wire move = false) (hphase : m.standing.phase = .live)
      (hends : m.endsReading wire move = true) (hphase' : phase ≠ .live) :
      Course wire m move
        ⟨state, phase, m.standing.events ++ [.disconnected exchangeName reason]⟩
  /-- Only a connection that is still there to be closed can be reported gone again. -/
  | idles {state : StreamState} {phase : Phase} {gone : List StreamEvent}
      (hopens : m.opens wire move = false) (hphase : m.standing.phase ≠ .live)
      (hphase' : phase ≠ .live) (hgone : AllGone gone)
      (habsent : m.standing.phase = .absent → phase = .absent ∧ gone = []) :
      Course wire m move ⟨state, phase, m.standing.events ++ gone⟩

section Steps

variable {wire : StreamWire σ} {m : Moment σ} {move : Move σ}

theorem Course.still (hopens : m.opens wire move = false)
    (hends : m.standing.phase = .live → m.endsReading wire move = false)
    (hpayload : m.standing.phase = .live → move.payload? = none) :
    Course wire m move m.standing := by
  by_cases hphase : m.standing.phase = .live
  · have hreads : Course wire m move ⟨m.standing.state, .live,
        m.standing.events ++ move.payload?.toList.map (.message exchangeName)⟩ :=
      .reads hopens hphase (hends hphase)
    rw [hpayload hphase, ← hphase] at hreads
    simpa using hreads
  · have hidles : Course wire m move
        ⟨m.standing.state, m.standing.phase, m.standing.events ++ []⟩ :=
      .idles hopens hphase hphase allGone_nil fun habsent => ⟨habsent, rfl⟩
    rwa [List.append_nil] at hidles

theorem Course.standing_eq {s : Standing} (h : Course wire m move m.standing)
    (hs : s = m.standing) : Course wire m move s :=
  hs ▸ h

theorem course_connect (hcoherent : Coherent m.standing) :
    Course wire m .connect (m.after wire .connect).standing := by
  have hend := Moment.connect_end wire m
  have hopens : m.opens wire .connect = (m.connect wire).1.isOk := rfl
  show Course wire m .connect (m.connect wire).2.stream.standing
  generalize (m.connect wire).1 = result at hend hopens
  generalize (m.connect wire).2.stream = stream at hend ⊢
  generalize ((m.connect wire).2.world, (m.connect wire).2.log) = world at hend
  cases hend with
  | refused _ => exact .still hopens (fun _ => rfl) (fun _ => rfl)
  | unsigned _ _ _ => exact (Course.still hopens (fun _ => rfl) (fun _ => rfl)).standing_eq rfl
  | failed hidle _ _ =>
      have hphase := (hcoherent.idle hidle).1
      have hidles : Course wire m .connect ⟨.failed, .absent, m.standing.events ++ []⟩ :=
        .idles hopens hphase (by decide) allGone_nil fun _ => ⟨rfl, rfl⟩
      rwa [List.append_nil] at hidles
  | up hidle _ _ => exact .opens hopens (hcoherent.idle hidle).1

theorem course_close : Course wire m .close (m.after wire .close).standing := by
  by_cases habsent : m.standing.phase = .absent
  · have hidle : m.standing.phase ≠ .live := by
      rw [habsent]
      decide
    rw [Moment.close_absent wire habsent]
    exact .still rfl (fun h => absurd h hidle) (fun _ => rfl)
  · show Course _ _ _ (m.stream.close wire.recorded (m.world, m.log)).1.standing
    rw [close_standing wire.recorded habsent]
    by_cases hphase : m.standing.phase = .live
    · exact .ends "closed" rfl hphase rfl (by decide)
    · exact .idles rfl hphase (by decide) (allGone_singleton "closed") fun h => absurd h habsent

/-- With the answer of the wire to what the stream says of its own accord, it is read on or not. -/
theorem fallsMute_of_reply (move : Move σ) {outgoing : Outgoing}
    (hreply : move.reply? = some outgoing) {failure : Option String} {world : σ × List Emission}
    (hanswer : wire.recorded.send outgoing (m.world, m.log) = (failure, world)) :
    m.fallsMute wire move = failure.isSome := by
  have hfailure : (wire.send outgoing m.world).1 = failure := congrArg Prod.fst hanswer
  rw [Moment.fallsMute, hreply, ← hfailure]
  rfl

theorem course_receive (hcoherent : Coherent m.standing) (incoming : Incoming) :
    Course wire m (.receive incoming) (m.after wire (.receive incoming)).standing := by
  show Course _ _ _ (m.stream.receive wire.recorded incoming (m.world, m.log)).1.standing
  by_cases hphase : m.standing.phase = .live
  · obtain ⟨sent, hlink⟩ := (phase_live_iff _).1 hphase
    have hstate : m.stream.state = .connected := hcoherent.connected_iff.2 hphase
    -- what is handed on is added to the reports, and nothing else changes
    have hread (hends : m.endsReading wire (.receive incoming) = false) :
        Course wire m (.receive incoming) ⟨m.stream.state, m.stream.link.phase,
          m.stream.sink.sent ++ incoming.payload?.toList.map (.message exchangeName)⟩ := by
      rw [show m.stream.link.phase = .live from hphase]
      exact .reads rfl hphase hends
    rw [BookStream.receive, hlink]
    cases incoming with
    | text payload => exact hread rfl
    | binary payload => exact hread rfl
    | pong => exact .still rfl (fun _ => rfl) (fun _ => rfl)
    | ping payload =>
        dsimp only
        split
        · next hanswer =>
            have hmute := fallsMute_of_reply (.receive (.ping payload)) rfl hanswer
            exact .still rfl (fun _ => hmute) (fun _ => rfl)
        · next detail _ hanswer =>
            have hmute := fallsMute_of_reply (.receive (.ping payload)) rfl hanswer
            rw [lose_standing hstate]
            exact .ends detail rfl hphase hmute (by decide)
    | close reason =>
        rw [lose_standing hstate]
        exact .ends _ rfl hphase rfl (by decide)
    | broken detail =>
        rw [lose_standing hstate]
        exact .ends _ rfl hphase rfl (by decide)
    | ended =>
        rw [lose_standing hstate]
        exact .ends _ rfl hphase rfl (by decide)
  · have hunread (sent : List Frame) : m.stream.link ≠ .live sent :=
      fun hlink => hphase ((phase_live_iff _).2 ⟨sent, hlink⟩)
    rw [BookStream.receive_unread _ _ _ hunread]
    exact .still rfl (fun h => absurd h hphase) (fun h => absurd h hphase)

theorem course_keepAlive (hcoherent : Coherent m.standing) :
    Course wire m .keepAlive (m.after wire .keepAlive).standing := by
  show Course _ _ _ (m.stream.keepAlive wire.recorded (m.world, m.log)).1.standing
  by_cases hphase : m.standing.phase = .live
  · obtain ⟨sent, hlink⟩ := (phase_live_iff _).1 hphase
    have hstate : m.stream.state = .connected := hcoherent.connected_iff.2 hphase
    rw [BookStream.keepAlive, hlink]
    dsimp only
    split
    · next hanswer =>
        have hmute := fallsMute_of_reply .keepAlive rfl hanswer
        have hstill : Course wire m .keepAlive m.standing :=
          .still rfl (fun _ => hmute) (fun _ => rfl)
        refine hstill.standing_eq ?_
        simp only [Moment.standing, BookStream.standing, hlink]
        rfl
    · next detail _ hanswer =>
        have hmute := fallsMute_of_reply .keepAlive rfl hanswer
        rw [lose_standing hstate]
        exact .ends detail rfl hphase hmute (by decide)
  · have hunread (sent : List Frame) : m.stream.link ≠ .live sent :=
      fun hlink => hphase ((phase_live_iff _).2 ⟨sent, hlink⟩)
    rw [BookStream.keepAlive_unread _ _ hunread]
    exact .still rfl (fun h => absurd h hphase) (fun h => absurd h hphase)

theorem course_after (wire : StreamWire σ) (hcoherent : Coherent m.standing) (move : Move σ) :
    Course wire m move (m.after wire move).standing := by
  cases move with
  | publish =>
      refine (Course.still rfl (fun _ => rfl) (fun _ => rfl)).standing_eq ?_
      show m.stream.setPublicOnly.standing = m.stream.standing
      unfold BookStream.setPublicOnly
      split <;> rfl
  | connect => exact course_connect hcoherent
  | subscribe channel symbol options =>
      refine (Course.still rfl (fun _ => rfl) (fun _ => rfl)).standing_eq ?_
      exact subscribe_standing wire.recorded channel symbol options m.stream (m.world, m.log)
  | unsubscribe channel symbol =>
      refine (Course.still rfl (fun _ => rfl) (fun _ => rfl)).standing_eq ?_
      exact unsubscribe_standing wire.recorded channel symbol m.stream (m.world, m.log)
  | close => exact course_close
  | receive incoming => exact course_receive hcoherent incoming
  | keepAlive => exact course_keepAlive hcoherent
  | pass world => exact .still rfl (fun _ => rfl) (fun _ => rfl)

end Steps

/-! ## What a run reports -/

/-- What is still to be reported of the connection that is held at a moment, with what is to
come. -/
inductive Held (wire : StreamWire σ) (m : Moment σ) (moves : List (Move σ)) :
    Phase → List StreamEvent → Prop
  | absent : Held wire m moves .absent []
  | stale {gone : List StreamEvent} (hgone : AllGone gone) : Held wire m moves .stale gone
  | live {gone : List StreamEvent} (hgone : AllGone gone) :
      Held wire m moves .live ((m.heard wire moves).map (.message exchangeName) ++ gone)

def Relayed (wire : StreamWire σ) (c : Connection σ) (account : List StreamEvent) : Prop :=
  ∃ gone, AllGone gone ∧
    account = .connected exchangeName ::
      ((c.opened.heard wire c.moves).map (.message exchangeName) ++ gone)

section Runs

variable {wire : StreamWire σ} {m m' : Moment σ} {moves : List (Move σ)} {phase : Phase}
  {said : List StreamEvent}

theorem Held.allGone (h : Held wire m moves phase said) (hphase : phase ≠ .live) :
    AllGone said := by
  cases h with
  | absent => exact allGone_nil
  | stale hgone => exact hgone
  | live _ => exact absurd rfl hphase

theorem Held.of_allGone (hphase : phase ≠ .live) (hgone : AllGone said)
    (habsent : phase = .absent → said = []) : Held wire m moves phase said := by
  cases phase with
  | absent =>
      rw [habsent rfl]
      exact .absent
  | live => exact absurd rfl hphase
  | stale => exact .stale hgone

theorem held_nil (wire : StreamWire σ) (m : Moment σ) (phase : Phase) :
    Held wire m [] phase [] := by
  cases phase with
  | absent => exact .absent
  | live =>
      have hlive : Held wire m [] .live ((m.heard wire []).map (.message exchangeName) ++ []) :=
        .live allGone_nil
      exact hlive
  | stale => exact .stale allGone_nil

/-- The reports of a run from any moment on: first the rest of what there is to be said of the
connection that is held, then one account for each connection that is opened. -/
theorem relayed_run (wire : StreamWire σ) (hcoherent : Coherent m.standing)
    (moves : List (Move σ)) :
    ∃ said accounts,
      (m.run wire moves).standing.events = m.standing.events ++ (said ++ accounts.flatten) ∧
      Held wire m moves m.standing.phase said ∧
      List.Forall₂ (Relayed wire) (connections wire m moves) accounts := by
  -- Forwards, for a connection is known by the moves that are still to come. What the first move
  -- reports goes in front of what is left to be said of the connection that is held.
  induction moves generalizing m with
  | nil => exact ⟨[], [], (List.append_nil _).symm, held_nil wire m _, .nil⟩
  | cons move moves ih =>
      have hcourse := course_after wire hcoherent move
      obtain ⟨said, accounts, hevents, hheld, hrelayed⟩ :=
        ih ((m.turn_after wire hcoherent move).coherent hcoherent)
      have hrun : m.run wire (move :: moves) = (m.after wire move).run wire moves := rfl
      have hlater : connections wire m (move :: moves) =
          if m.opens wire move then
            ⟨m.after wire move, moves⟩ :: connections wire (m.after wire move) moves
          else connections wire (m.after wire move) moves := rfl
      have hheard : m.heard wire (move :: moves) =
          if m.endsReading wire move then []
          else move.payload?.toList ++ (m.after wire move).heard wire moves := by
        rw [Moment.heard, Moment.reading]
        split
        · rfl
        · rw [List.filterMap_cons]
          cases move.payload? <;> rfl
      rw [hrun, hevents, hlater]
      generalize (m.after wire move).standing = after at hcourse hheld
      cases hcourse with
      | opens hopens hphase =>
          have haccount : Relayed wire ⟨m.after wire move, moves⟩
              (.connected exchangeName :: said) := by
            cases hheld with
            | live hgone => exact ⟨_, hgone, rfl⟩
          rw [if_pos hopens]
          refine ⟨[], (.connected exchangeName :: said) :: accounts, by simp, ?_,
            .cons haccount hrelayed⟩
          exact .of_allGone hphase allGone_nil fun _ => rfl
      | reads hopens hphase hends =>
          have hopens' : ¬ m.opens wire move = true := by simp [hopens]
          have hends' : ¬ m.endsReading wire move = true := by simp [hends]
          rw [if_neg hopens']
          refine ⟨_, accounts, by rw [List.append_assoc, ← List.append_assoc _ said], ?_, hrelayed⟩
          rw [if_neg hends'] at hheard
          rw [hphase]
          cases hheld with
          | live hgone =>
              have hlive : Held wire m (move :: moves) .live
                  ((m.heard wire (move :: moves)).map (.message exchangeName) ++ _) := .live hgone
              rwa [hheard, List.map_append, List.append_assoc] at hlive
      | ends reason hopens hphase hends hphase' =>
          have hopens' : ¬ m.opens wire move = true := by simp [hopens]
          rw [if_neg hopens']
          refine ⟨_, accounts, by rw [List.append_assoc, ← List.append_assoc _ said], ?_, hrelayed⟩
          rw [if_pos hends] at hheard
          rw [hphase]
          have hlive : Held wire m (move :: moves) .live
              ((m.heard wire (move :: moves)).map (.message exchangeName) ++ _) :=
            .live ((allGone_singleton reason).append (hheld.allGone hphase'))
          rwa [hheard] at hlive
      | idles hopens hphase hphase' hgone habsent =>
          have hopens' : ¬ m.opens wire move = true := by simp [hopens]
          rw [if_neg hopens']
          refine ⟨_, accounts, by rw [List.append_assoc, ← List.append_assoc _ said], ?_, hrelayed⟩
          refine .of_allGone hphase (hgone.append (hheld.allGone hphase')) fun hnone => ?_
          obtain ⟨rfl, rfl⟩ := habsent hnone
          cases hheld
          rfl

/-- The reports of a run are those of its connections, one connection after the other: that it is
there, then all texts and bytes that came in on it while it was read, each once and in this order,
and then nothing but that it is gone. Where every answer and every sign of life on it gets through,
a connection is read until one of the two ends closes it or reading fails. -/
theorem messages_of_connections (wire : StreamWire σ) (config : Config) (sink : Broadcast)
    (world : σ) (moves : List (Move σ)) :
    let start := Moment.start config sink world
    (∃ accounts,
      (start.run wire moves).stream.sink.sent = sink.sent ++ accounts.flatten ∧
      List.Forall₂ (Relayed wire) (connections wire start moves) accounts) ∧
    ∀ c ∈ connections wire start moves, c.opened.Answers wire (c.moves.takeWhile (!·.isEnd)) →
      c.opened.heard wire c.moves = (c.moves.takeWhile (!·.isEnd)).filterMap Move.payload? := by
  intro start
  have hcoherent : Coherent start.standing := coherent_run wire config sink world []
  refine ⟨?_, fun c _ hanswers => ?_⟩
  · obtain ⟨said, accounts, hevents, hheld, hrelayed⟩ := relayed_run wire hcoherent moves
    have hsaid : said = [] := by
      cases hheld
      rfl
    rw [hsaid, List.nil_append] at hevents
    exact ⟨accounts, hevents, hrelayed⟩
  · rw [Moment.heard, hanswers.reading_eq]

end Runs

/-- A run of two connections on which everything gets through; what comes in between them is
nobody's. -/
def twoConnections : List (Move Unit) :=
  [.publish, .connect, .receive (.text "one"), .receive (.ping []), .keepAlive,
    .receive (.binary [116, 119, 111]), .receive .ended, .receive (.text "late"), .connect,
    .receive (.text "three"), .close]

theorem messages_of_connections_two :
    (∀ (m : Moment Unit) moves, m.Answers takesAll moves) ∧
      ∃ gone gone', AllGone gone ∧ AllGone gone' ∧
        (Moment.run takesAll (.start .default .default ()) twoConnections).stream.sink.sent =
          (.connected "ftx" :: ([.message "ftx" "one", .message "ftx" "two"] ++ gone)) ++
            (.connected "ftx" :: ([.message "ftx" "three"] ++ gone')) := by
  have hanswers (m : Moment Unit) (moves : List (Move Unit)) : m.Answers takesAll moves := by
    intro before move after _
    simp [Moment.fallsMute, takesAll]
  refine ⟨hanswers, ?_⟩
  obtain ⟨⟨accounts, hsent, hrelayed⟩, hheard⟩ :=
    messages_of_connections takesAll .default .default () twoConnections
  have hbytes : Text.decodeLossy [116, 119, 111] = ['t', 'w', 'o'] := by cbv
  obtain ⟨c, c', htwo, hc, hc'⟩ : ∃ c c' : Connection Unit,
      connections takesAll (.start .default .default ()) twoConnections = [c, c'] ∧
      c.moves = twoConnections.drop 2 ∧ c'.moves = twoConnections.drop 9 :=
    ⟨_, _, rfl, rfl, rfl⟩
  rw [htwo] at hheard hrelayed
  have hfirst : c.opened.heard takesAll c.moves = ["one", "two"] := by
    rw [hheard c (.head _) (hanswers _ _), hc]
    show ["one", String.ofList (Text.decodeLossy [116, 119, 111])] = _
    rw [hbytes]
  have hsecond : c'.opened.heard takesAll c'.moves = ["three"] := by
    rw [hheard c' (.tail _ (.head _)) (hanswers _ _), hc']
    rfl
  obtain _ | ⟨⟨gone, hgone, rfl⟩, _ | ⟨⟨gone', hgone', rfl⟩, _ | _⟩⟩ := hrelayed
  rw [hfirst, hsecond, List.flatten_cons, List.flatten_cons, List.flatten_nil,
    List.append_nil] at hsent
  exact ⟨gone, gone', hgone, hgone', hsent⟩

/-- The other end asks for a sign of life, the answer cannot be sent, and the text that came in
right behind is lost, with no end of the connection between them. The stream's own signs of life
are no different. -/
theorem unsent_reply_silences :
    let up := Moment.run moody (.start .default .default none) [.publish, .connect]
    let moves (word : Move (Option String)) :=
      [.pass (some "broken pipe"), word, .receive (.text "late"), .receive .ended]
    up.stream.state = .connected ∧
      ∀ word ∈ [.receive (.ping []), .keepAlive],
        ((moves word).takeWhile (!·.isEnd)).filterMap Move.payload? = ["late"] ∧
        (up.run moody (moves word)).stream.sink.sent =
          [.connected "ftx", .disconnected "ftx" "broken pipe"] := by
  intro up moves
  refine ⟨rfl, ?_⟩
  rw [List.forall_mem_cons, List.forall_mem_singleton]
  exact ⟨⟨rfl, rfl⟩, ⟨rfl, rfl⟩⟩

end Tradebook.Ftx
