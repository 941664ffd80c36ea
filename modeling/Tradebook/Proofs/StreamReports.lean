import Mathlib
import Tradebook.Proofs.StreamStanding

/-!
# What a stream reports about its connection

A connection is reported when it is there and when it is gone. That it is gone is
reported by two: by the reader of the connection, if the stream took itself for connected up to
then, and by whoever closes the stream, if there is a connection to close. A connection that was
lost is still there to be closed, so a stream that is closed while its connection is
lost reports the same loss a second time.

`alternating_iff` says that this is the only way in which the reports get out of
step: they alternate, beginning with a connection that is there, exactly if the stream
was never closed on a lost connection. Even then only the last one is too much, for a closed stream
reports nothing more.
-/

namespace Tradebook.Ftx

variable {σ : Type}

/-- Now there, now gone, there first. -/
def Alternating (reports : List Mark) : Prop :=
  reports.IsChain (· ≠ ·) ∧ ∀ mark ∈ reports.head?, mark = .up

instance (reports : List Mark) : Decidable (Alternating reports) :=
  inferInstanceAs (Decidable (_ ∧ _))

theorem alternating_nil : Alternating [] :=
  ⟨.nil, nofun⟩

/-- What was said last tells what may be said next. -/
theorem alternating_concat (reports : List Mark) (mark : Mark) :
    Alternating (reports ++ [mark]) ↔
      Alternating reports ∧ (reports.getLast? = some .up ↔ mark = .down) := by
  rcases reports.eq_nil_or_concat with rfl | ⟨front, last, rfl⟩
  · cases mark <;> simp [Alternating]
  · rw [Alternating, Alternating, List.isChain_append]
    have hhead : (front.concat last ++ [mark]).head? = (front.concat last).head? := by
      cases front <;> rfl
    rw [hhead]
    cases last <;> cases mark <;> simp

/-- At some moment of the run the stream was closed while its connection was lost. -/
def ClosedLate (wire : StreamWire σ) (first : Moment σ) (moves : List (Move σ)) : Prop :=
  ∃ before after sent, moves = before ++ .close :: after ∧
    (first.run wire before).stream.link = .stale sent

theorem not_closedLate_nil (wire : StreamWire σ) (first : Moment σ) :
    ¬ ClosedLate wire first [] := by
  rintro ⟨before, after, sent, hmoves, -⟩
  simp at hmoves

theorem closedLate_concat (wire : StreamWire σ) (first : Moment σ) (moves : List (Move σ))
    (move : Move σ) :
    ClosedLate wire first (moves ++ [move]) ↔
      ClosedLate wire first moves ∨
        move = .close ∧ (first.run wire moves).standing.phase = .stale := by
  constructor
  · rintro ⟨before, after, sent, hmoves, hlink⟩
    rcases after.eq_nil_or_concat with rfl | ⟨front, last, rfl⟩
    · obtain ⟨rfl, hmove⟩ := List.append_inj' hmoves rfl
      exact Or.inr ⟨List.singleton_inj.1 hmove, (phase_stale_iff _).2 ⟨sent, hlink⟩⟩
    · rw [List.concat_eq_append, ← List.cons_append, ← List.append_assoc] at hmoves
      obtain ⟨rfl, -⟩ := List.append_inj' hmoves rfl
      exact Or.inl ⟨before, front, sent, rfl, hlink⟩
  · rintro (⟨before, after, sent, rfl, hlink⟩ | ⟨rfl, hphase⟩)
    · exact ⟨before, after ++ [move], sent, by simp, hlink⟩
    · obtain ⟨sent, hlink⟩ := (phase_stale_iff _).1 hphase
      exact ⟨moves, [], sent, rfl, hlink⟩

/-- What the reports of a stream, those after `old`, have to do with how it stands. -/
structure Told (old : List StreamEvent) (late : Prop) (s : Standing) (events : List StreamEvent) :
    Prop where
  sent : s.events = old ++ events
  last : (marks events).getLast? = some .up ↔ s.phase = .live
  alternating : Alternating (marks events) ↔ ¬ late
  most : Alternating (marks events).dropLast
  shut : late → s.state = .closed

section Turns

variable {old : List StreamEvent} {late : Prop} {move : Move σ} {s s' : Standing}
  {events : List StreamEvent}

/-- A stream that is not closed yet has reported nothing out of step, and one report more leaves
it at that if the other was said before. -/
theorem Told.report (h : Told old late s events) (hopen : s.state ≠ .closed) {event : StreamEvent}
    (mark : Mark) (hmark : markOf event = some mark)
    (hother : mark = .down ↔ s.phase = .live) {state : StreamState} {phase : Phase}
    (hphase : mark = .up ↔ phase = .live) :
    Told old late ⟨state, phase, s.events ++ [event]⟩ (events ++ [event]) := by
  have hnot : ¬ late := fun hlate => hopen (h.shut hlate)
  have hmarks : marks (events ++ [event]) = marks events ++ [mark] := by
    rw [marks_append]
    simp [marks, hmark]
  constructor
  case sent => rw [h.sent, List.append_assoc]
  case last =>
    rw [hmarks, List.getLast?_concat]
    simpa using hphase
  case alternating =>
    rw [hmarks, alternating_concat, h.alternating, h.last]
    simp [hnot, hother]
  case most =>
    rw [hmarks, List.dropLast_concat]
    exact h.alternating.2 hnot
  case shut => exact fun hlate => absurd hlate hnot

theorem Told.kept (h : Told old late s events) (hs : Coherent s) (hturn : Turn move s s')
    (hkept : ¬ (move = .close ∧ s.phase = .stale)) : ∃ events', Told old late s' events' := by
  cases hturn with
  | @stays _ _ _ earlier said _ hsaid =>
      have hsent : earlier = old ++ events := h.sent
      have hmarks : marks (events ++ said) = marks events := by
        rw [marks_append, hsaid, List.append_nil]
      refine ⟨events ++ said, ?_⟩
      rw [hsent, List.append_assoc]
      exact ⟨rfl, hmarks ▸ h.last, hmarks ▸ h.alternating, hmarks ▸ h.most, h.shut⟩
  | opens hidle =>
      obtain ⟨hphase, hopen⟩ := hs.idle hidle
      exact ⟨_, h.report hopen .up rfl (by simp [hphase]) (by simp)⟩
  | fails hidle =>
      obtain ⟨hphase, hopen⟩ := hs.idle hidle
      refine ⟨events, h.sent, ?_, h.alternating, h.most, fun hlate => absurd (h.shut hlate) hopen⟩
      rw [h.last]
      simp [hphase]
  | loses reason _ => exact ⟨_, h.report nofun .down rfl (by simp) (by simp)⟩
  | @closes state phase _ hheld =>
      have hphase : phase = .live := by
        cases phase with
        | absent => exact absurd rfl hheld
        | live => rfl
        | stale => exact absurd ⟨rfl, rfl⟩ hkept
      subst hphase
      have hopen : state ≠ .closed := by
        cases hs
        nofun
      exact ⟨_, h.report hopen .down rfl (by simp) (by simp)⟩

/-- The one report that is too much. -/
theorem Told.again (h : Told old late s events) (hs : Coherent s)
    (hturn : Turn (.close : Move σ) s s') (hphase : s.phase = .stale) :
    ∃ events', Told old True s' events' := by
  have hlast : (marks events).getLast? ≠ some .up := by
    rw [Ne, h.last, hphase]
    nofun
  cases hturn with
  | stays hclose _ =>
      rw [hclose rfl] at hphase
      cases hphase
  | loses _ hmove => exact absurd rfl hmove
  | @closes state phase earlier _ =>
      have hnot : ¬ late := by
        intro hlate
        have hclosed : state = .closed := h.shut hlate
        have hstale : phase = .stale := hphase
        rw [hclosed, hstale] at hs
        cases hs
      have hsent : earlier = old ++ events := h.sent
      have hmarks : marks (events ++ [.disconnected exchangeName "closed"]) =
          marks events ++ [.down] := marks_append _ _
      refine ⟨events ++ [.disconnected exchangeName "closed"], ?_⟩
      rw [hsent, List.append_assoc]
      constructor
      case sent => rfl
      case last =>
        rw [hmarks, List.getLast?_concat]
        simp
      case alternating =>
        rw [hmarks, alternating_concat]
        simp [hlast]
      case most =>
        rw [hmarks, List.dropLast_concat]
        exact h.alternating.2 hnot
      case shut => exact fun _ => rfl

theorem Told.turn (h : Told old late s events) (hs : Coherent s) (hturn : Turn move s s') :
    ∃ events', Told old (late ∨ move = .close ∧ s.phase = .stale) s' events' := by
  by_cases hlate : move = .close ∧ s.phase = .stale
  · rw [eq_true hlate, or_true]
    obtain ⟨rfl, hphase⟩ := hlate
    exact h.again hs hturn hphase
  · rw [eq_false hlate, or_false]
    exact h.kept hs hturn hlate

end Turns

theorem told_run (wire : StreamWire σ) (config : Config) (sink : Broadcast) (world : σ)
    (moves : List (Move σ)) :
    ∃ events, Told sink.sent (ClosedLate wire (.start config sink world) moves)
      (Moment.run wire (.start config sink world) moves).standing events := by
  induction moves using List.reverseRecOn with
  | nil =>
      have hnot := not_closedLate_nil wire (.start config sink world)
      exact ⟨[], (List.append_nil _).symm, iff_of_false nofun nofun,
        iff_of_true alternating_nil hnot, alternating_nil, fun hlate => absurd hlate hnot⟩
  | append_singleton moves move ih =>
      obtain ⟨events, h⟩ := ih
      have hcoherent := coherent_run wire config sink world moves
      obtain ⟨events', h'⟩ := h.turn hcoherent (Moment.turn_after wire hcoherent move)
      refine ⟨events', ?_⟩
      rw [Moment.run_concat, closedLate_concat]
      exact h'

/-- What a stream reports in any run alternates between a connection that is there and one that is
gone, the first being there, exactly if the stream was never closed on a lost
connection. Whatever happened, all reports but the last do. -/
theorem alternating_iff (wire : StreamWire σ) (config : Config) (sink : Broadcast) (world : σ)
    (moves : List (Move σ)) :
    ∃ events,
      (Moment.run wire (.start config sink world) moves).stream.sink.sent = sink.sent ++ events ∧
      (Alternating (marks events) ↔ ¬ ClosedLate wire (.start config sink world) moves) ∧
      Alternating (marks events).dropLast := by
  obtain ⟨events, h⟩ := told_run wire config sink world moves
  exact ⟨events, h.sent, h.alternating, h.most⟩

/-- The other end hangs up, the stream is closed, and the one connection is gone twice. -/
theorem lost_then_closed_twice_gone :
    let events := (Moment.run moody (.start .default .default none)
      [.publish, .connect, .receive .ended, .close]).stream.sink.sent
    events = [.connected "ftx", .disconnected "ftx" "stream ended", .disconnected "ftx" "closed"] ∧
      ¬ Alternating (marks events) :=
  ⟨rfl, by decide⟩

end Tradebook.Ftx
